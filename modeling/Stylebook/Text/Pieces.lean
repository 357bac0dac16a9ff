namespace Stylebook

/-- The runs between the cut characters, the empty ones included. -/
def pieces (cut : Char → Bool) : List Char → List (List Char)
  | [] => [[]]
  | c :: rest =>
    if cut c then [] :: pieces cut rest
    else (pieces cut rest).modifyHead (c :: ·)

/-- The maximal non-empty runs without a cut character. -/
def words (cut : Char → Bool) (text : List Char) : List (List Char) :=
  (pieces cut text).filter fun piece => !piece.isEmpty

@[simp] theorem words_nil (cut : Char → Bool) : words cut [] = [] := rfl

theorem pieces_ne_nil (cut : Char → Bool) (text : List Char) : pieces cut text ≠ [] := by
  induction text with
  | nil => simp [pieces]
  | cons c rest ih =>
    rw [pieces]
    split
    · simp
    · cases h : pieces cut rest with
      | nil => exact absurd h ih
      | cons p ps => simp

theorem pieces_append_cons (cut : Char → Bool) (a : List Char) {c : Char} (hc : cut c = true)
    (b : List Char) : pieces cut (a ++ c :: b) = pieces cut a ++ pieces cut b := by
  induction a with
  | nil => simp [pieces, hc]
  | cons d rest ih =>
    rw [List.cons_append, pieces, pieces, ih]
    split
    · rfl
    · cases h : pieces cut rest with
      | nil => exact absurd h (pieces_ne_nil cut rest)
      | cons p ps => rfl

theorem words_append_cons (cut : Char → Bool) (a : List Char) {c : Char} (hc : cut c = true)
    (b : List Char) : words cut (a ++ c :: b) = words cut a ++ words cut b := by
  simp [words, pieces_append_cons cut a hc b]

theorem words_cons_cut (cut : Char → Bool) {c : Char} (hc : cut c = true) (text : List Char) :
    words cut (c :: text) = words cut text :=
  words_append_cons cut [] hc text

theorem words_append_of_cut {cut : Char → Bool} {gap : List Char} (h : ∀ c ∈ gap, cut c = true)
    (text : List Char) : words cut (gap ++ text) = words cut text := by
  induction gap with
  | nil => rfl
  | cons c gap ih =>
    rw [List.cons_append, words_cons_cut cut (h c List.mem_cons_self)]
    exact ih fun d hd => h d (List.mem_cons_of_mem _ hd)

theorem words_of_uncut {cut : Char → Bool} {text : List Char} (hne : text ≠ [])
    (huncut : ∀ c ∈ text, cut c = false) : words cut text = [text] := by
  have hpieces : pieces cut text = [text] := by
    clear hne
    induction text with
    | nil => rfl
    | cons c rest ih =>
      have hc : ¬ cut c = true := by simp [huncut c List.mem_cons_self]
      rw [pieces, if_neg hc, ih fun d hd => huncut d (List.mem_cons_of_mem _ hd)]
      rfl
  rw [words, hpieces]
  cases text with
  | nil => exact absurd rfl hne
  | cons c rest => rfl

theorem words_append_of_uncut {cut : Char → Bool} {text rest : List Char} (hne : text ≠ [])
    (huncut : ∀ c ∈ text, cut c = false) (hrest : ∀ c ∈ rest.head?, cut c = true) :
    words cut (text ++ rest) = text :: words cut rest := by
  cases rest with
  | nil => rw [List.append_nil, words_of_uncut hne huncut, words_nil]
  | cons c rest =>
    have hc : cut c = true := hrest c rfl
    rw [words_append_cons cut text hc, words_of_uncut hne huncut, words_cons_cut cut hc]
    rfl

theorem flatten_pieces (cut : Char → Bool) (text : List Char) :
    (pieces cut text).flatten = text.filter fun c => !cut c := by
  induction text with
  | nil => rfl
  | cons c rest ih =>
    rw [pieces]
    by_cases hc : cut c = true
    · rw [if_pos hc, List.flatten_cons, List.nil_append, ih, List.filter_cons_of_neg (by simp [hc])]
    · rw [if_neg hc, List.filter_cons_of_pos (by simp [hc]), ← ih]
      cases hp : pieces cut rest with
      | nil => exact absurd hp (pieces_ne_nil cut rest)
      | cons first others => rfl

theorem flatten_words (cut : Char → Bool) (text : List Char) :
    (words cut text).flatten = text.filter fun c => !cut c := by
  rw [words, List.flatten_filter_not_isEmpty, flatten_pieces]

theorem exists_mem_words {cut : Char → Bool} {text : List Char} {c : Char} :
    (∃ word ∈ words cut text, c ∈ word) ↔ c ∈ text ∧ cut c = false := by
  rw [← List.mem_flatten, flatten_words, List.mem_filter, Bool.not_eq_true']

theorem ne_nil_of_mem_words {cut : Char → Bool} {text word : List Char}
    (h : word ∈ words cut text) : word ≠ [] := by
  obtain ⟨_, hne⟩ := List.mem_filter.1 h
  intro he
  rw [he] at hne
  cases hne

end Stylebook
