import Mathlib.Data.List.Basic
import Mathlib.Data.List.TakeWhile
import Stylebook.Selector.Expansion

namespace Stylebook

namespace Selector

/-- A run of characters that no separator and no opening bracket interrupts. -/
structure IsWord (text : List Char) : Prop where
  nonempty : text ≠ []
  unbroken : ∀ c ∈ text, isSeparator c = false
  closed : '[' ∉ text

/-- The parts of a text in order, with separators between any two and perhaps at both ends. -/
inductive SetApart : List (List Char) → List Char → Prop
  | done {gap : List Char} (blank : ∀ c ∈ gap, isSeparator c = true) : SetApart [] gap
  | next {gap part rest : List Char} {parts : List (List Char)}
      (blank : ∀ c ∈ gap, isSeparator c = true) (ends : ∀ c ∈ rest.head?, isSeparator c = true)
      (more : SetApart parts rest) : SetApart (part :: parts) (gap ++ (part ++ rest))

/-- One expression and its paths: a plain path, or a parent with its children in brackets. -/
inductive Expression : List Char → List Path → Prop
  | plain {text : List Char} (word : IsWord text) : Expression text (Path.ofChars? text).toList
  | group {parent inner : List Char} {children : List (List Char)} (word : IsWord parent)
      (unopened : '[' ∉ inner) (unclosed : ']' ∉ inner) (apart : SetApart children inner)
      (words : ∀ child ∈ children, IsWord child) (some : children ≠ []) :
      Expression (parent ++ '[' :: (inner ++ [']']))
        (children.filterMap fun child => Path.ofChars? (parent ++ '.' :: child))

/-- A text is read as the paths of its expressions, in order. -/
def Reads (text : List Char) (paths : List Path) : Prop :=
  ∃ expressions : List (List Char × List Path),
    (∀ e ∈ expressions, Expression e.1 e.2) ∧ SetApart (expressions.map Prod.fst) text ∧
      paths = expressions.flatMap Prod.snd

end Selector

theorem unbroken_or_separated (text : List Char) :
    (∀ c ∈ text, isSeparator c = false) ∨
      ∃ lead c word, text = lead ++ c :: word ∧ isSeparator c = true ∧
        ∀ d ∈ word, isSeparator d = false := by
  induction text with
  | nil => exact .inl fun c hc => nomatch hc
  | cons d rest ih =>
    rcases ih with hrest | ⟨lead, c, word, rfl, hc, hword⟩
    · cases hd : isSeparator d with
      | true => exact .inr ⟨[], d, rest, rfl, hd, hrest⟩
      | false => exact .inl (List.forall_mem_cons.2 ⟨hd, hrest⟩)
    · exact .inr ⟨d :: lead, c, word, rfl, hc, hword⟩

theorem splitLastWord_unbroken {word : List Char} (h : ∀ c ∈ word, isSeparator c = false) :
    splitLastWord word = ([], word) := by
  have hall : ∀ c ∈ word.reverse, (!isSeparator c) = true := by
    intro c hc
    rw [h c (List.mem_reverse.1 hc)]
    rfl
  simp only [splitLastWord, List.dropWhile_eq_nil_iff.2 hall, List.takeWhile_eq_self_iff.2 hall,
    List.reverse_reverse, List.reverse_nil]

theorem splitLastWord_separated {word : List Char} (lead : List Char) {c : Char}
    (hc : isSeparator c = true) (h : ∀ d ∈ word, isSeparator d = false) :
    splitLastWord (lead ++ c :: word) = (lead ++ [c], word) := by
  have hall : ∀ d ∈ word.reverse, (!isSeparator d) = true := by
    intro d hd
    rw [h d (List.mem_reverse.1 hd)]
    rfl
  have hreverse : (lead ++ c :: word).reverse = word.reverse ++ c :: lead.reverse := by simp
  rw [splitLastWord, hreverse, List.dropWhile_append_of_pos hall, List.takeWhile_append_of_pos hall]
  simp [hc]

theorem splitLastWord_append_cons (a : List Char) {c : Char} (hc : isSeparator c = true)
    (b : List Char) :
    splitLastWord (a ++ c :: b) = (a ++ c :: (splitLastWord b).1, (splitLastWord b).2) := by
  rcases unbroken_or_separated b with hb | ⟨lead, d, word, rfl, hd, hword⟩
  · rw [splitLastWord_separated a hc hb, splitLastWord_unbroken hb]
  · have happend : a ++ c :: (lead ++ d :: word) = (a ++ c :: lead) ++ d :: word := by simp
    rw [happend, splitLastWord_separated _ hd hword, splitLastWord_separated lead hd hword]
    simp

/-- No bracket opens, or the first one is never closed, or it is and the text goes on behind. -/
inductive Bracketed : List Char → Prop
  | plain {text : List Char} (unopened : '[' ∉ text) : Bracketed text
  | unclosed {before tail : List Char} (unopened : '[' ∉ before) (unclosed : ']' ∉ tail) :
      Bracketed (before ++ '[' :: tail)
  | group {before inner rest : List Char} (unopened : '[' ∉ before) (unclosed : ']' ∉ inner)
      (more : Bracketed rest) : Bracketed (before ++ '[' :: (inner ++ ']' :: rest))

theorem bracketed (text : List Char) : Bracketed text := by
  induction hn : text.length using Nat.strongRecOn generalizing text with
  | ind n ih =>
    by_cases hopen : '[' ∈ text
    · obtain ⟨before, tail, rfl, hbefore⟩ := List.eq_append_cons_of_mem hopen
      by_cases hclose : ']' ∈ tail
      · obtain ⟨inner, rest, rfl, hinner⟩ := List.eq_append_cons_of_mem hclose
        have hlt : rest.length < n := by
          subst hn
          simp
          omega
        exact .group hbefore hinner (ih rest.length hlt rest rfl)
      · exact .unclosed hbefore hclose
    · exact .plain hopen

variable {text before inner tail rest : List Char}

theorem bne_of_notMem {c : Char} (h : c ∉ text) : ∀ d ∈ text, (d != c) = true := by
  intro d hd
  apply bne_iff_ne.2
  intro he
  exact h (he ▸ hd)

theorem dropWhile_until {c : Char} (h : c ∉ before) (rest : List Char) :
    (before ++ c :: rest).dropWhile (· != c) = c :: rest := by
  rw [List.dropWhile_append_of_pos (bne_of_notMem h), List.dropWhile_cons_of_neg (by simp)]

theorem takeWhile_until {c : Char} (h : c ∉ before) (rest : List Char) :
    (before ++ c :: rest).takeWhile (· != c) = before := by
  rw [List.takeWhile_append_of_pos (bne_of_notMem h), List.takeWhile_cons_of_neg (by simp),
    List.append_nil]

theorem dropWhile_missing {c : Char} (h : c ∉ text) : text.dropWhile (· != c) = [] :=
  List.dropWhile_eq_nil_iff.2 (bne_of_notMem h)

theorem spellOut_plain (h : '[' ∉ text) : spellOut text = text := by
  rw [spellOut]
  split
  · rfl
  · next heq =>
    rw [dropWhile_missing h] at heq
    cases heq

theorem spellOut_unclosed (hbefore : '[' ∉ before) (htail : ']' ∉ tail) :
    spellOut (before ++ '[' :: tail) = before ++ '[' :: tail := by
  rw [spellOut]
  split
  · rfl
  · next heq =>
    rw [dropWhile_until hbefore] at heq
    cases heq
    split
    · rfl
    · next heq =>
      rw [dropWhile_missing htail] at heq
      cases heq

theorem spellOut_group (hbefore : '[' ∉ before) (hinner : ']' ∉ inner) (rest : List Char) :
    spellOut (before ++ '[' :: (inner ++ ']' :: rest)) =
      spellGroup before inner rest ++ spellOut rest := by
  rw [spellOut]
  split
  · next heq =>
    rw [dropWhile_until hbefore] at heq
    cases heq
  · next heq =>
    rw [dropWhile_until hbefore] at heq
    cases heq
    split
    · next heq =>
      rw [dropWhile_until hinner] at heq
      cases heq
    · next heq =>
      rw [dropWhile_until hinner] at heq
      cases heq
      rw [takeWhile_until hbefore, takeWhile_until hinner]

/-- Every opening bracket is followed by a closing one. -/
def Closed : List Char → Prop
  | [] => True
  | c :: rest => (c = '[' → ']' ∈ rest) ∧ Closed rest

instance decidableClosed : ∀ text : List Char, Decidable (Closed text)
  | [] => inferInstanceAs (Decidable True)
  | c :: rest =>
    have := decidableClosed rest
    inferInstanceAs (Decidable ((c = '[' → ']' ∈ rest) ∧ Closed rest))

theorem closed_of_notMem (h : '[' ∉ text) : Closed text := by
  induction text with
  | nil => trivial
  | cons c rest ih =>
    refine ⟨?_, ih fun hmem => h (List.mem_cons_of_mem _ hmem)⟩
    intro hc
    exact absurd (hc ▸ List.mem_cons_self) h

theorem closed_concat (text : List Char) : Closed (text ++ [']']) := by
  induction text with
  | nil => exact ⟨fun h => absurd h (by decide), trivial⟩
  | cons c rest ih => exact ⟨fun _ => by simp, ih⟩

theorem Closed.of_append (h : Closed (before ++ rest)) : Closed rest := by
  induction before with
  | nil => exact h
  | cons c before ih => exact ih h.2

theorem spellGroup_append_cons (a : List Char) {c : Char} (hc : isSeparator c = true)
    (before inner rest : List Char) :
    spellGroup (a ++ c :: before) inner rest = a ++ c :: spellGroup before inner rest := by
  simp only [spellGroup, splitLastWord_append_cons a hc]
  split <;> simp

theorem isAttached_append_cons (rest : List Char) {c : Char} (hc : isSeparator c = true)
    (b : List Char) : isAttached (rest ++ c :: b) = isAttached rest := by
  cases rest with
  | nil => simp [isAttached, hc]
  | cons d rest => rfl

theorem bracket_ne_of_isSeparator {c : Char} (hc : isSeparator c = true) : '[' ≠ c := by
  rintro rfl
  exact absurd hc (by decide)

theorem closing_ne_of_isSeparator {c : Char} (hc : isSeparator c = true) : ']' ≠ c := by
  rintro rfl
  exact absurd hc (by decide)

theorem spellOut_unclosable (h : ']' ∉ text) : spellOut text = text := by
  cases bracketed text with
  | plain unopened => exact spellOut_plain unopened
  | unclosed unopened unclosed => exact spellOut_unclosed unopened unclosed
  | group unopened unclosed more => exact absurd (by simp) h

/-- Nothing is spelled out across a separator, unless a bracket open at it is closed later. -/
theorem spellOut_append_cons {a b : List Char} {c : Char} (hc : isSeparator c = true)
    (h : Closed a ∨ ']' ∉ b) : spellOut (a ++ c :: b) = spellOut a ++ c :: spellOut b := by
  induction bracketed a with
  | @plain a ha =>
    have hne := bracket_ne_of_isSeparator hc
    have hunopened : ∀ {before}, '[' ∉ before → '[' ∉ a ++ c :: before := by
      intro before hbefore
      simp [ha, hne, hbefore]
    rw [spellOut_plain ha]
    cases bracketed b with
    | plain hb => rw [spellOut_plain hb, spellOut_plain (hunopened hb)]
    | @unclosed before tail hb htail =>
      have happend : a ++ c :: (before ++ '[' :: tail) = (a ++ c :: before) ++ '[' :: tail := by
        simp
      rw [spellOut_unclosed hb htail, happend, spellOut_unclosed (hunopened hb) htail]
    | @group before inner rest hb hinner more =>
      have happend : a ++ c :: (before ++ '[' :: (inner ++ ']' :: rest)) =
          (a ++ c :: before) ++ '[' :: (inner ++ ']' :: rest) := by simp
      rw [spellOut_group hb hinner, happend, spellOut_group (hunopened hb) hinner,
        spellGroup_append_cons a hc]
      simp
  | @unclosed before tail ha htail =>
    have hb : ']' ∉ b := h.resolve_left fun hclosed => htail (hclosed.of_append.1 rfl)
    have hopen : ']' ∉ tail ++ c :: b := by
      simp [htail, hb, closing_ne_of_isSeparator hc]
    have happend : (before ++ '[' :: tail) ++ c :: b = before ++ '[' :: (tail ++ c :: b) := by simp
    rw [spellOut_unclosed ha htail, spellOut_unclosable hb, happend, spellOut_unclosed ha hopen]
  | @group before inner rest ha hinner more ih =>
    have hrest : Closed rest ∨ ']' ∉ b := by
      apply h.imp_left
      intro hclosed
      have hinside : Closed (inner ++ ']' :: rest) := hclosed.of_append.2
      exact hinside.of_append.2
    have happend : (before ++ '[' :: (inner ++ ']' :: rest)) ++ c :: b =
        before ++ '[' :: (inner ++ ']' :: (rest ++ c :: b)) := by simp
    have hgroup : spellGroup before inner (rest ++ c :: b) = spellGroup before inner rest := by
      rw [spellGroup, spellGroup, isAttached_append_cons rest hc]
    rw [happend, spellOut_group ha hinner, spellOut_group ha hinner, hgroup, ih hrest]
    simp

theorem expandChars_append_cons {a b : List Char} {c : Char} (hc : isSeparator c = true)
    (h : Closed a ∨ ']' ∉ b) : expandChars (a ++ c :: b) = expandChars a ++ expandChars b := by
  rw [expandChars, spellOut_append_cons hc h, words_append_cons _ _ hc, List.filterMap_append]
  rfl

theorem expandChars_plain (h : '[' ∉ text) :
    expandChars text = (words isSeparator text).filterMap Path.ofChars? := by
  rw [expandChars, spellOut_plain h]

theorem expandChars_blank_append {gap : List Char} (h : ∀ c ∈ gap, isSeparator c = true)
    (text : List Char) : expandChars (gap ++ text) = expandChars text := by
  induction gap with
  | nil => rfl
  | cons c gap ih =>
    have hc : isSeparator c = true := h c List.mem_cons_self
    have hclosed : Closed [] := trivial
    have hnil : expandChars [] = [] := expandChars_plain List.not_mem_nil
    have hfirst := expandChars_append_cons (b := gap ++ text) hc (.inl hclosed)
    rw [hnil] at hfirst
    exact hfirst.trans (ih fun d hd => h d (List.mem_cons_of_mem _ hd))

namespace Selector

theorem SetApart.expandChars_eq {parts : List (List Char)} (h : SetApart parts text)
    (hclosed : ∀ part ∈ parts, Closed part) : expandChars text = parts.flatMap expandChars := by
  induction h with
  | @done gap blank =>
    have hgap := expandChars_blank_append blank []
    rw [List.append_nil] at hgap
    exact hgap.trans (expandChars_plain List.not_mem_nil)
  | @next gap part rest parts blank ends more ih =>
    have hpart := hclosed part List.mem_cons_self
    have hrest := ih fun other hmem => hclosed other (List.mem_cons_of_mem _ hmem)
    rw [expandChars_blank_append blank, List.flatMap_cons, ← hrest]
    cases rest with
    | nil => simp [expandChars_plain]
    | cons c rest =>
      have hc : isSeparator c = true := ends c rfl
      have hblank : ∀ d ∈ [c], isSeparator d = true := by simpa using hc
      have hskip : expandChars (c :: rest) = expandChars rest :=
        expandChars_blank_append hblank rest
      rw [expandChars_append_cons hc (.inl hpart), hskip]

theorem SetApart.words_eq {parts : List (List Char)} (h : SetApart parts text)
    (hwords : ∀ part ∈ parts, IsWord part) : words isSeparator text = parts := by
  induction h with
  | @done gap blank =>
    have hgap := words_append_of_cut blank []
    rwa [List.append_nil] at hgap
  | @next gap part rest parts blank ends more ih =>
    have hpart := hwords part List.mem_cons_self
    have hrest := ih fun other hmem => hwords other (List.mem_cons_of_mem _ hmem)
    rw [words_append_of_cut blank, words_append_of_uncut hpart.nonempty hpart.unbroken ends, hrest]

theorem words_spellChildren {parent : List Char} (hparent : IsWord parent)
    {children : List (List Char)} (hchildren : ∀ child ∈ children, IsWord child) :
    words isSeparator (spellChildren parent children) =
      children.map fun child => parent ++ '.' :: child := by
  induction children with
  | nil => rfl
  | cons child rest ih =>
    have hchild := hchildren child List.mem_cons_self
    have hrest := ih fun other hmem => hchildren other (List.mem_cons_of_mem _ hmem)
    have hunfold : spellChildren parent (child :: rest) =
        ' ' :: ((parent ++ '.' :: child) ++ spellChildren parent rest) := by simp [spellChildren]
    have hunbroken : ∀ c ∈ parent ++ '.' :: child, isSeparator c = false := by
      intro c hc
      rcases List.mem_append.1 hc with hc | hc
      · exact hparent.unbroken c hc
      · rcases List.mem_cons.1 hc with rfl | hc
        · decide
        · exact hchild.unbroken c hc
    have hends : ∀ c ∈ (spellChildren parent rest).head?, isSeparator c = true := by
      intro c hc
      cases rest with
      | nil => cases hc; decide
      | cons other rest => cases hc; decide
    rw [hunfold, words_cons_cut _ (by decide), words_append_of_uncut (by simp) hunbroken hends,
      hrest, List.map_cons]

variable {paths : List Path}

theorem Expression.closed (h : Expression text paths) : Closed text := by
  cases h with
  | plain word => exact closed_of_notMem word.closed
  | @group parent inner children word unopened unclosed apart words some =>
    have happend : parent ++ '[' :: (inner ++ [']']) = (parent ++ '[' :: inner) ++ [']'] := by simp
    rw [happend]
    exact closed_concat _

theorem Expression.expandChars_eq (h : Expression text paths) : expandChars text = paths := by
  cases h with
  | plain word =>
    rw [expandChars_plain word.closed, words_of_uncut word.nonempty word.unbroken]
    cases hp : Path.ofChars? text <;> simp [hp]
  | @group parent inner children word unopened unclosed apart words some =>
    have hspell : spellOut (parent ++ '[' :: (inner ++ [']'])) = spellChildren parent children := by
      rw [spellOut_group word.closed unclosed, spellOut_plain List.not_mem_nil, spellGroup,
        splitLastWord_unbroken word.unbroken, apart.words_eq words]
      simp [word.nonempty, unopened, some, isAttached]
    rw [expandChars, hspell, words_spellChildren word words, List.filterMap_map]
    rfl

theorem Reads.expandChars_eq (h : Reads text paths) : expandChars text = paths := by
  obtain ⟨expressions, hexpressions, hapart, rfl⟩ := h
  have hclosed : ∀ part ∈ expressions.map Prod.fst, Closed part := by
    intro part hpart
    obtain ⟨e, he, rfl⟩ := List.mem_map.1 hpart
    exact (hexpressions e he).closed
  rw [hapart.expandChars_eq hclosed, List.flatMap_map]
  apply List.flatMap_congr
  intro e he
  exact (hexpressions e he).expandChars_eq

theorem SetApart.blank_append {parts : List (List Char)} {gap : List Char}
    (h : SetApart parts text) (hgap : ∀ c ∈ gap, isSeparator c = true) :
    SetApart parts (gap ++ text) := by
  have hblank : ∀ {own : List Char}, (∀ c ∈ own, isSeparator c = true) →
      ∀ c ∈ gap ++ own, isSeparator c = true := by
    intro own hown
    exact List.forall_mem_append.2 ⟨hgap, hown⟩
  cases h with
  | done blank => exact .done (hblank blank)
  | next blank ends more =>
    rw [← List.append_assoc]
    exact .next (hblank blank) ends more

theorem SetApart.append {parts parts' : List (List Char)} {a b : List Char} {c : Char}
    (h : SetApart parts a) (hc : isSeparator c = true) (h' : SetApart parts' b) :
    SetApart (parts ++ parts') (a ++ c :: b) := by
  induction h with
  | @done gap blank =>
    have hgap : ∀ d ∈ gap ++ [c], isSeparator d = true :=
      List.forall_mem_append.2 ⟨blank, List.forall_mem_singleton.2 hc⟩
    have hafter := h'.blank_append hgap
    rw [List.append_assoc] at hafter
    exact hafter
  | @next gap part rest parts blank ends more ih =>
    have happend : gap ++ (part ++ rest) ++ c :: b = gap ++ (part ++ (rest ++ c :: b)) := by simp
    have hends : ∀ d ∈ (rest ++ c :: b).head?, isSeparator d = true := by
      intro d hd
      cases rest with
      | nil => cases hd; exact hc
      | cons e rest => exact ends d hd
    rw [happend]
    exact .next blank hends ih

theorem setApart_unbroken (h : ∀ c ∈ text, isSeparator c = false) :
    SetApart (words isSeparator text) text := by
  cases text with
  | nil => exact .done fun c hc => nomatch hc
  | cons c rest =>
    have hpart : SetApart [c :: rest] ([] ++ ((c :: rest) ++ [])) :=
      .next (fun d hd => nomatch hd) (fun d hd => nomatch hd) (.done fun d hd => nomatch hd)
    rw [words_of_uncut (List.cons_ne_nil c rest) h]
    rwa [List.append_nil] at hpart

theorem setApart_words (text : List Char) : SetApart (words isSeparator text) text := by
  induction hn : text.length using Nat.strongRecOn generalizing text with
  | ind n ih =>
    rcases unbroken_or_separated text with h | ⟨lead, c, word, rfl, hc, hword⟩
    · exact setApart_unbroken h
    · have hlt : lead.length < n := by
        rw [← hn, List.length_append, List.length_cons]
        omega
      rw [words_append_cons isSeparator lead hc]
      exact (ih lead.length hlt lead rfl).append hc (setApart_unbroken hword)

theorem Reads.cons {expression : List Char} {own : List Path} (h : Expression expression own)
    (hends : isAttached rest = false) (hrest : Reads rest paths) :
    Reads (expression ++ rest) (own ++ paths) := by
  obtain ⟨expressions, hexpressions, hapart, rfl⟩ := hrest
  refine ⟨(expression, own) :: expressions, List.forall_mem_cons.2 ⟨h, hexpressions⟩, ?_, rfl⟩
  have hhead : ∀ c ∈ rest.head?, isSeparator c = true := by
    intro c hc
    cases rest with
    | nil => cases hc
    | cons d rest =>
      cases hc
      simpa [isAttached] using hends
  have hblank : ∀ c ∈ ([] : List Char), isSeparator c = true := fun c hc => nomatch hc
  exact SetApart.next hblank hhead hapart

theorem Reads.append {a b : List Char} {below above : List Path} {c : Char} (h : Reads a below)
    (hc : isSeparator c = true) (h' : Reads b above) : Reads (a ++ c :: b) (below ++ above) := by
  obtain ⟨expressions, hexpressions, hapart, rfl⟩ := h
  obtain ⟨expressions', hexpressions', hapart', rfl⟩ := h'
  have hall := List.forall_mem_append.2 ⟨hexpressions, hexpressions'⟩
  refine ⟨expressions ++ expressions', hall, ?_, ?_⟩
  · rw [List.map_append]
    exact hapart.append hc hapart'
  · rw [List.flatMap_append]

theorem isWord_of_mem_words (h : '[' ∉ text) {word : List Char}
    (hword : word ∈ words isSeparator text) : IsWord word where
  nonempty := ne_nil_of_mem_words hword
  unbroken := fun _ hc => (exists_mem_words.1 ⟨word, hword, hc⟩).2
  closed := fun hc => h (exists_mem_words.1 ⟨word, hword, hc⟩).1

theorem exists_reads_plain (h : '[' ∉ text) : ∃ paths, Reads text paths := by
  refine ⟨_, (words isSeparator text).map fun word => (word, (Path.ofChars? word).toList),
    ?_, ?_, rfl⟩
  · intro e he
    obtain ⟨word, hword, rfl⟩ := List.mem_map.1 he
    exact .plain (isWord_of_mem_words h hword)
  · rw [List.map_map]
    have hid : (words isSeparator text).map (Prod.fst ∘ fun word =>
        (word, (Path.ofChars? word).toList)) = words isSeparator text := List.map_id _
    rw [hid]
    exact setApart_words text

theorem spelled_of_notMem (h : '[' ∉ spellGroup before inner rest) :
    (splitLastWord before).2 ≠ [] ∧ isAttached rest = false ∧ '[' ∉ inner ∧
      words isSeparator inner ≠ [] := by
  rw [spellGroup] at h
  dsimp only at h
  split at h
  · exact absurd (List.mem_append_right _ List.mem_cons_self) h
  · next hspelled => simpa [and_assoc] using hspelled

theorem exists_reads_group {parent : List Char} (hparent : IsWord parent) (hunclosed : ']' ∉ inner)
    (hunopened : '[' ∉ inner) (hsome : words isSeparator inner ≠ [])
    (hends : isAttached rest = false) (hrest : Reads rest paths) :
    ∃ paths, Reads (parent ++ '[' :: (inner ++ ']' :: rest)) paths := by
  have hwords : ∀ child ∈ words isSeparator inner, IsWord child :=
    fun child hchild => isWord_of_mem_words hunopened hchild
  have hgroup := Expression.group hparent hunopened hunclosed (setApart_words inner) hwords hsome
  have happend : parent ++ '[' :: (inner ++ ']' :: rest) =
      (parent ++ '[' :: (inner ++ [']'])) ++ rest := by simp
  rw [happend]
  exact ⟨_, Reads.cons hgroup hends hrest⟩

theorem exists_reads (h : '[' ∉ spellOut text) : ∃ paths, Reads text paths := by
  induction bracketed text with
  | plain unopened => exact exists_reads_plain unopened
  | unclosed unopened unclosed =>
    rw [spellOut_unclosed unopened unclosed] at h
    exact absurd (List.mem_append_right _ List.mem_cons_self) h
  | @group before inner rest unopened unclosed more ih =>
    rw [spellOut_group unopened unclosed, List.mem_append, not_or] at h
    obtain ⟨paths, hrest⟩ := ih h.2
    obtain ⟨hne, hends, hinner, hsome⟩ := spelled_of_notMem h.1
    rcases unbroken_or_separated before with hword | ⟨lead, c, parent, rfl, hc, hword⟩
    · rw [splitLastWord_unbroken hword] at hne
      exact exists_reads_group ⟨hne, hword, unopened⟩ unclosed hinner hsome hends hrest
    · -- what stands before the parent is a text of its own, up to the separator
      rw [splitLastWord_separated lead hc hword] at hne
      rw [List.mem_append, not_or, List.mem_cons, not_or] at unopened
      obtain ⟨hlead, _, hparent⟩ := unopened
      obtain ⟨below, hbelow⟩ := exists_reads_plain hlead
      obtain ⟨above, habove⟩ :=
        exists_reads_group ⟨hne, hword, hparent⟩ unclosed hinner hsome hends hrest
      rw [List.append_assoc, List.cons_append]
      exact ⟨_, hbelow.append hc habove⟩

theorem Expression.bracketless (h : Expression text paths) {path : Path} (hpath : path ∈ paths)
    {segment : String} (hsegment : segment ∈ path.segments) : '[' ∉ segment.toList := by
  intro hc
  cases h with
  | plain word =>
    have hp : Path.ofChars? text = some path := Option.mem_toList.1 hpath
    exact word.closed (Path.mem_of_ofChars? hp hsegment hc)
  | @group parent inner children word unopened unclosed apart words some =>
    obtain ⟨child, hchild, hp⟩ := List.mem_filterMap.1 hpath
    have hmem : '[' ∈ parent ++ '.' :: child := Path.mem_of_ofChars? hp hsegment hc
    rcases List.mem_append.1 hmem with hmem | hmem
    · exact word.closed hmem
    · rcases List.mem_cons.1 hmem with hpoint | hmem
      · exact absurd hpoint (by decide)
      · exact (words child hchild).closed hmem

theorem Reads.bracketless (h : Reads text paths) {path : Path} (hpath : path ∈ paths)
    {segment : String} (hsegment : segment ∈ path.segments) : '[' ∉ segment.toList := by
  obtain ⟨expressions, hexpressions, _, rfl⟩ := h
  obtain ⟨e, he, hpath⟩ := List.mem_flatMap.1 hpath
  exact (hexpressions e he).bracketless hpath hsegment

theorem exists_bracket_of_unread (h : ¬ ∃ paths, Reads text paths) :
    ∃ path ∈ expandChars text, ∃ segment ∈ path.segments, '[' ∈ segment.toList := by
  have hmem : '[' ∈ spellOut text := Decidable.byContradiction fun hnone => h (exists_reads hnone)
  have hseparator : isSeparator '[' = false := by decide
  obtain ⟨word, hword, hbracket⟩ := exists_mem_words.2 ⟨hmem, hseparator⟩
  obtain ⟨path, hpath, segment, hsegment, hc⟩ := Path.exists_of_mem hbracket (by decide)
  exact ⟨path, List.mem_filterMap.2 ⟨word, hword, hpath⟩, segment, hsegment, hc⟩

end Selector

end Stylebook
