import Stylebook.Value

namespace Stylebook.Dict

universe u

variable {α : Type u} {d e : Dict α} {dicts sources : List (Dict α)} {key : String} {value : α}

/-- The last of the dictionaries that has the key has this value under it. -/
def LastGives (dicts : List (Dict α)) (key : String) (value : α) : Prop :=
  ∃ before dict after, dicts = before ++ dict :: after ∧ dict.get? key = some value ∧
    ∀ later ∈ after, key ∉ later.keys

theorem not_lastGives_nil : ¬ LastGives ([] : List (Dict α)) key value := by
  rintro ⟨before, dict, after, hsplit, _⟩
  cases before <;> cases hsplit

theorem lastGives_cons_iff :
    LastGives (d :: dicts) key value ↔
      LastGives dicts key value ∨
        (d.get? key = some value ∧ ∀ later ∈ dicts, key ∉ later.keys) := by
  constructor
  · rintro ⟨before, dict, after, hsplit, hvalue, hlater⟩
    cases before with
    | nil =>
      cases hsplit
      exact .inr ⟨hvalue, hlater⟩
    | cons first others =>
      cases hsplit
      exact .inl ⟨others, dict, after, rfl, hvalue, hlater⟩
  · rintro (⟨before, dict, after, rfl, hvalue, hlater⟩ | ⟨hvalue, hlater⟩)
    · exact ⟨d :: before, dict, after, rfl, hvalue, hlater⟩
    · exact ⟨[], d, dicts, rfl, hvalue, hlater⟩

theorem mem_keys_merge : key ∈ (d.merge e).keys ↔ key ∈ d.keys ∨ key ∈ e.keys := by
  rw [mem_keys_iff, mem_keys_iff, mem_keys_iff, get?_merge]
  cases e.get? key with
  | none => simp
  | some value => simp

theorem mem_keys_foldl_merge :
    key ∈ (sources.foldl merge d).keys ↔ ∃ dict ∈ d :: sources, key ∈ dict.keys := by
  induction sources generalizing d with
  | nil => simp
  | cons source rest ih => simp [ih, mem_keys_merge, or_assoc]

theorem get?_foldl_merge_iff :
    (sources.foldl merge d).get? key = some value ↔ LastGives (d :: sources) key value := by
  induction sources generalizing d with
  | nil => simp [lastGives_cons_iff, not_lastGives_nil]
  | cons source rest ih =>
    have hmerge : (d.merge source).get? key = some value ↔
        source.get? key = some value ∨ (key ∉ source.keys ∧ d.get? key = some value) := by
      rw [get?_merge, Option.or_eq_some_iff, notMem_keys_iff]
    rw [List.foldl_cons, ih, lastGives_cons_iff, lastGives_cons_iff, lastGives_cons_iff, hmerge,
      List.forall_mem_cons]
    grind

theorem merge_swap_iff (d first second after : Dict α) :
    ((d.merge first).merge second).merge after = ((d.merge second).merge first).merge after ↔
      ∀ key a b, first.get? key = some a → second.get? key = some b → key ∉ after.keys → a = b := by
  rw [Dict.ext_iff]
  apply forall_congr'
  intro key
  simp only [get?_merge, notMem_keys_iff]
  cases after.get? key with
  | some value => simp
  | none =>
    cases first.get? key with
    | none => simp
    | some a =>
      cases second.get? key with
      | none => simp
      | some b => simp [eq_comm]

theorem foldl_merge_swap_iff (d : Dict α) (before : List (Dict α)) (first second : Dict α)
    (after : List (Dict α)) :
    (before ++ first :: second :: after).foldl merge d =
        (before ++ second :: first :: after).foldl merge d ↔
      ∀ key a b, first.get? key = some a → second.get? key = some b →
        (∀ later ∈ after, key ∉ later.keys) → a = b := by
  have hafter : ∀ key, key ∉ (after.foldl merge ∅).keys ↔ ∀ later ∈ after, key ∉ later.keys := by
    intro key
    have hempty : key ∉ (∅ : Dict α).keys := List.not_mem_nil
    simp [mem_keys_foldl_merge, hempty]
  simp only [List.foldl_append, List.foldl_cons]
  rw [foldl_merge (((before.foldl merge d).merge first).merge second),
    foldl_merge (((before.foldl merge d).merge second).merge first), merge_swap_iff]
  simp only [hafter]

/-- Merging is a union in which the later entry wins, with the laws and swaps of such a union. -/
theorem merge_is_right_biased_union :
    (∀ (target : Dict α) (sources : List (Dict α)),
      (sources.foldl merge target).keys.Nodup ∧
      (∀ key, key ∈ (sources.foldl merge target).keys ↔
        ∃ dict ∈ target :: sources, key ∈ dict.keys) ∧
      ∀ key value, (sources.foldl merge target).get? key = some value ↔
        LastGives (target :: sources) key value) ∧
    (∀ d e f : Dict α, (d.merge e).merge f = d.merge (e.merge f)) ∧
    (∀ d : Dict α, d.merge ∅ = d ∧ (∅ : Dict α).merge d = d) ∧
    (∀ d e : Dict α, (d.merge e).merge e = d.merge e) ∧
    ∀ (target : Dict α) (before : List (Dict α)) (first second : Dict α) (after : List (Dict α)),
      (before ++ first :: second :: after).foldl merge target =
          (before ++ second :: first :: after).foldl merge target ↔
        ∀ key a b, first.get? key = some a → second.get? key = some b →
          (∀ later ∈ after, key ∉ later.keys) → a = b := by
  refine ⟨?_, merge_assoc, ?_, ?_, foldl_merge_swap_iff⟩
  · intro target sources
    exact ⟨nodup_keys _, fun key => mem_keys_foldl_merge, fun key value => get?_foldl_merge_iff⟩
  · intro d
    exact ⟨merge_empty d, empty_merge d⟩
  · intro d e
    rw [merge_assoc, merge_self]

def plainBox : Attributes :=
  ofList [("border", .object [("top", .integer 1)]), ("width", .integer 1)]

def wide : Attributes := singleton "width" (.integer 2)

def framed : Attributes :=
  ofList [("border", .object [("left", .integer 2)]), ("width", .integer 3)]

def narrow : Attributes := singleton "width" (.integer 0)

/-- A border is replaced as a whole. The two widths can change places as soon as a third follows. -/
theorem border_replaced_whole_and_widths_swapped :
    ([wide, framed].foldl merge plainBox).get? "border" = some (.object [("left", .integer 2)]) ∧
    [wide, framed, narrow].foldl merge plainBox = [framed, wide, narrow].foldl merge plainBox ∧
    [wide, framed].foldl merge plainBox ≠ [framed, wide].foldl merge plainBox := by
  obtain ⟨hunion, _, _, _, hswap⟩ := @merge_is_right_biased_union Value
  refine ⟨?_, ?_, ?_⟩
  · apply ((hunion plainBox [wide, framed]).2.2 _ _).2
    exact ⟨[plainBox, wide], framed, [], rfl, rfl, fun _ h => absurd h List.not_mem_nil⟩
  · apply (hswap plainBox [] wide framed [narrow]).2
    intro key a b hwide _ hnarrow
    rw [wide, singleton, get?_insert] at hwide
    split at hwide
    · next hkey =>
      have hmem : "width" ∈ narrow.keys := List.mem_cons_self
      exact absurd (hkey ▸ hmem) (hnarrow narrow List.mem_cons_self)
    · cases hwide
  · intro heq
    have hsame := (hswap plainBox [] wide framed []).1 heq "width" (.integer 2) (.integer 3) rfl rfl
    simp [Value.integer] at hsame

end Stylebook.Dict
