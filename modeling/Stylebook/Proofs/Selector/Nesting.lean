import Stylebook.Proofs.Selector.Scan

namespace Stylebook

namespace Selector

variable {text before parent inner rest tail : List Char}

def depthAfter (depth : Nat) (c : Char) : Nat :=
  if c = '[' then depth + 1 else if c = ']' then depth - 1 else depth

/-- How many brackets are open at the end of a text. One that closes nothing does not count. -/
def depth (text : List Char) : Nat := text.foldl depthAfter 0

/-- A group that stands in no other one and has a word without brackets before it. -/
structure Expandable (before inner rest : List Char) : Prop where
  outermost : depth before = 0
  parent : lastWord before ≠ []
  unopened : '[' ∉ lastWord before
  unclosed : ']' ∉ lastWord before
  filling : IsFilling inner rest

instance (before inner rest : List Char) : Decidable (Expandable before inner rest) :=
  decidable_of_iff (depth before = 0 ∧ lastWord before ≠ [] ∧ '[' ∉ lastWord before ∧
      ']' ∉ lastWord before ∧ IsFilling inner rest)
    ⟨fun ⟨h₁, h₂, h₃, h₄, h₅⟩ => ⟨h₁, h₂, h₃, h₄, h₅⟩,
      fun ⟨h₁, h₂, h₃, h₄, h₅⟩ => ⟨h₁, h₂, h₃, h₄, h₅⟩⟩

def byNesting : Reading := fun before inner rest =>
  if Expandable before inner rest then some (lastWord before) else none

theorem byNesting_eq_some_iff : byNesting before inner rest = some parent ↔
    Expandable before inner rest ∧ lastWord before = parent := by
  rw [byNesting]
  split <;> simp [*]

theorem depth_concat (text : List Char) (c : Char) :
    depth (text ++ [c]) = depthAfter (depth text) c :=
  List.foldl_concat ..

/-- Wherever the scan is after a closing bracket, one is open. -/
theorem depth_pos_of_scan (h : scan text = none) : 0 < depth text := by
  induction text using List.reverseRecOn with
  | nil => cases h
  | append_singleton text c ih =>
    rw [depth_concat, depthAfter]
    rcases scan_concat_eq_none h with rfl | ⟨hs, hc⟩
    · rw [if_pos rfl]
      exact Nat.succ_pos _
    · rw [if_neg hc]
      split
      · exact Nat.succ_pos _
      · exact ih hs

/-- A group of the scan is one by nesting if it is in no other and its word closes no bracket. -/
theorem byNesting_of_byScan (h : byScan before inner rest = some parent) (hdepth : depth before = 0)
    (hclosed : ']' ∉ lastWord before) : byNesting before inner rest = some parent := by
  obtain ⟨filling, hscan, hne⟩ := byScan_eq_some_iff.1 h
  obtain rfl := scan_eq_lastWord hscan hclosed
  exact byNesting_eq_some_iff.2 ⟨⟨hdepth, hne, scan_unopened hscan, hclosed, filling⟩, rfl⟩

theorem byScan_of_byNesting (h : byNesting before inner rest = some parent) :
    byScan before inner rest = some parent := by
  obtain ⟨hexpandable, rfl⟩ := byNesting_eq_some_iff.1 h
  cases hscan : scan before with
  | none =>
    have hpos := depth_pos_of_scan hscan
    rw [hexpandable.outermost] at hpos
    cases hpos
  | some word =>
    have hword := scan_eq_lastWord hscan hexpandable.unclosed
    rw [hword] at hscan
    exact byScan_eq_some_iff.2 ⟨hexpandable.filling, hscan, hexpandable.parent⟩

theorem byNesting_bracketless (before inner rest parent : List Char)
    (h : byNesting before inner rest = some parent) : '[' ∉ parent ∧ '[' ∉ inner :=
  byScan_bracketless before inner rest parent (byScan_of_byNesting h)

theorem takes_byScan_of_byNesting (h : takes byNesting before tail = true) :
    takes byScan before tail = true := by
  by_cases hclose : ']' ∈ tail
  · obtain ⟨inner, rest, rfl, hinner⟩ := List.eq_append_cons_of_mem hclose
    rw [takes_closed hinner, Option.isSome_iff_exists] at h ⊢
    obtain ⟨parent, hparent⟩ := h
    exact ⟨parent, byScan_of_byNesting hparent⟩
  · rw [takes_unclosed hclose] at h
    cases h

theorem leftHere_byScan_le (before : List Char) (c : Char) (tail : List Char) :
    leftHere byScan before c tail ≤ leftHere byNesting before c tail := by
  rw [leftHere, leftHere]
  by_cases hleft : c = '[' ∧ takes byScan before tail = false
  · have hnone : takes byNesting before tail = false := by
      cases hnesting : takes byNesting before tail with
      | false => rfl
      | true =>
        rw [takes_byScan_of_byNesting hnesting] at hleft
        cases hleft.2
    rw [if_pos hleft, if_pos ⟨hleft.1, hnone⟩]
  · rw [if_neg hleft]
    exact Nat.zero_le _

theorem leftOpen_byScan_le (before text : List Char) :
    leftOpen byScan before text ≤ leftOpen byNesting before text := by
  induction text generalizing before with
  | nil => exact Nat.le_refl 0
  | cons c tail ih => exact Nat.add_le_add (leftHere_byScan_le before c tail) (ih _)

/-- A group that only the scan takes is one bracket less in what it leaves. -/
theorem leftOpen_byScan_lt (before own : List Char)
    (htaken : byScan (before ++ own) inner rest = some parent)
    (hleft : byNesting (before ++ own) inner rest = none) :
    leftOpen byScan before (own ++ '[' :: (inner ++ ']' :: rest)) <
      leftOpen byNesting before (own ++ '[' :: (inner ++ ']' :: rest)) := by
  induction own generalizing before with
  | nil =>
    rw [List.append_nil] at htaken hleft
    have hinner := (byScan_eq_some_iff.1 htaken).1.unclosed
    have hrest := leftOpen_byScan_le (before ++ ['[']) (inner ++ ']' :: rest)
    rw [List.nil_append, leftOpen, leftOpen, leftHere_spelled hinner htaken,
      leftHere_literal hinner hleft]
    omega
  | cons c own ih =>
    have hrest := ih (before ++ [c]) (by simpa using htaken) (by simpa using hleft)
    exact Nat.add_lt_add_of_le_of_lt (leftHere_byScan_le before c _) hrest

theorem spellBy_byScan_eq_byNesting
    (h : ∀ before inner rest parent, text = before ++ '[' :: (inner ++ ']' :: rest) →
      byScan before inner rest = some parent → depth before = 0 ∧ ']' ∉ lastWord before) :
    spellBy byScan [] text = spellBy byNesting [] text := by
  apply (spellsBy_spellBy byNesting [] text).congr
  intro own inner rest htext
  rw [List.nil_append]
  cases hread : byScan own inner rest with
  | some parent =>
    obtain ⟨hdepth, hclosed⟩ := h own inner rest parent htext hread
    exact (byNesting_of_byScan hread hdepth hclosed).symm
  | none =>
    cases hnesting : byNesting own inner rest with
    | none => rfl
    | some parent =>
      rw [byScan_of_byNesting hnesting] at hread
      cases hread

theorem pathsOf_byScan_ne_byNesting (before : List Char)
    (htaken : byScan before inner rest = some parent) (hleft : byNesting before inner rest = none) :
    pathsOf (spellBy byScan [] (before ++ '[' :: (inner ++ ']' :: rest))) ≠
      pathsOf (spellBy byNesting [] (before ++ '[' :: (inner ++ ']' :: rest))) := by
  intro hpaths
  have hcount := count_eq_of_pathsOf hpaths
  rw [(spellsBy_spellBy byScan [] _).count_eq byScan_bracketless,
    (spellsBy_spellBy byNesting [] _).count_eq byNesting_bracketless] at hcount
  have hlt := leftOpen_byScan_lt [] before htaken hleft
  omega

/-- The scan reads by nesting, unless it takes a nested group or one with a bracket in its word. -/
theorem groups_taken_by_scan (text : String) :
    expand text = pathsOf (spellBy byScan [] text.toList) ∧
    (∀ before inner rest parent, byNesting before inner rest = some parent →
      byScan before inner rest = some parent) ∧
    (expand text = pathsOf (spellBy byNesting [] text.toList) ↔
      ∀ before inner rest parent, text.toList = before ++ '[' :: (inner ++ ']' :: rest) →
        byScan before inner rest = some parent → depth before = 0 ∧ ']' ∉ lastWord before) := by
  have hscan : expand text = pathsOf (spellBy byScan [] text.toList) :=
    expandChars_eq_pathsOf text.toList
  refine ⟨hscan, fun before inner rest parent h => byScan_of_byNesting h, ?_⟩
  rw [hscan]
  constructor
  · intro hpaths before inner rest parent htext htaken
    cases hnesting : byNesting before inner rest with
    | none =>
      rw [htext] at hpaths
      exact absurd hpaths (pathsOf_byScan_ne_byNesting before htaken hnesting)
    | some own =>
      obtain ⟨hexpandable, _⟩ := byNesting_eq_some_iff.1 hnesting
      exact ⟨hexpandable.outermost, hexpandable.unclosed⟩
  · intro h
    rw [spellBy_byScan_eq_byNesting h]

/-- Behind a group that is left, another one in the same brackets is spelled out. -/
theorem nested_group_spelled_out :
    expand "a[b[c] d[e] f]" = [⟨"a[b[c]", []⟩, ⟨"d", ["e"]⟩, ⟨"f]", []⟩] ∧
      pathsOf (spellBy byNesting [] "a[b[c] d[e] f]".toList) =
        [⟨"a[b[c]", []⟩, ⟨"d[e]", []⟩, ⟨"f]", []⟩] ∧
      expand "a[b[c] d[e] f]" ≠ pathsOf (spellBy byNesting [] "a[b[c] d[e] f]".toList) := by
  decide +kernel

end Selector

end Stylebook
