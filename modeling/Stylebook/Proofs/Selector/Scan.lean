import Mathlib.Data.List.Induction
import Stylebook.Proofs.Selector.Readings

namespace Stylebook

namespace Selector

variable {text before head parent inner rest : List Char}

/-- The longest end of a text that has no separator. -/
def lastWord (text : List Char) : List Char := (splitLastWord text).2

/-- What stands between the brackets and behind them in a group that can be spelled out. -/
structure IsFilling (inner rest : List Char) : Prop where
  unopened : '[' ∉ inner
  unclosed : ']' ∉ inner
  child : ∃ c ∈ inner, isSeparator c = false
  ends : isAttached rest = false

instance (inner rest : List Char) : Decidable (IsFilling inner rest) :=
  -- only the characters of the text are tried
  haveI : Decidable (∃ c ∈ inner, isSeparator c = false) := List.decidableBEx ..
  decidable_of_iff ('[' ∉ inner ∧ ']' ∉ inner ∧ (∃ c ∈ inner, isSeparator c = false) ∧
      isAttached rest = false)
    ⟨fun ⟨h₁, h₂, h₃, h₄⟩ => ⟨h₁, h₂, h₃, h₄⟩, fun ⟨h₁, h₂, h₃, h₄⟩ => ⟨h₁, h₂, h₃, h₄⟩⟩

/-- What the scan keeps: the text since the last separator, or nothing right behind a bracket. -/
def scanAfter : Option (List Char) → Char → Option (List Char)
  | none, c => if c = ']' then some [] else none
  | some word, c =>
    if c = '[' then none else if isSeparator c then some [] else some (word ++ [c])

def scan (text : List Char) : Option (List Char) := text.foldl scanAfter (some [])

def byScan : Reading := fun before inner rest =>
  if IsFilling inner rest then (scan before).filter fun word => !word.isEmpty else none

theorem byScan_eq_some_iff : byScan before inner rest = some parent ↔
    IsFilling inner rest ∧ scan before = some parent ∧ parent ≠ [] := by
  rw [byScan]
  split <;> simp [*, Option.filter_eq_some_iff]

theorem scan_concat (text : List Char) (c : Char) : scan (text ++ [c]) = scanAfter (scan text) c :=
  List.foldl_concat ..

theorem lastWord_concat (text : List Char) (c : Char) :
    lastWord (text ++ [c]) = if isSeparator c then [] else lastWord text ++ [c] := by
  rw [lastWord, lastWord, splitLastWord, splitLastWord, List.reverse_concat]
  cases hc : isSeparator c <;> simp [hc]

/-- The scan is past a character outside of groups, which it was already, or which ends one. -/
theorem scan_concat_eq_some {c : Char} (h : scan (text ++ [c]) = some head) :
    (scan text = none ∧ c = ']' ∧ head = []) ∨
      ∃ word, scan text = some word ∧ c ≠ '[' ∧
        head = if isSeparator c then [] else word ++ [c] := by
  rw [scan_concat] at h
  cases hs : scan text with
  | none =>
    rw [hs, scanAfter] at h
    split at h
    · next hc => exact .inl ⟨rfl, hc, (Option.some.inj h).symm⟩
    · cases h
  | some word =>
    rw [hs, scanAfter] at h
    split at h
    · cases h
    · next hc =>
      refine .inr ⟨word, rfl, hc, ?_⟩
      split <;> simp_all

/-- It is within a group after the bracket that opens it, and then up to the one that closes it. -/
theorem scan_concat_eq_none {c : Char} (h : scan (text ++ [c]) = none) :
    c = '[' ∨ (scan text = none ∧ c ≠ ']') := by
  rw [scan_concat] at h
  cases hs : scan text with
  | none =>
    rw [hs, scanAfter] at h
    split at h
    · cases h
    · next hc => exact .inr ⟨rfl, hc⟩
  | some word =>
    rw [hs, scanAfter] at h
    split at h
    · next hc => exact .inl hc
    · split at h <;> cases h

theorem scan_unopened (h : scan text = some head) : '[' ∉ head := by
  induction text using List.reverseRecOn generalizing head with
  | nil =>
    cases h
    exact List.not_mem_nil
  | append_singleton text c ih =>
    rcases scan_concat_eq_some h with ⟨_, _, rfl⟩ | ⟨word, hword, hc, rfl⟩
    · exact List.not_mem_nil
    · split
      · exact List.not_mem_nil
      · simp [ih hword, Ne.symm hc]

/-- The scan has the last word in mind, unless it was after a bracket in it. -/
theorem scan_eq_lastWord (h : scan text = some head) (hclosed : ']' ∉ lastWord text) :
    head = lastWord text := by
  induction text using List.reverseRecOn generalizing head with
  | nil =>
    cases h
    rfl
  | append_singleton text c ih =>
    rw [lastWord_concat] at hclosed ⊢
    rcases scan_concat_eq_some h with ⟨_, rfl, rfl⟩ | ⟨word, hword, _, rfl⟩
    · have hseparator : isSeparator ']' = false := by decide
      simp [hseparator] at hclosed
    · split
      · rfl
      · next hc =>
        rw [if_neg hc] at hclosed
        rw [ih hword fun hmem => hclosed (List.mem_append_left _ hmem)]

theorem byScan_bracketless (before inner rest parent : List Char)
    (h : byScan before inner rest = some parent) : '[' ∉ parent ∧ '[' ∉ inner := by
  obtain ⟨filling, hscan, _⟩ := byScan_eq_some_iff.1 h
  exact ⟨scan_unopened hscan, filling.unopened⟩

theorem scan_in_group (h : scan before = none) (hinner : ']' ∉ inner) :
    scan (before ++ inner) = none := by
  induction inner generalizing before with
  | nil => rwa [List.append_nil]
  | cons c inner ih =>
    have hc : scan (before ++ [c]) = none := by
      rw [scan_concat, h, scanAfter, if_neg]
      rintro rfl
      exact hinner List.mem_cons_self
    rw [List.append_cons]
    exact ih hc fun hmem => hinner (List.mem_cons_of_mem c hmem)

theorem scan_after_group (h : scan before = none) (hinner : ']' ∉ inner) :
    scan (before ++ inner ++ [']']) = some [] := by
  rw [scan_concat, scan_in_group h hinner, scanAfter, if_pos rfl]

theorem scan_unopened_append (h : scan before = some []) (hhead : '[' ∉ head) :
    scan (before ++ head) = some (lastWord head) := by
  induction head using List.reverseRecOn with
  | nil =>
    rw [List.append_nil, h]
    rfl
  | append_singleton head c ih =>
    obtain ⟨hhead, hc⟩ := by simpa using hhead
    rw [← List.append_assoc, scan_concat, ih hhead, lastWord_concat, scanAfter, if_neg (Ne.symm hc)]
    split <;> rfl

theorem splitLastWord_append (text : List Char) :
    (splitLastWord text).1 ++ lastWord text = text := by
  rw [lastWord, splitLastWord, ← List.reverse_append, List.takeWhile_append_dropWhile,
    List.reverse_reverse]

theorem length_splitLastWord (text : List Char) :
    (splitLastWord text).1.length + (lastWord text).length = text.length := by
  rw [← List.length_append, splitLastWord_append]

theorem take_lastWord (text : List Char) :
    text.take (text.length - (lastWord text).length) = (splitLastWord text).1 := by
  have hlength := length_splitLastWord text
  have hlead : text.length - (lastWord text).length = (splitLastWord text).1.length := by omega
  calc text.take (text.length - (lastWord text).length)
      = ((splitLastWord text).1 ++ lastWord text).take (splitLastWord text).1.length := by
        rw [splitLastWord_append, hlead]
    _ = (splitLastWord text).1 := List.take_left

theorem words_ne_nil_iff : words isSeparator inner ≠ [] ↔ ∃ c ∈ inner, isSeparator c = false := by
  constructor
  · intro hne
    obtain ⟨word, hword⟩ := List.exists_mem_of_ne_nil _ hne
    obtain ⟨c, hc⟩ := List.exists_mem_of_ne_nil word (ne_nil_of_mem_words hword)
    exact ⟨c, exists_mem_words.1 ⟨word, hword, hc⟩⟩
  · rintro ⟨c, hc⟩
    obtain ⟨word, hword, _⟩ := exists_mem_words.2 hc
    exact List.ne_nil_of_mem hword

theorem spellGroup_of_byScan (h : scan before = some []) (hhead : '[' ∉ head)
    (hinner : ']' ∉ inner) :
    spellGroup head inner rest =
      match byScan (before ++ head) inner rest with
      | none => head ++ '[' :: (inner ++ [']'])
      | some parent =>
        head.take (head.length - parent.length) ++
          spellChildren parent (words isSeparator inner) := by
  have hscan := scan_unopened_append h hhead
  have hspelled : byScan (before ++ head) inner rest = some (lastWord head) ↔
      ¬ ((lastWord head).isEmpty || isAttached rest || inner.contains '[' ||
        (words isSeparator inner).isEmpty) = true := by
    rw [byScan_eq_some_iff, hscan]
    constructor
    · rintro ⟨⟨unopened, _, child, ends⟩, _, hne⟩
      simp [unopened, ends, hne, words_ne_nil_iff.2 child]
    · intro hnot
      simp only [Bool.or_eq_true, not_or, List.isEmpty_iff, List.contains_iff_mem,
        Bool.not_eq_true] at hnot
      obtain ⟨⟨⟨hne, ends⟩, unopened⟩, hwords⟩ := hnot
      exact ⟨⟨unopened, hinner, words_ne_nil_iff.1 hwords, ends⟩, rfl, hne⟩
  cases hread : byScan (before ++ head) inner rest with
  | none =>
    rw [hread] at hspelled
    have hcond := Decidable.not_not.1 (mt hspelled.2 (by simp))
    exact if_pos hcond
  | some parent =>
    obtain ⟨_, hparent, _⟩ := byScan_eq_some_iff.1 hread
    obtain rfl := Option.some.inj (hscan.symm.trans hparent)
    dsimp only
    rw [take_lastWord]
    exact if_neg (hspelled.1 hread)

theorem byScan_of_scan_none (h : scan before = none) : byScan before inner rest = none := by
  cases hread : byScan before inner rest with
  | none => rfl
  | some parent =>
    obtain ⟨_, hscan, _⟩ := byScan_eq_some_iff.1 hread
    rw [h] at hscan
    cases hscan

theorem spellBy_byScan_append {gap : List Char} (hgap : '[' ∉ gap)
    (h : scan (before ++ gap) = some []) (text : List Char) :
    spellBy byScan before (gap ++ text) = gap ++ spellBy byScan (before ++ gap) text := by
  cases bracketed text with
  | plain unopened => rw [spellBy_plain unopened, spellBy_plain (by simp [hgap, unopened])]
  | @unclosed head tail unopened unclosed =>
    have hhead : '[' ∉ gap ++ head := by simp [hgap, unopened]
    rw [spellBy_unclosed unopened unclosed, ← List.append_assoc, spellBy_unclosed hhead unclosed]
  | @group head inner rest unopened unclosed more =>
    have hhead : '[' ∉ gap ++ head := by simp [hgap, unopened]
    rw [← List.append_assoc]
    cases hread : byScan (before ++ gap ++ head) inner rest with
    | none =>
      rw [spellBy_literal unopened unclosed hread,
        spellBy_literal hhead unclosed ((List.append_assoc before gap head) ▸ hread)]
      simp
    | some parent =>
      obtain ⟨_, hparent, _⟩ := byScan_eq_some_iff.1 hread
      obtain rfl := Option.some.inj ((scan_unopened_append h unopened).symm.trans hparent)
      have hlength : (lastWord head).length ≤ head.length := by
        have hsplit := length_splitLastWord head
        omega
      have htake : (gap ++ head).take ((gap ++ head).length - (lastWord head).length) =
          gap ++ head.take (head.length - (lastWord head).length) := by
        rw [List.length_append, Nat.add_sub_assoc hlength, List.take_length_add_append]
      rw [spellBy_spelled unopened unclosed hread,
        spellBy_spelled hhead unclosed ((List.append_assoc before gap head) ▸ hread), htake]
      simp

theorem spellBy_byScan_in_group (h : scan before = none) (hinner : ']' ∉ inner)
    (rest : List Char) :
    spellBy byScan before (inner ++ ']' :: rest) =
      inner ++ ']' :: spellBy byScan (before ++ inner ++ [']']) rest := by
  induction hn : inner.length using Nat.strongRecOn generalizing before inner with
  | ind n ih =>
    by_cases hopen : '[' ∈ inner
    · obtain ⟨head, tail, rfl, hhead⟩ := List.eq_append_cons_of_mem hopen
      obtain ⟨hclosed, htail⟩ := by simpa using hinner
      have hscan : scan (before ++ head ++ ['[']) = none := by
        rw [List.append_assoc]
        exact scan_in_group h (by simp [hclosed])
      have hlt : tail.length < n := by
        simp [← hn]
        omega
      have hrest := ih tail.length hlt hscan htail rfl
      rw [List.append_assoc, List.cons_append,
        spellBy_literal hhead htail (byScan_of_scan_none (scan_in_group h hclosed)), hrest]
      simp
    · have hgap : '[' ∉ inner ++ [']'] := by simp [hopen]
      have hafter := scan_after_group h hinner
      rw [List.append_assoc] at hafter
      have happend := spellBy_byScan_append hgap hafter rest
      simpa using happend

theorem spellBy_byScan (h : scan before = some []) (text : List Char) :
    spellBy byScan before text = spellOut text := by
  induction bracketed text generalizing before with
  | plain unopened => rw [spellBy_plain unopened, spellOut_plain unopened]
  | unclosed unopened unclosed =>
    rw [spellBy_unclosed unopened unclosed, spellOut_unclosed unopened unclosed]
  | @group head inner rest unopened unclosed more ih =>
    have hscan := scan_unopened_append h unopened
    have hopened : scan (before ++ head ++ ['[']) = none := by
      rw [scan_concat, hscan, scanAfter, if_pos rfl]
    have hafter := scan_after_group hopened unclosed
    rw [spellOut_group unopened unclosed, spellGroup_of_byScan h unopened unclosed, ← ih hafter]
    cases hread : byScan (before ++ head) inner rest with
    | none =>
      rw [spellBy_literal unopened unclosed hread, spellBy_byScan_in_group hopened unclosed]
      simp
    | some parent =>
      rw [spellBy_spelled unopened unclosed hread]
      simp

theorem expandChars_eq_pathsOf (text : List Char) :
    expandChars text = pathsOf (spellBy byScan [] text) := by
  rw [spellBy_byScan rfl]
  rfl

end Selector

end Stylebook
