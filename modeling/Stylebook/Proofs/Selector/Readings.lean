import Stylebook.Proofs.Selector.Grammar

namespace Stylebook

namespace Selector

/-- Which groups are spelled out, and with which parent, by the texts before, in and behind them. -/
abbrev Reading := List Char → List Char → List Char → Option (List Char)

/-- Spell out the groups that the reading takes; `before` is the text that was read already. -/
def spellBy (reading : Reading) (before text : List Char) : List Char :=
  match _hopen : text.dropWhile (· != '[') with
  | [] => text
  | _ :: tail =>
    match _hclose : tail.dropWhile (· != ']') with
    | [] => text
    | _ :: rest =>
      let head := text.takeWhile (· != '[')
      let inner := tail.takeWhile (· != ']')
      match reading (before ++ head) inner rest with
      | none => head ++ '[' :: spellBy reading (before ++ head ++ ['[']) tail
      | some parent =>
        head.take (head.length - parent.length) ++
          (spellChildren parent (words isSeparator inner) ++
            spellBy reading (before ++ head ++ '[' :: (inner ++ [']'])) rest)
termination_by text.length
decreasing_by
  · exact length_lt_of_dropWhile_eq_cons _hopen
  · exact Nat.lt_trans (length_lt_of_dropWhile_eq_cons _hclose)
      (length_lt_of_dropWhile_eq_cons _hopen)

variable {reading reading' : Reading} {text before head lead parent inner rest tail : List Char}

theorem spellBy_plain (h : '[' ∉ text) : spellBy reading before text = text := by
  rw [spellBy]
  split
  · rfl
  · next heq =>
    rw [dropWhile_missing h] at heq
    cases heq

theorem spellBy_unclosed (hhead : '[' ∉ head) (htail : ']' ∉ tail) :
    spellBy reading before (head ++ '[' :: tail) = head ++ '[' :: tail := by
  rw [spellBy]
  split
  · rfl
  · next heq =>
    rw [dropWhile_until hhead] at heq
    cases heq
    split
    · rfl
    · next heq =>
      rw [dropWhile_missing htail] at heq
      cases heq

theorem spellBy_closed (hhead : '[' ∉ head) (hinner : ']' ∉ inner) :
    spellBy reading before (head ++ '[' :: (inner ++ ']' :: rest)) =
      match reading (before ++ head) inner rest with
      | none => head ++ '[' :: spellBy reading (before ++ head ++ ['[']) (inner ++ ']' :: rest)
      | some parent =>
        head.take (head.length - parent.length) ++
          (spellChildren parent (words isSeparator inner) ++
            spellBy reading (before ++ head ++ '[' :: (inner ++ [']'])) rest) := by
  rw [spellBy]
  split
  · next heq =>
    rw [dropWhile_until hhead] at heq
    cases heq
  · next heq =>
    rw [dropWhile_until hhead] at heq
    cases heq
    split
    · next heq =>
      rw [dropWhile_until hinner] at heq
      cases heq
    · next heq =>
      rw [dropWhile_until hinner] at heq
      cases heq
      rw [takeWhile_until hhead, takeWhile_until hinner]

theorem spellBy_literal (hhead : '[' ∉ head) (hinner : ']' ∉ inner)
    (h : reading (before ++ head) inner rest = none) :
    spellBy reading before (head ++ '[' :: (inner ++ ']' :: rest)) =
      head ++ '[' :: spellBy reading (before ++ head ++ ['[']) (inner ++ ']' :: rest) := by
  rw [spellBy_closed hhead hinner, h]

theorem spellBy_spelled (hhead : '[' ∉ head) (hinner : ']' ∉ inner)
    (h : reading (before ++ head) inner rest = some parent) :
    spellBy reading before (head ++ '[' :: (inner ++ ']' :: rest)) =
      head.take (head.length - parent.length) ++ (spellChildren parent (words isSeparator inner) ++
        spellBy reading (before ++ head ++ '[' :: (inner ++ [']'])) rest) := by
  rw [spellBy_closed hhead hinner, h]

/-- What is spelled out from bracket to bracket, as each group is taken or left. -/
inductive SpellsBy (reading : Reading) : List Char → List Char → List Char → Prop
  | plain {before text : List Char} (unopened : '[' ∉ text) : SpellsBy reading before text text
  | unclosed {before head tail : List Char} (unopened : '[' ∉ head) (unclosed : ']' ∉ tail) :
      SpellsBy reading before (head ++ '[' :: tail) (head ++ '[' :: tail)
  | literal {before head inner rest out : List Char} (unopened : '[' ∉ head)
      (unclosed : ']' ∉ inner) (left : reading (before ++ head) inner rest = none)
      (more : SpellsBy reading (before ++ head ++ ['[']) (inner ++ ']' :: rest) out) :
      SpellsBy reading before (head ++ '[' :: (inner ++ ']' :: rest)) (head ++ '[' :: out)
  | spelled {before head inner rest parent out : List Char} (unopened : '[' ∉ head)
      (unclosed : ']' ∉ inner) (taken : reading (before ++ head) inner rest = some parent)
      (more : SpellsBy reading (before ++ head ++ '[' :: (inner ++ [']'])) rest out) :
      SpellsBy reading before (head ++ '[' :: (inner ++ ']' :: rest))
        (head.take (head.length - parent.length) ++
          (spellChildren parent (words isSeparator inner) ++ out))

theorem spellsBy_spellBy (reading : Reading) (before text : List Char) :
    SpellsBy reading before text (spellBy reading before text) := by
  induction hn : text.length using Nat.strongRecOn generalizing before text with
  | ind n ih =>
    cases bracketed text with
    | plain unopened =>
      rw [spellBy_plain unopened]
      exact .plain unopened
    | unclosed unopened unclosed =>
      rw [spellBy_unclosed unopened unclosed]
      exact .unclosed unopened unclosed
    | @group head inner rest unopened unclosed more =>
      have hlt : (inner ++ ']' :: rest).length < n ∧ rest.length < n := by
        simp [← hn]
        omega
      cases hread : reading (before ++ head) inner rest with
      | none =>
        rw [spellBy_literal unopened unclosed hread]
        exact .literal unopened unclosed hread (ih _ hlt.1 _ _ rfl)
      | some parent =>
        rw [spellBy_spelled unopened unclosed hread]
        exact .spelled unopened unclosed hread (ih _ hlt.2 _ _ rfl)

theorem SpellsBy.congr {out : List Char} (h : SpellsBy reading before text out)
    (agree : ∀ own inner rest, text = own ++ '[' :: (inner ++ ']' :: rest) →
      reading' (before ++ own) inner rest = reading (before ++ own) inner rest) :
    spellBy reading' before text = out := by
  induction h with
  | plain unopened => exact spellBy_plain unopened
  | unclosed unopened unclosed => exact spellBy_unclosed unopened unclosed
  | @literal before head inner rest out unopened unclosed left more ih =>
    have hread := (agree head inner rest rfl).trans left
    rw [spellBy_literal unopened unclosed hread, ih]
    intro own inner' rest' he
    have hown := agree (head ++ '[' :: own) inner' rest' (by simp [he])
    simpa using hown
  | @spelled before head inner rest parent out unopened unclosed taken more ih =>
    have hread := (agree head inner rest rfl).trans taken
    rw [spellBy_spelled unopened unclosed hread, ih]
    intro own inner' rest' he
    have hown := agree (head ++ '[' :: (inner ++ ']' :: own)) inner' rest' (by simp [he])
    simpa using hown

/-- Whether the reading takes the group that a bracket opens between the two texts. -/
def takes (reading : Reading) (before tail : List Char) : Bool :=
  match tail.dropWhile (· != ']') with
  | [] => false
  | _ :: rest => (reading before (tail.takeWhile (· != ']')) rest).isSome

theorem takes_unclosed (h : ']' ∉ tail) : takes reading before tail = false := by
  rw [takes, dropWhile_missing h]

theorem takes_closed (h : ']' ∉ inner) :
    takes reading before (inner ++ ']' :: rest) = (reading before inner rest).isSome := by
  simp only [takes, dropWhile_until h, takeWhile_until h]

def leftHere (reading : Reading) (before : List Char) (c : Char) (tail : List Char) : Nat :=
  if c = '[' ∧ takes reading before tail = false then 1 else 0

theorem leftHere_literal (hinner : ']' ∉ inner) (h : reading before inner rest = none) :
    leftHere reading before '[' (inner ++ ']' :: rest) = 1 := by
  simp [leftHere, takes_closed hinner, h]

theorem leftHere_spelled (hinner : ']' ∉ inner) (h : reading before inner rest = some parent) :
    leftHere reading before '[' (inner ++ ']' :: rest) = 0 := by
  simp [leftHere, takes_closed hinner, h]

/-- How many brackets open a group that the reading does not take. -/
def leftOpen (reading : Reading) : List Char → List Char → Nat
  | _, [] => 0
  | before, c :: tail => leftHere reading before c tail + leftOpen reading (before ++ [c]) tail

theorem leftOpen_append (reading : Reading) (before : List Char) (hhead : '[' ∉ head)
    (text : List Char) :
    leftOpen reading before (head ++ text) = leftOpen reading (before ++ head) text := by
  induction head generalizing before with
  | nil => rw [List.nil_append, List.append_nil]
  | cons c head ih =>
    obtain ⟨hc, hhead⟩ := by simpa using hhead
    rw [List.cons_append, leftOpen, leftHere, if_neg (fun h => hc h.1.symm), ih _ hhead,
      Nat.zero_add]
    simp

theorem leftOpen_unclosed (h : ']' ∉ text) : leftOpen reading before text = text.count '[' := by
  induction text generalizing before with
  | nil => rfl
  | cons c tail ih =>
    have htail : ']' ∉ tail := fun hmem => h (List.mem_cons_of_mem c hmem)
    rw [leftOpen, leftHere, takes_unclosed htail, ih htail, List.count_cons, Nat.add_comm]
    simp

theorem bracketless_spellChildren {children : List (List Char)} (hparent : '[' ∉ parent)
    (hchildren : ∀ child ∈ children, '[' ∉ child) : '[' ∉ spellChildren parent children := by
  simp only [spellChildren, List.mem_append, List.mem_flatMap, List.mem_cons, not_or, not_exists]
  refine ⟨?_, by decide, List.not_mem_nil⟩
  rintro child ⟨hchild, hmem⟩
  rcases hmem with hblank | hmem | hpoint | hmem
  · exact absurd hblank (by decide)
  · exact hparent hmem
  · exact absurd hpoint (by decide)
  · exact hchildren child hchild hmem

theorem SpellsBy.count_eq {out : List Char} (h : SpellsBy reading before text out)
    (bracketless : ∀ before inner rest parent, reading before inner rest = some parent →
      '[' ∉ parent ∧ '[' ∉ inner) : out.count '[' = leftOpen reading before text := by
  induction h with
  | @plain before text unopened =>
    have happend := leftOpen_append reading before unopened []
    rw [List.append_nil] at happend
    rw [happend, List.count_eq_zero.2 unopened]
    rfl
  | @unclosed before head tail unopened unclosed =>
    rw [leftOpen_append _ _ unopened, leftOpen, leftHere, takes_unclosed unclosed,
      leftOpen_unclosed unclosed, List.count_append, List.count_eq_zero.2 unopened,
      List.count_cons_self]
    simp [Nat.add_comm]
  | @literal before head inner rest out unopened unclosed left more ih =>
    rw [leftOpen_append _ _ unopened, leftOpen, leftHere_literal unclosed left, ← ih,
      List.count_append, List.count_eq_zero.2 unopened, List.count_cons_self]
    omega
  | @spelled before head inner rest parent out unopened unclosed taken more ih =>
    obtain ⟨hparent, hinner⟩ := bracketless _ _ _ _ taken
    have hspelled : '[' ∉ spellChildren parent (words isSeparator inner) := by
      apply bracketless_spellChildren hparent
      intro child hchild hmem
      exact hinner (exists_mem_words.1 ⟨child, hchild, hmem⟩).1
    have hgroup : '[' ∉ inner ++ [']'] := by simp [hinner]
    have hrest := leftOpen_append reading (before ++ head ++ ['[']) hgroup rest
    rw [List.append_assoc] at hrest
    rw [leftOpen_append _ _ unopened, leftOpen, leftHere_spelled unclosed taken,
      List.count_append, List.count_append,
      List.count_eq_zero.2 fun hmem => unopened (List.mem_of_mem_take hmem),
      List.count_eq_zero.2 hspelled, ih]
    simpa using hrest.symm

def pathsOf (text : List Char) : List Path := (words isSeparator text).filterMap Path.ofChars?

theorem letters_ofChars? (word : List Char) :
    (Path.ofChars? word).toList.flatMap (fun p => p.segments.flatMap String.toList) =
      word.filter fun c => !(c == '.') := by
  rw [← flatten_words, Path.ofChars?]
  cases words (· == '.') word with
  | nil => rfl
  | cons first others =>
    simp [Path.ofSegments?, Path.segments, List.flatMap_map]

theorem letters_pathsOf (text : List Char) :
    (pathsOf text).flatMap (fun p => p.segments.flatMap String.toList) =
      text.filter fun c => !(c == '.') && !isSeparator c := by
  rw [← List.filter_filter, ← flatten_words isSeparator, pathsOf, List.filter_flatten]
  induction words isSeparator text with
  | nil => rfl
  | cons word others ih =>
    rw [List.map_cons, List.flatten_cons, ← ih, ← letters_ofChars?]
    cases hp : Path.ofChars? word <;> simp [hp]

theorem count_eq_of_pathsOf {text' : List Char} (h : pathsOf text = pathsOf text') :
    text.count '[' = text'.count '[' := by
  have hletters : ∀ text : List Char,
      ((pathsOf text).flatMap fun p => p.segments.flatMap String.toList).count '[' =
        text.count '[' := by
    intro text
    rw [letters_pathsOf, List.count_filter]
    decide
  rw [← hletters text, ← hletters text', h]

end Selector

end Stylebook
