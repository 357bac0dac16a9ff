import Stylebook.Path
import Stylebook.Selector

namespace Stylebook

/-- The text up to and with its last separator, and the word after it. -/
def splitLastWord (text : List Char) : List Char × List Char :=
  let backwards := text.reverse
  ((backwards.dropWhile fun c => !isSeparator c).reverse,
    (backwards.takeWhile fun c => !isSeparator c).reverse)

/-- Every child below the parent, each after a blank, and a blank at the end. -/
def spellChildren (parent : List Char) (children : List (List Char)) : List Char :=
  children.flatMap (fun child => ' ' :: (parent ++ '.' :: child)) ++ [' ']

/-- Whether a text goes on with something else than a separator. -/
def isAttached : List Char → Bool
  | [] => false
  | c :: _ => !isSeparator c

/-- A group is spelled out if it has a parent, some child, no bracket in it, and nothing behind. -/
def spellGroup (before inner rest : List Char) : List Char :=
  let (lead, parent) := splitLastWord before
  let children := words isSeparator inner
  if parent.isEmpty || isAttached rest || inner.contains '[' || children.isEmpty then
    before ++ '[' :: (inner ++ [']'])
  else lead ++ spellChildren parent children

theorem length_lt_of_dropWhile_eq_cons {p : Char → Bool} {text rest : List Char} {c : Char}
    (h : text.dropWhile p = c :: rest) : rest.length < text.length := by
  have := (List.dropWhile_sublist p (l := text)).length_le
  rw [h, List.length_cons] at this
  omega

def spellOut (text : List Char) : List Char :=
  match _hopen : text.dropWhile (· != '[') with
  | [] => text
  | _ :: tail =>
    match _hclose : tail.dropWhile (· != ']') with
    | [] => text
    | _ :: rest =>
      spellGroup (text.takeWhile (· != '[')) (tail.takeWhile (· != ']')) rest ++ spellOut rest
termination_by text.length
decreasing_by
  exact Nat.lt_trans (length_lt_of_dropWhile_eq_cons _hclose)
    (length_lt_of_dropWhile_eq_cons _hopen)

def expandChars (text : List Char) : List Path :=
  (words isSeparator (spellOut text)).filterMap Path.ofChars?

/-- The paths that a selector text stands for, in order and with their repetitions. -/
def expand (text : String) : List Path := expandChars text.toList

end Stylebook
