import Stylebook.Dict
import Stylebook.Selector.Expansion

namespace Stylebook

/-- An expansion that was handed out. Each one made has a stamp of its own. -/
structure Slice where
  stamp : Nat
  paths : List Path
deriving DecidableEq, Repr

/-- `issued` counts the slices made so far; it is the stamp of the next one. -/
structure Memo where
  limit : Option Nat
  stored : Dict Slice
  issued : Nat

namespace Memo

def new (limit : Option Nat) : Memo := ⟨limit, ∅, 0⟩

def size (m : Memo) : Nat := m.stored.size

def hasRoom (m : Memo) : Bool :=
  match m.limit with
  | none => true
  | some limit => decide (m.size < limit)

/-- A full memory still makes slices, but keeps no new ones. -/
def expand (m : Memo) (text : String) : Slice × Memo :=
  match m.stored.get? text with
  | some slice => (slice, m)
  | none =>
    let slice : Slice := ⟨m.issued, Stylebook.expand text⟩
    let stored := if m.hasRoom then m.stored.insert text slice else m.stored
    (slice, ⟨m.limit, stored, m.issued + 1⟩)

def expandAll : Memo → List String → List Path × Memo
  | m, [] => ([], m)
  | m, text :: rest =>
    let (slice, m) := m.expand text
    let (paths, m) := m.expandAll rest
    (slice.paths ++ paths, m)

def expandSelector (m : Memo) (selector : Selector) : List Path × Memo :=
  m.expandAll selector.parts

def clear (m : Memo) : Memo := { m with stored := ∅ }

inductive Call
  | expand (text : String)
  | expandSelector (selector : Selector)
  | clear

inductive Reply
  | slice (slice : Slice)
  | paths (paths : List Path)
  | cleared

def call (m : Memo) : Call → Reply × Memo
  | .expand text =>
    let (slice, m) := m.expand text
    (.slice slice, m)
  | .expandSelector selector =>
    let (paths, m) := m.expandSelector selector
    (.paths paths, m)
  | .clear => (.cleared, m.clear)

def run (m : Memo) : List Call → List Reply × Memo
  | [] => ([], m)
  | c :: rest =>
    let (reply, m) := m.call c
    let (replies, m) := m.run rest
    (reply :: replies, m)

end Memo

end Stylebook
