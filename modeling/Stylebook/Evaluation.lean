import Stylebook.Recipe
import Stylebook.Selector.Memo

namespace Stylebook

/-- A declaration that was found: the scope that owns it, its path there, and its full name. -/
structure Located where
  owner : Handle
  key : String
  label : String
  recipe : Recipe

def Located.isSame (a b : Located) : Bool := a.owner == b.owner && a.key == b.key

theorem Located.isSame_iff {a b : Located} :
    a.isSame b = true ↔ a.owner = b.owner ∧ a.key = b.key := by
  simp [isSame]

/-- The declarations in progress stand in the order in which they were begun. -/
structure Evaluation where
  memo : Memo
  active : List Located

abbrev Resolving := Evaluation → Except Fault Attributes × Evaluation

namespace Evaluation

/-- Nothing is in progress at first. -/
def start (memo : Memo) : Evaluation := ⟨memo, []⟩

def expand (e : Evaluation) (text : String) : Slice × Evaluation :=
  let (slice, memo) := e.memo.expand text
  (slice, { e with memo := memo })

def isActive (e : Evaluation) (found : Located) : Bool := e.active.any found.isSame

def push (e : Evaluation) (found : Located) : Evaluation := { e with active := e.active ++ [found] }

def pop (e : Evaluation) : Evaluation := { e with active := e.active.dropLast }

@[simp] theorem push_active (e : Evaluation) (found : Located) :
    (e.push found).active = e.active ++ [found] := rfl

@[simp] theorem pop_active (e : Evaluation) : e.pop.active = e.active.dropLast := rfl

theorem isActive_iff {e : Evaluation} {found : Located} :
    e.isActive found = true ↔ ∃ a ∈ e.active, a.owner = found.owner ∧ a.key = found.key := by
  rw [isActive, List.any_eq_true]
  constructor
  · rintro ⟨a, ha, h⟩
    obtain ⟨ho, hk⟩ := Located.isSame_iff.1 h
    exact ⟨a, ha, ho.symm, hk.symm⟩
  · rintro ⟨a, ha, ho, hk⟩
    exact ⟨a, ha, Located.isSame_iff.2 ⟨ho.symm, hk.symm⟩⟩

end Evaluation

end Stylebook
