namespace Stylebook

/-- A handle stands for the scope at a slot in one epoch, and at slot zero always for the root. -/
structure Handle where
  slot : Nat
  epoch : Nat
  root_epoch : slot = 0 → epoch = 0
deriving DecidableEq, Repr

namespace Handle

def root : Handle := ⟨0, 0, fun _ => rfl⟩

def isRoot (h : Handle) : Bool := h.slot == 0

theorem isRoot_iff (h : Handle) : h.isRoot = true ↔ h = root := by
  constructor
  · intro hslot
    obtain ⟨slot, epoch, hroot⟩ := h
    obtain rfl : slot = 0 := eq_of_beq hslot
    obtain rfl := hroot rfl
    rfl
  · rintro rfl
    rfl

theorem isRoot_eq_false {h : Handle} (hne : h ≠ root) : h.isRoot = false :=
  Bool.eq_false_iff.2 fun hroot => hne ((isRoot_iff h).1 hroot)

end Handle

end Stylebook
