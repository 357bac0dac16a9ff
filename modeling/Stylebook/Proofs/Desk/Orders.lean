import Stylebook.Desk
import Stylebook.Proofs.Registry.Handles

namespace Stylebook

namespace Order

def clears : Order → Bool
  | .configure _ => true
  | .reset => true
  | _ => false

/-- A new registry begins with the first epoch. -/
def epochAfter (epoch : Nat) : Order → Nat
  | .configure _ => 0
  | .reset => epoch + 1
  | _ => epoch

theorem epochAfter_of_keeps {order : Order} (h : order.clears = false) (epoch : Nat) :
    order.epochAfter epoch = epoch := by
  cases order with
  | configure options => cases h
  | reset => cases h
  | _ => rfl

def epochAfterAll (epoch : Nat) (orders : List Order) : Nat := orders.foldl epochAfter epoch

end Order

namespace Registry

variable {r r' : Registry} {order : Order}

/-- What an order makes of the registry at hand. -/
inductive Moves (r : Registry) : Order → Registry → Prop
  | configure (options : Options) : r.Moves (.configure options) (.new options)
  | reset : r.Moves .reset r.reset
  | operate {order : Order} (keeps : order.clears = false) {operations : List Operation}
      (unreset : .reset ∉ operations) : r.Moves order (r.performAll operations)

theorem Moves.of_eq (h : order.clears = false) (he : r' = r) : r.Moves order r' := by
  rw [he]
  exact .operate h List.not_mem_nil

theorem Moves.of_operation (h : order.clears = false) {operation : Operation}
    (hne : operation ≠ .reset) : r.Moves order (r.perform operation) := by
  have hunreset : .reset ∉ [operation] := fun hmem => hne (List.mem_singleton.1 hmem).symm
  exact .operate h hunreset

theorem Moves.reachable (h : r.Moves order r') (hr : r.Reachable) : r'.Reachable := by
  cases h with
  | configure options => exact .new options
  | reset => exact hr.reset
  | operate keeps unreset => exact hr.performAll _

theorem Moves.continues (h : r.Moves order r') (hkeeps : order.clears = false) :
    r.Continues r' := by
  cases h with
  | configure options => cases hkeeps
  | reset => cases hkeeps
  | operate keeps unreset => exact r.continues_performAll unreset

theorem Moves.epoch (h : r.Moves order r') : r'.epoch = order.epochAfter r.epoch := by
  cases h with
  | configure options => rfl
  | reset => rfl
  | operate keeps unreset =>
    rw [Order.epochAfter_of_keeps keeps]
    exact (r.continues_performAll unreset).epoch

end Registry

namespace Desk

variable {d : Desk} {label : String}

theorem saveSheet_registry (d : Desk) (label : Option String) (sheet : Sheet) :
    (d.saveSheet label sheet).registry = d.registry := by
  cases label <;> rfl

theorem saveSheet_drafts (d : Desk) (label : Option String) (sheet : Sheet) :
    (d.saveSheet label sheet).drafts = d.drafts := by
  cases label <;> rfl

theorem resolve_registry (d : Desk) (draft : Draft) :
    (d.resolve draft).2.registry = d.registry ∨ ∃ start,
      (d.resolve draft).2.registry = d.registry.perform (.resolve (draft.query start)) := by
  change (draft.resolve d.registry).2 = _ ∨ ∃ start, (draft.resolve d.registry).2 = _
  rw [Draft.resolve]
  cases draft.start? d.registry with
  | error fault => exact .inl rfl
  | ok start => exact .inr ⟨start, rfl⟩

theorem resolve_moves {order : Order} (h : order.clears = false) (draft : Draft) :
    d.registry.Moves order (d.resolve draft).2.registry := by
  rcases d.resolve_registry draft with he | ⟨start, he⟩
  · exact .of_eq h he
  · rw [he]
    exact .of_operation h (fun he => by cases he)

/-- All that one order does to the registry is a move of it. -/
theorem step_moves (d : Desk) (order : Order) :
    d.registry.Moves order (d.step order).2.registry := by
  cases order with
  | configure options => exact .configure options
  | reset => exact .reset
  | change ns change label =>
    have hperform : (d.step (.change ns change label)).2.registry =
        d.registry.perform (.change ns change) := by
      rw [step, Registry.perform]
      cases d.registry.apply ns change with
      | error fault => rfl
      | ok changed => exact saveSheet_registry _ label _
    rw [hperform]
    exact .of_operation rfl (fun he => by cases he)
  | resolve sheet selector stages =>
    rw [step]
    cases d.sheet? sheet with
    | none => exact .of_eq rfl rfl
    | some sheet => exact resolve_moves rfl _
  | draft sheet selector stages label =>
    rw [step]
    cases d.sheet? sheet with
    | none => exact .of_eq rfl rfl
    | some sheet => exact .of_eq rfl rfl
  | resolveDraft label =>
    rw [step]
    cases d.drafts.get? label with
    | none => exact .of_eq rfl rfl
    | some draft => exact resolve_moves rfl draft
  | compare a b =>
    rw [step]
    exact .of_eq rfl (by split <;> rfl)
  | state ns => exact .of_eq rfl rfl

def after (d : Desk) (orders : List Order) : Desk := (d.run orders).2

@[simp] theorem after_nil (d : Desk) : d.after [] = d := rfl

@[simp] theorem after_cons (d : Desk) (order : Order) (orders : List Order) :
    d.after (order :: orders) = (d.step order).2.after orders := rfl

theorem reachable_after (h : d.registry.Reachable) (orders : List Order) :
    (d.after orders).registry.Reachable := by
  induction orders generalizing d with
  | nil => exact h
  | cons order rest ih => exact ih ((d.step_moves order).reachable h)

theorem reachable_new_after (options : Options) (orders : List Order) :
    ((Desk.new options).after orders).registry.Reachable :=
  reachable_after (.new options) orders

theorem epoch_after (d : Desk) (orders : List Order) :
    (d.after orders).registry.epoch = Order.epochAfterAll d.registry.epoch orders := by
  induction orders generalizing d with
  | nil => rfl
  | cons order rest ih =>
    rw [after_cons, ih, (d.step_moves order).epoch]
    rfl

theorem continues_after (d : Desk) {orders : List Order}
    (h : ∀ order ∈ orders, order.clears = false) :
    d.registry.Continues (d.after orders).registry := by
  induction orders generalizing d with
  | nil => exact .refl d.registry
  | cons order rest ih =>
    obtain ⟨hfirst, hrest⟩ := List.forall_mem_cons.1 h
    exact ((d.step_moves order).continues hfirst).trans (ih _ hrest)

end Desk

end Stylebook
