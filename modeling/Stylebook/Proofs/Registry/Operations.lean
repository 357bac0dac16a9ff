import Stylebook.Proofs.Registry.Reachable

namespace Stylebook

/-- What is done to a registry. Only looking things up is left out, which does nothing to it. -/
inductive Operation
  | change (ns : Option String) (change : Change)
  | reset
  | expand (text : String)
  | paths (q : Query)
  | resolve (q : Query)

namespace Registry

variable {r r' : Registry} {ns : Option String} {handle : Handle}

/-- A change that is refused leaves the registry as it is. -/
def perform (r : Registry) : Operation → Registry
  | .change ns change =>
    match r.apply ns change with
    | .error _ => r
    | .ok (_, changed) => changed
  | .reset => r.reset
  | .expand text => (r.expand text).2
  | .paths q => (q.paths r).2
  | .resolve q => (q.resolve r).2

def performAll (r : Registry) (operations : List Operation) : Registry :=
  operations.foldl perform r

@[simp] theorem performAll_nil (r : Registry) : r.performAll [] = r := rfl

@[simp] theorem performAll_cons (r : Registry) (operation : Operation)
    (operations : List Operation) :
    r.performAll (operation :: operations) = (r.perform operation).performAll operations := rfl

theorem performAll_append (r : Registry) (before after : List Operation) :
    r.performAll (before ++ after) = (r.performAll before).performAll after :=
  List.foldl_append

theorem performAll_concat (r : Registry) (operations : List Operation) (operation : Operation) :
    r.performAll (operations ++ [operation]) = (r.performAll operations).perform operation :=
  r.performAll_append operations [operation]

theorem perform_change (r : Registry) (ns : Option String) (change : Change) :
    r.perform (.change ns change) = r ∨
      ∃ handle, r.apply ns change = .ok (handle, r.perform (.change ns change)) := by
  rw [perform]
  cases h : r.apply ns change with
  | error fault => exact .inl rfl
  | ok changed => exact .inr ⟨changed.1, rfl⟩

theorem Reachable.perform (h : r.Reachable) (operation : Operation) :
    (r.perform operation).Reachable := by
  cases operation with
  | change ns change =>
    rcases r.perform_change ns change with he | ⟨handle, applied⟩
    · rw [he]
      exact h
    · exact h.change applied
  | reset => exact h.reset
  | expand text => exact h.expand text
  | paths q => exact h.paths q
  | resolve q => exact h.resolve q

theorem Reachable.performAll (h : r.Reachable) (operations : List Operation) :
    (r.performAll operations).Reachable := by
  induction operations generalizing r with
  | nil => exact h
  | cons operation rest ih => exact ih (h.perform operation)

theorem reachable_iff_performAll :
    r.Reachable ↔ ∃ options operations, r = (Registry.new options).performAll operations := by
  constructor
  · intro h
    induction h with
    | new options => exact ⟨options, [], rfl⟩
    | @change r r' ns change handle before applied ih =>
      obtain ⟨options, operations, rfl⟩ := ih
      refine ⟨options, operations ++ [.change ns change], ?_⟩
      rw [performAll_concat, Registry.perform, applied]
    | reset before ih =>
      obtain ⟨options, operations, rfl⟩ := ih
      exact ⟨options, _, (performAll_concat _ operations .reset).symm⟩
    | expand before text ih =>
      obtain ⟨options, operations, rfl⟩ := ih
      exact ⟨options, _, (performAll_concat _ operations (.expand text)).symm⟩
    | paths before q ih =>
      obtain ⟨options, operations, rfl⟩ := ih
      exact ⟨options, _, (performAll_concat _ operations (.paths q)).symm⟩
    | resolve before q ih =>
      obtain ⟨options, operations, rfl⟩ := ih
      exact ⟨options, _, (performAll_concat _ operations (.resolve q)).symm⟩
  · rintro ⟨options, operations, rfl⟩
    exact (Reachable.new options).performAll operations

theorem apply_eq_ok {change : Change} (h : r.apply ns change = .ok (handle, r')) :
    ∃ edit, r.modifyScope ns edit = (handle, r') := by
  cases change with
  | register tree =>
    obtain ⟨nodes, _, he⟩ := register_eq_ok h
    exact ⟨_, he⟩
  | registerSketches sketches =>
    obtain ⟨nodes, _, he⟩ := register_eq_ok h
    exact ⟨_, he⟩
  | defineVariables vars => cases h; exact ⟨_, rfl⟩
  | defineMixin name mixin => cases h; exact ⟨_, rfl⟩

@[simp] theorem modifyAt_epoch (r : Registry) (edit : Scope → Scope) (slot : Nat) :
    (r.modifyAt edit slot).epoch = r.epoch := by
  cases slot <;> rfl

@[simp] theorem modifyAt_handle? (r : Registry) (edit : Scope → Scope) (slot : Nat)
    (name : String) : (r.modifyAt edit slot).handle? name = r.handle? name := by
  cases slot <;> rfl

@[simp] theorem ensure_epoch (r : Registry) (ns : Option String) :
    (r.ensure ns).epoch = r.epoch := by
  cases ns with
  | none => rfl
  | some name =>
    rw [ensure]
    cases r.handle? name <;> rfl

theorem handle?_ensure (r : Registry) (name : String) :
    (r.ensure (some name)).handle? name = some (r.handleFor (some name)) := by
  rw [handleFor]
  cases hn : r.handle? name with
  | some handle => simp only [Registry.ensure, hn, Option.getD_some]
  | none =>
    rw [ensure_of_new hn, Option.getD_none]
    exact (Dict.get?_insert _ _ _ _).trans (if_pos rfl)

/-- The epoch is the same, and every namespace that is there keeps its handle. -/
structure Continues (r r' : Registry) : Prop where
  epoch : r'.epoch = r.epoch
  handles : ∀ name handle, r.handle? name = some handle → r'.handle? name = some handle

theorem Continues.refl (r : Registry) : r.Continues r :=
  ⟨rfl, fun _ _ h => h⟩

theorem Continues.trans {r'' : Registry} (h : r.Continues r') (h' : r'.Continues r'') :
    r.Continues r'' := by
  constructor
  · exact h'.epoch.trans h.epoch
  · intro name handle hn
    exact h'.handles name handle (h.handles name handle hn)

theorem continues_ensure (r : Registry) (ns : Option String) : r.Continues (r.ensure ns) := by
  constructor
  · exact r.ensure_epoch ns
  · intro own handle hn
    cases ns with
    | none => exact hn
    | some name =>
      cases hname : r.handle? name with
      | some other => simp only [Registry.ensure, hname]; exact hn
      | none =>
        have hne : own ≠ name := by
          rintro rfl
          rw [hn] at hname
          cases hname
        rw [ensure_of_new hname]
        exact (Dict.get?_insert _ _ _ _).trans ((if_neg hne).trans hn)

theorem continues_modifyAt (r : Registry) (edit : Scope → Scope) (slot : Nat) :
    r.Continues (r.modifyAt edit slot) where
  epoch := modifyAt_epoch r edit slot
  handles := by
    intro name handle hn
    rwa [modifyAt_handle?]

theorem continues_apply {change : Change} (h : r.apply ns change = .ok (handle, r')) :
    r.Continues r' := by
  obtain ⟨edit, he⟩ := apply_eq_ok h
  obtain ⟨_, rfl⟩ := Prod.mk.inj he
  exact (r.continues_ensure ns).trans (continues_modifyAt _ edit _)

theorem continues_perform (r : Registry) {operation : Operation} (h : operation ≠ .reset) :
    r.Continues (r.perform operation) := by
  cases operation with
  | change ns change =>
    rcases r.perform_change ns change with he | ⟨handle, applied⟩
    · rw [he]
      exact .refl r
    · exact continues_apply applied
  | reset => exact absurd rfl h
  | expand text => exact ⟨rfl, fun _ _ hn => hn⟩
  | paths q => exact ⟨rfl, fun _ _ hn => hn⟩
  | resolve q =>
    rw [perform, Query.resolve_eq_conclude]
    exact ⟨rfl, fun _ _ hn => hn⟩

theorem continues_performAll (r : Registry) {operations : List Operation}
    (h : .reset ∉ operations) : r.Continues (r.performAll operations) := by
  induction operations generalizing r with
  | nil => exact .refl r
  | cons operation rest ih =>
    have hfirst : operation ≠ .reset := by
      rintro rfl
      exact h List.mem_cons_self
    have hrest : .reset ∉ rest := fun hmem => h (List.mem_cons_of_mem _ hmem)
    exact (r.continues_perform hfirst).trans (ih _ hrest)

theorem epoch_le_perform (r : Registry) (operation : Operation) :
    r.epoch ≤ (r.perform operation).epoch := by
  by_cases h : operation = .reset
  · subst h
    exact Nat.le_succ r.epoch
  · exact Nat.le_of_eq (r.continues_perform h).epoch.symm

theorem epoch_le_performAll (r : Registry) (operations : List Operation) :
    r.epoch ≤ (r.performAll operations).epoch := by
  induction operations generalizing r with
  | nil => exact Nat.le_refl r.epoch
  | cons operation rest ih => exact Nat.le_trans (r.epoch_le_perform operation) (ih _)

theorem epoch_lt_of_reset (r : Registry) {operations : List Operation}
    (h : .reset ∈ operations) : r.epoch < (r.performAll operations).epoch := by
  obtain ⟨before, after, rfl⟩ := List.append_of_mem h
  rw [performAll_append, performAll_cons]
  have hbefore := r.epoch_le_performAll before
  have hafter := ((r.performAll before).perform .reset).epoch_le_performAll after
  have hreset : ((r.performAll before).perform .reset).epoch = (r.performAll before).epoch + 1 :=
    rfl
  omega

end Registry

end Stylebook
