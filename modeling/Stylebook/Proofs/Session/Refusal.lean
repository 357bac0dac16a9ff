import Stylebook.Proofs.Registry.Remembering

namespace Stylebook

section Runs

variable {State Step Reply Seen : Type} {step : State → Step → Reply × State}
  {R : State → State → Prop} {see : Reply → Seen} {s s' : State}

theorem runAll_append (step : State → Step → Reply × State) (s : State) (before after : List Step) :
    runAll step s (before ++ after) =
      ((runAll step s before).1 ++ (runAll step (runAll step s before).2 after).1,
        (runAll step (runAll step s before).2 after).2) := by
  induction before generalizing s with
  | nil => rfl
  | cons first rest ih =>
    exact congrArg (fun later => ((step s first).1 :: later.1, later.2)) (ih (step s first).2)

theorem length_runAll (step : State → Step → Reply × State) (s : State) (steps : List Step) :
    (runAll step s steps).1.length = steps.length := by
  induction steps generalizing s with
  | nil => rfl
  | cons first rest ih => exact congrArg (· + 1) (ih (step s first).2)

/-- A step is answered alike in related states, as far as can be seen, and leaves them related. -/
def AnsweredAlike (step : State → Step → Reply × State) (R : State → State → Prop)
    (see : Reply → Seen) : Prop :=
  ∀ s s' next, R s s' → see (step s' next).1 = see (step s next).1 ∧
    R (step s next).2 (step s' next).2

theorem answeredAlike_eq (step : State → Step → Reply × State) : AnsweredAlike step Eq id := by
  rintro s _ next rfl
  exact ⟨rfl, rfl⟩

theorem AnsweredAlike.runAll (h : AnsweredAlike step R see) (hs : R s s') (steps : List Step) :
    (runAll step s' steps).1.map see = (runAll step s steps).1.map see ∧
      R (runAll step s steps).2 (runAll step s' steps).2 := by
  induction steps generalizing s s' with
  | nil => exact ⟨rfl, hs⟩
  | cons first rest ih =>
    obtain ⟨hfirst, hafter⟩ := h s s' first hs
    obtain ⟨hrest, hlast⟩ := ih hafter
    refine ⟨?_, hlast⟩
    rw [Stylebook.runAll, Stylebook.runAll, List.map_cons, List.map_cons, hfirst, hrest]

/-- A step that leads to a related state can be left out of a run. -/
theorem AnsweredAlike.erase (h : AnsweredAlike step R see) (before : List Step) (gone : Step)
    (after : List Step)
    (hgone : R (Stylebook.runAll step s before).2
      (step (Stylebook.runAll step s before).2 gone).2) :
    (((Stylebook.runAll step s (before ++ gone :: after)).1.eraseIdx before.length).map see =
        (Stylebook.runAll step s (before ++ after)).1.map see) ∧
      R (Stylebook.runAll step s (before ++ after)).2
        (Stylebook.runAll step s (before ++ gone :: after)).2 := by
  obtain ⟨hafter, hlast⟩ := h.runAll hgone after
  have hlength := length_runAll step s before
  rw [runAll_append, runAll_append]
  refine ⟨?_, hlast⟩
  rw [Stylebook.runAll, ← hlength]
  simp only [List.eraseIdx_append_of_length_le (Nat.le_refl _), Nat.sub_self, List.eraseIdx_zero,
    List.tail_cons, List.map_append, hafter]

end Runs

/-- What is left of an answer when it does not matter which slices are the same. -/
def Answer.unshared : Answer → Answer
  | .slice made => .slice ⟨0, made.paths⟩
  | .slices first second => .slices ⟨0, first.paths⟩ ⟨0, second.paths⟩
  | answer => answer

namespace Session

variable {s s' : Session}

/-- The sessions have everything in common but the expansions that they remember. -/
structure OtherMemory (s s' : Session) : Prop where
  registry : s.registry.OtherMemory s'.registry
  saved : s'.saved = s.saved

namespace OtherMemory

theorem refl (h : s.registry.memo.Sound) : s.OtherMemory s := ⟨.refl h, rfl⟩

theorem handle (h : s.OtherMemory s') (place : Place) : s'.handle place = s.handle place := by
  cases place with
  | root => rfl
  | named name => rw [Session.handle, Session.handle, h.registry.handle?]
  | saved label => rw [Session.handle, Session.handle, h.saved]

theorem issued (h : s.OtherMemory s') {r r' : Registry} (other : r.OtherMemory r')
    (handle : Handle) (label : Option String) :
    Answer.issued handle (r'.label handle) = .issued handle (r.label handle) ∧
      ({ s with registry := r }.save label handle).OtherMemory
        ({ s' with registry := r' }.save label handle) := by
  refine ⟨by rw [other.label], ?_⟩
  cases label with
  | none => exact ⟨other, h.saved⟩
  | some label => exact ⟨other, congrArg (fun saved => saved.insert label handle) h.saved⟩

theorem step (h : s.OtherMemory s') (command : Command) :
    (s'.step command).1.unshared = (s.step command).1.unshared ∧
      (s.step command).2.OtherMemory (s'.step command).2 := by
  cases command with
  | renew options =>
    have hsound : (Registry.new options).memo.Sound := Memo.sound_of_empty rfl
    exact ⟨rfl, .refl hsound, h.saved⟩
  | reset => exact ⟨rfl, h.registry.reset, h.saved⟩
  | change ns change label =>
    cases h.registry.apply ns change with
    | refused first second =>
      simp only [Session.step, first, second]
      exact ⟨trivial, h⟩
    | changed first second other =>
      obtain ⟨hanswer, hafter⟩ := h.issued other _ label
      simp only [Session.step, first, second]
      exact ⟨congrArg Answer.unshared hanswer, hafter⟩
  | look start look =>
    rw [Session.step, Session.step, h.handle]
    cases s.handle start with
    | error answer => exact ⟨rfl, h⟩
    | ok handle => exact ⟨congrArg Answer.unshared (h.registry.look handle look), h⟩
  | ask start selector stages =>
    rw [Session.step, Session.step, h.handle]
    cases s.handle start with
    | error answer => exact ⟨rfl, h⟩
    | ok handle =>
      refine ⟨congrArg Answer.unshared (h.registry.ask handle selector stages), ?_, h.saved⟩
      exact h.registry.after (Registry.otherMemory_ask h.registry.sound ..)
        (Registry.otherMemory_ask h.registry.sound' ..)
  | findNamespace name =>
    exact ⟨congrArg Answer.unshared (h.registry.consult (.findNamespace name)), h⟩
  | compare a b =>
    rw [Session.step, Session.step, h.handle, h.handle]
    cases s.handle a with
    | error answer => exact ⟨rfl, h⟩
    | ok a =>
      cases s.handle b with
      | error answer => exact ⟨rfl, h⟩
      | ok b => exact ⟨rfl, h⟩
  | expand text =>
    refine ⟨congrArg (fun paths => Answer.slice ⟨0, paths⟩) (h.registry.expand text), ?_, h.saved⟩
    exact h.registry.afterExpand text
  | expandTwice text =>
    have hfirst := h.registry.afterExpand text
    refine ⟨?_, hfirst.afterExpand text, h.saved⟩
    have hunshared : ∀ s : Session, (s.step (.expandTwice text)).1.unshared =
        .slices ⟨0, (s.registry.expand text).1.paths⟩
          ⟨0, ((s.registry.expand text).2.expand text).1.paths⟩ := fun _ => rfl
    rw [hunshared, hunshared, h.registry.expand, hfirst.expand]
  | options => exact ⟨congrArg Answer.unshared (h.registry.consult .options), h⟩

theorem act (h : s.OtherMemory s') (action : Action Command) :
    (s'.act action).1.unshared = (s.act action).1.unshared ∧
      (s.act action).2.OtherMemory (s'.act action).2 := by
  cases action with
  | plain command => exact h.step command
  | make ns factory label =>
    obtain ⟨hresult, hother⟩ := h.registry.registerMade ns factory
    cases hr : s.registry.registerMade ns factory with
    | mk result r =>
      cases hr' : s'.registry.registerMade ns factory with
      | mk result' r' =>
        rw [hr, hr'] at hresult hother
        obtain rfl : result' = result := hresult
        simp only [Session.act, hr, hr']
        cases result' with
        | error fault => exact ⟨rfl, hother, h.saved⟩
        | ok handle =>
          obtain ⟨hanswer, hafter⟩ := h.issued hother handle label
          exact ⟨congrArg Answer.unshared hanswer, hafter⟩

theorem answeredAlike : AnsweredAlike Session.act OtherMemory Answer.unshared :=
  fun _ _ action h => h.act action

end OtherMemory

theorem step_refused {command : Command} {fault : Fault}
    (refused : (s.step command).1 = .refused fault) : (s.step command).2 = s := by
  cases command with
  | change ns change label =>
    rw [step] at refused ⊢
    cases hc : s.registry.apply ns change with
    | error own => rfl
    | ok changed =>
      rw [hc] at refused
      cases refused
  | look start look =>
    rw [step]
    cases s.handle start <;> rfl
  | ask start selector stages =>
    rw [step] at refused ⊢
    cases hs : s.handle start with
    | error answer => rfl
    | ok handle =>
      rw [hs] at refused
      cases refused
  | compare a b =>
    rw [step]
    cases s.handle a with
    | error answer => rfl
    | ok a => cases s.handle b <;> rfl
  | renew options => cases refused
  | reset => cases refused
  | findNamespace name => cases refused
  | expand text => cases refused
  | expandTwice text => cases refused
  | options => cases refused

theorem act_refused {action : Action Command} {fault : Fault} (h : s.registry.memo.Sound)
    (refused : (s.act action).1 = .refused fault) : s.OtherMemory (s.act action).2 := by
  cases action with
  | plain command =>
    have hkept : (s.act (.plain command)).2 = s := step_refused refused
    rw [hkept]
    exact .refl h
  | make ns factory label =>
    cases hr : s.registry.registerMade ns factory with
    | mk result r =>
      simp only [act, hr] at refused ⊢
      cases result with
      | ok handle => cases refused
      | error own =>
        have hother := Registry.otherMemory_of_registerMade_error h (congrArg Prod.fst hr)
        rw [hr] at hother
        exact ⟨hother, rfl⟩

end Session

end Stylebook
