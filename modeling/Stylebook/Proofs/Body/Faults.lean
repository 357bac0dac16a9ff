import Stylebook.Proofs.Body.Asking

namespace Stylebook

variable {α : Type} {c : Context} {fault : Fault} {p : Progress}

theorem Program.reaches_fail {program : Program α} (h : (program.run c p).1 = .error fault) :
    ∃ q, program.Reaches c p (.fail fault) q := by
  induction program generalizing p with
  | done result => cases h
  | fail own =>
    cases h
    exact ⟨p, .here⟩
  | collect attributes next ih =>
    obtain ⟨q, reaches⟩ := ih h
    exact ⟨q, .collect reaches⟩
  | collected next ih =>
    obtain ⟨q, reaches⟩ := ih p.collected h
    exact ⟨q, .collected reaches⟩
  | callMixin name arguments next ih =>
    rw [run_callMixin] at h
    obtain ⟨q, reaches⟩ := ih _ h
    exact ⟨q, .callMixin rfl reaches⟩
  | inclusion selector next ih =>
    rw [run_inclusion] at h
    obtain ⟨q, reaches⟩ := ih _ h
    exact ⟨q, .inclusion rfl reaches⟩

theorem Body.conclude_eq_error {x : Except Fault Attributes × Progress}
    (h : (Body.conclude x).1 = .error fault) : x.1 = .error fault := by
  obtain ⟨result, q⟩ := x
  cases result with
  | ok returned => cases h
  | error own => exact h

theorem Body.exists_of_conclude_eq_ok {x : Except Fault Attributes × Progress}
    {attributes : Attributes} (h : (Body.conclude x).1 = .ok attributes) :
    ∃ returned, x.1 = .ok returned := by
  obtain ⟨result, q⟩ := x
  cases result with
  | ok returned => exact ⟨returned, rfl⟩
  | error own => cases h

def Resolving.Succeeds (resolving : Resolving) (e : Evaluation) : Prop :=
  ∃ attributes, (resolving e).1 = .ok attributes

theorem Resolving.succeeds_or_fails (resolving : Resolving) (e : Evaluation) :
    resolving.Succeeds e ∨ ∃ fault after, resolving e = (.error fault, after) := by
  cases h : resolving e with
  | mk answer after =>
    cases answer with
    | ok attributes => exact .inl ⟨attributes, congrArg Prod.fst h⟩
    | error fault => exact .inr ⟨fault, after, rfl⟩

namespace Recipe

variable {setting : Setting} {resolve : Handle → Path → Resolving} {recipe base : Recipe}
  {e now : Evaluation} {owner : Handle} {path : Path} {program : Program Attributes}

/-- A body fails with a fault that no request of the recipe was answered with. -/
def Throws (setting : Setting) (resolve : Handle → Path → Resolving) (recipe : Recipe)
    (e : Evaluation) (fault : Fault) : Prop :=
  (∃ owner p, recipe.Runs setting resolve e owner (.fail fault) p) ∧
    ∀ owner path now, recipe.Asks setting resolve e owner path now →
      (resolve owner path now).1 ≠ .error fault

/-- A body goes on after an inclusion that fails, and comes to something. -/
def Recovers (setting : Setting) (resolve : Handle → Path → Resolving) (recipe : Recipe)
    (e : Evaluation) : Prop :=
  ∃ owner selector next p fault after returned,
    recipe.Runs setting resolve e owner (.inclusion selector next) p ∧
    (Context.ofOwner setting resolve owner).inclusion selector p = (some fault, after) ∧
    ((next (some fault)).run (Context.ofOwner setting resolve owner) after).1 = .ok returned

theorem runs_fail (h : (recipe.invoke setting resolve e).1 = .error fault) :
    ∃ owner p, recipe.Runs setting resolve e owner (.fail fault) p := by
  induction recipe generalizing e with
  | fixed attributes => cases h
  | run owner body =>
    obtain ⟨p, reaches⟩ := Program.reaches_fail (Body.conclude_eq_error h)
    exact ⟨owner, p, .run reaches⟩
  | layered base top ihbase ihtop =>
    cases hx : base.invoke setting resolve e with
    | mk answer after =>
      cases answer with
      | error own =>
        rw [invoke_layered_error hx] at h
        cases h
        obtain ⟨owner, p, runs⟩ := ihbase (congrArg Prod.fst hx)
        exact ⟨owner, p, .base runs⟩
      | ok below =>
        rw [invoke_layered_ok hx] at h
        cases hy : (top.invoke setting resolve after).1 with
        | ok above =>
          rw [hy] at h
          cases h
        | error own =>
          rw [hy] at h
          cases h
          obtain ⟨owner, p, runs⟩ := ihtop hy
          exact ⟨owner, p, .top hx runs⟩

/-- An invocation that fails throws the fault itself, or it was the answer to a request. -/
theorem throws_or_answered (h : (recipe.invoke setting resolve e).1 = .error fault) :
    recipe.Throws setting resolve e fault ∨
      ∃ owner path now, recipe.Asks setting resolve e owner path now ∧
        (resolve owner path now).1 = .error fault := by
  by_cases answered : ∃ owner path now, recipe.Asks setting resolve e owner path now ∧
      (resolve owner path now).1 = .error fault
  · exact .inr answered
  · exact .inl ⟨runs_fail h, fun owner path now asks he => answered ⟨owner, path, now, asks, he⟩⟩

theorem base_succeeds {top : Recipe} (h : ((layered base top).invoke setting resolve).Succeeds e) :
    (base.invoke setting resolve).Succeeds e := by
  obtain ⟨attributes, h⟩ := h
  rcases (base.invoke setting resolve).succeeds_or_fails e with hok | ⟨fault, after, hx⟩
  · exact hok
  · rw [invoke_layered_error hx] at h
    cases h

theorem top_succeeds {top : Recipe} {below : Attributes} {after : Evaluation}
    (base_ok : base.invoke setting resolve e = (.ok below, after))
    (h : ((layered base top).invoke setting resolve).Succeeds e) :
    (top.invoke setting resolve).Succeeds after := by
  obtain ⟨attributes, h⟩ := h
  rcases (top.invoke setting resolve).succeeds_or_fails after with hok | ⟨fault, last, hx⟩
  · exact hok
  · rw [invoke_layered_ok base_ok, hx] at h
    cases h

theorem Runs.succeeds (runs : recipe.Runs setting resolve e owner program p)
    (h : (recipe.invoke setting resolve).Succeeds e) :
    ∃ returned, (program.run (Context.ofOwner setting resolve owner) p).1 = .ok returned := by
  induction runs with
  | run reaches =>
    obtain ⟨attributes, h⟩ := h
    rw [← reaches.run_eq]
    exact Body.exists_of_conclude_eq_ok h
  | base runs ih => exact ih (base_succeeds h)
  | top base_ok runs ih => exact ih (top_succeeds base_ok h)

end Recipe

theorem Context.pathsAsk_succeeds {paths : List Path} {path : Path} {collected : Attributes}
    {e now : Evaluation} (asks : PathsAsk c.resolve paths e path now)
    (h : (c.includeAll paths ⟨collected, e⟩).1 = none) : (c.resolve path).Succeeds now := by
  induction asks generalizing collected with
  | @here path rest e =>
    rcases (c.resolve path).succeeds_or_fails e with hok | ⟨fault, after, hx⟩
    · exact hok
    · simp only [includeAll, hx] at h
      cases h
  | later first_ok asks ih =>
    simp only [includeAll, first_ok] at h
    exact ih h

/-- Nothing fails that an invocation asks for, if it comes to something and does not recover. -/
theorem Recipe.Asks.succeeds {setting : Setting} {resolve : Handle → Path → Resolving}
    {recipe : Recipe} {e now : Evaluation} {owner : Handle} {path : Path}
    (asks : recipe.Asks setting resolve e owner path now)
    (h : (recipe.invoke setting resolve).Succeeds e)
    (hnever : ¬ recipe.Recovers setting resolve e) : (resolve owner path).Succeeds now := by
  obtain ⟨selector, next, p, runs, asks⟩ := asks
  cases hx : (Context.ofOwner setting resolve owner).inclusion selector p with
  | mk result after =>
    cases result with
    | none => exact Context.pathsAsk_succeeds asks (congrArg Prod.fst hx)
    | some fault =>
      obtain ⟨returned, hreturned⟩ := runs.succeeds h
      rw [Program.run_inclusion, hx] at hreturned
      exact absurd ⟨owner, selector, next, p, fault, after, returned, runs, hx, hreturned⟩ hnever

theorem Resolving.mergeAll_failed {resolve : Path → Resolving} {paths : List Path}
    {merged : Attributes} {e : Evaluation}
    (h : (mergeAll resolve paths merged e).1 = .error fault) :
    ∃ path now, PathsAsk resolve paths e path now ∧ (resolve path now).1 = .error fault := by
  induction paths generalizing merged e with
  | nil => cases h
  | cons path rest ih =>
    cases hx : resolve path e with
    | mk answer after =>
      cases answer with
      | error own =>
        rw [mergeAll_cons_error hx] at h
        cases h
        exact ⟨path, e, .here, congrArg Prod.fst hx⟩
      | ok attributes =>
        simp only [mergeAll, hx] at h
        obtain ⟨path', now, asks, he⟩ := ih h
        exact ⟨path', now, .later hx asks, he⟩

theorem Resolving.pathsAsk_succeeds {answer : Path → Resolving} {paths : List Path} {path : Path}
    {merged : Attributes} {e now : Evaluation} (asks : PathsAsk answer paths e path now)
    (h : (mergeAll answer paths merged).Succeeds e) : (answer path).Succeeds now := by
  induction asks generalizing merged with
  | @here path rest e =>
    obtain ⟨attributes, h⟩ := h
    rcases (answer path).succeeds_or_fails e with hok | ⟨fault, after, hx⟩
    · exact hok
    · rw [mergeAll_cons_error hx] at h
      cases h
  | later first_ok asks ih =>
    simp only [Succeeds, mergeAll, first_ok] at h
    exact ih h

end Stylebook
