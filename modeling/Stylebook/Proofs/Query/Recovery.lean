import Stylebook.Proofs.Query.Merge

namespace Stylebook

namespace Context

variable {c : Context} {M : Evaluation → Prop} {answer : Path → Except Fault Attributes}
  {before : List Path} {path : Path} {results : List Attributes} {fault : Fault} {p : Progress}

theorem includeAll_ok (p : Progress)
    (hresolve : ∀ path e, M e → (c.resolve path e).1 = answer path ∧ M (c.resolve path e).2)
    (hbefore : before.map answer = results.map Except.ok) (hp : M p.evaluation) :
    ∃ e, M e ∧ c.includeAll before p = (none, ⟨results.foldl Dict.merge p.collected, e⟩) := by
  induction before generalizing p results with
  | nil =>
    obtain rfl : results = [] := List.map_eq_nil_iff.1 hbefore.symm
    exact ⟨p.evaluation, hp, rfl⟩
  | cons first others ih =>
    obtain ⟨hfirst, hafter⟩ := hresolve first p.evaluation hp
    cases results with
    | nil => cases hbefore
    | cons result others' =>
      obtain ⟨hanswer, hothers⟩ := List.cons.inj hbefore
      cases hx : c.resolve first p.evaluation with
      | mk given after =>
        rw [hx] at hfirst hafter
        obtain rfl : given = .ok result := hfirst.trans hanswer
        simp only [includeAll, hx, List.foldl_cons]
        exact ih _ hothers hafter

theorem includeAll_append {p' : Progress} (h : c.includeAll before p = (none, p'))
    (rest : List Path) : c.includeAll (before ++ rest) p = c.includeAll rest p' := by
  induction before generalizing p with
  | nil =>
    cases h
    rfl
  | cons first others ih =>
    cases hx : c.resolve first p.evaluation with
    | mk given after =>
      cases given with
      | error own =>
        simp only [includeAll, hx] at h
        cases h
      | ok attributes =>
        simp only [includeAll, hx] at h
        simp only [List.cons_append, includeAll, hx]
        exact ih h

theorem includeAll_error (p : Progress) (rest : List Path)
    (hresolve : ∀ path e, M e → (c.resolve path e).1 = answer path ∧ M (c.resolve path e).2)
    (hbefore : before.map answer = results.map Except.ok) (hpath : answer path = .error fault)
    (hp : M p.evaluation) :
    ∃ e, M e ∧ c.includeAll (before ++ path :: rest) p =
      (some fault, ⟨results.foldl Dict.merge p.collected, e⟩) := by
  obtain ⟨e, he, hkept⟩ := includeAll_ok p hresolve hbefore hp
  obtain ⟨hfailed, hafter⟩ := hresolve path e he
  refine ⟨(c.resolve path e).2, hafter, ?_⟩
  cases hx : c.resolve path e with
  | mk given after =>
    rw [hx] at hfailed
    obtain rfl : given = .error fault := hfailed.trans hpath
    simp only [includeAll_append hkept, includeAll, hx]

end Context

namespace Evaluation

variable {e e' : Evaluation}

theorem Alike.symm (h : e.Alike e') : e'.Alike e := ⟨h.active.symm, h.sound', h.sound⟩

theorem stable_alike (e : Evaluation) : Stable fun now => now.Alike e :=
  fun _ h text => ⟨h.active, h.sound.expand text, h.sound'⟩

end Evaluation

namespace Registry

variable {r : Registry} {setting : Setting} {active : List Located} {owner : Handle}
  {e e' : Evaluation}

/-- What a body of `owner` works with while `active` are in progress. -/
def context (r : Registry) (setting : Setting) (active : List Located) (owner : Handle) : Context :=
  Context.ofOwner setting (r.resolveFrom setting active) owner

theorem context_resolve (e : Evaluation) (path : Path) (now : Evaluation) (h : now.Alike e) :
    ((r.context setting active owner).resolve path now).1 =
        ((r.context setting active owner).resolve path e).1 ∧
      ((r.context setting active owner).resolve path now).2.Alike e := by
  obtain ⟨hanswer, hafter⟩ := r.resolveFrom_alike setting active owner path h
  exact ⟨hanswer, hafter.trans h⟩

theorem context_inclusion_alike (selector : String) {p : Progress} (hp : p.evaluation.Alike e) :
    ((r.context setting active owner).inclusion selector p).2.evaluation.Alike e :=
  Context.inclusion_keeps e.stable_alike
    (fun path now h => (context_resolve e path now h).2) selector hp

theorem context_run_same {α : Type} (h : e.Alike e') (collected : Attributes)
    (program : Program α) :
    Progress.Same Evaluation.Alike
      (program.run (r.context setting active owner) ⟨collected, e⟩)
      (program.run (r.context setting active owner) ⟨collected, e'⟩) := by
  apply Program.run_same Evaluation.indistinct_alike program h
  intro selector next p path now now' _ _ hnow
  exact r.resolveWithin_alike setting _ owner path hnow

end Registry

/-- Whatever a query asks for, its memory hands out expansions by then. -/
theorem Query.Meets.sound {q : Query} {r : Registry} {request : Query.Request} (hr : r.memo.Sound)
    (h : q.Meets r request) : request.now.memo.Sound := by
  have hexpand : ∀ m : Memo, m.Sound → ∀ text, (m.expand text).2.Sound :=
    fun m hm text => hm.expand text
  have hstable : Evaluation.Stable fun e => e.memo.Sound := fun e he text => he.expand text
  induction h with
  | path asks =>
    apply asks.keeps _ (q.evaluation_alike hr).sound
    intro path now hnow
    exact r.resolveWithin_keeps hexpand _ _ _ path hnow
  | inclusion met begins asks ih =>
    apply asks.keeps hstable _ ih
    intro owner path now hnow
    exact r.resolveWithin_keeps hexpand _ _ owner path hnow

namespace Query

variable {q : Query} {r : Registry} {setting : Setting} {active : List Located} {owner : Handle}
  {c : Context} {p : Progress} {selector : String} {before rest : List Path} {path : Path}
  {results : List Attributes} {fault : Fault}

theorem inclusion_of_sound (c : Context) (sound : p.evaluation.memo.Sound) (selector : String) :
    c.inclusion selector p =
      c.includeAll (expand selector) ⟨p.collected, (p.evaluation.expand selector).2⟩ := by
  have hpaths : (p.evaluation.expand selector).1.paths = expand selector :=
    sound.paths_expand selector
  rw [Context.inclusion, ← hpaths]

theorem inclusion_ok (sound : p.evaluation.memo.Sound)
    (hresults : (expand selector).map
        (fun path => ((r.context setting active owner).resolve path p.evaluation).1) =
      results.map Except.ok) :
    ∃ e, (r.context setting active owner).inclusion selector p =
      (none, ⟨results.foldl Dict.merge p.collected, e⟩) := by
  have hexpanded : (p.evaluation.expand selector).2.Alike p.evaluation :=
    p.evaluation.stable_alike _ ⟨rfl, sound, sound⟩ selector
  obtain ⟨e, _, hcollected⟩ := Context.includeAll_ok ⟨p.collected, _⟩
    (Registry.context_resolve p.evaluation) hresults hexpanded
  rw [inclusion_of_sound _ sound]
  exact ⟨e, hcollected⟩

theorem inclusion_failed (sound : p.evaluation.memo.Sound)
    (hselector : expand selector = before ++ path :: rest)
    (hbefore : before.map
        (fun path => ((r.context setting active owner).resolve path p.evaluation).1) =
      results.map Except.ok)
    (hpath : ((r.context setting active owner).resolve path p.evaluation).1 = .error fault) :
    ∃ e e', e.Alike e' ∧
      (r.context setting active owner).inclusion selector p =
        (some fault, ⟨results.foldl Dict.merge p.collected, e⟩) ∧
      (r.context setting active owner).includeAll before p =
        (none, ⟨results.foldl Dict.merge p.collected, e'⟩) := by
  have hp : p.evaluation.Alike p.evaluation := ⟨rfl, sound, sound⟩
  have hexpanded : (p.evaluation.expand selector).2.Alike p.evaluation :=
    p.evaluation.stable_alike _ hp selector
  have hresolve := @Registry.context_resolve r setting active owner p.evaluation
  obtain ⟨e, he, hfailed⟩ :=
    Context.includeAll_error ⟨p.collected, _⟩ rest hresolve hbefore hpath hexpanded
  obtain ⟨e', he', hkept⟩ := Context.includeAll_ok p hresolve hbefore hp
  refine ⟨e, e', he.trans he'.symm, ?_, hkept⟩
  rw [inclusion_of_sound _ sound, hselector, hfailed]

/-- After an inclusion that fails, a body goes on as if only the paths before had been there. -/
structure LeavesNoTrace (context : Context) (p : Progress) (selector : String) : Prop where
  succeeded : ∀ results : List Attributes,
    (expand selector).map (fun path => (context.resolve path p.evaluation).1) =
      results.map Except.ok →
    (context.inclusion selector p).1 = none ∧
      (context.inclusion selector p).2.collected = results.foldl Dict.merge p.collected
  failed : ∀ before path rest (results : List Attributes) fault,
    expand selector = before ++ path :: rest →
    before.map (fun path => (context.resolve path p.evaluation).1) = results.map Except.ok →
    (context.resolve path p.evaluation).1 = .error fault →
    let after := context.inclusion selector p
    let kept := context.includeAll before p
    after.1 = some fault ∧ after.2.collected = results.foldl Dict.merge p.collected ∧
    kept.1 = none ∧ kept.2.collected = after.2.collected ∧
    (∀ {α : Type} (program : Program α) collected, Progress.Same Evaluation.Alike
      (program.run context ⟨collected, after.2.evaluation⟩)
      (program.run context ⟨collected, kept.2.evaluation⟩)) ∧
    ∀ {α : Type} (next : Option Fault → Program α), Progress.Same Evaluation.Alike
      ((Program.inclusion selector next).run context p)
      ((next (some fault)).run context kept.2)
  active : (context.inclusion selector p).2.evaluation.active = p.evaluation.active
  answers : ∀ path, (context.resolve path (context.inclusion selector p).2.evaluation).1 =
    (context.resolve path p.evaluation).1

theorem leavesNoTrace (r : Registry) (setting : Setting) (active : List Located) (owner : Handle)
    (selector : String) (sound : p.evaluation.memo.Sound) :
    LeavesNoTrace (r.context setting active owner) p selector := by
  have halike : ((r.context setting active owner).inclusion selector p).2.evaluation.Alike
      p.evaluation := Registry.context_inclusion_alike selector ⟨rfl, sound, sound⟩
  exact {
    succeeded := by
      intro results hresults
      obtain ⟨e, hafter⟩ := inclusion_ok sound hresults
      rw [hafter]
      exact ⟨rfl, rfl⟩
    failed := by
      intro before path rest results fault hselector hbefore hpath after kept
      obtain ⟨e, e', he, hfailed, hbefore⟩ := inclusion_failed sound hselector hbefore hpath
      have hafter : after = _ := hfailed
      have hkept : kept = _ := hbefore
      rw [hafter, hkept]
      refine ⟨rfl, rfl, rfl, rfl, ?_, ?_⟩
      · intro α program collected
        exact Registry.context_run_same he collected program
      · intro α next
        rw [Program.run_inclusion, hfailed]
        exact Registry.context_run_same he _ (next (some fault))
    active := halike.active
    answers := fun path => (Registry.context_resolve p.evaluation path _ halike).1 }

theorem Meets.sound_of_runs {request : Request} {found : Located} {program : Program Attributes}
    (hr : r.memo.Sound) (met : q.Meets r request)
    (runs : found.recipe.Runs (q.setting r) (q.resolver r (request.now.push found).active)
      (request.now.push found) owner program p) : p.evaluation.memo.Sound := by
  have hstable : Evaluation.Stable fun e => e.memo.Sound := fun e he text => he.expand text
  apply runs.keeps hstable _ (met.sound hr)
  intro owner path now hnow
  exact r.resolveWithin_keeps (fun m hm text => hm.expand text) _ _ owner path hnow

/-- Nothing of a path that fails is left behind by an inclusion, in any body that a query runs. -/
theorem failed_inclusion_leaves_no_trace (r : Registry) :
    (∀ setting owner p selector, p.evaluation.memo.Sound →
      LeavesNoTrace (r.context setting p.evaluation.active owner) p selector) ∧
    (r.Reachable → ∀ (q : Query) request found owner program p selector, q.Meets r request →
      request.Begins r found →
      found.recipe.Runs (q.setting r) (q.resolver r (request.now.push found).active)
        (request.now.push found) owner program p →
      p.evaluation.memo.Sound ∧
        LeavesNoTrace (r.context (q.setting r) (request.now.push found).active owner) p
          selector) := by
  constructor
  · intro setting owner p selector sound
    exact leavesNoTrace r setting _ owner selector sound
  · intro hr q request found owner program p selector met begins runs
    have sound := met.sound_of_runs hr.wellFormed.sound runs
    exact ⟨sound, leavesNoTrace r (q.setting r) _ owner selector sound⟩

def loopProgress : Progress :=
  ⟨∅, ((sampleQuery "loop").evaluation sampleRegistry).push sampleLoop⟩

def loopContext : Context :=
  sampleRegistry.context ((sampleQuery "loop").setting sampleRegistry) [sampleLoop] Handle.root

theorem loop_fails_between_base_and_twice :
    let fault := Fault.cyclic "loop" ["loop", "loop"]
    let selector := "base loop twice"
    let after := loopContext.inclusion selector loopProgress
    let kept := loopContext.includeAll [⟨"base", []⟩] loopProgress
    loopProgress.evaluation.memo.Sound ∧ after.1 = some fault ∧
      after.2.collected = Dict.singleton "width" (.integer 1) ∧
      after.2.evaluation.active = [sampleLoop] ∧
      ∀ next : Option Fault → Program Attributes, Progress.Same Evaluation.Alike
        ((Program.inclusion selector next).run loopContext loopProgress)
        ((next (some fault)).run loopContext kept.2) := by
  intro fault selector after kept
  have hselector : expand selector = [⟨"base", []⟩] ++ ⟨"loop", []⟩ :: [⟨"twice", []⟩] := by
    decide +kernel
  obtain ⟨sound, htrace⟩ := (failed_inclusion_leaves_no_trace sampleRegistry).2
    Registry.reachable_sampleRegistry (sampleQuery "loop") _ sampleLoop Handle.root _ loopProgress
    selector (Meets.first paths_loop) ⟨rfl, Bool.false_ne_true⟩ (.run .here)
  obtain ⟨hfault, hcollected, _, _, _, hnext⟩ :=
    htrace.failed [⟨"base", []⟩] ⟨"loop", []⟩ [⟨"twice", []⟩] [Dict.singleton "width" (.integer 1)]
      fault hselector rfl rfl
  exact ⟨sound, hfault, hcollected, htrace.active, hnext⟩

end Query

end Stylebook
