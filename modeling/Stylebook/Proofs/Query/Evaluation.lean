import Stylebook.Query
import Stylebook.Proofs.Registry.Evaluation

namespace Stylebook

namespace Registry

variable {r r' : Registry}

theorem chain_congr (hscope : r.scope? = r'.scope?) (fuel : Nat) (h : Handle) :
    r.chain fuel h = r'.chain fuel h := by
  induction fuel generalizing h with
  | zero => rfl
  | succ fuel ih =>
    rw [chain, chain, hscope]
    cases r'.scope? h with
    | none => rfl
    | some scope =>
      cases hp : scope.parent with
      | none => simp only [hp]
      | some parent => simp only [hp, ih parent]

theorem ancestors_congr (hscope : r.scope? = r'.scope?)
    (hlength : r.namespaces.length = r'.namespaces.length) (h : Handle) :
    r.ancestors h = r'.ancestors h := by
  rw [ancestors, ancestors, hlength, chain_congr hscope]

theorem lookup?_congr (hscope : r.scope? = r'.scope?)
    (hlength : r.namespaces.length = r'.namespaces.length) (h : Handle) (name : String) :
    r.lookup? h name = r'.lookup? h name := by
  rw [lookup?, lookup?, ancestors_congr hscope hlength]

theorem mixin?_congr (hscope : r.scope? = r'.scope?)
    (hlength : r.namespaces.length = r'.namespaces.length) (h : Handle) (name : String) :
    r.mixin? h name = r'.mixin? h name := by
  rw [mixin?, mixin?, ancestors_congr hscope hlength]

theorem scope?_memo (r : Registry) (m : Memo) : { r with memo := m }.scope? = r.scope? := rfl

theorem ancestors_memo (r : Registry) (m : Memo) (h : Handle) :
    { r with memo := m }.ancestors h = r.ancestors h :=
  ancestors_congr (r.scope?_memo m) rfl h

theorem mixin?_memo (r : Registry) (m : Memo) (h : Handle) (name : String) :
    { r with memo := m }.mixin? h name = r.mixin? h name :=
  mixin?_congr (r.scope?_memo m) rfl h name

theorem resolveWithin_memo (r : Registry) (m : Memo) (setting : Setting) (spare : Nat) :
    { r with memo := m }.resolveWithin setting spare = r.resolveWithin setting spare := by
  induction spare with
  | zero => rfl
  | succ spare ih =>
    funext owner path e
    have hl : { r with memo := m }.locate path owner = r.locate path owner := rfl
    rw [resolveWithin, resolveWithin, hl, ih]

end Registry

namespace Query

variable {q : Query} {r : Registry}

theorem setting_congr (q : Query) {r r' : Registry} (hscope : r.scope? = r'.scope?)
    (hlength : r.namespaces.length = r'.namespaces.length) : q.setting r = q.setting r' := by
  have hlookup : r.lookup? q.start = r'.lookup? q.start :=
    funext fun name => Registry.lookup?_congr hscope hlength q.start name
  have hmixin : r.mixin? = r'.mixin? :=
    funext fun h => funext fun name => Registry.mixin?_congr hscope hlength h name
  rw [setting, setting, hlookup, hmixin]

theorem setting_memo (q : Query) (r : Registry) (m : Memo) :
    q.setting { r with memo := m } = q.setting r :=
  q.setting_congr (r.scope?_memo m) rfl

def resolver (q : Query) (r : Registry) (active : List Located) : Handle → Path → Resolving :=
  r.resolveFrom (q.setting r) active

/-- The evaluation that a query begins with, once its selector is expanded. -/
def evaluation (q : Query) (r : Registry) : Evaluation := Evaluation.start (q.paths r).2.memo

theorem resolvePaths_memo (q : Query) (r : Registry) (m : Memo) (paths : List Path) :
    q.resolvePaths { r with memo := m } paths = q.mergePaths (q.resolver r [] q.start) paths := by
  rw [resolvePaths, setting_memo, Registry.resolvePath, Registry.resolveWithin_memo]
  rfl

theorem mergeStaged_eq (q : Query) (resolve : Path → Resolving) (paths : List Path)
    (e : Evaluation) :
    q.mergeStaged resolve paths e =
      ((Resolving.mergeAll resolve paths ∅ e).1.map fun merged =>
          merged.merge (q.staged.getD ∅),
        (Resolving.mergeAll resolve paths ∅ e).2) := by
  rw [mergeStaged]
  cases Resolving.mergeAll resolve paths ∅ e with
  | mk answer after => cases answer <;> rfl

theorem mergePaths_eq_mergeStaged (q : Query) (resolve : Path → Resolving) (paths : List Path) :
    q.mergePaths resolve paths = q.mergeStaged resolve paths := by
  unfold mergePaths
  split
  · next path hs =>
    funext e
    rw [mergeStaged_eq, Resolving.mergeAll_singleton, hs]
    cases resolve path e with
    | mk answer after => cases answer <;> rfl
  · rfl

def conclude (q : Query) (r : Registry) (merged : Except Fault Attributes × Evaluation) :
    Except Fault Attributes × Registry :=
  (merged.1.map fun attributes => attributes.merge (q.staged.getD ∅),
    { r with memo := merged.2.memo })

theorem conclude_mergeAll (q : Query) (r : Registry) (resolve : Path → Resolving) :
    q.conclude r (Resolving.mergeAll resolve (q.paths r).1 ∅ (q.evaluation r)) =
      ((q.mergePaths resolve (q.paths r).1 (q.evaluation r)).1,
        { r with memo := (q.mergePaths resolve (q.paths r).1 (q.evaluation r)).2.memo }) := by
  rw [mergePaths_eq_mergeStaged, mergeStaged_eq]
  rfl

theorem resolve_eq_conclude (q : Query) (r : Registry) :
    q.resolve r =
      q.conclude r (Resolving.mergeAll (q.resolver r [] q.start) (q.paths r).1 ∅
        (q.evaluation r)) := by
  rw [conclude_mergeAll, ← resolvePaths_memo q r (q.paths r).2.memo]
  rfl

theorem resolve_keeps {P : Memo → Prop} (hP : ∀ m, P m → ∀ text, P (m.expand text).2)
    (hr : P r.memo) (q : Query) : P (q.resolve r).2.memo := by
  have hsame : Resolving.Same (fun e e' => e = e' ∧ P e.memo)
      (Resolving.mergeAll (q.resolver r [] q.start) (q.paths r).1 ∅ (q.evaluation r))
      (Resolving.mergeAll (q.resolver r [] q.start) (q.paths r).1 ∅ (q.evaluation r)) := by
    apply Resolving.mergeAll_same ∅ ⟨rfl, Memo.expandAll_keeps hP hr q.selector.parts⟩
    rintro path n _ _ ⟨rfl, hn⟩
    exact ⟨_, _, _, rfl, rfl, rfl, r.resolveWithin_keeps hP _ _ q.start path hn⟩
  obtain ⟨answer, n, n', hx, _, _, hn⟩ := hsame
  rw [resolve_eq_conclude, conclude, hx]
  exact hn

theorem resolve_of_missing {first : Path} {rest : List Path} {fault : Fault}
    (hpaths : (q.paths r).1 = first :: rest) (hmissing : r.locate first q.start = .error fault) :
    (q.resolve r).1 = .error fault := by
  have hfirst : q.resolver r [] q.start first (q.evaluation r) = (.error fault, q.evaluation r) :=
    Registry.resolveWithin_missing hmissing _
  rw [resolve_eq_conclude, conclude, hpaths, Resolving.mergeAll_cons_error hfirst]
  rfl

/-- The query comes to `x` by derivations for the paths that it asks for. -/
def Evaluates (q : Query) (r : Registry) (x : Except Fault Attributes × Registry) : Prop :=
  ∃ resolve : Path → Resolving,
    (∀ path now, PathsAsk resolve (q.paths r).1 (q.evaluation r) path now →
      r.Resolves (q.setting r) q.start path now (resolve path now)) ∧
    x = ((q.mergePaths resolve (q.paths r).1 (q.evaluation r)).1,
      { r with memo := (q.mergePaths resolve (q.paths r).1 (q.evaluation r)).2.memo })

theorem resolves_iff_resolver {path : Path} {now : Evaluation} (h : now.active = [])
    {x : Except Fault Attributes × Evaluation} :
    r.Resolves (q.setting r) q.start path now x ↔ x = q.resolver r [] q.start path now := by
  have hstack : r.IsStack now.active := by
    rw [h]
    exact r.isStack_nil
  rw [hstack.resolves_iff, h]
  rfl

theorem resolver_active (q : Query) (r : Registry) (active : List Located) (owner : Handle)
    (path : Path) (e : Evaluation) : (q.resolver r active owner path e).2.active = e.active :=
  r.resolveWithin_active (q.setting r) _ owner path e

theorem resolver_alike (q : Query) (path : Path) (e : Evaluation)
    (h : e.Alike (Evaluation.start r.memo)) :
    (q.resolver r [] q.start path e).1 =
        (q.resolver r [] q.start path (Evaluation.start r.memo)).1 ∧
      (q.resolver r [] q.start path e).2.Alike (Evaluation.start r.memo) := by
  obtain ⟨hanswer, hafter⟩ := r.resolveFrom_alike (q.setting r) [] q.start path h
  exact ⟨hanswer, hafter.trans h⟩

theorem evaluation_alike (hr : r.memo.Sound) (q : Query) :
    (q.evaluation r).Alike (Evaluation.start r.memo) :=
  ⟨rfl, (hr.expandAll q.selector.parts).2, hr⟩

theorem evaluates_iff (q : Query) (r : Registry) (x : Except Fault Attributes × Registry) :
    q.Evaluates r x ↔ x = q.resolve r := by
  rw [resolve_eq_conclude]
  constructor
  · rintro ⟨resolve, hres, rfl⟩
    -- nothing is in progress when a path of the query is asked for, so its derivation is unique
    have hsame : Resolving.Same (fun n n' => n = n' ∧ n.active = [])
        (Resolving.mergeAll resolve (q.paths r).1 ∅ (q.evaluation r))
        (Resolving.mergeAll (q.resolver r [] q.start) (q.paths r).1 ∅ (q.evaluation r)) := by
      apply Resolving.mergeAll_same ∅ ⟨rfl, rfl⟩
      rintro path now _ asks ⟨rfl, hnow⟩
      rw [(resolves_iff_resolver hnow).1 (hres path now asks)]
      exact Resolving.same_self ((q.resolver_active r [] q.start path now).trans hnow)
    obtain ⟨answer, last, last', hx, hy, rfl, _⟩ := hsame
    rw [← conclude_mergeAll, hx, hy]
  · rintro rfl
    refine ⟨q.resolver r [] q.start, ?_, q.conclude_mergeAll r _⟩
    intro path now asks
    exact (resolves_iff_resolver (Registry.active_of_pathsAsk asks)).2 rfl

structure Request where
  owner : Handle
  path : Path
  now : Evaluation

/-- The request begins a declaration that is not in progress. -/
def Request.Begins (r : Registry) (request : Request) (found : Located) : Prop :=
  r.locate request.path request.owner = .ok found ∧ ¬ request.now.isActive found = true

theorem resolver_invoked {request : Request} {found : Located}
    (h : r.IsStack request.now.active) (hbegins : request.Begins r found) :
    q.resolver r request.now.active request.owner request.path request.now =
      found.invoke (q.setting r) (q.resolver r (request.now.push found).active) request.now :=
  h.resolveFrom_invoked hbegins.1 hbegins.2

/-- The requests that come up while a query is resolved. -/
inductive Meets (q : Query) (r : Registry) : Request → Prop
  | path {path : Path} {now : Evaluation}
      (asks : PathsAsk (q.resolver r [] q.start) (q.paths r).1 (q.evaluation r) path now) :
      Meets q r ⟨q.start, path, now⟩
  | inclusion {request : Request} {found : Located} {owner : Handle} {path : Path}
      {now : Evaluation} (met : Meets q r request) (begins : request.Begins r found)
      (asks : found.recipe.Asks (q.setting r) (q.resolver r (request.now.push found).active)
        (request.now.push found) owner path now) :
      Meets q r ⟨owner, path, now⟩

theorem Meets.first {path : Path} {rest : List Path} (h : (q.paths r).1 = path :: rest) :
    q.Meets r ⟨q.start, path, q.evaluation r⟩ := by
  exact .path (.first h)

theorem Meets.isStack {request : Request} (h : q.Meets r request) :
    r.IsStack request.now.active := by
  induction h with
  | path asks =>
    have hnow := Registry.active_of_pathsAsk asks
    exact hnow ▸ r.isStack_nil
  | inclusion met begins asks ih =>
    have hnow := Registry.active_of_asks asks
    exact hnow ▸ ih.push begins.1 begins.2

/-- What holds of a request whenever it holds of the requests within it holds of all requests. -/
theorem Meets.induction_within {motive : Request → Prop}
    (step : ∀ request, q.Meets r request →
      (∀ found owner path now, request.Begins r found →
        found.recipe.Asks (q.setting r) (q.resolver r (request.now.push found).active)
          (request.now.push found) owner path now → motive ⟨owner, path, now⟩) → motive request)
    {request : Request} (h : q.Meets r request) : motive request := by
  -- the declarations that are not in progress become fewer with every request within another
  induction hroom : r.invokableCount - request.now.active.length using Nat.strongRecOn
    generalizing request with
  | ind room ih =>
    subst hroom
    apply step request h
    intro found owner path now begins asks
    have hlen := (h.isStack.push begins.1 begins.2).length_le
    have hnow := Registry.active_of_asks asks
    have hfewer : r.invokableCount - now.active.length <
        r.invokableCount - request.now.active.length := by
      rw [hnow]
      rw [Evaluation.push_active, List.length_append, List.length_singleton] at hlen ⊢
      omega
    exact ih _ hfewer (.inclusion h begins asks) rfl

/-- The declarations in progress at a request, or while the one that it begins is invoked. -/
inductive InProgress (q : Query) (r : Registry) : List Located → Prop
  | request {request : Request} (met : q.Meets r request) : InProgress q r request.now.active
  | invocation {request : Request} {found : Located} (met : q.Meets r request)
      (begins : request.Begins r found) : InProgress q r (request.now.push found).active

theorem InProgress.isStack {active : List Located} (h : q.InProgress r active) :
    r.IsStack active := by
  cases h with
  | request met => exact met.isStack
  | invocation met begins => exact met.isStack.push begins.1 begins.2

/-- A query has one answer, and never more in progress than the registry has declarations. -/
theorem resolve_terminates (q : Query) (r : Registry) :
    (∀ x, q.Evaluates r x ↔ x = q.resolve r) ∧
      ∀ active, q.InProgress r active →
        (active.Pairwise fun a b => ¬ (a.owner = b.owner ∧ a.key = b.key)) ∧
          active.length ≤ r.invokableCount := by
  constructor
  · exact q.evaluates_iff r
  · intro active h
    have hstack := h.isStack
    exact ⟨hstack.distinct, hstack.length_le⟩

/-- One declaration includes itself and goes on when that fails, and one includes another twice. -/
def sampleTree : Declarations := Dict.ofList [
  ("base", .attributes (Dict.singleton "width" (.integer 1))),
  ("loop", .body (Body.ofSteps [.attempt [.inclusion "loop"] "fault"])),
  ("twice", .body (Body.ofSteps [.inclusion "base base"]))]

def sampleRegistry : Registry :=
  ((Registry.new .default).register none sampleTree).toOption.elim (Registry.new .default) Prod.snd

def sampleQuery (text : String) : Query := Query.new Handle.root (.text text)

def sampleLoop : Located :=
  ⟨Handle.root, "loop", "loop",
    .run Handle.root (Body.ofSteps [.attempt [.inclusion "loop"] "fault"])⟩

theorem paths_loop : ((sampleQuery "loop").paths sampleRegistry).1 = [⟨"loop", []⟩] := by
  decide +kernel

theorem self_inclusion_terminates :
    (sampleQuery "loop").Evaluates sampleRegistry ((sampleQuery "loop").resolve sampleRegistry) ∧
      (sampleQuery "loop").InProgress sampleRegistry [sampleLoop] ∧
      [sampleLoop].length ≤ sampleRegistry.invokableCount := by
  have hprogress : (sampleQuery "loop").InProgress sampleRegistry [sampleLoop] :=
    .invocation (Meets.first paths_loop) ⟨rfl, Bool.false_ne_true⟩
  obtain ⟨hends, hbound⟩ := resolve_terminates (sampleQuery "loop") sampleRegistry
  exact ⟨(hends _).2 rfl, hprogress, (hbound _ hprogress).2⟩

end Query

end Stylebook
