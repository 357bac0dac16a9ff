import Stylebook.Proofs.Query.Merge
import Stylebook.Proofs.Registry.Coherence

namespace Stylebook

theorem Recipe.invoke_setting {setting setting' : Setting} {recipe : Recipe}
    (hstart : setting.start = setting'.start) (hlookup : setting.lookup = setting'.lookup)
    (hmixin : ∀ entry ∈ recipe.bodies, setting.mixin? entry.1 = setting'.mixin? entry.1)
    (resolve : Handle → Path → Resolving) :
    recipe.invoke setting resolve = recipe.invoke setting' resolve := by
  induction recipe with
  | fixed attributes => rfl
  | run owner body =>
    have hown : setting.mixin? owner = setting'.mixin? owner :=
      hmixin (owner, body) (List.mem_singleton_self _)
    have hcontext : Context.ofOwner setting resolve owner =
        Context.ofOwner setting' resolve owner := by
      rw [Context.ofOwner, Context.ofOwner, hstart, hlookup, hown]
    rw [Recipe.invoke, Recipe.invoke, hcontext]
  | layered base top ihbase ihtop =>
    have hbase := ihbase fun entry hmem => hmixin entry (List.mem_append_left _ hmem)
    have htop := ihtop fun entry hmem => hmixin entry (List.mem_append_right _ hmem)
    funext e
    simp only [Recipe.invoke, hbase, htop]

/-- What is left of a scope without variables and mixins. -/
def Scope.bare (s : Scope) : Scope := { s with vars := ∅, mixins := ∅ }

namespace Registry

variable {r r' : Registry} {handle start : Handle} {scope : Scope} {overrides : Attributes}

def ownVariable? (r : Registry) (handle : Handle) (name : String) : Option Value :=
  (r.scope? handle).bind fun scope => scope.vars.get? name

def ownMixin? (r : Registry) (handle : Handle) (name : String) : Option Mixin :=
  (r.scope? handle).bind fun scope => scope.mixins.get? name

theorem WellFormed.findSome?_ancestors {α : Type} (h : r.WellFormed)
    (hs : r.scope? handle = some scope) (f : Scope → Option α) :
    (r.ancestors handle).findSome? f = (f scope).or (f r.root) := by
  rcases scope?_eq_some hs with ⟨rfl, rfl⟩ | ⟨index, rfl, hi⟩
  · rw [h.ancestors_root, List.findSome?_singleton, Option.or_self]
  · rw [h.ancestors_handleAt hi, List.findSome?_cons, List.findSome?_singleton]
    cases f scope <;> rfl

theorem WellFormed.lookup?_eq (h : r.WellFormed) (live : (r.scope? handle).isSome = true)
    (name : String) :
    r.lookup? handle name =
      (r.ownVariable? handle name).or (r.ownVariable? Handle.root name) := by
  obtain ⟨scope, hs⟩ := Option.isSome_iff_exists.1 live
  rw [lookup?, h.findSome?_ancestors hs, ownVariable?, hs]
  rfl

theorem WellFormed.mixin?_eq (h : r.WellFormed) (live : (r.scope? handle).isSome = true)
    (name : String) :
    r.mixin? handle name = (r.ownMixin? handle name).or (r.ownMixin? Handle.root name) := by
  obtain ⟨scope, hs⟩ := Option.isSome_iff_exists.1 live
  rw [mixin?, h.findSome?_ancestors hs, ownMixin?, hs]
  rfl

/-- What is left of a registry without variables, mixins and remembered expansions. -/
def bare (r : Registry) : Registry :=
  { r with
    root := r.root.bare
    namespaces := r.namespaces.map Scope.bare
    memo := Memo.new none }

theorem scope?_bare (r : Registry) (handle : Handle) :
    r.bare.scope? handle = (r.scope? handle).map Scope.bare := by
  have hat : ∀ slot, r.bare.scopeAt? slot = (r.scopeAt? slot).map Scope.bare := by
    intro slot
    cases slot with
    | zero => rfl
    | succ index => exact List.getElem?_map
  have hepoch : r.bare.epoch = r.epoch := rfl
  rw [scope?, scope?, hat, hepoch]
  split <;> rfl

theorem locateIn_bare (r : Registry) (asked : Path) (owner : Handle) (path : Path) :
    r.bare.locateIn asked owner path = r.locateIn asked owner path := by
  rw [locateIn, locateIn, scope?_bare]
  cases r.scope? owner <;> rfl

theorem locate_bare (r : Registry) (path : Path) (start : Handle) :
    r.bare.locate path start = r.locate path start := by
  have hother : r.bare.otherNamespace? path start = r.otherNamespace? path start := rfl
  have hoptions : r.bare.options = r.options := rfl
  rw [locate, locate, scope?_bare, hother, hoptions]
  simp only [locateIn_bare]
  cases r.scope? start <;> rfl

theorem invokableCount_bare (r : Registry) : r.bare.invokableCount = r.invokableCount := by
  rw [invokableCount, invokableCount, bare, List.foldl_map]
  rfl

theorem locate_congr (h : r.bare = r'.bare) (path : Path) (start : Handle) :
    r.locate path start = r'.locate path start := by
  rw [← r.locate_bare, h, r'.locate_bare]

theorem invokableCount_congr (h : r.bare = r'.bare) : r.invokableCount = r'.invokableCount := by
  rw [← r.invokableCount_bare, h, r'.invokableCount_bare]

theorem isSome_scope?_congr (h : r.bare = r'.bare) (handle : Handle) :
    (r.scope? handle).isSome = (r'.scope? handle).isSome := by
  have hs := r.scope?_bare handle
  rw [h, r'.scope?_bare] at hs
  rw [← Option.isSome_map, ← hs, Option.isSome_map]

/-- The variables that a query from `start` with `overrides` never comes to see. -/
inductive Unseen (start : Handle) (overrides : Attributes) (r r' : Registry) (owner : Handle)
    (name : String) : Prop
  | elsewhere (notStart : owner ≠ start) (notRoot : owner ≠ Handle.root)
  | overridden (override : overrides.contains name = true)
  | shadowed (inner : start ≠ Handle.root) (root : owner = Handle.root)
      (own : (r.ownVariable? start name).isSome = true)
      (own' : (r'.ownVariable? start name).isSome = true)

/-- Registries alike but for unseen variables and the mixins of scopes that own no body. -/
structure AgreeFor (start : Handle) (overrides : Attributes) (r r' : Registry) : Prop where
  bare : r.bare = r'.bare
  vars : ∀ owner name, ¬ Unseen start overrides r r' owner name →
    r.ownVariable? owner name = r'.ownVariable? owner name
  mixins : ∀ owner scope, r.scope? owner = some scope →
    (owner = Handle.root ∨ scope.bodies ≠ []) →
      ∀ name, r.ownMixin? owner name = r'.ownMixin? owner name

theorem AgreeFor.lookup?_eq (h : AgreeFor start overrides r r') (hr : r.WellFormed)
    (hr' : r'.WellFormed) (live : (r.scope? start).isSome = true) {name : String}
    (hname : overrides.get? name = none) : r.lookup? start name = r'.lookup? start name := by
  have hnone : ¬ overrides.contains name = true := by
    rw [Dict.contains, hname]
    exact Bool.false_ne_true
  have hown : r.ownVariable? start name = r'.ownVariable? start name := by
    apply h.vars
    rintro (⟨notStart, _⟩ | override | ⟨inner, root, _, _⟩)
    · exact notStart rfl
    · exact hnone override
    · exact inner root
  rw [hr.lookup?_eq live, hr'.lookup?_eq (isSome_scope?_congr h.bare start ▸ live), ← hown]
  cases hv : r.ownVariable? start name with
  | some value => rfl
  | none =>
    -- the start lacks the variable, so that nothing stands before that of the root
    rw [Option.none_or, Option.none_or]
    apply h.vars
    rintro (⟨_, notRoot⟩ | override | ⟨_, _, own, _⟩)
    · exact notRoot rfl
    · exact hnone override
    · rw [hv] at own
      cases own

theorem AgreeFor.mixin?_eq (h : AgreeFor start overrides r r') (hr : r.WellFormed)
    (hr' : r'.WellFormed) (hs : r.scope? handle = some scope) (hbodies : scope.bodies ≠ []) :
    r.mixin? handle = r'.mixin? handle := by
  have live : (r.scope? handle).isSome = true := Option.isSome_iff_exists.2 ⟨scope, hs⟩
  funext name
  rw [hr.mixin?_eq live, hr'.mixin?_eq (isSome_scope?_congr h.bare handle ▸ live),
    h.mixins handle scope hs (.inr hbodies), h.mixins Handle.root r.root r.scope?_root (.inl rfl)]

end Registry

namespace Query

open Registry

variable {q : Query} {r r' : Registry} {request : Request} {found : Located}

theorem alone_eq_resolver (q : Query) (r : Registry) (path : Path) :
    q.alone r path = (q.resolver r [] q.start path (Evaluation.start r.memo)).1 := by
  have hpaths := resolvePaths_memo (q.plain q.selector) r r.memo [path]
  exact congrArg Prod.fst (congrFun hpaths (Evaluation.start r.memo))

theorem setting_lookup_congr (h : AgreeFor q.start q.vars r r') (hr : r.WellFormed)
    (hr' : r'.WellFormed) (live : (r.scope? q.start).isSome = true) :
    (q.setting r).lookup = (q.setting r').lookup := by
  funext name
  change (q.vars.get? name).or (r.lookup? q.start name) =
    (q.vars.get? name).or (r'.lookup? q.start name)
  cases hname : q.vars.get? name with
  | some value => rfl
  | none => rw [h.lookup?_eq hr hr' live hname]

theorem resolveWithin_congr (h : AgreeFor q.start q.vars r r') (hr : r.WellFormed)
    (hr' : r'.WellFormed) (live : (r.scope? q.start).isSome = true) (spare : Nat) :
    r.resolveWithin (q.setting r) spare = r'.resolveWithin (q.setting r') spare := by
  induction spare with
  | zero =>
    funext owner path e
    rw [resolveWithin, resolveWithin, locate_congr h.bare]
  | succ spare ih =>
    funext owner path e
    rw [resolveWithin, resolveWithin, ← locate_congr h.bare]
    cases hl : r.locate path owner with
    | error fault => rfl
    | ok found =>
      -- the owner of a body that is run has this body in its tree, so that its mixins are the same
      have hinvoke : found.recipe.invoke (q.setting r) (r'.resolveWithin (q.setting r') spare) =
          found.recipe.invoke (q.setting r') (r'.resolveWithin (q.setting r') spare) := by
        have hstart : (q.setting r).start = (q.setting r').start := rfl
        apply Recipe.invoke_setting hstart (setting_lookup_congr h hr hr' live)
        intro entry hmem
        obtain ⟨scope, inner, node, hs, hn, hrecipe, _⟩ := locate_eq_ok hl
        have hentry := Scope.bodies_find?_subset hn hrecipe hmem
        rw [(hr.ownedBy_of_locate hl).owner_eq hmem]
        exact h.mixin?_eq hr hr' hs (List.ne_nil_of_mem hentry)
      simp only [Located.invoke, ih, hinvoke]

theorem resolve_congr_of_agree (h : AgreeFor q.start q.vars r r') (hr : r.WellFormed)
    (hr' : r'.WellFormed) (live : (r.scope? q.start).isSome = true) :
    (q.resolve r').1 = (q.resolve r).1 := by
  have hresolver : q.resolver r [] = q.resolver r' [] := by
    rw [resolver, resolver, resolveFrom, resolveFrom, invokableCount_congr h.bare,
      resolveWithin_congr h hr hr' live]
  have halone : q.alone r' = q.alone r := by
    funext path
    have halike : (Evaluation.start r.memo).Alike (Evaluation.start r'.memo) :=
      ⟨rfl, hr.sound, hr'.sound⟩
    rw [alone_eq_resolver, alone_eq_resolver, hresolver, (q.resolver_alike path _ halike).1]
  rw [resolve_eq hr'.sound, resolve_eq hr.sound, halone]

def context (q : Query) (r : Registry) (request : Request) (found : Located) : Context :=
  Context.ofOwner (q.setting r) (q.resolver r (request.now.push found).active) found.owner

/-- Bodies run with the variables of the query and the mixins and paths of their own scope. -/
structure IsScoped (q : Query) (r : Registry) (request : Request) (found : Located) : Prop where
  invoked : q.resolver r request.now.active request.owner request.path request.now =
    found.invoke (q.setting r) (q.resolver r (request.now.push found).active) request.now
  bodies : ∀ entry ∈ found.recipe.bodies,
    (Recipe.run entry.1 entry.2).invoke (q.setting r)
      (q.resolver r (request.now.push found).active) = entry.2.run (q.context r request found)
  lookup : ∀ name, (q.context r request found).view.lookup name =
    (q.vars.get? name).or ((r.ownVariable? q.start name).or (r.ownVariable? Handle.root name))
  lookup_in_mixin : ∀ arguments name,
    ((q.context r request found).mixinView arguments).lookup name =
      (q.context r request found).view.lookup name
  call : ∀ name mixin,
    (r.ownMixin? found.owner name).or (r.ownMixin? Handle.root name) = some mixin →
    ∀ arguments p, (q.context r request found).callMixin name arguments p =
      (none, p.collect (mixin ((q.context r request found).mixinView arguments)))
  call_unknown : ∀ name, (r.ownMixin? found.owner name).or (r.ownMixin? Handle.root name) = none →
    ∀ arguments p, (q.context r request found).callMixin name arguments p =
      (some (.unknownMixin name), p)
  inclusion : ∀ path now, now.active = (request.now.push found).active →
    r.Resolves (q.setting r) found.owner path now ((q.context r request found).resolve path now)

theorem Meets.isScoped (hr : r.WellFormed) (live : (r.scope? q.start).isSome = true)
    (met : q.Meets r request) (begins : request.Begins r found) :
    q.IsScoped r request found := by
  obtain ⟨scope, _, _, hs, _⟩ := locate_eq_ok begins.1
  have hmixin : ∀ name, (q.context r request found).mixin? name =
      (r.ownMixin? found.owner name).or (r.ownMixin? Handle.root name) :=
    hr.mixin?_eq (Option.isSome_iff_exists.2 ⟨scope, hs⟩)
  have hstack := met.isStack.push begins.1 begins.2
  exact {
    invoked := met.isStack.resolveFrom_invoked begins.1 begins.2
    bodies := by
      intro entry hmem
      rw [(hr.ownedBy_of_locate begins.1).owner_eq hmem]
      rfl
    lookup := by
      intro name
      rw [← hr.lookup?_eq live]
      rfl
    lookup_in_mixin := fun _ _ => rfl
    call := by
      intro name mixin hfound arguments p
      rw [Context.callMixin, hmixin, hfound]
    call_unknown := by
      intro name hmissing arguments p
      rw [Context.callMixin, hmixin, hmissing]
    inclusion := by
      intro path now hnow
      rw [← hnow] at hstack
      apply hstack.resolves_iff.2
      rw [hnow]
      rfl }

/-- Bodies see variables by the start of the query and mixins by their owner, at any depth. -/
theorem variables_by_start_mixins_by_owner (hr : r.Reachable) (q : Query)
    (live : (r.scope? q.start).isSome = true) :
    (∀ request found, q.Meets r request → request.Begins r found → q.IsScoped r request found) ∧
      ∀ r' : Registry, r'.Reachable → AgreeFor q.start q.vars r r' →
        (q.resolve r').1 = (q.resolve r).1 := by
  constructor
  · intro request found met begins
    exact met.isScoped hr.wellFormed live begins
  · intro r' hr' h
    exact resolve_congr_of_agree h hr.wellFormed hr'.wellFormed live

def boxTree : Declarations := Dict.singleton "box" (.body (Body.ofSteps [
  .mixinCall "frame" [],
  .assign [("width", .variableOr "width" (.literal .null)),
    ("height", .variableOr "height" (.literal .null))]]))

def boxRegistry (rootWidth : Int) (other : Change) : Registry :=
  (Registry.new .default).performAll [
    .change none (.defineVariables (Dict.singleton "width" (.integer rootWidth))),
    .change none (.defineMixin "frame" fun _ => Dict.singleton "border" (.integer 1)),
    .change (some "theme") (.register boxTree),
    .change (some "theme") (.defineVariables (Dict.singleton "width" (.integer 3))),
    .change (some "other") other]

def narrow : Registry :=
  boxRegistry 1 (.defineVariables (Dict.singleton "width" (.integer 5)))

def wide : Registry := boxRegistry 2 (.defineMixin "frame" fun _ => ∅)

def boxQuery : Query :=
  (Query.new (narrow.handleAt 0) (.text "box")).withVariables
    (Dict.singleton "height" (.integer 4))

def boxAttributes : Attributes :=
  Dict.ofList [("border", .integer 1), ("height", .integer 4), ("width", .integer 3)]

theorem agreeFor_narrow_wide : AgreeFor boxQuery.start boxQuery.vars narrow wide where
  bare := rfl
  vars := by
    intro owner name hseen
    by_cases hstart : owner = boxQuery.start
    · subst hstart
      rfl
    · by_cases hroot : owner = Handle.root
      · subst hroot
        have hne : name ≠ "width" := by
          rintro rfl
          exact hseen (.shadowed (by decide) rfl rfl rfl)
        have hnarrow : narrow.ownVariable? Handle.root name =
            (Dict.singleton "width" (.integer 1)).get? name := rfl
        have hwide : wide.ownVariable? Handle.root name =
            (Dict.singleton "width" (.integer 2)).get? name := rfl
        rw [hnarrow, hwide, Dict.singleton, Dict.singleton, Dict.get?_insert, Dict.get?_insert,
          if_neg hne, if_neg hne]
      · exact absurd (.elsewhere hstart hroot) hseen
  mixins := by
    intro owner scope hs howner name
    rcases scope?_eq_some hs with ⟨rfl, _⟩ | ⟨index, rfl, hi⟩
    · rfl
    · match index, hi with
      | 0, _ => rfl
      | 1, hi =>
        cases hi
        rcases howner with hroot | hbodies
        · exact absurd hroot (by decide)
        · exact absurd rfl hbodies

theorem box_of_theme_alike :
    (boxQuery.resolve narrow).1 = .ok boxAttributes ∧
    (boxQuery.resolve wide).1 = (boxQuery.resolve narrow).1 ∧
    ∃ request found, request.Begins narrow found ∧ found.recipe.bodies.length = 1 ∧
      boxQuery.IsScoped narrow request found := by
  have hnarrow : narrow.Reachable := (Reachable.new .default).performAll _
  have hwide : wide.Reachable := (Reachable.new .default).performAll _
  obtain ⟨hscoped, hagree⟩ := variables_by_start_mixins_by_owner hnarrow boxQuery rfl
  have hpaths : (boxQuery.paths narrow).1 = [⟨"box", []⟩] := by decide +kernel
  have hbegins : Request.Begins narrow
      ⟨boxQuery.start, ⟨"box", []⟩, boxQuery.evaluation narrow⟩ _ := ⟨rfl, Bool.false_ne_true⟩
  have hanswer : (boxQuery.resolve narrow).1 = .ok boxAttributes := by
    have halone : boxQuery.alone narrow ⟨"box", []⟩ = .ok boxAttributes := rfl
    have hexpanded : boxQuery.selector.parts.flatMap expand = [⟨"box", []⟩] := by decide +kernel
    rw [resolve_eq hnarrow.wellFormed.sound, hexpanded, List.map_singleton, halone]
    rfl
  refine ⟨hanswer, hagree wide hwide agreeFor_narrow_wide, _, _, hbegins, rfl, ?_⟩
  exact hscoped _ _ (Meets.first hpaths) hbegins

end Query

end Stylebook
