import Stylebook.Proofs.Body.Faults
import Stylebook.Proofs.Query.Cycles
import Stylebook.Proofs.Registry.Precedence

namespace Stylebook

namespace Registry

def withFallback (r : Registry) (allowed : Bool) : Registry :=
  { r with options := { r.options with rootFallback := allowed } }

variable {r : Registry} {path : Path} {start : Handle} {active : List Located} {found : Located}

/-- The start is a namespace that lacks the head of the path, and the head names no other one. -/
structure FallsThrough (r : Registry) (path : Path) (start : Handle) : Prop where
  inner : start ≠ Handle.root
  live : (r.scope? start).isSome = true
  undeclared : ¬ r.Declares start path.head
  unnamed : r.otherNamespace? path start = none

theorem FallsThrough.locate_withFallback (h : r.FallsThrough path start) (allowed : Bool) :
    (r.withFallback allowed).locate path start =
      if allowed then r.locateIn path Handle.root path else .error (.unknownPath path.text) := by
  obtain ⟨scope, hs⟩ := Option.isSome_iff_exists.1 h.live
  have hunnamed := locate_unnamed (r := r.withFallback allowed) hs h.undeclared h.unnamed
  rw [Handle.isRoot_eq_false h.inner] at hunnamed
  exact hunnamed

theorem locate_withFallback_of_not (h : ¬ r.FallsThrough path start) (allowed allowed' : Bool) :
    (r.withFallback allowed).locate path start = (r.withFallback allowed').locate path start := by
  cases hs : r.scope? start with
  | none =>
    rw [locate_of_dead (r := r.withFallback allowed) hs,
      locate_of_dead (r := r.withFallback allowed') hs]
  | some scope =>
    by_cases declared : r.Declares start path.head
    · rw [locate_own (r := r.withFallback allowed) hs declared,
        locate_own (r := r.withFallback allowed') hs declared]
      rfl
    · cases hother : r.otherNamespace? path start with
      | some other =>
        cases htail : path.tail with
        | nil =>
          rw [locate_wholeNamespace (r := r.withFallback allowed) hs declared hother htail,
            locate_wholeNamespace (r := r.withFallback allowed') hs declared hother htail]
        | cons head tail =>
          have hinner : path.tail = Path.segments ⟨head, tail⟩ := htail
          rw [locate_inNamespace (r := r.withFallback allowed) hs declared hother hinner,
            locate_inNamespace (r := r.withFallback allowed') hs declared hother hinner]
          rfl
      | none =>
        by_cases hroot : start = Handle.root
        · subst hroot
          rw [locate_unnamed (r := r.withFallback allowed) hs declared hother,
            locate_unnamed (r := r.withFallback allowed') hs declared hother]
          rfl
        · exact absurd ⟨hroot, Option.isSome_iff_exists.2 ⟨scope, hs⟩, declared, hother⟩ h

theorem locate_of_locate_off (h : (r.withFallback false).locate path start = .ok found) :
    (r.withFallback true).locate path start = .ok found := by
  by_cases hfalls : r.FallsThrough path start
  · rw [hfalls.locate_withFallback] at h
    cases h
  · rw [locate_withFallback_of_not hfalls true false, h]

theorem scope?_withFallback (r : Registry) (allowed : Bool) :
    (r.withFallback allowed).scope? = r.scope? := rfl

theorem keysFrom_withFallback (r : Registry) (allowed : Bool) (index : Nat) (scopes : List Scope) :
    (r.withFallback allowed).keysFrom index scopes = r.keysFrom index scopes := by
  induction scopes generalizing index with
  | nil => rfl
  | cons scope rest ih =>
    rw [keysFrom, keysFrom, ih]
    rfl

theorem IsStack.on_of_off (h : (r.withFallback false).IsStack active) :
    (r.withFallback true).IsStack active := by
  have hkeys : (r.withFallback true).keys = (r.withFallback false).keys := by
    rw [keys, keys, keysFrom_withFallback, keysFrom_withFallback]
    rfl
  constructor
  · exact h.distinct
  · rw [hkeys]
    exact h.declared

end Registry

namespace Query

open Registry

variable {q : Query} {r : Registry} {request : Request}

theorem setting_withFallback (q : Query) (r : Registry) (allowed : Bool) :
    q.setting (r.withFallback allowed) = q.setting r :=
  q.setting_congr (r.scope?_withFallback allowed) rfl

/-- While the query runs, no body comes to something after an inclusion of it failed. -/
def NeverRecovers (q : Query) (r : Registry) : Prop :=
  ∀ request found, q.Meets r request → request.Begins r found →
    ¬ found.recipe.Recovers (q.setting r) (q.resolver r (request.now.push found).active)
      (request.now.push found)

/-- If the request comes to something without the fallback, it comes to the same with it. -/
def KeepsAnswer (q : Query) (r : Registry) (request : Request) : Prop :=
  (q.resolver (r.withFallback false) request.now.active request.owner request.path).Succeeds
    request.now →
  Resolving.Same (fun n n' => n = n' ∧ n.active = request.now.active)
    (q.resolver (r.withFallback false) request.now.active request.owner request.path request.now)
    (q.resolver (r.withFallback true) request.now.active request.owner request.path request.now)

theorem Meets.keepsAnswer (hnever : q.NeverRecovers (r.withFallback false))
    (h : q.Meets (r.withFallback false) request) : q.KeepsAnswer r request := by
  refine Meets.induction_within (motive := q.KeepsAnswer r) ?_ h
  rintro request h ih ⟨attributes, hok⟩
  cases (r.withFallback false).encounter request.owner request.path request.now with
  | missing absent =>
    rw [resolver, resolveFrom, resolveWithin_missing absent] at hok
    cases hok
  | refused present busy =>
    rw [resolver, resolveFrom, resolveWithin_refused present busy] at hok
    cases hok
  | @invoked found present idle =>
    have hoff : request.Begins (r.withFallback false) found := ⟨present, idle⟩
    have hon : request.Begins (r.withFallback true) found := ⟨locate_of_locate_off present, idle⟩
    have hinvoke : (found.recipe.invoke (q.setting (r.withFallback false))
        (q.resolver (r.withFallback false) (request.now.push found).active)).Succeeds
          (request.now.push found) :=
      ⟨attributes, (answer_invoked h.isStack hoff).symm.trans hok⟩
    -- a request within the invocation comes to something, as nothing recovers from its failure
    have hsame : Resolving.Same (fun n n' => n = n' ∧ n.active = (request.now.push found).active)
        (found.recipe.invoke (q.setting (r.withFallback false))
          (q.resolver (r.withFallback false) (request.now.push found).active)
          (request.now.push found))
        (found.recipe.invoke (q.setting (r.withFallback false))
          (q.resolver (r.withFallback true) (request.now.push found).active)
          (request.now.push found)) := by
      apply Recipe.invoke_same (stable_active _).indistinct found.recipe ⟨rfl, rfl⟩
      rintro owner path now _ asks ⟨rfl, hnow⟩
      have hsucceeds := asks.succeeds hinvoke (hnever request found h hoff)
      rw [← hnow] at hsucceeds ⊢
      exact ih found owner path now hoff asks hsucceeds
    obtain ⟨answer, last, last', hx, hy, rfl, _⟩ := hsame
    have hresolver : q.resolver (r.withFallback true) request.now.active request.owner
        request.path request.now = q.resolver (r.withFallback false) request.now.active
          request.owner request.path request.now := by
      rw [resolver_invoked h.isStack hoff, resolver_invoked h.isStack.on_of_off hon,
        setting_withFallback, ← q.setting_withFallback r false, Located.invoke, Located.invoke,
        hx, hy]
    rw [hresolver]
    exact Resolving.same_self (q.resolver_active _ _ request.owner request.path request.now)

theorem resolve_on_eq_ok (hnever : q.NeverRecovers (r.withFallback false)) {attributes : Attributes}
    (h : (q.resolve (r.withFallback false)).1 = .ok attributes) :
    (q.resolve (r.withFallback true)).1 = .ok attributes := by
  rw [resolve_eq_conclude, conclude] at h ⊢
  have hmerged : (Resolving.mergeAll (q.resolver (r.withFallback false) [] q.start)
      (q.paths (r.withFallback false)).1 ∅).Succeeds (q.evaluation (r.withFallback false)) := by
    rcases Resolving.succeeds_or_fails _ _ with hok | ⟨fault, after, hx⟩
    · exact hok
    · rw [hx] at h
      cases h
  -- the selector is expanded alike, so that the same paths are asked for
  have hsame : Resolving.Same (fun n n' => n = n' ∧ n.active = [])
      (Resolving.mergeAll (q.resolver (r.withFallback false) [] q.start)
        (q.paths (r.withFallback false)).1 ∅ (q.evaluation (r.withFallback false)))
      (Resolving.mergeAll (q.resolver (r.withFallback true) [] q.start)
        (q.paths (r.withFallback true)).1 ∅ (q.evaluation (r.withFallback true))) := by
    apply Resolving.mergeAll_same ∅ ⟨rfl, rfl⟩
    rintro path now _ asks ⟨rfl, hnow⟩
    have hsucceeds := Resolving.pathsAsk_succeeds asks hmerged
    rw [← hnow] at hsucceeds ⊢
    exact Meets.keepsAnswer hnever (.path asks) hsucceeds
  obtain ⟨answer, last, last', hx, hy, _⟩ := hsame
  rw [hx] at h
  rw [hy]
  exact h

/-- Falling back on the root only adds answers, where no body recovers from an inclusion. -/
theorem fallback_only_adds (q : Query) (r : Registry) :
    (q.NeverRecovers (r.withFallback false) → ∀ attributes,
      (q.resolve (r.withFallback false)).1 = .ok attributes →
        (q.resolve (r.withFallback true)).1 = .ok attributes) ∧
    ∀ path start,
      (r.withFallback true).locate path start = (r.withFallback false).locate path start ∨
      r.FallsThrough path start ∧
        (r.withFallback false).locate path start = .error (.unknownPath path.text) ∧
        (r.withFallback true).locate path start = r.locateIn path Handle.root path := by
  constructor
  · intro hnever attributes h
    exact resolve_on_eq_ok hnever h
  · intro path start
    by_cases hfalls : r.FallsThrough path start
    · exact .inr ⟨hfalls, hfalls.locate_withFallback false, hfalls.locate_withFallback true⟩
    · exact .inl (locate_withFallback_of_not hfalls true false)

def boxedTheme : Registry :=
  (Registry.new .default).performAll [
    .change none (.register (Dict.singleton "button" (.attributes ∅))),
    .change (some "theme") (.register (Dict.ofList [
      ("box", .attributes (Dict.singleton "width" (.integer 1))),
      ("card", .body (Body.ofSteps [.attempt [.inclusion "box"] "fault"]))]))]

def theme : Handle := boxedTheme.handleAt 0

def cardQuery : Query := Query.new theme (.text "card")

def cardRequest : Request :=
  ⟨theme, ⟨"card", []⟩, cardQuery.evaluation (boxedTheme.withFallback false)⟩

def cardOfTheme : Located :=
  ⟨theme, "card", "theme.card",
    .run theme (Body.ofSteps [.attempt [.inclusion "box"] "fault"])⟩

def boxRequest : Request :=
  ⟨theme, ⟨"box", []⟩, ((cardRequest.now.push cardOfTheme).expand "box").2⟩

theorem paths_cardQuery :
    (cardQuery.paths (boxedTheme.withFallback false)).1 = [⟨"card", []⟩] := by decide +kernel

theorem paths_box :
    ((cardRequest.now.push cardOfTheme).expand "box").1.paths = [⟨"box", []⟩] := by decide +kernel

theorem runs_cardOfTheme {setting : Setting} {resolve : Handle → Path → Resolving} {e : Evaluation}
    {owner : Handle} {selector : String} {next : Option Fault → Program Attributes} {p : Progress}
    (runs : cardOfTheme.recipe.Runs setting resolve e owner (.inclusion selector next) p) :
    owner = theme ∧ selector = "box" ∧ p = ⟨∅, e⟩ := by
  cases runs with
  | run reaches =>
    cases reaches with
    | here => exact ⟨rfl, rfl, rfl⟩
    | @inclusion _ _ _ fault _ _ _ included rest =>
      cases fault with
      | none => cases rest
      | some own =>
        cases rest with
        | collect rest => cases rest

theorem asks_cardOfTheme {resolve : Handle → Path → Resolving} {owner : Handle} {path : Path}
    {now : Evaluation} (asks : cardOfTheme.recipe.Asks
      (cardQuery.setting (boxedTheme.withFallback false)) resolve
      (cardRequest.now.push cardOfTheme) owner path now) :
    Request.mk owner path now = boxRequest := by
  obtain ⟨selector, next, p, runs, asks⟩ := asks
  obtain ⟨rfl, rfl, rfl⟩ := runs_cardOfTheme runs
  rw [Context.InclusionAsks, paths_box] at asks
  cases asks with
  | here => rfl
  | later _ asks => cases asks

theorem Meets.card_or_box (h : cardQuery.Meets (boxedTheme.withFallback false) request) :
    request = cardRequest ∨ request = boxRequest := by
  induction h with
  | path asks =>
    rw [paths_cardQuery] at asks
    cases asks with
    | here => exact .inl rfl
    | later _ asks => cases asks
  | inclusion met begins asks ih =>
    rcases ih with rfl | rfl
    · cases begins.1
      exact .inr (asks_cardOfTheme asks)
    · cases begins.1
      obtain ⟨_, _, _, runs, _⟩ := asks
      cases runs

theorem neverRecovers_cardQuery : cardQuery.NeverRecovers (boxedTheme.withFallback false) := by
  rintro request found met begins ⟨owner, selector, next, p, fault, after, _, runs, failed, _⟩
  rcases met.card_or_box with rfl | rfl
  · obtain rfl : cardOfTheme = found := Except.ok.inj begins.1
    obtain ⟨rfl, rfl, rfl⟩ := runs_cardOfTheme runs
    rw [Context.inclusion] at failed
    dsimp only at failed
    rw [paths_box] at failed
    cases failed
  · cases begins.1
    cases runs

theorem card_of_theme_with_and_without :
    cardQuery.NeverRecovers (boxedTheme.withFallback false) ∧
    (cardQuery.resolve (boxedTheme.withFallback false)).1 =
      .ok (Dict.singleton "width" (.integer 1)) ∧
    (cardQuery.resolve (boxedTheme.withFallback true)).1 =
      .ok (Dict.singleton "width" (.integer 1)) ∧
    (boxedTheme.withFallback false).locate ⟨"button", []⟩ theme =
      .error (.unknownPath "button") ∧
    (boxedTheme.withFallback true).locate ⟨"button", []⟩ theme =
      boxedTheme.locateIn ⟨"button", []⟩ Handle.root ⟨"button", []⟩ := by
  obtain ⟨hadds, hlocates⟩ := fallback_only_adds cardQuery boxedTheme
  have hmet : cardQuery.Meets (boxedTheme.withFallback false) cardRequest :=
    .first paths_cardQuery
  have hbegins : cardRequest.Begins (boxedTheme.withFallback false) cardOfTheme :=
    ⟨rfl, Bool.false_ne_true⟩
  have hcard : cardQuery.answer (boxedTheme.withFallback false) cardRequest =
      .ok (Dict.singleton "width" (.integer 1)) := by
    rw [answer_invoked hmet.isStack hbegins, cardOfTheme, Recipe.invoke, Body.run]
    simp only [Body.ofSteps, Step.programAll, Step.program, Program.run_inclusion,
      Context.inclusion]
    rw [← cardOfTheme, paths_box]
    rfl
  have hoff : (cardQuery.resolve (boxedTheme.withFallback false)).1 =
      .ok (Dict.singleton "width" (.integer 1)) := by
    rw [resolve_eq_conclude, conclude, paths_cardQuery, Resolving.mergeAll_singleton]
    exact congrArg (Except.map fun attributes => attributes.merge ∅) hcard
  obtain halike | ⟨_, hunknown, hroot⟩ := hlocates ⟨"button", []⟩ theme
  · cases halike
  · exact ⟨neverRecovers_cardQuery, hoff, hadds neverRecovers_cardQuery _ hoff, hunknown, hroot⟩

end Query

end Stylebook
