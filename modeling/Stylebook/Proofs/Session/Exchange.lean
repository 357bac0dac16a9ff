import Stylebook.Proofs.Registry.Exchange
import Stylebook.Proofs.Session.Making

namespace Stylebook

theorem Memo.indistinct_eq : Indistinct Eq where
  paths := by
    rintro m _ rfl text
    rfl
  expand := by
    rintro m _ rfl text
    rfl
  clear := by
    rintro m _ rfl
    rfl

namespace Registry

variable {r r₁ r₂ r₁' r₂' : Registry} {ns₁ ns₂ : Option String} {c₁ c₂ : Change}
  {h₁ h₂ h₁' h₂' : Handle} {ρ : Renaming}

theorem WellFormed.session_image (hr : r.WellFormed) (first : r.apply ns₁ c₁ = .ok (h₁, r₁))
    (second : r₁.apply ns₂ c₂ = .ok (h₂, r₂)) (first' : r.apply ns₂ c₂ = .ok (h₂', r₁'))
    (second' : r₁'.apply ns₁ c₁ = .ok (h₁', r₂')) (image : r₂.Image ρ 0 r₂') :
    r₂'.options = r₂.options ∧ (Session.mk r₂ ∅).Image ρ 0 Eq (Session.mk r₂' ∅) := by
  obtain ⟨hoptions₁, hmemo₁⟩ := apply_kept first
  obtain ⟨hoptions₂, hmemo₂⟩ := apply_kept second
  obtain ⟨hoptions₁', hmemo₁'⟩ := apply_kept first'
  obtain ⟨hoptions₂', hmemo₂'⟩ := apply_kept second'
  refine ⟨by rw [hoptions₂', hoptions₁', hoptions₂, hoptions₁], ?_⟩
  exact {
    registry := image
    memo := by
      change r₂.memo = r₂'.memo
      rw [hmemo₂, hmemo₁, hmemo₂', hmemo₁']
    wellFormed := (hr.apply first).apply second
    wellFormed' := (hr.apply first').apply second'
    saved := rfl }

/-- Two changes of different scopes go through in either order, and later runs are alike. -/
theorem changes_of_different_scopes_commute (hr : r.Reachable) (hne : ns₁ ≠ ns₂)
    (fixed₁ : c₁.isFixed = true) (fixed₂ : c₂.isFixed = true)
    (first : r.apply ns₁ c₁ = .ok (h₁, r₁)) (second : r₁.apply ns₂ c₂ = .ok (h₂, r₂)) :
    ∃ ρ : Renaming, ∃ r₁' r₂', r.apply ns₂ c₂ = .ok (ρ.handle h₂, r₁') ∧
      r₁'.apply ns₁ c₁ = .ok (ρ.handle h₁, r₂') ∧
      (∀ handle scope, r.scope? handle = some scope → ρ.handle handle = handle) ∧
      ∀ actions : List (Action Command), (∀ options, .plain (.renew options) ∉ actions) →
        (∀ action ∈ actions, action.IsBlind) →
        let one := (Session.mk r₂ ∅).actAll actions
        let other := (Session.mk r₂' ∅).actAll actions
        other.1 = one.1.map (Answer.rename ρ fun made => made) ∧
          (∀ label, other.2.saved.get? label = (one.2.saved.get? label).map ρ.handle) ∧
          one.2.registry.AnswersRenamed ρ (fun made => made) other.2.registry := by
  obtain ⟨ρ, r₁', r₂', first', second', image, hkept⟩ :=
    hr.wellFormed.apply_exchange hne fixed₁ fixed₂ first second
  refine ⟨ρ, r₁', r₂', first', second', hkept, ?_⟩
  intro actions hc blind
  obtain ⟨hoptions, hsession⟩ :=
    hr.wellFormed.session_image first second first' second' image
  have hslices : ∀ m m', m = m' → ∀ text, (Memo.expand m' text).1 = (Memo.expand m text).1 := by
    rintro m _ rfl text
    rfl
  obtain ⟨hanswers, hlast⟩ :=
    hsession.actAll (f := fun made => made) Memo.indistinct_eq hslices hoptions hc blind
  refine ⟨hanswers, ?_, answersRenamed hlast Memo.indistinct_eq⟩
  intro label
  rw [hlast.saved, Dict.get?_map]

def watchful : Change := .register (Dict.singleton "box" (.body (Body.ofSteps [
  .assign [("root", .scopeTest .startIsRoot), ("same", .scopeTest .ownerIsStart)]])))

def including : Change := .register (Dict.singleton "box" (.body (Body.ofSteps [
  .inclusion "theme.box", .assign [("own", .scopeTest .ownerIsRoot)]])))

def themeFirst : Registry :=
  (Registry.new .default).performAll [
    .change (some "theme") watchful, .change (some "base") including]

def firstBase : Registry := (Registry.new .default).perform (.change (some "base") including)

def baseFirst : Registry := firstBase.perform (.change (some "theme") watchful)

def boxActions : List (Action Command) := [
  .plain (.findNamespace "theme"),
  .plain (.ask (.named "base") (.text "box theme.box") []),
  .plain (.change (some "late") watchful (some "latest")),
  .make (some "late") frameLikeBox none,
  .plain (.look (.saved "latest") (.locate ⟨"frame", []⟩)),
  .plain (.compare (.saved "latest") (.named "theme"))]

theorem theme_and_base_in_either_order :
    themeFirst.handle? "theme" = some firstTheme ∧
      baseFirst.handle? "theme" = some (firstBase.handleAt 1) ∧
      ∃ ρ : Renaming, ρ.handle firstTheme = firstBase.handleAt 1 ∧
        ((Session.mk baseFirst ∅).actAll boxActions).1 =
          ((Session.mk themeFirst ∅).actAll boxActions).1.map
            (Answer.rename ρ fun made => made) := by
  have hr : (Registry.new .default).Reachable := .new .default
  have hne : some "theme" ≠ some "base" := by decide
  have first : (Registry.new .default).apply (some "theme") watchful = .ok (firstTheme, _) := rfl
  have second : ((Registry.new .default).perform (.change (some "theme") watchful)).apply
      (some "base") including = .ok (_, themeFirst) := rfl
  obtain ⟨ρ, middle, last, first', second', _, hruns⟩ :=
    changes_of_different_scopes_commute hr hne rfl rfl first second
  have hmiddle : (Registry.new .default).apply (some "base") including = .ok (_, firstBase) := rfl
  rw [hmiddle] at first'
  obtain ⟨_, rfl⟩ := Prod.mk.inj (Except.ok.inj first')
  have hlast : firstBase.apply (some "theme") watchful =
      .ok (firstBase.handleAt 1, baseFirst) := rfl
  rw [hlast] at second'
  obtain ⟨htheme, rfl⟩ := Prod.mk.inj (Except.ok.inj second')
  have hc : ∀ options, .plain (.renew options) ∉ boxActions := by
    intro options hmem
    simp [boxActions] at hmem
  have blind : ∀ action ∈ boxActions, action.IsBlind := by
    simp [boxActions, Action.IsBlind, blind_frameLikeBox]
  exact ⟨rfl, rfl, ρ, htheme.symm, (hruns boxActions hc blind).1⟩

end Registry

end Stylebook
