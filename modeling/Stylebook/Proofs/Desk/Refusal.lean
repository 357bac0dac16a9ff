import Stylebook.Proofs.Session.Refusal

namespace Stylebook

namespace Draft

variable {r r' : Registry}

theorem resolve_otherMemory (d : Draft) (h : r.OtherMemory r') :
    (d.resolve r').1 = (d.resolve r).1 ∧ (d.resolve r).2.OtherMemory (d.resolve r').2 := by
  have hstart : d.start? r' = d.start? r := by
    rw [start?, start?]
    cases d.sheet.ns with
    | none => rfl
    | some name => simp only [h.handle?]
  rw [resolve, resolve, hstart]
  cases d.start? r with
  | error fault => exact ⟨rfl, h⟩
  | ok start =>
    refine ⟨h.resolve _, ?_⟩
    exact h.after (Registry.otherMemory_resolve h.sound _) (Registry.otherMemory_resolve h.sound' _)

end Draft

namespace Desk

variable {d d' : Desk}

/-- The desks have everything in common but the expansions that their registries remember. -/
structure OtherMemory (d d' : Desk) : Prop where
  registry : d.registry.OtherMemory d'.registry
  sheets : d'.sheets = d.sheets
  drafts : d'.drafts = d.drafts

namespace OtherMemory

theorem refl (h : d.registry.memo.Sound) : d.OtherMemory d := ⟨.refl h, rfl, rfl⟩

theorem sheet? (h : d.OtherMemory d') (name : SheetName) : d'.sheet? name = d.sheet? name := by
  cases name with
  | sheet sheet => rfl
  | saved label => rw [Desk.sheet?, Desk.sheet?, h.sheets]

theorem state (h : d.OtherMemory d') (ns : Option String) :
    d'.registry.options = d.registry.options ∧ d'.scope? ns = d.scope? ns := by
  obtain ⟨r', sheets, drafts⟩ := d'
  cases h.registry with
  | memo sound sound' => cases ns <;> exact ⟨rfl, rfl⟩

theorem saveSheet (h : d.OtherMemory d') {r r' : Registry} (other : r.OtherMemory r')
    (label : Option String) (sheet : Sheet) :
    ({ d with registry := r }.saveSheet label sheet).OtherMemory
      ({ d' with registry := r' }.saveSheet label sheet) := by
  cases label with
  | none => exact ⟨other, h.sheets, h.drafts⟩
  | some label =>
    exact ⟨other, congrArg (fun sheets => sheets.insert label sheet) h.sheets, h.drafts⟩

theorem resolve (h : d.OtherMemory d') (draft : Draft) :
    (d'.resolve draft).1 = (d.resolve draft).1 ∧
      (d.resolve draft).2.OtherMemory (d'.resolve draft).2 := by
  obtain ⟨hresult, hother⟩ := draft.resolve_otherMemory h.registry
  exact ⟨congrArg Report.resolved hresult, hother, h.sheets, h.drafts⟩

theorem step (h : d.OtherMemory d') (order : Order) :
    (d'.step order).1 = (d.step order).1 ∧ (d.step order).2.OtherMemory (d'.step order).2 := by
  cases order with
  | configure options =>
    have hsound : (Registry.new options).memo.Sound := Memo.sound_of_empty rfl
    exact ⟨rfl, .refl hsound, h.sheets, h.drafts⟩
  | reset => exact ⟨rfl, h.registry.reset, h.sheets, h.drafts⟩
  | change ns change label =>
    cases h.registry.apply ns change with
    | refused first second =>
      simp only [Desk.step, first, second]
      exact ⟨trivial, h⟩
    | changed first second other =>
      simp only [Desk.step, first, second]
      exact ⟨trivial, h.saveSheet other label ⟨ns⟩⟩
  | resolve sheet selector stages =>
    rw [Desk.step, Desk.step, h.sheet?]
    cases d.sheet? sheet with
    | none => exact ⟨rfl, h⟩
    | some sheet => exact h.resolve _
  | draft sheet selector stages label =>
    rw [Desk.step, Desk.step, h.sheet?]
    cases d.sheet? sheet with
    | none => exact ⟨rfl, h⟩
    | some sheet =>
      let draft := stages.foldl Draft.withStage (Draft.new sheet selector)
      have hdrafts := congrArg (fun drafts => drafts.insert label draft) h.drafts
      exact ⟨rfl, h.registry, h.sheets, hdrafts⟩
  | resolveDraft label =>
    rw [Desk.step, Desk.step, h.drafts]
    cases d.drafts.get? label with
    | none => exact ⟨rfl, h⟩
    | some draft => exact h.resolve draft
  | compare a b =>
    rw [Desk.step, Desk.step, h.sheet?, h.sheet?]
    cases d.sheet? a with
    | none => exact ⟨rfl, h⟩
    | some a =>
      cases d.sheet? b with
      | none => exact ⟨rfl, h⟩
      | some b => exact ⟨rfl, h⟩
  | state ns =>
    obtain ⟨hoptions, hscope⟩ := h.state ns
    rw [Desk.step, Desk.step, hoptions, hscope]
    exact ⟨rfl, h⟩

theorem act (h : d.OtherMemory d') (action : Action Order) :
    (d'.act action).1 = (d.act action).1 ∧ (d.act action).2.OtherMemory (d'.act action).2 := by
  cases action with
  | plain order => exact h.step order
  | make ns factory label =>
    obtain ⟨hresult, hother⟩ := h.registry.registerMade ns factory
    cases hr : d.registry.registerMade ns factory with
    | mk result r =>
      cases hr' : d'.registry.registerMade ns factory with
      | mk result' r' =>
        rw [hr, hr'] at hresult hother
        obtain rfl : result' = result := hresult
        simp only [Desk.act, hr, hr']
        cases result' with
        | error fault => exact ⟨rfl, hother, h.sheets, h.drafts⟩
        | ok handle => exact ⟨rfl, h.saveSheet hother label ⟨ns⟩⟩

theorem answeredAlike : AnsweredAlike Desk.act OtherMemory fun report => report :=
  fun _ _ action h => h.act action

end OtherMemory

theorem step_refused {order : Order} {fault : Fault}
    (refused : (d.step order).1 = .refused fault) : (d.step order).2 = d := by
  cases order with
  | change ns change label =>
    rw [step] at refused ⊢
    cases hc : d.registry.apply ns change with
    | error own => rfl
    | ok changed =>
      rw [hc] at refused
      cases refused
  | resolve sheet selector stages =>
    rw [step] at refused ⊢
    cases hs : d.sheet? sheet with
    | none => rfl
    | some sheet =>
      rw [hs] at refused
      cases refused
  | draft sheet selector stages label =>
    rw [step] at refused ⊢
    cases hs : d.sheet? sheet with
    | none => rfl
    | some sheet =>
      rw [hs] at refused
      cases refused
  | resolveDraft label =>
    rw [step] at refused ⊢
    cases hs : d.drafts.get? label with
    | none => rfl
    | some draft =>
      rw [hs] at refused
      cases refused
  | compare a b =>
    rw [step]
    split <;> rfl
  | configure options => cases refused
  | reset => cases refused
  | state ns => cases refused

theorem act_refused {action : Action Order} {fault : Fault} (h : d.registry.memo.Sound)
    (refused : (d.act action).1 = .refused fault) : d.OtherMemory (d.act action).2 := by
  cases action with
  | plain order =>
    have hkept : (d.act (.plain order)).2 = d := step_refused refused
    rw [hkept]
    exact .refl h
  | make ns factory label =>
    cases hr : d.registry.registerMade ns factory with
    | mk result r =>
      simp only [act, hr] at refused ⊢
      cases result with
      | ok handle => cases refused
      | error own =>
        have hother := Registry.otherMemory_of_registerMade_error h (congrArg Prod.fst hr)
        rw [hr] at hother
        exact ⟨hother, rfl, rfl⟩

end Desk

/-- A run without a registration that is refused differs in shared slices and memory at most. -/
theorem refused_registrations_leave_no_trace (options : Options) :
    (∀ (before after : List (Action Command)) (gone : Action Command) (fault : Fault),
      (((Session.new options).actAll before).2.act gone).1 = .refused fault →
      let kept := (Session.new options).actAll (before ++ gone :: after)
      let erased := (Session.new options).actAll (before ++ after)
      (kept.1.eraseIdx before.length).map Answer.unshared = erased.1.map Answer.unshared ∧
        erased.2.OtherMemory kept.2 ∧
        ∀ command, gone = .plain command →
          kept.1.eraseIdx before.length = erased.1 ∧ kept.2 = erased.2) ∧
    ∀ (before after : List (Action Order)) (gone : Action Order) (fault : Fault),
      (((Desk.new options).actAll before).2.act gone).1 = .refused fault →
      let kept := (Desk.new options).actAll (before ++ gone :: after)
      let erased := (Desk.new options).actAll (before ++ after)
      kept.1.eraseIdx before.length = erased.1 ∧ erased.2.OtherMemory kept.2 ∧
        ∀ order, gone = .plain order → kept.2 = erased.2 := by
  have hsound : (Registry.new options).memo.Sound := Memo.sound_of_empty rfl
  constructor
  · intro before after gone fault refused kept erased
    have hbefore : ((Session.new options).actAll before).2.registry.memo.Sound :=
      (Session.OtherMemory.answeredAlike.runAll (.refl hsound) before).2.registry.sound
    obtain ⟨hanswers, hlast⟩ := Session.OtherMemory.answeredAlike.erase before gone after
      (Session.act_refused hbefore refused)
    refine ⟨hanswers, hlast, ?_⟩
    rintro command rfl
    have hkept := (Session.step_refused refused).symm
    obtain ⟨hanswers, hlast⟩ := (answeredAlike_eq Session.act).erase before (.plain command)
      after hkept
    rw [List.map_id, List.map_id] at hanswers
    exact ⟨hanswers, hlast.symm⟩
  · intro before after gone fault refused kept erased
    have hbefore : ((Desk.new options).actAll before).2.registry.memo.Sound :=
      (Desk.OtherMemory.answeredAlike.runAll (.refl hsound) before).2.registry.sound
    obtain ⟨hreports, hlast⟩ := Desk.OtherMemory.answeredAlike.erase before gone after
      (Desk.act_refused hbefore refused)
    rw [List.map_id', List.map_id'] at hreports
    refine ⟨hreports, hlast, ?_⟩
    rintro order rfl
    have hkept := (Desk.step_refused refused).symm
    exact ((answeredAlike_eq Desk.act).erase before (.plain order) after hkept).2.symm

def bareCard : Factory := .expand "frame" fun _ =>
  .give (Dict.ofList [("box", .attributes ∅), ("card", .value .null)])

def afterCard : List (Action Command) := [
  .plain (.findNamespace "theme"),
  .plain (.look .root (.locate ⟨"theme", ["box"]⟩)),
  .plain (.expandTwice "box"),
  .plain (.change (some "base") (.defineVariables ∅) none)]

theorem bare_card_leaves_no_trace :
    let session := Session.new ⟨some 1, true⟩
    let desk := Desk.new ⟨some 1, true⟩
    let fault := Fault.malformed "card" (.bareValue .null)
    (session.act (.make (some "theme") bareCard none)).1 = .refused fault ∧
      (session.actAll (.make (some "theme") bareCard none :: afterCard)).1.tail.map
        Answer.unshared = (session.actAll afterCard).1.map Answer.unshared ∧
      (session.actAll afterCard).1.getLast? = some (.issued Registry.firstTheme "base") ∧
      (desk.act (.make (some "theme") bareCard none)).1 = .refused fault ∧
      desk.OtherMemory (desk.actAll [.make (some "theme") bareCard none]).2 := by
  obtain ⟨hsessions, hdesks⟩ := refused_registrations_leave_no_trace ⟨some 1, true⟩
  obtain ⟨hanswers, _⟩ := hsessions [] afterCard (.make (some "theme") bareCard none) _ rfl
  obtain ⟨_, hlast, _⟩ := hdesks [] [] (.make (some "theme") bareCard none) _ rfl
  exact ⟨rfl, hanswers, rfl, rfl, hlast⟩

end Stylebook
