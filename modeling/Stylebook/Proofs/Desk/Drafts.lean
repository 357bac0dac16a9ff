import Stylebook.Proofs.Desk.Orders
import Stylebook.Proofs.Query.Merge

namespace Stylebook

namespace Draft

/-- A draft puts together one by one what the query from its scope would be given. -/
def ofStages (sheet : Sheet) (selector : Selector) (stages : List Stage) : Draft :=
  stages.foldl withStage (new sheet selector)

theorem withAttributes_eq (d : Draft) (attributes : Attributes) :
    d.withAttributes attributes =
      { d with staged := some ((d.staged.getD ∅).merge attributes) } := by
  rw [withAttributes]
  cases d.staged with
  | none => rw [Option.getD_none, Dict.empty_merge]
  | some staged => rfl

theorem query_eq (d : Draft) (start : Handle) :
    d.query start = ⟨start, d.selector, d.vars, d.staged⟩ := by
  rw [query, Query.withVariables, Query.new, Dict.empty_merge]
  cases d.staged <;> rfl

theorem query_withStage (d : Draft) (stage : Stage) (start : Handle) :
    (d.withStage stage).query start = (d.query start).withStage stage := by
  rw [query_eq, query_eq]
  cases stage with
  | vars overrides => rfl
  | attributes staged =>
    rw [withStage, Query.withStage, withAttributes_eq, Query.withAttributes_eq]

theorem query_foldl (d : Draft) (stages : List Stage) (start : Handle) :
    (stages.foldl withStage d).query start = stages.foldl Query.withStage (d.query start) := by
  induction stages generalizing d with
  | nil => rfl
  | cons stage rest ih => rw [List.foldl_cons, List.foldl_cons, ih, query_withStage]

theorem query_ofStages (sheet : Sheet) (selector : Selector) (stages : List Stage)
    (start : Handle) : (ofStages sheet selector stages).query start =
      Query.ofStages start selector stages := by
  rw [ofStages, query_foldl, query_eq]
  rfl

theorem sheet_withStage (d : Draft) (stage : Stage) : (d.withStage stage).sheet = d.sheet := by
  cases stage with
  | vars overrides => rfl
  | attributes staged => rw [withStage, withAttributes_eq]

theorem sheet_foldl (d : Draft) (stages : List Stage) :
    (stages.foldl withStage d).sheet = d.sheet := by
  induction stages generalizing d with
  | nil => rfl
  | cons stage rest ih => exact (ih _).trans (d.sheet_withStage stage)

theorem sheet_ofStages (sheet : Sheet) (selector : Selector) (stages : List Stage) :
    (ofStages sheet selector stages).sheet = sheet :=
  sheet_foldl _ stages

theorem start?_of_handle {d : Draft} {r : Registry} {start : Handle}
    (h : r.handleOf? d.sheet.ns = some start) : d.start? r = .ok start := by
  rw [start?]
  cases hns : d.sheet.ns with
  | none =>
    rw [hns] at h
    cases h
    rfl
  | some name =>
    rw [hns] at h
    have hhandle : r.handle? name = some start := h
    simp only [hhandle]

theorem resolve_of_handle {d : Draft} {r : Registry} {start : Handle}
    (h : r.handleOf? d.sheet.ns = some start) : d.resolve r = (d.query start).resolve r := by
  rw [resolve, start?_of_handle h]

theorem resolve_of_missing {d : Draft} {r : Registry} {name : String}
    (hns : d.sheet.ns = some name) (h : r.handle? name = none) :
    d.resolve r = (.error (.unknownPath name), r) := by
  simp only [resolve, start?, hns, h]

end Draft

/-- Whether an order saves a draft under a label, over the one that may be there. -/
def Order.SavesDraft (order : Order) (label : String) : Prop :=
  ∃ sheet selector stages, order = .draft sheet selector stages label

namespace Desk

variable {d : Desk} {sheet : Sheet} {selector : Selector} {stages : List Stage} {label : String}

/-- What the query from a scope of the registry at hand reports. -/
def asked (d : Desk) (start : Handle) (selector : Selector) (stages : List Stage) : Report × Desk :=
  let (result, r) := (Query.ofStages start selector stages).resolve d.registry
  (.resolved result, { d with registry := r })

/-- The answer to the query from the scope that has the name of the sheet now, if there is one. -/
structure Mirrors (d : Desk) (sheet : Sheet) (selector : Selector) (stages : List Stage)
    (answer : Report × Desk) : Prop where
  found : ∀ start, d.registry.handleOf? sheet.ns = some start →
    answer = d.asked start selector stages
  missing : ∀ name, sheet.ns = some name → d.registry.handle? name = none →
    answer = (.resolved (.error (.unknownPath name)), d)

theorem mirrors_resolve (d : Desk) (sheet : Sheet) (selector : Selector) (stages : List Stage) :
    d.Mirrors sheet selector stages (d.resolve (.ofStages sheet selector stages)) := by
  have hsheet := Draft.sheet_ofStages sheet selector stages
  constructor
  · intro start hstart
    rw [← hsheet] at hstart
    rw [resolve, Draft.resolve_of_handle hstart, Draft.query_ofStages]
    rfl
  · intro name hns hmissing
    rw [← hsheet] at hns
    rw [resolve, Draft.resolve_of_missing hns hmissing]

theorem step_draft {name : SheetName} (hsheet : d.sheet? name = some sheet) :
    (d.step (.draft name selector stages label)).2.drafts.get? label =
      some (.ofStages sheet selector stages) := by
  simp only [step, hsheet]
  exact (Dict.get?_insert _ _ _ _).trans (if_pos rfl)

theorem step_drafts {order : Order} (h : ¬ order.SavesDraft label) :
    (d.step order).2.drafts.get? label = d.drafts.get? label := by
  cases order with
  | configure options => rfl
  | reset => rfl
  | change ns change saved =>
    rw [step]
    cases d.registry.apply ns change with
    | error fault => rfl
    | ok changed =>
      exact congrArg (fun drafts => drafts.get? label) (saveSheet_drafts _ saved _)
  | resolve sheet selector stages =>
    rw [step]
    cases d.sheet? sheet <;> rfl
  | draft sheet selector stages other =>
    have hne : label ≠ other := by
      rintro rfl
      exact h ⟨sheet, selector, stages, rfl⟩
    rw [step]
    cases d.sheet? sheet with
    | none => rfl
    | some sheet => exact (Dict.get?_insert _ _ _ _).trans (if_neg hne)
  | resolveDraft other =>
    rw [step]
    cases d.drafts.get? other <;> rfl
  | compare a b =>
    rw [step]
    split <;> rfl
  | state ns => rfl

theorem after_drafts (d : Desk) {orders : List Order}
    (h : ∀ order ∈ orders, ¬ order.SavesDraft label) :
    (d.after orders).drafts.get? label = d.drafts.get? label := by
  induction orders generalizing d with
  | nil => rfl
  | cons order rest ih =>
    obtain ⟨hfirst, hrest⟩ := List.forall_mem_cons.1 h
    exact (ih _ hrest).trans (step_drafts hfirst)

theorem mirrors_resolveDraft (h : d.drafts.get? label = some (.ofStages sheet selector stages)) :
    d.Mirrors sheet selector stages (d.step (.resolveDraft label)) := by
  have hstep : d.step (.resolveDraft label) = d.resolve (.ofStages sheet selector stages) := by
    simp only [step, h]
  rw [hstep]
  exact d.mirrors_resolve sheet selector stages

theorem scope_of_change {ns : Option String} {change : Change} {saved : Option String}
    {report : Sheet} {again : Desk} (hr : d.registry.Reachable)
    (h : d.step (.change ns change saved) = (.sheet report, again)) :
    ∃ start scope, again.registry.handleOf? ns = some start ∧
      again.registry.scope? start = some scope ∧ scope.name = ns := by
  rw [step] at h
  cases applied : d.registry.apply ns change with
  | error fault =>
    rw [applied] at h
    cases h
  | ok changed =>
    obtain ⟨handle, r⟩ := changed
    rw [applied] at h
    obtain ⟨_, rfl⟩ := Prod.mk.inj h
    have hhandle := Registry.handleOf?_of_apply applied
    obtain ⟨scope, hscope, hname⟩ := (hr.change applied).wellFormed.scope_of_handleOf? hhandle
    rw [saveSheet_registry]
    exact ⟨handle, scope, hhandle, hscope, hname⟩

/-- A draft is resolved from the scope that has the name of its sheet by then, if there is one. -/
theorem drafts_are_bound_late (options : Options) (before after : List Order) {name : SheetName}
    {sheet : Sheet} (selector : Selector) (stages : List Stage) (label : String)
    (hsheet : ((Desk.new options).after before).sheet? name = some sheet)
    (hkept : ∀ order ∈ after, ¬ order.SavesDraft label) :
    let now := (Desk.new options).after before
    let later := (now.step (.draft name selector stages label)).2.after after
    now.Mirrors sheet selector stages (now.step (.resolve name selector stages)) ∧
    later.Mirrors sheet selector stages (later.step (.resolveDraft label)) ∧
    ∀ change saved report again,
      later.step (.change sheet.ns change saved) = (.sheet report, again) →
      ∃ start scope, again.registry.scope? start = some scope ∧ scope.name = sheet.ns ∧
        again.step (.resolveDraft label) = again.asked start selector stages := by
  intro now later
  have hnow : now.registry.Reachable := reachable_new_after options before
  have hlater : later.registry.Reachable :=
    reachable_after ((now.step_moves _).reachable hnow) after
  have hdraft : later.drafts.get? label = some (.ofStages sheet selector stages) :=
    (after_drafts _ hkept).trans (step_draft hsheet)
  refine ⟨?_, mirrors_resolveDraft hdraft, ?_⟩
  · have hstep : now.step (.resolve name selector stages) =
        now.resolve (.ofStages sheet selector stages) := by
      simp only [step, show now.sheet? name = some sheet from hsheet]
      rfl
    rw [hstep]
    exact now.mirrors_resolve sheet selector stages
  · intro change saved report again hchange
    obtain ⟨start, scope, hstart, hscope, hname⟩ := scope_of_change hlater hchange
    have hkept' : ¬ (Order.change sheet.ns change saved).SavesDraft label := by
      rintro ⟨_, _, _, he⟩
      cases he
    have hagain : again.drafts.get? label = some (.ofStages sheet selector stages) := by
      have hdrafts := (step_drafts (d := later) hkept').trans hdraft
      rwa [hchange] at hdrafts
    exact ⟨start, scope, hscope, hname, (mirrors_resolveDraft hagain).found start hstart⟩

def boxOfWidth (width : Int) : Change :=
  .register (Dict.singleton "box" (.attributes (Dict.singleton "width" (.integer width))))

def boxStages : List Stage := [.attributes (Dict.singleton "height" (.integer 2)),
  .vars (Dict.singleton "width" (.integer 3)), .attributes (Dict.singleton "height" (.integer 4))]

def themeDesk : Desk := (Desk.new .default).after [.change (some "theme") (boxOfWidth 1) none]

def clearedDesk : Desk :=
  (themeDesk.step (.draft (.sheet (.named "theme")) (.text "box") boxStages "kept")).2.after
    [.reset, .configure .default]

def refilledDesk : Desk := (clearedDesk.step (.change (some "theme") (boxOfWidth 5) none)).2

theorem theme_box_missing_until_there_again :
    (∀ order ∈ [Order.reset, .configure .default], ¬ order.SavesDraft "kept") ∧
      clearedDesk.step (.resolveDraft "kept") =
        (.resolved (.error (.unknownPath "theme")), clearedDesk) ∧
      ∃ start scope, refilledDesk.registry.scope? start = some scope ∧
        scope.name = some "theme" ∧
        refilledDesk.step (.resolveDraft "kept") =
          refilledDesk.asked start (.text "box") boxStages ∧
        (refilledDesk.step (.resolveDraft "kept")).1 =
          .resolved (.ok (Dict.ofList [("height", .integer 4), ("width", .integer 5)])) := by
  have hkept : ∀ order ∈ [Order.reset, .configure .default], ¬ order.SavesDraft "kept" := by
    simp [Order.SavesDraft]
  have hsheet : themeDesk.sheet? (.sheet (.named "theme")) = some (.named "theme") := rfl
  obtain ⟨_, hmirrors, hagain⟩ := drafts_are_bound_late .default
    [.change (some "theme") (boxOfWidth 1) none] [.reset, .configure .default]
    (.text "box") boxStages "kept" hsheet hkept
  obtain ⟨start, scope, hscope, hname, hasked⟩ :=
    hagain (boxOfWidth 5) none ⟨some "theme"⟩ _ rfl
  have hanswer : (refilledDesk.step (.resolveDraft "kept")).1 =
      .resolved (.ok (Dict.ofList [("height", .integer 4), ("width", .integer 5)])) := by
    with_unfolding_all rfl
  exact ⟨hkept, hmirrors.missing "theme" rfl rfl, start, scope, hscope, hname, hasked, hanswer⟩

end Desk

end Stylebook
