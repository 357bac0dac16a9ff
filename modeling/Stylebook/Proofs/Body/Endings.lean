import Stylebook.Recipe.Invoke
import Stylebook.Script

namespace Stylebook

namespace Program

/-- The ways to end a body with attributes on top of what it collected. -/
inductive EndsWith : Attributes → Program Attributes → Prop
  | returned (attributes : Attributes) : EndsWith attributes (.done attributes)
  | collectedWith (attributes : Attributes) : EndsWith attributes (.collectedWith attributes .done)
  | collectedThenNothing (attributes : Attributes) :
      EndsWith attributes (.collect attributes (.done ∅))
  | collected : EndsWith ∅ (.collected .done)

/-- Programs that differ only in the styles of their endings. -/
inductive Restyled : Program Attributes → Program Attributes → Prop
  | ending {attributes : Attributes} {ends ends' : Program Attributes}
      (h : EndsWith attributes ends) (h' : EndsWith attributes ends') : Restyled ends ends'
  | fail (fault : Fault) : Restyled (.fail fault) (.fail fault)
  | collect (attributes : Attributes) {next next' : Program Attributes}
      (restyled : Restyled next next') :
      Restyled (.collect attributes next) (.collect attributes next')
  | collected {next next' : Attributes → Program Attributes}
      (restyled : ∀ attributes, Restyled (next attributes) (next' attributes)) :
      Restyled (.collected next) (.collected next')
  | callMixin (name : String) (arguments : List Value)
      {next next' : Option Fault → Program Attributes}
      (restyled : ∀ fault, Restyled (next fault) (next' fault)) :
      Restyled (.callMixin name arguments next) (.callMixin name arguments next')
  | inclusion (selector : String) {next next' : Option Fault → Program Attributes}
      (restyled : ∀ fault, Restyled (next fault) (next' fault)) :
      Restyled (.inclusion selector next) (.inclusion selector next')

variable {c : Context} {attributes : Attributes} {ends program program' : Program Attributes}

/-- Whatever the style of an ending, it comes to its attributes on top of all that was collected. -/
theorem EndsWith.conclude_run (h : EndsWith attributes ends) (p : Progress) :
    Body.conclude (ends.run c p) = (.ok (p.collected.merge attributes), p.evaluation) := by
  cases h with
  | returned => rfl
  | collectedWith => exact congrArg (fun all => (Except.ok all, p.evaluation)) (Dict.merge_self _)
  | collectedThenNothing =>
    exact congrArg (fun all => (Except.ok all, p.evaluation)) (Dict.merge_empty _)
  | collected =>
    have hself : p.collected.merge p.collected = p.collected.merge ∅ :=
      (Dict.merge_self _).trans (Dict.merge_empty _).symm
    exact congrArg (fun all => (Except.ok all, p.evaluation)) hself

theorem Restyled.conclude_run (h : Restyled program program') (p : Progress) :
    Body.conclude (program.run c p) = Body.conclude (program'.run c p) := by
  induction h generalizing p with
  | ending h h' => rw [h.conclude_run, h'.conclude_run]
  | fail fault => rfl
  | collect attributes restyled ih => exact ih _
  | collected restyled ih => exact ih _ p
  | callMixin name arguments restyled ih =>
    rw [run_callMixin, run_callMixin]
    exact ih _ _
  | inclusion selector restyled ih =>
    rw [run_inclusion, run_inclusion]
    exact ih _ _

theorem Restyled.bind {α : Type} (steps : Program α) {ending ending' : α → Program Attributes}
    (h : ∀ result, Restyled (ending result) (ending' result)) :
    Restyled (steps.bind ending) (steps.bind ending') := by
  induction steps with
  | done result => exact h result
  | fail fault => exact .fail fault
  | collect attributes next ih => exact .collect attributes ih
  | collected next ih => exact .collected ih
  | callMixin name arguments next ih => exact .callMixin name arguments ih
  | inclusion selector next ih => exact .inclusion selector ih

end Program

namespace Step

/-- The same ways to end, as steps. -/
inductive EndsWith : Outline → List Step → Prop
  | returned (outline : Outline) : EndsWith outline [.finish (.only outline)]
  | collectedWith (outline : Outline) : EndsWith outline [.finish (.collectedWith outline)]
  | assignedThenCollected (outline : Outline) :
      EndsWith outline [.assign outline, .finish .collected]
  | assignedThenNothing (outline : Outline) :
      EndsWith outline [.assign outline, .finish (.only [])]
  | collected : EndsWith [] [.finish .collected]

/-- Steps that differ only in the styles of their endings, and in what is written behind one. -/
inductive Restyled : List Step → List Step → Prop
  | nil : Restyled [] []
  | step (step : Step) {rest rest' : List Step} (restyled : Restyled rest rest') :
      Restyled (step :: rest) (step :: rest')
  | branch (name : String) {present present' absent absent' rest rest' : List Step}
      (inPresent : Restyled present present') (inAbsent : Restyled absent absent')
      (restyled : Restyled rest rest') :
      Restyled (.branch name present absent :: rest) (.branch name present' absent' :: rest')
  | attempt (key : String) {steps steps' rest rest' : List Step} (within : Restyled steps steps')
      (restyled : Restyled rest rest') :
      Restyled (.attempt steps key :: rest) (.attempt steps' key :: rest')
  | ending {outline : Outline} {ends ends' : List Step} (h : EndsWith outline ends)
      (h' : EndsWith outline ends') (rest rest' : List Step) :
      Restyled (ends ++ rest) (ends' ++ rest')

variable {view : View} {failed failed' : Fault → Program Attributes}
  {next next' : Program Attributes} {outline : Outline} {ends steps steps' : List Step}

theorem EndsWith.programAll (h : EndsWith outline ends) (rest : List Step) :
    Program.EndsWith (outline.fill view) (Step.programAll view failed next (ends ++ rest)) := by
  cases h with
  | returned => exact .returned _
  | collectedWith => exact .collectedWith _
  | assignedThenCollected => exact .collectedWith _
  | assignedThenNothing => exact .collectedThenNothing _
  | collected => exact .collected

theorem orElse_restyled (hfailed : ∀ fault, Program.Restyled (failed fault) (failed' fault))
    (hnext : Program.Restyled next next') (fault : Option Fault) :
    Program.Restyled (orElse failed next fault) (orElse failed' next' fault) := by
  cases fault with
  | none => exact hnext
  | some fault => exact hfailed fault

mutual

theorem program_restyled (view : View) : ∀ (step : Step)
    {failed failed' : Fault → Program Attributes} {next next' : Program Attributes},
    (∀ fault, Program.Restyled (failed fault) (failed' fault)) → Program.Restyled next next' →
    Program.Restyled (step.program view failed next) (step.program view failed' next')
  | .inclusion selector, _, _, _, _, hfailed, hnext =>
    .inclusion selector (orElse_restyled hfailed hnext)
  | .mixinCall name arguments, _, _, _, _, hfailed, hnext =>
    .callMixin name _ (orElse_restyled hfailed hnext)
  | .assign outline, _, _, _, _, _, hnext => .collect _ hnext
  | .snapshot key, _, _, _, _, _, hnext => .collected fun attributes => .collect _ hnext
  | .branch name present absent, _, _, _, _, hfailed, hnext => by
    rw [program, program]
    split
    · exact programAll_restyled view present hfailed hnext
    · exact programAll_restyled view absent hfailed hnext
  | .attempt steps key, _, _, _, _, _, hnext => by
    rw [program, program]
    exact programAll_restyled view steps (fun fault => .collect _ hnext) hnext
  | .failure fault, _, _, _, _, hfailed, _ => hfailed fault
  | .finish ending, _, _, _, _, _, _ => by
    rw [program, program]
    cases ending with
    | collected => exact .ending .collected .collected
    | collectedWith outline => exact .ending (.collectedWith _) (.collectedWith _)
    | only outline => exact .ending (.returned _) (.returned _)

theorem programAll_restyled (view : View) : ∀ (steps : List Step)
    {failed failed' : Fault → Program Attributes} {next next' : Program Attributes},
    (∀ fault, Program.Restyled (failed fault) (failed' fault)) → Program.Restyled next next' →
    Program.Restyled (programAll view failed next steps) (programAll view failed' next' steps)
  | [], _, _, _, _, _, hnext => hnext
  | step :: rest, _, _, _, _, hfailed, hnext =>
    program_restyled view step hfailed (programAll_restyled view rest hfailed hnext)

end

theorem Restyled.programAll (h : Restyled steps steps')
    (hfailed : ∀ fault, Program.Restyled (failed fault) (failed' fault))
    (hnext : Program.Restyled next next') :
    Program.Restyled (Step.programAll view failed next steps)
      (Step.programAll view failed' next' steps') := by
  induction h generalizing failed failed' next next' with
  | nil => exact hnext
  | step step restyled ih => exact program_restyled view step hfailed (ih hfailed hnext)
  | branch name inPresent inAbsent restyled ihPresent ihAbsent ih =>
    rw [Step.programAll, Step.programAll, program, program]
    split
    · exact ihPresent hfailed (ih hfailed hnext)
    · exact ihAbsent hfailed (ih hfailed hnext)
  | attempt key within restyled ihWithin ih =>
    rw [Step.programAll, Step.programAll, program, program]
    exact ihWithin (fun fault => .collect _ (ih hfailed hnext)) (ih hfailed hnext)
  | ending h h' rest rest' => exact .ending (h.programAll rest) (h'.programAll rest')

end Step

theorem Body.run_restyled {body body' : Body}
    (h : ∀ view, Program.Restyled (body view) (body' view)) (c : Context) (e : Evaluation) :
    body.run c e = body'.run c e :=
  (h c.view).conclude_run ⟨∅, e⟩

namespace Step

/-- Bodies that differ in the styles of their endings are invoked alike, wherever these stand. -/
theorem ending_styles_alike (setting : Setting) (resolve : Handle → Path → Resolving)
    (owner : Handle) (e : Evaluation) :
    let invoke (body : Body) := (Recipe.run owner body).invoke setting resolve e
    (∀ (α : Type) (steps : View → Program α) (attributes : View → α → Attributes),
      let ending (ends : Attributes → Program Attributes) :=
        invoke fun view => (steps view).bind fun result => ends (attributes view result)
      ending (fun given => .collect given (.collected .done)) = ending .done ∧
      ending (fun given => .collectedWith given .done) = ending .done ∧
      ending (fun given => .collect given (.done ∅)) = ending .done ∧
      ending (fun _ => .collected .done) = ending fun _ => .done ∅) ∧
    (∀ body body' : Body, (∀ view, Program.Restyled (body view) (body' view)) →
      invoke body = invoke body') ∧
    ∀ steps steps' : List Step, Restyled steps steps' →
      invoke (Body.ofSteps steps) = invoke (Body.ofSteps steps') := by
  intro invoke
  have hrestyled (body body' : Body) (h : ∀ view, Program.Restyled (body view) (body' view)) :
      invoke body = invoke body' := Body.run_restyled h _ e
  refine ⟨?_, hrestyled, ?_⟩
  · intro α steps attributes ending
    have hends {ends ends' : Attributes → Program Attributes}
        (h : ∀ given, Program.Restyled (ends given) (ends' given)) : ending ends = ending ends' :=
      hrestyled _ _ fun view => .bind _ fun result => h (attributes view result)
    refine ⟨hends fun given => .ending (.collectedWith given) (.returned given),
      hends fun given => .ending (.collectedWith given) (.returned given),
      hends fun given => .ending (.collectedThenNothing given) (.returned given),
      hends fun _ => .ending .collected (.returned ∅)⟩
  · intro steps steps' h
    apply hrestyled
    intro view
    exact h.programAll (fun fault => .fail fault) (.ending (.returned ∅) (.returned ∅))

def ofWidth (value : Int) : Outline := [("width", .literal (.integer value))]

def recovery : Step := .attempt [.mixinCall "radius" [], .snapshot "below"] "fault"

def bodyThatCollects : List Step :=
  [recovery,
    .branch "wide"
      [.attempt [.assign (ofWidth 2), .finish .collected, .snapshot "after"] "fault"] [],
    .assign (ofWidth 1), .finish (.only [])]

def bodyThatReturns : List Step :=
  [recovery, .branch "wide" [.attempt [.finish (.only (ofWidth 2))] "fault"] [],
    .finish (.collectedWith (ofWidth 1))]

def wideSetting : Setting where
  start := Handle.root
  lookup name := if name = "wide" then some (.bool true) else none
  mixin? _ _ := none

theorem width_collected_or_returned :
    let invoke (steps : List Step) := (Recipe.run Handle.root (Body.ofSteps steps)).invoke
      wideSetting (fun _ path e => (.error (.unknownPath path.text), e))
      (Evaluation.start (Memo.new none))
    Restyled bodyThatCollects bodyThatReturns ∧
      invoke bodyThatCollects = invoke bodyThatReturns ∧
      (invoke bodyThatReturns).1 = .ok (Dict.ofList
        [("fault", (Fault.unknownMixin "radius").toValue), ("width", .integer 2)]) := by
  intro invoke
  have hwide : Restyled
      [.attempt [.assign (ofWidth 2), .finish .collected, .snapshot "after"] "fault"]
      [.attempt [.finish (.only (ofWidth 2))] "fault"] :=
    .attempt "fault"
      (.ending (.assignedThenCollected (ofWidth 2)) (.returned (ofWidth 2)) _ []) .nil
  have hnarrow : Restyled [.assign (ofWidth 1), .finish (.only [])]
      [.finish (.collectedWith (ofWidth 1))] :=
    .ending (.assignedThenNothing (ofWidth 1)) (.collectedWith (ofWidth 1)) [] []
  have hrestyled : Restyled bodyThatCollects bodyThatReturns :=
    .step recovery (.branch "wide" hwide .nil hnarrow)
  exact ⟨hrestyled, (ending_styles_alike wideSetting _ Handle.root _).2.2 _ _ hrestyled, rfl⟩

end Step

end Stylebook
