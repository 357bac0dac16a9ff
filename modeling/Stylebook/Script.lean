import Stylebook.Body
import Stylebook.Template

namespace Stylebook

/-- What a script returns at its end. -/
inductive Ending
  | collected
  | collectedWith (outline : Outline)
  | only (outline : Outline)

/-- The steps of bodies that are written down. -/
inductive Step
  | inclusion (selector : String)
  | mixinCall (name : String) (arguments : List Template)
  | assign (outline : Outline)
  /-- Collect what was collected so far, as one value under a key. -/
  | snapshot (key : String)
  | branch (name : String) (present absent : List Step)
  /-- Run the steps; when they fail, collect the fault under the key and go on. -/
  | attempt (steps : List Step) (key : String)
  | failure (fault : Fault)
  | finish (ending : Ending)

def Ending.program (view : View) : Ending → Program Attributes
  | .collected => .collected .done
  | .collectedWith outline => .collectedWith (outline.fill view) .done
  | .only outline => .done (outline.fill view)

namespace Step

def orElse (failed : Fault → Program Attributes) (next : Program Attributes) :
    Option Fault → Program Attributes
  | none => next
  | some fault => failed fault

def recovered (key : String) (next : Program Attributes) (fault : Fault) : Program Attributes :=
  .collect (Dict.singleton key fault.toValue) next

mutual

/-- What a step does before `next`, which it may skip; a fault is left to `failed`. -/
def program (view : View) (failed : Fault → Program Attributes) (next : Program Attributes) :
    Step → Program Attributes
  | .inclusion selector => .inclusion selector (orElse failed next)
  | .mixinCall name arguments =>
    .callMixin name (Template.fillItems view arguments) (orElse failed next)
  | .assign outline => .collect (outline.fill view) next
  | .snapshot key => .collected fun attributes =>
    .collect (Dict.singleton key (Value.ofAttributes attributes)) next
  | .branch name present absent =>
    if (view.lookup name).isSome then programAll view failed next present
    else programAll view failed next absent
  | .attempt steps key => programAll view (recovered key next) next steps
  | .failure fault => failed fault
  | .finish ending => ending.program view

def programAll (view : View) (failed : Fault → Program Attributes) (next : Program Attributes) :
    List Step → Program Attributes
  | [] => next
  | step :: rest => step.program view failed (programAll view failed next rest)

end

end Step

/-- A body that runs out of steps returns nothing more. -/
def Body.ofSteps (steps : List Step) : Body := fun view =>
  Step.programAll view .fail (.done ∅) steps

instance : Coe (List Step) Body := ⟨Body.ofSteps⟩

instance : Coe Outline Mixin := ⟨Outline.fill⟩

end Stylebook
