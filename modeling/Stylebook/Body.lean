import Stylebook.Fault
import Stylebook.View

namespace Stylebook

/-- A mixin gives attributes by the variables of the query and its arguments. -/
abbrev Mixin := View → Attributes

/-- What a body does in its context until it comes to a result or fails. -/
inductive Program (α : Type)
  | done (result : α)
  | fail (fault : Fault)
  | collect (attributes : Attributes) (next : Program α)
  /-- Go on with what was collected so far. -/
  | collected (next : Attributes → Program α)
  /-- Collect what a mixin gives; without such a mixin go on with the fault. -/
  | callMixin (name : String) (arguments : List Value) (next : Option Fault → Program α)
  /-- Collect the attributes of every path in order; at the first fault go on with that. -/
  | inclusion (selector : String) (next : Option Fault → Program α)

/-- Programs in a row; the second one goes on with the result of the first one. -/
def Program.bind {α β : Type} : Program α → (α → Program β) → Program β
  | .done result, following => following result
  | .fail fault, _ => .fail fault
  | .collect attributes next, following => .collect attributes (next.bind following)
  | .collected next, following => .collected fun attributes => (next attributes).bind following
  | .callMixin name arguments next, following =>
    .callMixin name arguments fun fault => (next fault).bind following
  | .inclusion selector next, following =>
    .inclusion selector fun fault => (next fault).bind following

def Program.collectedWith {α : Type} (attributes : Attributes) (next : Attributes → Program α) :
    Program α :=
  .collect attributes (.collected next)

/-- What a body returns is merged over what it collected. -/
abbrev Body := View → Program Attributes

end Stylebook
