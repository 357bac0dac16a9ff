import Stylebook.Value.Compact

namespace Stylebook

/-- What is wrong with the shape of a declaration. -/
inductive Flaw
  | bareValue (value : Value)
  | groupAsBase
  | notAnObject (value : Value)
  | other (message : String)
deriving Repr

def Flaw.message : Flaw → String
  | .bareValue value => "expected a declaration, found bare value " ++ value.compact
  | .groupAsBase => "the `attributes` entry must be attributes or a function, not a group"
  | .notAnObject value => "expected an object of declarations, found " ++ value.compact
  | .other message => message

inductive Fault
  /-- No declaration that can be reached has the path. -/
  | unknownPath (path : String)
  /-- The path names a group of declarations, or a whole namespace. -/
  | notInvokable (path : String)
  /-- Neither the owning scope nor its parents have the mixin. -/
  | unknownMixin (name : String)
  | malformed (path : String) (flaw : Flaw)
  /-- A declaration needs itself; `chain` lists those in progress, and it once more. -/
  | cyclic (path : String) (chain : List String)
deriving Repr

namespace Fault

def kind : Fault → String
  | .unknownPath _ => "UnknownPath"
  | .notInvokable _ => "NotALeaf"
  | .unknownMixin _ => "UnknownMixin"
  | .malformed _ _ => "MalformedDeclaration"
  | .cyclic _ _ => "CyclicReference"

/-- Paths and names stand between quotes as they are, unescaped. -/
def message : Fault → String
  | .unknownPath path => "Unknown style path \"" ++ path ++ "\""
  | .notInvokable path => "Style path is not a valid styleset \"" ++ path ++ "\""
  | .unknownMixin name => "Unknown mixin \"" ++ name ++ "\""
  | .malformed path flaw => "Malformed declaration \"" ++ path ++ "\": " ++ flaw.message
  | .cyclic path chain =>
    "Cyclic reference to \"" ++ path ++ "\" (" ++ " -> ".intercalate chain ++ ")"

def toValue (fault : Fault) : Value :=
  .object [("error", .string fault.kind), ("message", .string fault.message)]

end Fault

end Stylebook
