import Stylebook.Body

namespace Stylebook

inductive Declaration
  | attributes (attributes : Attributes)
  | body (body : Body)
  | group (children : List (String × Declaration))
  | value (value : Value)

abbrev Declarations := Dict Declaration

namespace Declaration

/-- A group of named children; of several with one name the last stays. -/
def ofChildren (children : List (String × Declaration)) : Declaration :=
  .group (Dict.ofList children).entries

def kind : Declaration → String
  | .attributes _ => "attributes"
  | .body _ => "function"
  | .group _ => "group"
  | .value _ => "value"

mutual

/-- An object that holds an object is a group, any other a mapping, and all else a bare value. -/
def ofValue : Value → Declaration
  | .object fields =>
    if fields.any fun field => field.2.isObject then .group (ofFields fields)
    else .attributes (Dict.ofList fields)
  | .null => .value .null
  | .bool b => .value (.bool b)
  | .number n => .value (.number n)
  | .string text => .value (.string text)
  | .array items => .value (.array items)

def ofFields : List (String × Value) → List (String × Declaration)
  | [] => []
  | (name, field) :: rest => (name, ofValue field) :: ofFields rest

end

end Declaration

/-- Only an object is a tree of declarations. -/
def Declarations.ofValue : Value → Except Fault Declarations
  | .object fields => .ok (Dict.ofList (Declaration.ofFields fields))
  | other => .error (.malformed "" (.notAnObject other))

end Stylebook
