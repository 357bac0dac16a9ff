import Stylebook.Dict
import Stylebook.Value.Number

namespace Stylebook

/-- An object lists its fields in ascending order of their names. -/
inductive Value
  | null
  | bool (value : Bool)
  | number (value : Number)
  | string (text : String)
  | array (items : List Value)
  | object (fields : List (String × Value))
deriving Inhabited, Repr

/-- A flat mapping from names to values: the attributes of a style, or variables. -/
abbrev Attributes := Dict Value

namespace Value

def isObject : Value → Bool
  | .object _ => true
  | _ => false

def ofAttributes (attributes : Attributes) : Value := .object attributes.entries

def integer (value : Int) : Value := .number (.integer value)

end Value

end Stylebook
