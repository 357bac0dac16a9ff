import Stylebook.View

namespace Stylebook

/-- Values with places that are filled in from a view. -/
inductive Template
  | literal (value : Value)
  | array (items : List Template)
  | object (fields : List (String × Template))
  /-- The variable of that name if there is one, whatever its value; else the fallback. -/
  | variableOr (name : String) (fallback : Template)
  /-- The argument at that position if there is one; else the fallback. -/
  | argumentOr (position : Nat) (fallback : Template)
  | arguments
  | hasVariable (name : String)
  /-- A test without an answer gives null. -/
  | scopeTest (test : ScopeTest)
deriving Inhabited

namespace Template

mutual

/-- A value that was looked up is taken as it is, and not filled in again. -/
def fill (view : View) : Template → Value
  | .literal value => value
  | .array items => .array (fillItems view items)
  | .object fields => .object (Dict.ofList (fillFields view fields)).entries
  | .variableOr name fallback => (view.lookup name).getD (fallback.fill view)
  | .argumentOr position fallback => view.arguments[position]?.getD (fallback.fill view)
  | .arguments => .array view.arguments
  | .hasVariable name => .bool (view.lookup name).isSome
  | .scopeTest test => ((view.answer test).map Value.bool).getD .null

def fillItems (view : View) : List Template → List Value
  | [] => []
  | item :: rest => item.fill view :: fillItems view rest

def fillFields (view : View) : List (String × Template) → List (String × Value)
  | [] => []
  | (name, field) :: rest => (name, field.fill view) :: fillFields view rest

end

end Template

abbrev Outline := List (String × Template)

/-- The attributes that an outline gives. -/
def Outline.fill (outline : Outline) (view : View) : Attributes :=
  Dict.ofList (Template.fillFields view outline)

end Stylebook
