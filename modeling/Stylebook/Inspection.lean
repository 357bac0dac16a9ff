import Stylebook.Scope
import Stylebook.Declaration
import Stylebook.Value.Compact
import Stylebook.Text.Printable
import Stylebook.Text.GraphemeExtend

namespace Stylebook

namespace Inspection

/-- What cannot be seen, or is drawn over the character before it, is given by number. -/
def showChar (c : Char) : List Char :=
  if c = '"' then ['\\', '"']
  else if c = '\\' then ['\\', '\\']
  else if c = '\n' then ['\\', 'n']
  else if c = '\r' then ['\\', 'r']
  else if c = '\t' then ['\\', 't']
  else if c = '\x00' then ['\\', '0']
  else if isCombining c || !isPrintable c then
    ['\\', 'u', '{'] ++ Nat.toDigits 16 c.toNat ++ ['}']
  else [c]

def showText (text : String) : String :=
  String.ofList ('"' :: (text.toList.flatMap showChar ++ ['"']))

def listing (items : List String) : String := "[" ++ ", ".intercalate items ++ "]"

def mapping (entries : List (String × String)) : String :=
  "\x7b" ++ ", ".intercalate (entries.map fun e => showText e.1 ++ ": " ++ e.2) ++ "\x7d"

def record (name : String) (parts : List (String × String)) : String :=
  name ++ " \x7b " ++ ", ".intercalate (parts.map fun e => e.1 ++ ": " ++ e.2) ++ " \x7d"

def wrapped (name : String) (content : String) : String := name ++ "(" ++ content ++ ")"

def optional : Option String → String
  | none => "None"
  | some content => wrapped "Some" content

end Inspection

open Inspection

namespace Value

mutual

def inspect : Value → String
  | .null => "Null"
  | .bool b => wrapped "Bool" (if b then "true" else "false")
  | .number n => wrapped "Number" n.text
  | .string text => wrapped "String" (showText text)
  | .array items => "Array " ++ listing (inspectItems items)
  | .object fields => "Object " ++ mapping (inspectFields fields)

def inspectItems : List Value → List String
  | [] => []
  | item :: rest => item.inspect :: inspectItems rest

def inspectFields : List (String × Value) → List (String × String)
  | [] => []
  | (name, field) :: rest => (name, field.inspect) :: inspectFields rest

end

end Value

def inspectAttributes (attributes : Attributes) : String :=
  mapping (Value.inspectFields attributes.entries)

namespace Declaration

mutual

def inspect : Declaration → String
  | .attributes mapping => wrapped "Attributes" (inspectAttributes mapping)
  | .body _ => "Body(..)"
  | .group children => wrapped "Group" (mapping (inspectEntries children))
  | .value v => wrapped "Value" v.inspect

def inspectEntries : List (String × Declaration) → List (String × String)
  | [] => []
  | (name, child) :: rest => (name, child.inspect) :: inspectEntries rest

end

end Declaration

def Declarations.inspect (declarations : Declarations) : String :=
  record "Declarations" [("entries", mapping (Declaration.inspectEntries declarations.entries))]

def Handle.inspect (h : Handle) : String :=
  record "ScopeId" [("index", toString h.slot), ("generation", toString h.epoch)]

def Recipe.inspect : Recipe → String
  | .fixed attributes => wrapped "Constant" (inspectAttributes attributes)
  | .run owner _ => record "Body" [("scope", owner.inspect)]
  | .layered base top => record "Inherit" [("parent", base.inspect), ("child", top.inspect)]

namespace Node

mutual

def inspect : Node → String
  | .leaf recipe => wrapped "Leaf" recipe.inspect
  | .group children => wrapped "Container" (mapping (inspectEntries children))
  | .based base children =>
    record "Inheriting" [("parent", base.inspect), ("children", mapping (inspectEntries children))]

def inspectEntries : List (String × Node) → List (String × String)
  | [] => []
  | (name, child) :: rest => (name, child.inspect) :: inspectEntries rest

end

def inspectAll (nodes : Dict Node) : String := mapping (inspectEntries nodes.entries)

end Node

/-- Of declarations and mixins only the names are shown. -/
def Scope.inspect (s : Scope) : String :=
  record "Scope"
    [("name", optional (s.name.map showText)),
     ("parent", optional (s.parent.map Handle.inspect)),
     ("declarations", listing (s.declarations.keys.map showText)),
     ("variables", inspectAttributes s.vars),
     ("mixins", listing (s.mixins.keys.map showText))]

end Stylebook
