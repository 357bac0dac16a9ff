import Stylebook.Text.Blank

namespace Stylebook

inductive Selector
  | text (content : String)
  | list (items : List String)
deriving DecidableEq, Repr

namespace Selector

def parts : Selector → List String
  | .text content => [content]
  | .list items => items

def display : Selector → String
  | .text content => content
  | .list items => " ".intercalate items

end Selector

/-- Blanks and commas separate the expressions of a selector. -/
def isSeparator (c : Char) : Bool := isBlank c || c == ','

end Stylebook
