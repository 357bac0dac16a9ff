import Stylebook.Value

namespace Stylebook

/-- What can be asked about the scopes at work. -/
inductive ScopeTest
  /-- Is the owner of the running declaration the root? -/
  | ownerIsRoot
  /-- Is the scope in which the query started the root? -/
  | startIsRoot
  /-- Are the two the same? -/
  | ownerIsStart
deriving DecidableEq, Repr

/-- What bodies and mixins see. Only mixins have arguments, and they do not see the owner. -/
structure View where
  lookup : String → Option Value
  arguments : List Value
  answer : ScopeTest → Option Bool

end Stylebook
