import Stylebook.Declaration
import Stylebook.Node

namespace Stylebook

/-- The entry of a group that holds its base. -/
def baseName : String := "attributes"

namespace Node

mutual

/-- The invokable form of a declaration at a path, whose bodies run for `owner`. -/
def ofDeclaration (owner : Handle) (path : String) : Declaration → Except Fault Node
  | .attributes attributes => .ok (.leaf (.fixed attributes))
  | .body body => .ok (.leaf (.run owner body))
  | .value value => .error (.malformed path (.bareValue value))
  | .group children => do
    match ← baseOf owner path children with
    | some base => return .based base (onBaseAll base (← ofChildren owner path children))
    | none => return .group (← ofChildren owner path children)

/-- The base among the entries of a group, if there is one; it has to be invokable. -/
def baseOf (owner : Handle) (path : String) :
    List (String × Declaration) → Except Fault (Option Recipe)
  | [] => .ok none
  | (name, child) :: rest =>
    if name = baseName then do
      let path := path ++ "." ++ baseName
      match (← ofDeclaration owner path child).recipe? with
      | some base => return some base
      | none => throw (.malformed path .groupAsBase)
    else baseOf owner path rest

def ofChildren (owner : Handle) (path : String) :
    List (String × Declaration) → Except Fault (List (String × Node))
  | [] => .ok []
  | (name, child) :: rest =>
    if name = baseName then ofChildren owner path rest
    else do
      let node ← ofDeclaration owner (path ++ "." ++ name) child
      return (name, node) :: (← ofChildren owner path rest)

end

/-- The nodes of a whole tree. At its top the name of the base is a name like any other. -/
def ofEntries (owner : Handle) :
    List (String × Declaration) → Except Fault (List (String × Node))
  | [] => .ok []
  | (name, declaration) :: rest => do
    let node ← ofDeclaration owner name declaration
    return (name, node) :: (← ofEntries owner rest)

def ofDeclarations (owner : Handle) (declarations : Declarations) : Except Fault (Dict Node) :=
  (ofEntries owner declarations.entries).map Dict.ofList

end Node

end Stylebook
