import Stylebook.Recipe

namespace Stylebook

inductive Node
  | leaf (recipe : Recipe)
  /-- A group without a base cannot be invoked itself. -/
  | group (children : List (String × Node))
  /-- A group with a base is invoked as its base; the children already stand on it. -/
  | based (base : Recipe) (children : List (String × Node))

namespace Node

def recipe? : Node → Option Recipe
  | .leaf recipe => some recipe
  | .group _ => none
  | .based base _ => some base

def children : Node → List (String × Node)
  | .leaf _ => []
  | .group children => children
  | .based _ children => children

def child? (node : Node) (name : String) : Option Node := node.children.lookup name

/-- The node below that the names lead to. -/
def descend? (node : Node) : List String → Option Node
  | [] => some node
  | name :: rest => (node.child? name).bind fun child => child.descend? rest

mutual

/-- Put a base under every recipe of a tree. -/
def onBase (base : Recipe) : Node → Node
  | .leaf recipe => .leaf (.layered base recipe)
  | .group children => .group (onBaseAll base children)
  | .based own children => .based (.layered base own) (onBaseAll base children)

def onBaseAll (base : Recipe) : List (String × Node) → List (String × Node)
  | [] => []
  | (name, child) :: rest => (name, child.onBase base) :: onBaseAll base rest

end

mutual

def invokableCount : Node → Nat
  | .leaf _ => 1
  | .group children => invokableCountAll children
  | .based _ children => invokableCountAll children + 1

def invokableCountAll : List (String × Node) → Nat
  | [] => 0
  | (_, child) :: rest => child.invokableCount + invokableCountAll rest

end

end Node

end Stylebook
