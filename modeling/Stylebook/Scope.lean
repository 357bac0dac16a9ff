import Stylebook.Node
import Stylebook.Path

namespace Stylebook

structure Scope where
  /-- The name of the namespace; none for the root. -/
  name : Option String
  parent : Option Handle
  declarations : Dict Node
  vars : Attributes
  mixins : Dict Mixin

namespace Scope

def root : Scope := ⟨none, none, ∅, ∅, ∅⟩

def ofNamespace (name : String) : Scope := ⟨some name, some Handle.root, ∅, ∅, ∅⟩

/-- The name under which a scope is spoken of. -/
def label (s : Scope) : String := s.name.getD "root"

/-- Declarations of a name that is already there are replaced as a whole. -/
def declare (s : Scope) (nodes : Dict Node) : Scope :=
  { s with declarations := s.declarations.merge nodes }

def define (s : Scope) (vars : Attributes) : Scope :=
  { s with vars := s.vars.merge vars }

def defineMixin (s : Scope) (name : String) (mixin : Mixin) : Scope :=
  { s with mixins := s.mixins.insert name mixin }

/-- The node that a path leads to in the tree of a scope. -/
def find? (s : Scope) (path : Path) : Option Node :=
  (s.declarations.get? path.head).bind fun node => node.descend? path.tail

/-- The number of declarations that can be invoked. -/
def invokableCount (s : Scope) : Nat := Node.invokableCountAll s.declarations.entries

end Scope

end Stylebook
