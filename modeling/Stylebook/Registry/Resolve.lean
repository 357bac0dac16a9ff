import Stylebook.Recipe.Invoke
import Stylebook.Registry.Locate

namespace Stylebook

/-- Begin a declaration, invoke it, and end it whatever comes of that. -/
def Located.invoke (found : Located) (setting : Setting) (resolve : Handle → Path → Resolving) :
    Resolving := fun e =>
  let (answer, e) := found.recipe.invoke setting resolve (e.push found)
  (answer, e.pop)

namespace Registry

def cycle (active : List Located) (found : Located) : Fault :=
  .cyclic found.label (active.map Located.label ++ [found.label])

/-- Resolve a path, as long as at most `spare` declarations are begun one within the other. -/
def resolveWithin (r : Registry) (setting : Setting) : Nat → Handle → Path → Resolving
  | 0, owner, path => fun e =>
    match r.locate path owner with
    | .error fault => (.error fault, e)
    | .ok found => (.error (cycle e.active found), e)
  | spare + 1, owner, path => fun e =>
    match r.locate path owner with
    | .error fault => (.error fault, e)
    | .ok found =>
      if e.isActive found then (.error (cycle e.active found), e)
      else found.invoke setting (r.resolveWithin setting spare) e

def invokableCount (r : Registry) : Nat :=
  r.namespaces.foldl (fun count scope => count + scope.invokableCount) r.root.invokableCount

def resolvePath (r : Registry) (setting : Setting) : Handle → Path → Resolving :=
  r.resolveWithin setting r.invokableCount

end Registry

end Stylebook
