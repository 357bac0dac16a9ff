import Stylebook.Registry.Resolve

namespace Stylebook

structure Query where
  start : Handle
  selector : Selector
  vars : Attributes
  staged : Option Attributes

namespace Query

def new (start : Handle) (selector : Selector) : Query := ⟨start, selector, ∅, none⟩

/-- Later variables override earlier ones. -/
def withVariables (q : Query) (vars : Attributes) : Query :=
  { q with vars := q.vars.merge vars }

/-- Later staged attributes win over earlier ones, and all of them over the paths. -/
def withAttributes (q : Query) (attributes : Attributes) : Query :=
  match q.staged with
  | some staged => { q with staged := some (staged.merge attributes) }
  | none => { q with staged := some attributes }

/-- A variable is looked up among the overrides first, then from the start outwards. -/
def setting (q : Query) (r : Registry) : Setting where
  start := q.start
  lookup name := (q.vars.get? name).or (r.lookup? q.start name)
  mixin? := r.mixin?

/-- Every path in order, each merged over those before it, and what is staged over all of them. -/
def mergeStaged (q : Query) (resolve : Path → Resolving) (paths : List Path) : Resolving :=
  fun e =>
    match Resolving.mergeAll resolve paths ∅ e with
    | (.error fault, e) => (.error fault, e)
    | (.ok merged, e) => (.ok (merged.merge (q.staged.getD ∅)), e)

/-- A single path with nothing staged is answered as it is. -/
def mergePaths (q : Query) (resolve : Path → Resolving) (paths : List Path) : Resolving :=
  match paths, q.staged with
  | [path], none => resolve path
  | _, _ => q.mergeStaged resolve paths

def resolvePaths (q : Query) (r : Registry) (paths : List Path) : Resolving :=
  q.mergePaths (r.resolvePath (q.setting r) q.start) paths

def paths (q : Query) (r : Registry) : List Path × Registry := r.expandSelector q.selector

/-- A query fails as a whole when one of its paths fails. All of them share one evaluation. -/
def resolve (q : Query) (r : Registry) : Except Fault Attributes × Registry :=
  let (paths, r) := q.paths r
  r.withMemo fun memo =>
    let (answer, e) := q.resolvePaths r paths (Evaluation.start memo)
    (answer, e.memo)

end Query

end Stylebook
