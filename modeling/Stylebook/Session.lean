import Stylebook.Query

namespace Stylebook

inductive Place
  | root
  | named (name : String)
  | saved (label : String)

inductive Change
  | register (declarations : Declarations)
  | registerSketches (sketches : List (String × Sketch))
  | defineVariables (vars : Attributes)
  | defineMixin (name : String) (mixin : Mixin)

def Registry.apply (r : Registry) (ns : Option String) : Change → Except Fault (Handle × Registry)
  | .register declarations => r.register ns declarations
  | .registerSketches sketches => r.registerSketches ns sketches
  | .defineVariables vars => .ok (r.defineVariables ns vars)
  | .defineMixin name mixin => .ok (r.defineMixin ns name mixin)

inductive Stage
  | vars (vars : Attributes)
  | attributes (attributes : Attributes)

def Query.withStage (q : Query) : Stage → Query
  | .vars vars => q.withVariables vars
  | .attributes attributes => q.withAttributes attributes

/-- What can be looked for from a scope without resolving anything. -/
inductive Look
  | locate (path : Path)
  | mixin (name : String)
  | ownVariable (name : String)
  | scope
  | ancestors

inductive Command
  /-- Begin with a new registry. Saved handles stay. -/
  | renew (options : Options)
  | reset
  /-- Change a namespace, or the root, and save its handle if there is a label for it. -/
  | change (ns : Option String) (change : Change) (label : Option String)
  | look (start : Place) (look : Look)
  | ask (start : Place) (selector : Selector) (stages : List Stage)
  | findNamespace (name : String)
  | compare (a b : Place)
  | expand (text : String)
  | expandTwice (text : String)
  | options

inductive Answer
  | done
  | noNamespace
  | noHandle
  | refused (fault : Fault)
  | issued (handle : Handle) (label : String)
  | located (label : String) (located : Located)
  /-- Whether a mixin is found from a scope, and whether the scope itself has it. -/
  | mixin (found : Bool) (own : Option Bool)
  | variable (value : Option Value)
  | scope (scope : Option Scope)
  | labels (labels : List String)
  | resolved (paths : List Path) (result : Except Fault Attributes)
  | namespaceFound (found : Option (Handle × String))
  | same (same : Bool)
  | slice (slice : Slice)
  | slices (first second : Slice)
  | options (options : Options)

namespace Registry

def label (r : Registry) (h : Handle) : String := ((r.scope? h).map Scope.label).getD ""

def look (r : Registry) (h : Handle) : Look → Answer
  | .locate path =>
    match r.locate path h with
    | .ok found => .located (r.label found.owner) found
    | .error fault => .refused fault
  | .mixin name =>
    .mixin (r.mixin? h name).isSome ((r.scope? h).map fun scope => scope.mixins.contains name)
  | .ownVariable name => .variable ((r.scope? h).bind fun scope => scope.vars.get? name)
  | .scope => .scope (r.scope? h)
  | .ancestors => .labels ((r.ancestors h).map Scope.label)

def ask (r : Registry) (h : Handle) (selector : Selector) (stages : List Stage) :
    Answer × Registry :=
  let q := stages.foldl Query.withStage (Query.new h selector)
  let (paths, r) := q.paths r
  let (result, r) := q.resolve r
  (.resolved paths result, r)

end Registry

structure Session where
  registry : Registry
  saved : Dict Handle

namespace Session

def new (options : Options) : Session := ⟨Registry.new options, ∅⟩

/-- The handle that a place stands for; it may be dead. -/
def handle (s : Session) : Place → Except Answer Handle
  | .root => .ok Handle.root
  | .named name =>
    match s.registry.handle? name with
    | some handle => .ok handle
    | none => .error .noNamespace
  | .saved label =>
    match s.saved.get? label with
    | some handle => .ok handle
    | none => .error .noHandle

def save (s : Session) (label : Option String) (handle : Handle) : Session :=
  match label with
  | some label => { s with saved := s.saved.insert label handle }
  | none => s

def step (s : Session) : Command → Answer × Session
  | .renew options => (.done, { s with registry := Registry.new options })
  | .reset => (.done, { s with registry := s.registry.reset })
  | .change ns change label =>
    match s.registry.apply ns change with
    | .error fault => (.refused fault, s)
    | .ok (handle, r) =>
      (.issued handle (r.label handle), { s with registry := r }.save label handle)
  | .look start look =>
    match s.handle start with
    | .error answer => (answer, s)
    | .ok handle => (s.registry.look handle look, s)
  | .ask start selector stages =>
    match s.handle start with
    | .error answer => (answer, s)
    | .ok handle =>
      let (answer, r) := s.registry.ask handle selector stages
      (answer, { s with registry := r })
  | .findNamespace name =>
    (.namespaceFound ((s.registry.handle? name).map fun h => (h, s.registry.label h)), s)
  | .compare a b =>
    match s.handle a, s.handle b with
    | .error answer, _ => (answer, s)
    | .ok _, .error answer => (answer, s)
    | .ok a, .ok b => (.same (a == b), s)
  | .expand text =>
    let (slice, r) := s.registry.expand text
    (.slice slice, { s with registry := r })
  | .expandTwice text =>
    let (first, r) := s.registry.expand text
    let (second, r) := r.expand text
    (.slices first second, { s with registry := r })
  | .options => (.options s.registry.options, s)

def run (s : Session) : List Command → List Answer × Session
  | [] => ([], s)
  | command :: rest =>
    let (answer, s) := s.step command
    let (answers, s) := s.run rest
    (answer :: answers, s)

end Session

end Stylebook
