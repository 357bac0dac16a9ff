import Stylebook.Desk

namespace Stylebook

/-- What can be asked of a registry, apart from expansions. -/
inductive Question
  | look (start : Handle) (look : Look)
  | ask (start : Handle) (selector : Selector) (stages : List Stage)
  | findNamespace (name : String)
  | options

def Registry.consult (r : Registry) : Question → Answer × Registry
  | .look start look => (r.look start look, r)
  | .ask start selector stages => r.ask start selector stages
  | .findNamespace name => (.namespaceFound ((r.handle? name).map fun h => (h, r.label h)), r)
  | .options => (.options r.options, r)

inductive Factory
  | give (declarations : Declarations)
  | ask (question : Question) (next : Answer → Factory)
  | expand (text : String) (next : List Path → Factory)

namespace Factory

/-- The declarations that a factory gives, and the registry once it has asked for them. -/
def make : Factory → Registry → Declarations × Registry
  | .give declarations, r => (declarations, r)
  | .ask question next, r =>
    let (answer, r) := r.consult question
    (next answer).make r
  | .expand text next, r =>
    let (slice, r) := r.expand text
    (next slice.paths).make r

theorem make_ask (question : Question) (next : Answer → Factory) (r : Registry) :
    (ask question next).make r = (next (r.consult question).1).make (r.consult question).2 := rfl

theorem make_expand (text : String) (next : List Path → Factory) (r : Registry) :
    (expand text next).make r = (next (r.expand text).1.paths).make (r.expand text).2 := rfl

/-- Sketches are drawn with the variables of the root. -/
def ofSketches (sketches : List (String × Sketch)) : Factory :=
  .ask (.look Handle.root .scope) fun
    | .scope (some root) =>
      .give (Dict.ofList (Sketch.drawAll ⟨root.vars.get?, [], fun _ => none⟩ sketches))
    | _ => .give ∅

end Factory

/-- Register what a factory makes. What it asks for is remembered even if that is refused. -/
def Registry.registerMade (r : Registry) (ns : Option String) (factory : Factory) :
    Except Fault Handle × Registry :=
  let (declarations, r) := factory.make r
  match r.register ns declarations with
  | .error fault => (.error fault, r)
  | .ok (handle, r) => (.ok handle, r)

theorem Registry.registerMade_refused {r : Registry} {ns : Option String} {factory : Factory}
    {fault : Fault} (h : (factory.make r).2.register ns (factory.make r).1 = .error fault) :
    r.registerMade ns factory = (.error fault, (factory.make r).2) := by
  simp only [registerMade, h]

theorem Registry.registerMade_registered {r r' : Registry} {ns : Option String}
    {factory : Factory} {handle : Handle}
    (h : (factory.make r).2.register ns (factory.make r).1 = .ok (handle, r')) :
    r.registerMade ns factory = (.ok handle, r') := by
  simp only [registerMade, h]

theorem Registry.registerMade_ofSketches (r : Registry) (ns : Option String)
    (sketches : List (String × Sketch)) :
    r.registerMade ns (.ofSketches sketches) =
      match r.registerSketches ns sketches with
      | .error fault => (.error fault, r)
      | .ok (handle, r') => (.ok handle, r') :=
  rfl

/-- A command that needs no factory, or the registration of what one makes. -/
inductive Action (α : Type)
  | plain (command : α)
  | make (ns : Option String) (factory : Factory) (label : Option String)

/-- The answers to steps in order, and the state after them. -/
def runAll {State Step Reply : Type} (step : State → Step → Reply × State) (s : State) :
    List Step → List Reply × State
  | [] => ([], s)
  | first :: rest =>
    let (reply, s) := step s first
    let (replies, s) := runAll step s rest
    (reply :: replies, s)

namespace Session

def act (s : Session) : Action Command → Answer × Session
  | .plain command => s.step command
  | .make ns factory label =>
    match s.registry.registerMade ns factory with
    | (.error fault, r) => (.refused fault, { s with registry := r })
    | (.ok handle, r) =>
      (.issued handle (r.label handle), { s with registry := r }.save label handle)

def actAll (s : Session) (actions : List (Action Command)) : List Answer × Session :=
  runAll act s actions

theorem actAll_cons (s : Session) (action : Action Command) (rest : List (Action Command)) :
    s.actAll (action :: rest) =
      ((s.act action).1 :: ((s.act action).2.actAll rest).1, ((s.act action).2.actAll rest).2) :=
  rfl

theorem actAll_plain (s : Session) (commands : List Command) :
    s.actAll (commands.map .plain) = s.run commands := by
  induction commands generalizing s with
  | nil => rfl
  | cons command rest ih =>
    exact congrArg (fun later => ((s.step command).1 :: later.1, later.2)) (ih (s.step command).2)

end Session

namespace Desk

def act (d : Desk) : Action Order → Report × Desk
  | .plain order => d.step order
  | .make ns factory label =>
    match d.registry.registerMade ns factory with
    | (.error fault, r) => (.refused fault, { d with registry := r })
    | (.ok _, r) => (.sheet ⟨ns⟩, { d with registry := r }.saveSheet label ⟨ns⟩)

def actAll (d : Desk) (actions : List (Action Order)) : List Report × Desk :=
  runAll act d actions

theorem actAll_plain (d : Desk) (orders : List Order) :
    d.actAll (orders.map .plain) = d.run orders := by
  induction orders generalizing d with
  | nil => rfl
  | cons order rest ih =>
    exact congrArg (fun later => ((d.step order).1 :: later.1, later.2)) (ih (d.step order).2)

end Desk

end Stylebook
