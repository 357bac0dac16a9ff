import Stylebook.Evaluation

namespace Stylebook

/-- Answers in order, each merged over those before it. The first fault ends it. -/
def Resolving.mergeAll {α : Type} (resolve : α → Resolving) : List α → Attributes → Resolving
  | [], merged => fun e => (.ok merged, e)
  | item :: rest, merged => fun e =>
    match resolve item e with
    | (.error fault, e) => (.error fault, e)
    | (.ok attributes, e) => mergeAll resolve rest (merged.merge attributes) e

structure Progress where
  collected : Attributes
  evaluation : Evaluation

def Progress.collect (p : Progress) (attributes : Attributes) : Progress :=
  { p with collected := p.collected.merge attributes }

structure Context where
  view : View
  mixin? : String → Option Mixin
  /-- The view of a mixin that is called with arguments. -/
  mixinView : List Value → View
  resolve : Path → Resolving

namespace Context

/-- Collect path by path; the first fault ends it and leaves what was collected before. -/
def includeAll (context : Context) : List Path → Progress → Option Fault × Progress
  | [], p => (none, p)
  | path :: rest, p =>
    match context.resolve path p.evaluation with
    | (.ok attributes, e) => context.includeAll rest ⟨p.collected.merge attributes, e⟩
    | (.error fault, e) => (some fault, ⟨p.collected, e⟩)

def inclusion (context : Context) (selector : String) (p : Progress) : Option Fault × Progress :=
  let (slice, e) := p.evaluation.expand selector
  context.includeAll slice.paths { p with evaluation := e }

def callMixin (context : Context) (name : String) (arguments : List Value) (p : Progress) :
    Option Fault × Progress :=
  match context.mixin? name with
  | none => (some (.unknownMixin name), p)
  | some mixin => (none, p.collect (mixin (context.mixinView arguments)))

end Context

namespace Program

variable {α : Type}

def run (context : Context) : Program α → Progress → Except Fault α × Progress
  | .done result, p => (.ok result, p)
  | .fail fault, p => (.error fault, p)
  | .collect attributes next, p => next.run context (p.collect attributes)
  | .collected next, p => (next p.collected).run context p
  | .callMixin name arguments next, p =>
    let (fault, p) := context.callMixin name arguments p
    (next fault).run context p
  | .inclusion selector next, p =>
    let (fault, p) := context.inclusion selector p
    (next fault).run context p

theorem run_callMixin (c : Context) (name : String) (arguments : List Value)
    (next : Option Fault → Program α) (p : Progress) :
    (callMixin name arguments next).run c p =
      (next (c.callMixin name arguments p).1).run c (c.callMixin name arguments p).2 := rfl

theorem run_inclusion (c : Context) (selector : String) (next : Option Fault → Program α)
    (p : Progress) :
    (inclusion selector next).run c p =
      (next (c.inclusion selector p).1).run c (c.inclusion selector p).2 := rfl

end Program

/-- What is returned is merged over what was collected. -/
def Body.conclude : Except Fault Attributes × Progress → Except Fault Attributes × Evaluation
  | (.ok returned, p) => (.ok (p.collected.merge returned), p.evaluation)
  | (.error fault, p) => (.error fault, p.evaluation)

def Body.run (body : Body) (context : Context) : Resolving := fun e =>
  conclude ((body context.view).run context ⟨∅, e⟩)

end Stylebook
