import Stylebook.Query

namespace Stylebook

structure Sheet where
  ns : Option String
deriving DecidableEq, Repr

namespace Sheet

def root : Sheet := ⟨none⟩

def named (name : String) : Sheet := ⟨some name⟩

end Sheet

structure Draft where
  sheet : Sheet
  selector : Selector
  vars : Attributes
  staged : Option Attributes

namespace Draft

def new (sheet : Sheet) (selector : Selector) : Draft := ⟨sheet, selector, ∅, none⟩

def withVariables (d : Draft) (vars : Attributes) : Draft :=
  { d with vars := d.vars.merge vars }

def withAttributes (d : Draft) (attributes : Attributes) : Draft :=
  match d.staged with
  | some staged => { d with staged := some (staged.merge attributes) }
  | none => { d with staged := some attributes }

/-- The scope of a sheet, if the registry has it. -/
def start? (d : Draft) (r : Registry) : Except Fault Handle :=
  match d.sheet.ns with
  | none => .ok Handle.root
  | some name =>
    match r.handle? name with
    | some handle => .ok handle
    | none => .error (.unknownPath name)

/-- The query that a draft stands for, from a scope. -/
def query (d : Draft) (start : Handle) : Query :=
  let q := (Query.new start d.selector).withVariables d.vars
  match d.staged with
  | some staged => q.withAttributes staged
  | none => q

/-- A sheet whose namespace is missing is an unknown path, whatever is asked of it. -/
def resolve (d : Draft) (r : Registry) : Except Fault Attributes × Registry :=
  match d.start? r with
  | .error fault => (.error fault, r)
  | .ok start => (d.query start).resolve r

end Draft

end Stylebook
