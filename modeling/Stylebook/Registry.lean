import Stylebook.Declaration.Sketch
import Stylebook.Node.OfDeclaration
import Stylebook.Options
import Stylebook.Scope
import Stylebook.Selector.Memo

namespace Stylebook

/-- Namespaces stand at the slots one, two and so on; `names` leads from a name to its handle. -/
structure Registry where
  options : Options
  /-- The number of resets so far. Fewer than 2^64 are meant, so that their count never wraps. -/
  epoch : Nat
  root : Scope
  namespaces : List Scope
  names : Dict Handle
  memo : Memo

namespace Registry

def new (options : Options) : Registry :=
  ⟨options, 0, Scope.root, [], ∅, Memo.new options.cacheLimit⟩

/-- Drop everything but the options. Handles of namespaces that were issued before are dead. -/
def reset (r : Registry) : Registry :=
  ⟨r.options, r.epoch + 1, Scope.root, [], ∅, r.memo.clear⟩

def scopeAt? (r : Registry) : Nat → Option Scope
  | 0 => some r.root
  | slot + 1 => r.namespaces[slot]?

/-- The scope of a handle, unless the handle is dead. -/
def scope? (r : Registry) (h : Handle) : Option Scope :=
  if !h.isRoot && h.epoch != r.epoch then none else r.scopeAt? h.slot

def handleAt (r : Registry) (index : Nat) : Handle :=
  ⟨index + 1, r.epoch, fun h => absurd h (Nat.succ_ne_zero _)⟩

theorem scope?_root (r : Registry) : r.scope? Handle.root = some r.root := rfl

theorem scope?_handleAt (r : Registry) (index : Nat) :
    r.scope? (r.handleAt index) = r.namespaces[index]? := by
  simp [scope?, handleAt, Handle.isRoot, scopeAt?]

theorem scope?_eq_some {r : Registry} {h : Handle} {scope : Scope} (hs : r.scope? h = some scope) :
    (h = Handle.root ∧ scope = r.root) ∨
      ∃ index, h = r.handleAt index ∧ r.namespaces[index]? = some scope := by
  obtain ⟨slot, epoch, hroot⟩ := h
  cases slot with
  | zero =>
    obtain rfl := hroot rfl
    cases hs
    exact .inl ⟨rfl, rfl⟩
  | succ index =>
    by_cases he : epoch = r.epoch
    · subst he
      exact .inr ⟨index, rfl, (scope?_handleAt r index).symm.trans hs⟩
    · simp [scope?, Handle.isRoot, he] at hs

def handle? (r : Registry) (name : String) : Option Handle := r.names.get? name

/-- A scope, its parent, and so on, over at most `fuel` scopes. -/
def chain (r : Registry) : Nat → Handle → List Scope
  | 0, _ => []
  | fuel + 1, h =>
    match r.scope? h with
    | none => []
    | some scope =>
      match scope.parent with
      | none => [scope]
      | some parent => scope :: r.chain fuel parent

def ancestors (r : Registry) (h : Handle) : List Scope := r.chain (r.namespaces.length + 1) h

/-- A variable of a scope or, failing that, of the scopes around it. -/
def lookup? (r : Registry) (h : Handle) (name : String) : Option Value :=
  (r.ancestors h).findSome? fun scope => scope.vars.get? name

def mixin? (r : Registry) (h : Handle) (name : String) : Option Mixin :=
  (r.ancestors h).findSome? fun scope => scope.mixins.get? name

def nextHandle (r : Registry) : Handle := r.handleAt r.namespaces.length

/-- The handle that a namespace has or would get; the root has no name. -/
def handleFor (r : Registry) : Option String → Handle
  | none => Handle.root
  | some name => (r.handle? name).getD r.nextHandle

def ensure (r : Registry) : Option String → Registry
  | none => r
  | some name =>
    match r.handle? name with
    | some _ => r
    | none =>
      { r with
        namespaces := r.namespaces ++ [Scope.ofNamespace name]
        names := r.names.insert name r.nextHandle }

def modifyAt (r : Registry) (change : Scope → Scope) : Nat → Registry
  | 0 => { r with root := change r.root }
  | slot + 1 => { r with namespaces := r.namespaces.modify slot change }

/-- Change the scope of a namespace, which is created if need be. -/
def modifyScope (r : Registry) (ns : Option String) (change : Scope → Scope) : Handle × Registry :=
  let handle := r.handleFor ns
  (handle, (r.ensure ns).modifyAt change handle.slot)

/-- Add declarations to a namespace. They are judged first, so that a fault changes nothing. -/
def register (r : Registry) (ns : Option String) (declarations : Declarations) :
    Except Fault (Handle × Registry) := do
  let nodes ← Node.ofDeclarations (r.handleFor ns) declarations
  return r.modifyScope ns fun scope => scope.declare nodes

def sketchView (r : Registry) : View := ⟨r.root.vars.get?, [], fun _ => none⟩

def registerSketches (r : Registry) (ns : Option String) (sketches : List (String × Sketch)) :
    Except Fault (Handle × Registry) :=
  r.register ns (Dict.ofList (Sketch.drawAll r.sketchView sketches))

def defineVariables (r : Registry) (ns : Option String) (vars : Attributes) :
    Handle × Registry :=
  r.modifyScope ns fun scope => scope.define vars

def defineMixin (r : Registry) (ns : Option String) (name : String) (mixin : Mixin) :
    Handle × Registry :=
  r.modifyScope ns fun scope => scope.defineMixin name mixin

def withMemo {α : Type} (r : Registry) (use : Memo → α × Memo) : α × Registry :=
  let (result, memo) := use r.memo
  (result, { r with memo := memo })

def expand (r : Registry) (text : String) : Slice × Registry :=
  r.withMemo fun memo => memo.expand text

def expandSelector (r : Registry) (selector : Selector) : List Path × Registry :=
  r.withMemo fun memo => memo.expandSelector selector

end Registry

end Stylebook
