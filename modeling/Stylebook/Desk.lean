import Stylebook.Session
import Stylebook.Sheet

namespace Stylebook

/-- A sheet, as an order names it. -/
inductive SheetName
  | sheet (sheet : Sheet)
  | saved (label : String)

def Draft.withStage (d : Draft) : Stage → Draft
  | .vars vars => d.withVariables vars
  | .attributes attributes => d.withAttributes attributes

inductive Order
  | configure (options : Options)
  | reset
  | change (ns : Option String) (change : Change) (label : Option String)
  | resolve (sheet : SheetName) (selector : Selector) (stages : List Stage)
  | draft (sheet : SheetName) (selector : Selector) (stages : List Stage) (label : String)
  | resolveDraft (label : String)
  | compare (a b : SheetName)
  | state (ns : Option String)

inductive Report
  | done
  | noSheet
  | noDraft
  | refused (fault : Fault)
  | sheet (sheet : Sheet)
  | resolved (result : Except Fault Attributes)
  | same (same : Bool)
  | state (options : Options) (scope : Option Scope)

structure Desk where
  registry : Registry
  sheets : Dict Sheet
  drafts : Dict Draft

namespace Desk

def new (options : Options) : Desk := ⟨Registry.new options, ∅, ∅⟩

def sheet? (d : Desk) : SheetName → Option Sheet
  | .sheet sheet => some sheet
  | .saved label => d.sheets.get? label

def saveSheet (d : Desk) (label : Option String) (sheet : Sheet) : Desk :=
  match label with
  | some label => { d with sheets := d.sheets.insert label sheet }
  | none => d

def resolve (d : Desk) (draft : Draft) : Report × Desk :=
  let (result, r) := draft.resolve d.registry
  (.resolved result, { d with registry := r })

def scope? (d : Desk) : Option String → Option Scope
  | none => some d.registry.root
  | some name => (d.registry.handle? name).bind d.registry.scope?

def step (d : Desk) : Order → Report × Desk
  | .configure options => (.done, { d with registry := Registry.new options })
  | .reset => (.done, { d with registry := d.registry.reset })
  | .change ns change label =>
    match d.registry.apply ns change with
    | .error fault => (.refused fault, d)
    | .ok (_, r) => (.sheet ⟨ns⟩, { d with registry := r }.saveSheet label ⟨ns⟩)
  | .resolve sheet selector stages =>
    match d.sheet? sheet with
    | none => (.noSheet, d)
    | some sheet => d.resolve (stages.foldl Draft.withStage (Draft.new sheet selector))
  | .draft sheet selector stages label =>
    match d.sheet? sheet with
    | none => (.noSheet, d)
    | some sheet =>
      let draft := stages.foldl Draft.withStage (Draft.new sheet selector)
      (.done, { d with drafts := d.drafts.insert label draft })
  | .resolveDraft label =>
    match d.drafts.get? label with
    | none => (.noDraft, d)
    | some draft => d.resolve draft
  | .compare a b =>
    match d.sheet? a, d.sheet? b with
    | some a, some b => (.same (decide (a = b)), d)
    | _, _ => (.noSheet, d)
  | .state ns => (.state d.registry.options (d.scope? ns), d)

def run (d : Desk) : List Order → List Report × Desk
  | [] => ([], d)
  | order :: rest =>
    let (report, d) := d.step order
    let (reports, d) := d.run rest
    (report :: reports, d)

end Desk

end Stylebook
