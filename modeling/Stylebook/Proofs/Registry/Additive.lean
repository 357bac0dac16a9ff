import Stylebook.Proofs.Node.Acceptance
import Stylebook.Proofs.Registry.Exchange

namespace Stylebook

/-- Some scope takes the declarations, and then every scope does. -/
def Declarations.Accepted (tree : Declarations) : Prop :=
  ∃ owner nodes, Node.ofDeclarations owner tree = .ok nodes

theorem Declarations.Accepted.nodes {tree : Declarations} (h : tree.Accepted) (owner : Handle) :
    ∃ nodes, Node.ofDeclarations owner tree = .ok nodes := by
  obtain ⟨other, nodes, hn⟩ := h
  have hfault : fault? (Node.ofDeclarations owner tree) = none := by
    rw [Node.fault?_ofDeclarations, ← @Node.fault?_ofDeclarations other, hn]
    rfl
  exact fault?_eq_none_iff.1 hfault

namespace Node

variable {owner : Handle} {tree first second : Declarations} {nodes nodes' : Dict Node}
  {name : String} {d : Declaration}

theorem get?_ofDeclarations_of_some (h : ofDeclarations owner tree = .ok nodes)
    (hd : tree.get? name = some d) :
    ∃ node, ofDeclaration owner name d = .ok node ∧ nodes.get? name = some node := by
  rcases get?_ofDeclarations h name with ⟨hnone, _⟩ | ⟨d', node, hd', hnode, hn⟩
  · rw [hd] at hnone
    cases hnone
  · obtain rfl := Option.some.inj (hd.symm.trans hd')
    exact ⟨node, hnode, hn⟩

theorem get?_ofDeclarations_eq (h : ofDeclarations owner tree = .ok nodes) (name : String) :
    nodes.get? name = (tree.get? name).bind fun d => (ofDeclaration owner name d).toOption := by
  rcases get?_ofDeclarations h name with ⟨hd, hn⟩ | ⟨d, node, hd, hnode, hn⟩
  · rw [hd, hn]
    rfl
  · rw [hd, hn, Option.bind_some, hnode]
    rfl

theorem exists_ofEntries {entries : List (String × Declaration)}
    (h : ∀ entry ∈ entries, ∃ node, ofDeclaration owner entry.1 entry.2 = .ok node) :
    ∃ nodes, ofEntries owner entries = .ok nodes := by
  induction entries with
  | nil => exact ⟨[], rfl⟩
  | cons first rest ih =>
    obtain ⟨hfirst, hrest⟩ := List.forall_mem_cons.1 h
    obtain ⟨node, hnode⟩ := hfirst
    obtain ⟨nodes, hnodes⟩ := ih hrest
    refine ⟨(first.1, node) :: nodes, ?_⟩
    rw [ofEntries, hnode, hnodes]
    rfl

theorem ofDeclarations_merge (h : ofDeclarations owner first = .ok nodes)
    (h' : ofDeclarations owner second = .ok nodes') :
    ofDeclarations owner (first.merge second) = .ok (nodes.merge nodes') := by
  have hentries : ∀ entry ∈ (first.merge second).entries,
      ∃ node, ofDeclaration owner entry.1 entry.2 = .ok node := by
    intro entry hentry
    have hd : (first.merge second).get? entry.1 = some entry.2 :=
      (first.merge second).ascending.lookup_of_mem hentry
    rw [Dict.get?_merge, Option.or_eq_some_iff] at hd
    rcases hd with hd | ⟨_, hd⟩
    · obtain ⟨node, hnode, _⟩ := get?_ofDeclarations_of_some h' hd
      exact ⟨node, hnode⟩
    · obtain ⟨node, hnode, _⟩ := get?_ofDeclarations_of_some h hd
      exact ⟨node, hnode⟩
  obtain ⟨merged, hmerged⟩ := exists_ofEntries hentries
  have hall : ofDeclarations owner (first.merge second) = .ok (Dict.ofList merged) := by
    rw [ofDeclarations, hmerged]
    rfl
  rw [hall]
  congr 1
  ext name
  rw [Dict.get?_merge, get?_ofDeclarations_eq hall, get?_ofDeclarations_eq h,
    get?_ofDeclarations_eq h', Dict.get?_merge]
  cases hd : second.get? name with
  | none => rfl
  | some d =>
    obtain ⟨node, hnode, _⟩ := get?_ofDeclarations_of_some h' hd
    rw [Option.some_or, Option.bind_some, hnode]
    rfl

end Node

/-- The parts of a scope, one for each kind of change. -/
inductive Part
  | declarations
  | vars
  | mixins
deriving DecidableEq

namespace Part

/-- The edits that only concern one part of a scope. -/
inductive Edits : Part → (Scope → Scope) → Prop
  | declare (nodes : Dict Node) : Edits .declarations fun scope => scope.declare nodes
  | define (vars : Attributes) : Edits .vars fun scope => scope.define vars
  | defineMixin (name : String) (mixin : Mixin) :
    Edits .mixins fun scope => scope.defineMixin name mixin

theorem Edits.comm {part part' : Part} {edit edit' : Scope → Scope} (h : part.Edits edit)
    (h' : part'.Edits edit') (hne : part ≠ part') (scope : Scope) :
    edit' (edit scope) = edit (edit' scope) := by
  cases h with
  | declare nodes =>
    cases h' with
    | declare nodes' => exact absurd rfl hne
    | define vars => rfl
    | defineMixin name mixin => rfl
  | define vars =>
    cases h' with
    | declare nodes => rfl
    | define vars' => exact absurd rfl hne
    | defineMixin name mixin => rfl
  | defineMixin name mixin =>
    cases h' with
    | declare nodes => rfl
    | define vars => rfl
    | defineMixin name' mixin' => exact absurd rfl hne

end Part

def Change.part : Change → Part
  | .register _ => .declarations
  | .registerSketches _ => .declarations
  | .defineVariables _ => .vars
  | .defineMixin _ _ => .mixins

theorem Change.edits_part {change : Change} {view : View} {owner : Handle} {edit : Scope → Scope}
    (h : change.edit view owner = .ok edit) : change.part.Edits edit := by
  have hdeclare : ∀ tree : Declarations, (Node.ofDeclarations owner tree).map
      (fun nodes (scope : Scope) => scope.declare nodes) = .ok edit →
      Part.declarations.Edits edit := by
    intro tree h
    cases hn : Node.ofDeclarations owner tree with
    | error fault =>
      rw [hn] at h
      cases h
    | ok nodes =>
      rw [hn] at h
      cases h
      exact .declare nodes
  cases change with
  | register tree => exact hdeclare tree h
  | registerSketches sketches => exact hdeclare _ h
  | defineVariables vars =>
    cases h
    exact .define vars
  | defineMixin name mixin =>
    cases h
    exact .defineMixin name mixin

namespace Registry

variable {r r' : Registry} {ns : Option String} {c c' : Change}

theorem modifyAt_modifyAt (r : Registry) (edit edit' : Scope → Scope) (slot : Nat) :
    (r.modifyAt edit slot).modifyAt edit' slot =
      r.modifyAt (fun scope => edit' (edit scope)) slot := by
  cases slot with
  | zero => rfl
  | succ index =>
    simp only [modifyAt, List.modify_modify_eq]
    rfl

theorem continues_modifyScope (r : Registry) (ns : Option String) (edit : Scope → Scope) :
    (r.ensure ns).Continues (r.modifyScope ns edit).2 :=
  continues_modifyAt (r.ensure ns) edit _

theorem handleFor_modifyScope (r : Registry) (ns : Option String) (edit : Scope → Scope) :
    (r.modifyScope ns edit).2.handleFor ns = r.handleFor ns :=
  ((r.continues_modifyScope ns edit).handleFor (r.has_ensure ns)).trans (r.handleFor_ensure ns)

theorem modifyScope_modifyScope (r : Registry) (ns : Option String) (edit edit' : Scope → Scope) :
    (r.modifyScope ns edit).2.modifyScope ns edit' =
      r.modifyScope ns fun scope => edit' (edit scope) := by
  have has := (r.continues_modifyScope ns edit).has (r.has_ensure ns)
  rw [has.modifyScope_eq, handleFor_modifyScope, modifyScope, modifyScope, modifyAt_modifyAt]

theorem register_of_ofDeclarations {tree : Declarations} {nodes : Dict Node}
    (h : Node.ofDeclarations (r.handleFor ns) tree = .ok nodes) :
    r.register ns tree =
      .ok (r.handleFor ns, (r.modifyScope ns fun scope => scope.declare nodes).2) := by
  rw [register, h]
  rfl

def declared? (r : Registry) (handle : Handle) (name : String) : Option Node :=
  (r.scope? handle).bind fun scope => scope.declarations.get? name

theorem declared?_ensure (r : Registry) (ns : Option String) (name : String) :
    (r.ensure ns).declared? (r.handleFor ns) name = r.declared? (r.handleFor ns) name := by
  by_cases has : r.Has ns
  · rw [has.ensure_eq]
  · obtain ⟨own, rfl, hnew⟩ := exists_new_of_not_has has
    rw [handleFor_of_none hnew, declared?, declared?, scope?_ensure_nextHandle hnew,
      scope?_nextHandle]
    rfl

theorem WellFormed.declared?_declare (h : r.WellFormed) (ns : Option String) (nodes : Dict Node)
    (name : String) :
    (r.modifyScope ns fun scope => scope.declare nodes).2.declared? (r.handleFor ns) name =
      (nodes.get? name).or (r.declared? (r.handleFor ns) name) := by
  obtain ⟨scope, hs⟩ := h.scope?_handleFor ns
  rw [← r.declared?_ensure, declared?, declared?, h.scope?_modifyScope, hs, Option.map_some,
    if_pos rfl]
  exact Dict.get?_merge ..

theorem WellFormed.register_register (h : r.WellFormed) (ns : Option String)
    {first second both : Declarations} (hfirst : first.Accepted) (hsecond : second.Accepted)
    (hboth : ∀ name, both.get? name = (second.get? name).or (first.get? name)) :
    ∃ handle r₁ r₂, r.register ns first = .ok (handle, r₁) ∧
      r₁.register ns second = .ok (handle, r₂) ∧ r.register ns both = .ok (handle, r₂) ∧
      (∀ name d, both.get? name = some d → ∃ node,
        Node.ofDeclaration handle name d = .ok node ∧ r₂.declared? handle name = some node) ∧
      ∀ name, both.get? name = none → r₂.declared? handle name = r.declared? handle name := by
  obtain rfl : both = first.merge second := by
    apply Dict.ext
    intro name
    rw [hboth, Dict.get?_merge]
  obtain ⟨nodes, hn⟩ := hfirst.nodes (r.handleFor ns)
  obtain ⟨nodes', hn'⟩ := hsecond.nodes (r.handleFor ns)
  have hmerged := Node.ofDeclarations_merge hn hn'
  have hlater := hn'
  rw [← r.handleFor_modifyScope ns fun scope => scope.declare nodes] at hlater
  have htwice : ∀ scope : Scope, (scope.declare nodes).declare nodes' =
      scope.declare (nodes.merge nodes') := by
    intro scope
    rw [Scope.declare, Scope.declare, Scope.declare, Dict.merge_assoc]
  refine ⟨r.handleFor ns, (r.modifyScope ns fun scope => scope.declare nodes).2,
    (r.modifyScope ns fun scope => scope.declare (nodes.merge nodes')).2,
    register_of_ofDeclarations hn, ?_, register_of_ofDeclarations hmerged, ?_, ?_⟩
  · rw [register_of_ofDeclarations hlater, handleFor_modifyScope, modifyScope_modifyScope]
    simp only [htwice]
  · intro name d hd
    obtain ⟨node, hnode, hget⟩ := Node.get?_ofDeclarations_of_some hmerged hd
    refine ⟨node, hnode, ?_⟩
    rw [h.declared?_declare, hget, Option.some_or]
  · intro name hnone
    rw [h.declared?_declare, Node.get?_ofDeclarations_eq hmerged, hnone, Option.bind_none,
      Option.none_or]

theorem defineVariables_defineVariables (r : Registry) (ns : Option String)
    (vars vars' : Attributes) :
    (r.defineVariables ns vars).2.defineVariables ns vars' =
      r.defineVariables ns (vars.merge vars') := by
  have htwice : ∀ scope : Scope, (scope.define vars).define vars' =
      scope.define (vars.merge vars') := by
    intro scope
    rw [Scope.define, Scope.define, Scope.define, Dict.merge_assoc]
  rw [defineVariables, defineVariables, modifyScope_modifyScope]
  simp only [htwice]
  rfl

theorem Has.perform_eq (has : r.Has ns) (c : Change) :
    r.perform (.change ns c) =
      match c.edit r.sketchView (r.handleFor ns) with
      | .error _ => r
      | .ok edit => r.modifyAt edit (r.handleFor ns).slot := by
  rw [perform, apply_eq_edit]
  cases c.edit r.sketchView (r.handleFor ns) with
  | error fault => rfl
  | ok edit => exact congrArg Prod.snd (has.modifyScope_eq edit)

/-- A change is judged by what it brings along, whatever has been changed in between. -/
theorem Continues.edit_eq (h : r.Continues r') (has : r.Has ns) (fixed : c.isFixed = true) :
    c.edit r'.sketchView (r'.handleFor ns) = c.edit r.sketchView (r.handleFor ns) := by
  rw [h.handleFor has]
  exact c.edit_of_isFixed fixed _ _ _

theorem Has.perform_comm (has : r.Has ns) (fixed : c.isFixed = true) (fixed' : c'.isFixed = true)
    (hne : c.part ≠ c'.part) :
    (r.perform (.change ns c)).perform (.change ns c') =
      (r.perform (.change ns c')).perform (.change ns c) := by
  have hafter : ∀ c : Change, r.Continues (r.perform (.change ns c)) := by
    intro c
    exact r.continues_perform (fun he => by cases he)
  rw [((hafter c).has has).perform_eq c', ((hafter c').has has).perform_eq c,
    (hafter c).edit_eq has fixed', (hafter c').edit_eq has fixed, (hafter c).handleFor has,
    (hafter c').handleFor has, has.perform_eq c, has.perform_eq c']
  cases hc : c.edit r.sketchView (r.handleFor ns) with
  | error fault => rfl
  | ok edit =>
    cases hc' : c'.edit r.sketchView (r.handleFor ns) with
    | error fault => rfl
    | ok edit' =>
      have hcomm := (Change.edits_part hc).comm (Change.edits_part hc') hne
      simp only [modifyAt_modifyAt, hcomm]

theorem Has.answer_eq (has : r.Has ns) (fixed : c.isFixed = true) (c' : Change) :
    ((r.perform (.change ns c')).apply ns c).map Prod.fst = (r.apply ns c).map Prod.fst := by
  have hafter : r.Continues (r.perform (.change ns c')) :=
    r.continues_perform (fun he => by cases he)
  rw [apply_eq_edit, apply_eq_edit, hafter.edit_eq has fixed]
  cases c.edit r.sketchView (r.handleFor ns) with
  | error fault => rfl
  | ok edit => exact congrArg Except.ok (hafter.handleFor has)

/-- Registrations and variables add up, and changes of different kinds commute in one scope. -/
theorem changes_of_one_scope_add_up (hr : r.Reachable) (ns : Option String) :
    (∀ first second both : Declarations, first.Accepted → second.Accepted →
      (∀ name, both.get? name = (second.get? name).or (first.get? name)) →
      ∃ handle r₁ r₂, r.register ns first = .ok (handle, r₁) ∧
        r₁.register ns second = .ok (handle, r₂) ∧ r.register ns both = .ok (handle, r₂) ∧
        (∀ name d, both.get? name = some d → ∃ node,
          Node.ofDeclaration handle name d = .ok node ∧ r₂.declared? handle name = some node) ∧
        ∀ name, both.get? name = none → r₂.declared? handle name = r.declared? handle name) ∧
    (∀ vars vars' : Attributes,
      let (handle, r₁) := r.defineVariables ns vars
      let (handle', r₂) := r₁.defineVariables ns vars'
      handle' = handle ∧ r.defineVariables ns (vars.merge vars') = (handle, r₂)) ∧
    (r.Has ns → ∀ c c' : Change, c.isFixed = true → c'.isFixed = true → c.part ≠ c'.part →
      (r.perform (.change ns c)).perform (.change ns c') =
        (r.perform (.change ns c')).perform (.change ns c) ∧
      ((r.perform (.change ns c)).apply ns c').map Prod.fst = (r.apply ns c').map Prod.fst ∧
      ((r.perform (.change ns c')).apply ns c).map Prod.fst = (r.apply ns c).map Prod.fst) := by
  refine ⟨?_, ?_, ?_⟩
  · intro first second both hfirst hsecond hboth
    exact hr.wellFormed.register_register ns hfirst hsecond hboth
  · intro vars vars'
    refine ⟨r.handleFor_modifyScope ns fun scope => scope.define vars, ?_⟩
    rw [← r.defineVariables_defineVariables ns vars vars']
    exact Prod.ext (r.handleFor_modifyScope ns fun scope => scope.define vars) rfl
  · intro has c c' fixed fixed' hne
    exact ⟨has.perform_comm fixed fixed' hne, has.answer_eq fixed' c, has.answer_eq fixed c'⟩

def boxOverTitle : Declarations :=
  Dict.ofList [("box", .ofChildren [("title", .attributes ∅)]), ("card", .attributes ∅)]

def leafBox : Declarations := Dict.singleton "box" (.attributes ∅)

def gapAndWidth : Attributes := Dict.ofList [("gap", .integer 1), ("width", .integer 2)]

def widerGap : Attributes := Dict.singleton "gap" (.integer 3)

def leafTheme : Registry :=
  (Registry.new .default).perform (.change (some "theme") (.register leafBox))

def frameChange : Operation :=
  .change (some "theme") (.register (Dict.singleton "frame" (.attributes ∅)))

def gapChange : Operation :=
  .change (some "theme") (.defineVariables (Dict.singleton "gap" .null))

theorem leaf_box_replaces_box_over_title :
    (Registry.new .default).Reachable ∧ boxOverTitle.Accepted ∧ leafBox.Accepted ∧
      (∃ handle r₁ r₂, (Registry.new .default).register (some "theme") boxOverTitle =
          .ok (handle, r₁) ∧ r₁.register (some "theme") leafBox = .ok (handle, r₂) ∧
        (Registry.new .default).register (some "theme") (boxOverTitle.merge leafBox) =
          .ok (handle, r₂) ∧ r₂.declared? handle "box" = some (.leaf (.fixed ∅))) ∧
      (∃ handle r₁ r₂, (Registry.new .default).defineVariables (some "theme") gapAndWidth =
          (handle, r₁) ∧ r₁.defineVariables (some "theme") widerGap = (handle, r₂) ∧
        (Registry.new .default).defineVariables (some "theme") (gapAndWidth.merge widerGap) =
          (handle, r₂) ∧
        (r₂.scope? handle).map Scope.vars =
          some (Dict.ofList [("gap", .integer 3), ("width", .integer 2)])) ∧
      leafTheme.Has (some "theme") ∧
      (leafTheme.perform frameChange).perform gapChange =
        (leafTheme.perform gapChange).perform frameChange := by
  have hr : (Registry.new .default).Reachable := .new .default
  have hfirst : boxOverTitle.Accepted := ⟨Handle.root, _, rfl⟩
  have hsecond : leafBox.Accepted := ⟨Handle.root, _, rfl⟩
  have has : leafTheme.Has (some "theme") := ⟨_, rfl⟩
  obtain ⟨hregister, hvars, _⟩ := changes_of_one_scope_add_up hr (some "theme")
  obtain ⟨_, _, hcomm⟩ :=
    changes_of_one_scope_add_up (hr.perform (.change (some "theme") (.register leafBox)))
      (some "theme")
  obtain ⟨handle, r₁, r₂, first, second, both, hnodes, _⟩ :=
    hregister boxOverTitle leafBox _ hfirst hsecond (Dict.get?_merge boxOverTitle leafBox)
  obtain ⟨node, hnode, hdeclared⟩ := hnodes "box" (.attributes ∅) rfl
  cases hnode
  obtain ⟨_, hmerged⟩ := hvars gapAndWidth widerGap
  refine ⟨hr, hfirst, hsecond, ⟨handle, r₁, r₂, first, second, both, hdeclared⟩,
    ⟨_, _, _, rfl, rfl, hmerged, rfl⟩, has,
    (hcomm has _ _ rfl rfl (by decide)).1⟩

end Registry

end Stylebook
