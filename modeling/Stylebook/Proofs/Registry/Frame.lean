import Stylebook.Proofs.Registry.Precedence
import Stylebook.Proofs.Registry.Targets

namespace Stylebook

def Change.names : Change → List String
  | .register declarations => Dict.keys declarations
  | .registerSketches sketches => sketches.map Prod.fst
  | .defineVariables _ => []
  | .defineMixin _ _ => []

theorem Sketch.names_drawAll (view : View) (sketches : List (String × Sketch)) :
    (drawAll view sketches).map Prod.fst = sketches.map Prod.fst := by
  induction sketches with
  | nil => rfl
  | cons first rest ih => rw [drawAll, List.map_cons, List.map_cons, ih]

namespace Registry

variable {r r' : Registry} {ns : Option String} {change : Change} {handle start owner : Handle}
  {asked path : Path} {scope : Scope} {names : List String}

/-- One scope is changed, and only these names in its tree; all other handles stay. -/
structure Frames (r r' : Registry) (ns : Option String) (names : List String) : Prop where
  options : r'.options = r.options
  scopes : ∀ handle scope, r.scope? handle = some scope → ∃ scope', r'.scope? handle = some scope' ∧
    scope'.name = scope.name ∧ ∀ name, ¬ (handle = r.handleFor ns ∧ name ∈ names) →
      scope'.declarations.get? name = scope.declarations.get? name
  handles : ∀ name, ns ≠ some name → r'.handle? name = r.handle? name
  target : ∀ name, ns = some name → r'.handle? name = some (r.handleFor ns)

/-- A change within a scope: its name stays, and so do all names in its tree but these. -/
structure Edits (edit : Scope → Scope) (names : List String) : Prop where
  name : ∀ s, (edit s).name = s.name
  declarations : ∀ s name, name ∉ names →
    (edit s).declarations.get? name = s.declarations.get? name

theorem edits_declare {tree : Declarations} {nodes : Dict Node}
    (hn : Node.ofDeclarations handle tree = .ok nodes)
    (hnames : ∀ name d, Dict.get? tree name = some d → name ∈ names) :
    Edits (fun scope => scope.declare nodes) names where
  name := fun s => rfl
  declarations := by
    intro s name hname
    rcases Node.get?_ofDeclarations hn name with ⟨_, hnone⟩ | ⟨d, node, hd, _, _⟩
    · rw [Scope.declare, Dict.get?_merge, hnone, Option.none_or]
    · exact absurd (hnames name d hd) hname

theorem exists_edit_of_apply (h : r.apply ns change = .ok (handle, r')) :
    ∃ edit, Edits edit change.names ∧ r.modifyScope ns edit = (handle, r') := by
  cases change with
  | register tree =>
    obtain ⟨nodes, hn, he⟩ := register_eq_ok h
    refine ⟨_, edits_declare hn ?_, he⟩
    intro name d hd
    exact (Dict.mem_keys_iff tree name).2 ⟨d, hd⟩
  | registerSketches sketches =>
    obtain ⟨nodes, hn, he⟩ := register_eq_ok h
    refine ⟨_, edits_declare hn ?_, he⟩
    intro name d hd
    rcases Dict.mem_of_get?_insertAll hd with hmem | hnone
    · rwa [Sketch.names_drawAll] at hmem
    · cases hnone
  | defineVariables vars =>
    cases h
    exact ⟨fun scope => scope.define vars, ⟨fun s => rfl, fun s name _ => rfl⟩, rfl⟩
  | defineMixin name mixin =>
    cases h
    exact ⟨fun scope => scope.defineMixin name mixin, ⟨fun s => rfl, fun s name _ => rfl⟩, rfl⟩

theorem WellFormed.frames_of_apply (h : r.WellFormed)
    (applied : r.apply ns change = .ok (handle, r')) : r.Frames r' ns change.names := by
  obtain ⟨edit, hedit, he⟩ := exists_edit_of_apply applied
  have hr' : r' = (r.modifyScope ns edit).2 := (congrArg Prod.snd he).symm
  subst hr'
  exact {
    options := (r.modifyScope_kept ns edit).1
    scopes := by
      intro handle scope hs
      rw [h.scope?_modifyScope, scope?_ensure_of_live hs]
      refine ⟨_, rfl, ?_, ?_⟩
      · dsimp only
        split
        · exact hedit.name scope
        · rfl
      · intro name hname
        dsimp only
        split
        · next htarget =>
          exact hedit.declarations scope name fun hmem => hname ⟨htarget, hmem⟩
        · rfl
    handles := by
      intro name hne
      exact r.handle?_modifyScope_of_ne hne edit
    target := by
      rintro name rfl
      exact r.handle?_modifyScope name edit }

theorem Frames.locateIn_eq (h : r.Frames r' ns names) (hs : r.scope? owner = some scope)
    (houtside : ¬ (owner = r.handleFor ns ∧ path.head ∈ names)) :
    r'.locateIn asked owner path = r.locateIn asked owner path := by
  obtain ⟨scope', hs', hname, hdeclarations⟩ := h.scopes owner scope hs
  have hfind : scope'.find? path = scope.find? path := by
    rw [Scope.find?, Scope.find?, hdeclarations path.head houtside]
  simp only [locateIn, hs, hs', hfind, hname]

theorem Frames.otherNamespace?_eq (h : r.Frames r' ns names) (hs : r.scope? start = some scope)
    (hold : ns = some path.head → start ≠ r.handleFor ns → r.handle? path.head ≠ none) :
    r'.otherNamespace? path start = r.otherNamespace? path start := by
  rw [otherNamespace?, otherNamespace?]
  by_cases hns : ns = some path.head
  · cases hn : r.handle? path.head with
    | some own => rw [h.target path.head hns, hns, handleFor_of_some hn]
    | none =>
      have hstart : start = r.handleFor ns :=
        Decidable.byContradiction fun hne => hold hns hne hn
      rw [hstart, hns, handleFor_of_none hn, r.scope?_nextHandle] at hs
      cases hs
  · rw [h.handles path.head hns]

/-- The ways in which a change can come between a scope and what a path named from there. -/
inductive Disturbs (r : Registry) (ns : Option String) (change : Change) (path : Path)
    (start : Handle) : Prop
  | own (target : start = r.handleFor ns) (registered : path.head ∈ change.names)
  | inNamespace (target : ns = some path.head) (elsewhere : start ≠ r.handleFor ns)
      (undeclared : ¬ r.Declares start path.head)
      (reached : r.handle? path.head = none ∨
        ∃ name, path.tail.head? = some name ∧ name ∈ change.names)
  | fallback (target : ns = none) (inner : start ≠ Handle.root)
      (allowed : r.options.rootFallback = true) (registered : path.head ∈ change.names)
      (undeclared : ¬ r.Declares start path.head)
      (unnamed : ∀ other, r.Denotes other path.head → other = start)

theorem WellFormed.locate_undisturbed (h : r.WellFormed) (frame : r.Frames r' ns change.names)
    (hs : r.scope? start = some scope) (undisturbed : ¬ r.Disturbs ns change path start) :
    r'.locate path start = r.locate path start := by
  obtain ⟨scope', hs', hname, hdeclarations⟩ := frame.scopes start scope hs
  have hown : ¬ (start = r.handleFor ns ∧ path.head ∈ change.names) :=
    fun ⟨htarget, hmem⟩ => undisturbed (.own htarget hmem)
  have hdeclares : r'.Declares start path.head ↔ r.Declares start path.head := by
    rw [declares_iff hs, declares_iff hs', Dict.contains, Dict.contains,
      hdeclarations path.head hown]
  by_cases declared : r.Declares start path.head
  · rw [locate_own hs declared, locate_own hs' (hdeclares.2 declared)]
    exact frame.locateIn_eq hs hown
  · have undeclared' := mt hdeclares.1 declared
    have hsame : r'.otherNamespace? path start = r.otherNamespace? path start := by
      apply frame.otherNamespace?_eq hs
      intro htarget hne hnew
      exact undisturbed (.inNamespace htarget hne declared (.inl hnew))
    cases hother : r.otherNamespace? path start with
    | some other =>
      have hother' := hsame.trans hother
      obtain ⟨hn, hne⟩ := Option.filter_eq_some_iff.1 hother
      cases htail : path.tail with
      | nil =>
        rw [locate_wholeNamespace hs declared hother htail,
          locate_wholeNamespace hs' undeclared' hother' htail]
      | cons head tail =>
        have hinner : path.tail = Path.segments ⟨head, tail⟩ := htail
        obtain ⟨home, hhome, _⟩ := (h.denotes_iff other path.head).2 hn
        rw [locate_inNamespace hs declared hother hinner,
          locate_inNamespace hs' undeclared' hother' hinner]
        apply frame.locateIn_eq hhome
        rintro ⟨rfl, hmem⟩
        have htarget := h.eq_of_handle?_handleFor hn
        have hstart : start ≠ r.handleFor ns := (bne_iff_ne.1 hne).symm
        exact undisturbed (.inNamespace htarget hstart declared
          (.inr ⟨head, congrArg List.head? htail, hmem⟩))
    | none =>
      rw [locate_unnamed hs declared hother, locate_unnamed hs' undeclared' (hsame.trans hother),
        frame.options]
      split
      · next hfallback =>
        obtain ⟨hinner, hallowed⟩ := Bool.and_eq_true_iff.1 hfallback
        apply frame.locateIn_eq r.scope?_root
        rintro ⟨hroot, hmem⟩
        -- a change of the root is seen through the fallback, and that is ruled out
        cases ns with
        | some name => exact h.handleFor_ne_root name hroot.symm
        | none =>
          have hstart : start ≠ Handle.root := by
            rintro rfl
            cases hinner
          exact undisturbed (.fallback rfl hstart hallowed hmem declared
            (h.otherNamespace?_eq_none.1 hother))
      · rfl

/-- A change leaves a path where it was, from every live scope, unless it disturbs it. -/
theorem changes_disturb_only_what_they_must (hr : r.Reachable)
    (applied : r.apply ns change = .ok (handle, r')) :
    ∀ path start, (r.scope? start).isSome = true → ¬ r.Disturbs ns change path start →
      r'.locate path start = r.locate path start := by
  intro path start live undisturbed
  obtain ⟨scope, hs⟩ := Option.isSome_iff_exists.1 live
  exact hr.wellFormed.locate_undisturbed (hr.wellFormed.frames_of_apply applied) hs undisturbed

def grouped : Registry :=
  (Registry.new .default).performAll [
    .change none (.register (Dict.singleton "theme" (.group [("box", .attributes ∅)]))),
    .change (some "other") (.defineVariables ∅)]

def overshadowed : Registry := (grouped.defineVariables (some "theme") ∅).2

theorem theme_box_hidden_from_namespaces_alone :
    grouped.locate ⟨"theme", ["box"]⟩ Handle.root = .ok boxOfRoot ∧
    overshadowed.locate ⟨"theme", ["box"]⟩ Handle.root = .ok boxOfRoot ∧
    grouped.locate ⟨"theme", ["box"]⟩ (grouped.handleAt 0) = .ok boxOfRoot ∧
    overshadowed.locate ⟨"theme", ["box"]⟩ (grouped.handleAt 0) =
      .error (.unknownPath "theme.box") := by
  have hreachable : grouped.Reachable := (Reachable.new .default).performAll _
  have applied : grouped.apply (some "theme") (.defineVariables ∅) =
      .ok (grouped.handleAt 1, overshadowed) := rfl
  have undisturbed : ¬ grouped.Disturbs (some "theme") (.defineVariables ∅) ⟨"theme", ["box"]⟩
      Handle.root := by
    rintro (⟨_, registered⟩ | ⟨_, _, undeclared, _⟩ | ⟨target⟩)
    · cases registered
    · exact undeclared ⟨_, _, grouped.scope?_root, rfl⟩
    · cases target
  have hsame := changes_disturb_only_what_they_must hreachable applied _ _ rfl undisturbed
  exact ⟨rfl, hsame, rfl, rfl⟩

end Registry

end Stylebook
