import Stylebook.Proofs.Registry.Handles

namespace Stylebook

/-- Names lead from a node down to another one, child by child. -/
inductive Node.Reaches : Node → List String → Node → Prop
  | here (node : Node) : Node.Reaches node [] node
  | child {node child last : Node} {name : String} {names : List String}
      (step : node.child? name = some child) (rest : Node.Reaches child names last) :
      Node.Reaches node (name :: names) last

theorem Node.reaches_iff {node last : Node} {names : List String} :
    node.Reaches names last ↔ node.descend? names = some last := by
  constructor
  · intro h
    induction h with
    | here node => rfl
    | child step rest ih => rw [descend?, step, Option.bind_some, ih]
  · intro h
    induction names generalizing node with
    | nil => cases h; exact .here _
    | cons name rest ih =>
      rw [descend?] at h
      obtain ⟨child, step, hrest⟩ := Option.bind_eq_some_iff.1 h
      exact .child step (ih hrest)

namespace Scope

/-- Names lead from the top of the tree of a scope to a node. -/
inductive Reaches (s : Scope) : List String → Node → Prop
  | top {name : String} {names : List String} {top last : Node}
      (declared : s.declarations.get? name = some top) (below : top.Reaches names last) :
      Reaches s (name :: names) last

theorem reaches_iff {s : Scope} {path : Path} {node : Node} :
    s.Reaches path.segments node ↔ s.find? path = some node := by
  constructor
  · rintro ⟨declared, below⟩
    rw [find?, declared, Option.bind_some, Node.reaches_iff.1 below]
  · intro h
    obtain ⟨top, declared, below⟩ := Option.bind_eq_some_iff.1 h
    exact .top declared (Node.reaches_iff.2 below)

def qualify (s : Scope) (key : String) : String := s.name.elim key fun name => name ++ "." ++ key

end Scope

namespace Registry

variable {r : Registry} {asked path inner : Path} {start owner other : Handle} {scope : Scope}
  {node : Node} {answer : Except Fault Located}

/-- What names come to in the tree of one scope. Faults name the path that was asked for. -/
inductive Decides (r : Registry) (asked : Path) (owner : Handle) (names : List String) :
    Except Fault Located → Prop
  | invokable {scope : Scope} {node : Node} {recipe : Recipe}
      (live : r.scope? owner = some scope) (reached : scope.Reaches names node)
      (top : node.recipe? = some recipe) :
      Decides r asked owner names
        (.ok ⟨owner, ".".intercalate names, scope.qualify (".".intercalate names), recipe⟩)
  | container {scope : Scope} {children : List (String × Node)}
      (live : r.scope? owner = some scope) (reached : scope.Reaches names (.group children)) :
      Decides r asked owner names (.error (.notInvokable asked.text))
  | missing {scope : Scope} (live : r.scope? owner = some scope)
      (unreached : ∀ node, ¬ scope.Reaches names node) :
      Decides r asked owner names (.error (.unknownPath asked.text))

theorem locateIn_missing (live : r.scope? owner = some scope) (h : scope.find? path = none) :
    r.locateIn asked owner path = .error (.unknownPath asked.text) := by
  simp only [locateIn, live, h]

theorem locateIn_container (live : r.scope? owner = some scope)
    (h : scope.find? path = some node) (hr : node.recipe? = none) :
    r.locateIn asked owner path = .error (.notInvokable asked.text) := by
  simp only [locateIn, live, h, hr]

theorem locateIn_invokable {recipe : Recipe} (live : r.scope? owner = some scope)
    (h : scope.find? path = some node) (hr : node.recipe? = some recipe) :
    r.locateIn asked owner path =
      .ok ⟨owner, path.text, scope.qualify path.text, recipe⟩ := by
  rw [Scope.qualify]
  simp only [locateIn, live, h, hr]
  cases scope.name <;> rfl

theorem decides_iff (live : r.scope? owner = some scope) :
    r.Decides asked owner path.segments answer ↔ r.locateIn asked owner path = answer := by
  constructor
  · rintro (⟨live', reached, top⟩ | ⟨live', reached⟩ | ⟨live', unreached⟩)
    · exact locateIn_invokable live' (Scope.reaches_iff.1 reached) top
    · exact locateIn_container live' (Scope.reaches_iff.1 reached) rfl
    · apply locateIn_missing live'
      apply Option.eq_none_iff_forall_ne_some.2
      intro node hn
      exact unreached node (Scope.reaches_iff.2 hn)
  · rintro rfl
    cases hn : scope.find? path with
    | none =>
      rw [locateIn_missing live hn]
      apply Decides.missing live
      intro node reached
      rw [Scope.reaches_iff.1 reached] at hn
      cases hn
    | some node =>
      have reached := Scope.reaches_iff.2 hn
      cases hr : node.recipe? with
      | some recipe =>
        rw [locateIn_invokable live hn hr]
        exact .invokable live reached hr
      | none =>
        rw [locateIn_container live hn hr]
        cases node with
        | leaf recipe => cases hr
        | group children => exact .container live reached
        | based base children => cases hr

def Declares (r : Registry) (handle : Handle) (name : String) : Prop :=
  ∃ scope node, r.scope? handle = some scope ∧ scope.declarations.get? name = some node

theorem declares_iff {handle : Handle} {name : String} (hs : r.scope? handle = some scope) :
    r.Declares handle name ↔ scope.declarations.contains name = true := by
  rw [Dict.contains, Option.isSome_iff_exists]
  constructor
  · rintro ⟨own, node, hown, hn⟩
    rw [hs] at hown
    cases hown
    exact ⟨node, hn⟩
  · rintro ⟨node, hn⟩
    exact ⟨scope, node, hs, hn⟩

/-- The own tree decides if it has the head, else the namespace of that name, else the root. -/
inductive SinglesOut (r : Registry) (path : Path) (start : Handle) : Except Fault Located → Prop
  | own {answer : Except Fault Located} (declared : r.Declares start path.head)
      (decides : r.Decides path start path.segments answer) : SinglesOut r path start answer
  | inNamespace {answer : Except Fault Located} {other : Handle}
      (undeclared : ¬ r.Declares start path.head) (named : r.Denotes other path.head)
      (elsewhere : other ≠ start) (deeper : path.tail ≠ [])
      (decides : r.Decides path other path.tail answer) : SinglesOut r path start answer
  | wholeNamespace {other : Handle} (undeclared : ¬ r.Declares start path.head)
      (named : r.Denotes other path.head) (elsewhere : other ≠ start) (whole : path.tail = []) :
      SinglesOut r path start (.error (.notInvokable path.text))
  | fallback {answer : Except Fault Located} (undeclared : ¬ r.Declares start path.head)
      (unnamed : ∀ other, r.Denotes other path.head → other = start)
      (inner : start ≠ Handle.root) (allowed : r.options.rootFallback = true)
      (decides : r.Decides path Handle.root path.segments answer) : SinglesOut r path start answer
  | nowhere (undeclared : ¬ r.Declares start path.head)
      (unnamed : ∀ other, r.Denotes other path.head → other = start)
      (stops : start = Handle.root ∨ r.options.rootFallback = false) :
      SinglesOut r path start (.error (.unknownPath path.text))

theorem locate_own (hs : r.scope? start = some scope) (declared : r.Declares start path.head) :
    r.locate path start = r.locateIn path start path := by
  simp only [locate, hs, if_pos ((declares_iff hs).1 declared)]

theorem locate_inNamespace (hs : r.scope? start = some scope)
    (undeclared : ¬ r.Declares start path.head)
    (hother : r.otherNamespace? path start = some other) (hinner : path.tail = inner.segments) :
    r.locate path start = r.locateIn path other inner := by
  have hcontains := mt (declares_iff hs).2 undeclared
  simp only [locate, hs, if_neg hcontains, hother, hinner, Path.ofSegments?_segments]

theorem locate_wholeNamespace (hs : r.scope? start = some scope)
    (undeclared : ¬ r.Declares start path.head)
    (hother : r.otherNamespace? path start = some other) (hwhole : path.tail = []) :
    r.locate path start = .error (.notInvokable path.text) := by
  have hcontains := mt (declares_iff hs).2 undeclared
  simp only [locate, hs, if_neg hcontains, hother, hwhole, Path.ofSegments?]

theorem locate_unnamed (hs : r.scope? start = some scope)
    (undeclared : ¬ r.Declares start path.head)
    (hother : r.otherNamespace? path start = none) :
    r.locate path start =
      if !start.isRoot && r.options.rootFallback then r.locateIn path Handle.root path
      else .error (.unknownPath path.text) := by
  have hcontains := mt (declares_iff hs).2 undeclared
  simp only [locate, hs, if_neg hcontains, hother]

theorem WellFormed.otherNamespace?_eq_some (h : r.WellFormed) :
    r.otherNamespace? path start = some other ↔ r.Denotes other path.head ∧ other ≠ start := by
  rw [otherNamespace?, Option.filter_eq_some_iff, h.denotes_iff, bne_iff_ne]

theorem WellFormed.otherNamespace?_eq_none (h : r.WellFormed) :
    r.otherNamespace? path start = none ↔
      ∀ other, r.Denotes other path.head → other = start := by
  rw [Option.eq_none_iff_forall_ne_some]
  constructor
  · intro hnone other named
    apply Decidable.byContradiction
    intro hne
    exact hnone other (h.otherNamespace?_eq_some.2 ⟨named, hne⟩)
  · intro hall other hother
    obtain ⟨named, hne⟩ := h.otherNamespace?_eq_some.1 hother
    exact hne (hall other named)

theorem SinglesOut.locate_eq (h : r.WellFormed) (hs : r.scope? start = some scope)
    (hrules : r.SinglesOut path start answer) : r.locate path start = answer := by
  cases hrules with
  | own declared decides =>
    rw [locate_own hs declared]
    exact (decides_iff hs).1 decides
  | @inNamespace _ other undeclared named elsewhere deeper decides =>
    obtain ⟨inner, hinner⟩ : ∃ inner : Path, path.tail = inner.segments := by
      cases ht : path.tail with
      | nil => exact absurd ht deeper
      | cons head tail => exact ⟨⟨head, tail⟩, rfl⟩
    obtain ⟨home, hhome, _⟩ := id named
    have hother := h.otherNamespace?_eq_some.2 ⟨named, elsewhere⟩
    rw [locate_inNamespace hs undeclared hother hinner]
    rw [hinner] at decides
    exact (decides_iff hhome).1 decides
  | wholeNamespace undeclared named elsewhere whole =>
    have hother := h.otherNamespace?_eq_some.2 ⟨named, elsewhere⟩
    exact locate_wholeNamespace hs undeclared hother whole
  | fallback undeclared unnamed inner allowed decides =>
    rw [locate_unnamed hs undeclared (h.otherNamespace?_eq_none.2 unnamed),
      Handle.isRoot_eq_false inner, allowed]
    exact (decides_iff r.scope?_root).1 decides
  | nowhere undeclared unnamed stops =>
    rw [locate_unnamed hs undeclared (h.otherNamespace?_eq_none.2 unnamed)]
    rcases stops with rfl | hoff
    · rfl
    · rw [hoff, Bool.and_false]
      rfl

theorem WellFormed.singlesOut_locate (h : r.WellFormed) (hs : r.scope? start = some scope)
    (path : Path) : r.SinglesOut path start (r.locate path start) := by
  by_cases declared : r.Declares start path.head
  · rw [locate_own hs declared]
    exact .own declared ((decides_iff hs).2 rfl)
  · cases hother : r.otherNamespace? path start with
    | some other =>
      obtain ⟨named, elsewhere⟩ := h.otherNamespace?_eq_some.1 hother
      cases htail : path.tail with
      | nil =>
        rw [locate_wholeNamespace hs declared hother htail]
        exact .wholeNamespace declared named elsewhere htail
      | cons head tail =>
        have hinner : path.tail = Path.segments ⟨head, tail⟩ := htail
        obtain ⟨home, hhome, _⟩ := id named
        rw [locate_inNamespace hs declared hother hinner]
        refine .inNamespace declared named elsewhere (htail ▸ List.cons_ne_nil head tail) ?_
        rw [hinner]
        exact (decides_iff hhome).2 rfl
    | none =>
      have unnamed := h.otherNamespace?_eq_none.1 hother
      rw [locate_unnamed hs declared hother]
      by_cases hroot : start = Handle.root
      · subst hroot
        exact .nowhere declared unnamed (.inl rfl)
      · cases hallowed : r.options.rootFallback with
        | true =>
          rw [Handle.isRoot_eq_false hroot]
          exact .fallback declared unnamed hroot hallowed ((decides_iff r.scope?_root).2 rfl)
        | false =>
          rw [Bool.and_false]
          exact .nowhere declared unnamed (.inr hallowed)

/-- What a namespace has is found from itself, and from elsewhere behind its name. -/
theorem WellFormed.locate_home_and_away (h : r.WellFormed) {home : Handle} {name : String}
    {recipe : Recipe} (hhome : r.scope? home = some scope) (hname : scope.name = some name)
    (reached : scope.Reaches path.segments node) (top : node.recipe? = some recipe) :
    r.locate path home = .ok ⟨home, path.text, name ++ "." ++ path.text, recipe⟩ ∧
      ∀ start, (r.scope? start).isSome = true → start ≠ home → ¬ r.Declares start name →
        r.locate ⟨name, path.segments⟩ start =
          .ok ⟨home, path.text, name ++ "." ++ path.text, recipe⟩ := by
  have decides : ∀ asked, r.Decides asked home path.segments
      (.ok ⟨home, path.text, name ++ "." ++ path.text, recipe⟩) := by
    intro asked
    have hinvokable : r.Decides asked home path.segments (.ok ⟨home, _, _, _⟩) :=
      .invokable hhome reached top
    rw [Scope.qualify, hname] at hinvokable
    exact hinvokable
  constructor
  · obtain ⟨declared, _⟩ := id reached
    exact (SinglesOut.own ⟨scope, _, hhome, declared⟩ (decides path)).locate_eq h hhome
  · intro start live hstart undeclared
    obtain ⟨own, hown⟩ := Option.isSome_iff_exists.1 live
    have hrules : r.SinglesOut ⟨name, path.segments⟩ start
        (.ok ⟨home, path.text, name ++ "." ++ path.text, recipe⟩) :=
      .inNamespace undeclared ⟨scope, hhome, hname⟩ (Ne.symm hstart)
        (List.cons_ne_nil path.head path.tail) (decides _)
    exact hrules.locate_eq h hown

/-- From a live scope a path is located just as the rules of precedence say. -/
theorem locate_by_precedence (hr : r.Reachable) :
    (∀ path start, (r.scope? start).isSome = true → ∀ answer,
      r.locate path start = answer ↔ r.SinglesOut path start answer) ∧
    ∀ home scope name path node recipe, r.scope? home = some scope → scope.name = some name →
      scope.Reaches path.segments node → node.recipe? = some recipe →
        r.locate path home = .ok ⟨home, path.text, name ++ "." ++ path.text, recipe⟩ ∧
        ∀ start, (r.scope? start).isSome = true → start ≠ home → ¬ r.Declares start name →
          r.locate ⟨name, path.segments⟩ start =
            .ok ⟨home, path.text, name ++ "." ++ path.text, recipe⟩ := by
  constructor
  · intro path start live answer
    obtain ⟨scope, hs⟩ := Option.isSome_iff_exists.1 live
    constructor
    · rintro rfl
      exact hr.wellFormed.singlesOut_locate hs path
    · intro hrules
      exact hrules.locate_eq hr.wellFormed hs
  · intro home scope name path node recipe hhome hname reached top
    exact hr.wellFormed.locate_home_and_away hhome hname reached top

def crossed : Registry :=
  (Registry.new .default).performAll [
    .change none (.register (Dict.singleton "theme" (.group [("box", .attributes ∅)]))),
    .change (some "theme") (.register (Dict.singleton "box" (.body (Body.ofSteps [])))),
    .change (some "other") (.defineVariables ∅)]

def boxOfRoot : Located := ⟨Handle.root, "theme.box", "theme.box", .fixed ∅⟩

def boxOfTheme : Located :=
  ⟨crossed.handleAt 0, "box", "theme.box", .run (crossed.handleAt 0) (Body.ofSteps [])⟩

theorem theme_box_from_three_scopes :
    crossed.locate ⟨"theme", ["box"]⟩ Handle.root = .ok boxOfRoot ∧
    crossed.locate ⟨"theme", ["box"]⟩ (crossed.handleAt 0) = .ok boxOfRoot ∧
    crossed.locate ⟨"theme", ["box"]⟩ (crossed.handleAt 1) = .ok boxOfTheme := by
  have hreachable : crossed.Reachable := (Reachable.new .default).performAll _
  obtain ⟨hrules, hnamespace⟩ := locate_by_precedence hreachable
  have hbox : crossed.root.Reaches ["theme", "box"] (.leaf (.fixed ∅)) :=
    .top rfl (.child rfl (.here _))
  have hdecides : crossed.Decides ⟨"theme", ["box"]⟩ Handle.root ["theme", "box"] (.ok boxOfRoot) :=
    .invokable crossed.scope?_root hbox rfl
  refine ⟨?_, ?_, ?_⟩
  · exact (hrules _ _ rfl _).2 (.own ⟨_, _, crossed.scope?_root, rfl⟩ hdecides)
  · have undeclared : ¬ crossed.Declares (crossed.handleAt 0) "theme" := by
      rw [declares_iff rfl]
      exact Bool.false_ne_true
    have unnamed : ∀ other, crossed.Denotes other "theme" → other = crossed.handleAt 0 := by
      intro other hother
      exact (Option.some.inj ((hreachable.wellFormed.denotes_iff other "theme").1 hother)).symm
    exact (hrules _ _ rfl _).2 (.fallback undeclared unnamed (by decide) rfl hdecides)
  · have undeclared : ¬ crossed.Declares (crossed.handleAt 1) "theme" := by
      rw [declares_iff rfl]
      exact Bool.false_ne_true
    obtain ⟨_, haway⟩ := hnamespace (crossed.handleAt 0) _ "theme" ⟨"box", []⟩ _ _ rfl rfl
      (.top rfl (.here _)) rfl
    exact haway _ rfl (by decide) undeclared

end Registry

end Stylebook
