import Stylebook.Node.OfDeclaration
import Stylebook.Recipe.Invoke
import Stylebook.Script
import Stylebook.Proofs.Body.Merging

namespace Stylebook

inductive Source
  | mapping (attributes : Attributes)
  | body (body : Body)

namespace Source

def evaluate (setting : Setting) (resolve : Handle → Path → Resolving) (owner : Handle) :
    Source → Resolving
  | .mapping m => fun e => (.ok m, e)
  | .body b => b.run (Context.ofOwner setting resolve owner)

def recipe (owner : Handle) : Source → Recipe
  | .mapping m => .fixed m
  | .body b => .run owner b

theorem invoke_recipe (setting : Setting) (resolve : Handle → Path → Resolving) (owner : Handle)
    (s : Source) : (s.recipe owner).invoke setting resolve = s.evaluate setting resolve owner := by
  cases s <;> rfl

end Source

namespace Declaration

mutual

/-- A group brings what its base brings, and so on inwards; without a base it brings nothing. -/
def source? : Declaration → Option Source
  | .attributes m => some (.mapping m)
  | .body b => some (.body b)
  | .group children => sourceOfBase? children
  | .value _ => none

def sourceOfBase? : List (String × Declaration) → Option Source
  | [] => none
  | (name, child) :: rest => if name = baseName then child.source? else sourceOfBase? rest

end

/-- The base of a group is not one of its children. -/
def child? : Declaration → String → Option Declaration
  | .group children, name => if name = baseName then none else children.lookup name
  | _, _ => none

theorem child?_group (children : List (String × Declaration)) (name : String) :
    (Declaration.group children).child? name =
      if name = baseName then none else children.lookup name := rfl

/-- The groups that names lead through, from the outside in, and the declaration that they reach. -/
structure Walk where
  passed : List Declaration
  reached : Declaration

def Walk.sources (w : Walk) : List Source := (w.passed ++ [w.reached]).filterMap source?

def walk? (d : Declaration) : List String → Option Walk
  | [] => some ⟨[], d⟩
  | name :: rest =>
    (d.child? name).bind fun child => (child.walk? rest).map fun w => ⟨d :: w.passed, w.reached⟩

def IsPlainGroup (d : Declaration) : Prop :=
  ∃ children, d = .group children ∧ children.lookup baseName = none

end Declaration

/-- At the top of a tree the name of the base is a name like any other. -/
def Declarations.walk? (tree : Declarations) (name : String) (rest : List String) :
    Option Declaration.Walk :=
  (Dict.get? tree name).bind fun d => d.walk? rest

namespace Node

variable {owner : Handle} {path : String} {d : Declaration} {node : Node}
  {children : List (String × Declaration)} {nodes : List (String × Node)}

theorem recipe?_onBase (base : Recipe) (node : Node) :
    (node.onBase base).recipe? = node.recipe?.map (.layered base) := by
  cases node <;> rfl

theorem lookup_onBaseAll (base : Recipe) (nodes : List (String × Node)) (name : String) :
    (onBaseAll base nodes).lookup name = (nodes.lookup name).map (onBase base) := by
  induction nodes with
  | nil => rfl
  | cons first rest ih =>
    obtain ⟨key, node⟩ := first
    rw [onBaseAll, lookup_entry, lookup_entry, ih]
    split <;> rfl

theorem child?_onBase (base : Recipe) (node : Node) (name : String) :
    (node.onBase base).child? name = (node.child? name).map (onBase base) := by
  cases node with
  | leaf recipe => rfl
  | group nodes => exact lookup_onBaseAll base nodes name
  | based own nodes => exact lookup_onBaseAll base nodes name

theorem descend?_onBase (base : Recipe) (node : Node) (names : List String) :
    (node.onBase base).descend? names = (node.descend? names).map (onBase base) := by
  induction names generalizing node with
  | nil => rfl
  | cons name rest ih =>
    rw [descend?, descend?, child?_onBase]
    cases node.child? name with
    | none => rfl
    | some child => exact ih child

def onBases (bases : List Recipe) (node : Node) : Node := bases.foldr onBase node

theorem recipe?_onBases (bases : List Recipe) (node : Node) :
    (node.onBases bases).recipe? = node.recipe?.map fun top => bases.foldr .layered top := by
  induction bases with
  | nil => exact Option.map_id'.symm
  | cons base rest ih =>
    change ((node.onBases rest).onBase base).recipe? = _
    rw [recipe?_onBase, ih, Option.map_map]
    rfl

theorem onBases_eq_group_iff (bases : List Recipe) (node : Node) :
    (∃ nodes, node.onBases bases = .group nodes) ↔ ∃ nodes, node = .group nodes := by
  induction bases with
  | nil => rfl
  | cons base rest ih =>
    rw [← ih]
    change (∃ nodes, (node.onBases rest).onBase base = .group nodes) ↔ _
    cases node.onBases rest with
    | leaf recipe => simp [onBase]
    | group nodes => simp [onBase]
    | based own nodes => simp [onBase]

theorem ofDeclaration_group (h : ofDeclaration owner path (.group children) = .ok node) :
    ∃ nodes, ofChildren owner path children = .ok nodes ∧
      ((baseOf owner path children = .ok none ∧ node = .group nodes) ∨
        ∃ base, baseOf owner path children = .ok (some base) ∧
          node = .based base (onBaseAll base nodes)) := by
  rw [ofDeclaration] at h
  cases hb : baseOf owner path children with
  | error fault => rw [hb] at h; cases h
  | ok base =>
    rw [hb] at h
    cases hc : ofChildren owner path children with
    | error fault => rw [hc] at h; cases base <;> cases h
    | ok nodes =>
      rw [hc] at h
      cases base with
      | none => cases h; exact ⟨nodes, rfl, .inl ⟨rfl, rfl⟩⟩
      | some base => cases h; exact ⟨nodes, rfl, .inr ⟨base, rfl, rfl⟩⟩

theorem ofChildren_cons {name : String} {child : Declaration} (hname : name ≠ baseName)
    (h : ofChildren owner path ((name, child) :: children) = .ok nodes) :
    ∃ node rest, ofDeclaration owner (path ++ "." ++ name) child = .ok node ∧
      ofChildren owner path children = .ok rest ∧ nodes = (name, node) :: rest := by
  rw [ofChildren, if_neg hname] at h
  cases hd : ofDeclaration owner (path ++ "." ++ name) child with
  | error fault => rw [hd] at h; cases h
  | ok node =>
    rw [hd] at h
    cases hc : ofChildren owner path children with
    | error fault => rw [hc] at h; cases h
    | ok rest => rw [hc] at h; cases h; exact ⟨node, rest, rfl, rfl, rfl⟩

theorem baseOf_cons {child : Declaration} {base : Option Recipe}
    (h : baseOf owner path ((baseName, child) :: children) = .ok base) :
    ∃ node recipe, ofDeclaration owner (path ++ "." ++ baseName) child = .ok node ∧
      node.recipe? = some recipe ∧ base = some recipe := by
  rw [baseOf, if_pos rfl] at h
  cases hd : ofDeclaration owner (path ++ "." ++ baseName) child with
  | error fault => simp only [hd] at h; cases h
  | ok node =>
    simp only [hd, bind, Except.bind] at h
    split at h
    · next recipe hr =>
      cases h
      exact ⟨node, recipe, rfl, hr, rfl⟩
    · cases h

theorem lookup_ofChildren_base (h : ofChildren owner path children = .ok nodes) :
    nodes.lookup baseName = none := by
  induction children generalizing nodes with
  | nil => cases h; rfl
  | cons first rest ih =>
    obtain ⟨name, child⟩ := first
    by_cases hname : name = baseName
    · rw [ofChildren, if_pos hname] at h
      exact ih h
    · obtain ⟨node, rest, hd, hc, rfl⟩ := ofChildren_cons hname h
      rw [lookup_entry, if_neg (Ne.symm hname)]
      exact ih hc

theorem lookup_ofChildren (h : ofChildren owner path children = .ok nodes) {name : String}
    (hname : name ≠ baseName) :
    (children.lookup name = none ∧ nodes.lookup name = none) ∨
      ∃ child node, children.lookup name = some child ∧ nodes.lookup name = some node ∧
        ofDeclaration owner (path ++ "." ++ name) child = .ok node := by
  induction children generalizing nodes with
  | nil => cases h; exact .inl ⟨rfl, rfl⟩
  | cons first rest ih =>
    obtain ⟨key, child⟩ := first
    by_cases hkey : key = baseName
    · rw [ofChildren, if_pos hkey] at h
      rw [lookup_entry, if_neg fun he => hname (he.trans hkey)]
      exact ih h
    · obtain ⟨node, rest, hd, hc, rfl⟩ := ofChildren_cons hkey h
      rw [lookup_entry, lookup_entry]
      by_cases he : name = key
      · subst he
        rw [if_pos rfl, if_pos rfl]
        exact .inr ⟨child, node, rfl, rfl, hd⟩
      · rw [if_neg he, if_neg he]
        exact ih hc

theorem lookup_base_of_baseOf (h : baseOf owner path children = .ok none) :
    children.lookup baseName = none := by
  induction children with
  | nil => rfl
  | cons first rest ih =>
    obtain ⟨name, child⟩ := first
    by_cases hname : name = baseName
    · subst hname
      obtain ⟨node, recipe, hd, hr, he⟩ := baseOf_cons h
      cases he
    · rw [baseOf, if_neg hname] at h
      rw [lookup_entry, if_neg (Ne.symm hname)]
      exact ih h

theorem lookup_base_ne_none {base : Recipe} (h : baseOf owner path children = .ok (some base)) :
    children.lookup baseName ≠ none := by
  induction children with
  | nil => cases h
  | cons first rest ih =>
    obtain ⟨name, child⟩ := first
    rw [lookup_entry]
    by_cases hname : baseName = name
    · rw [if_pos hname]
      exact Option.some_ne_none _
    · rw [baseOf, if_neg (Ne.symm hname)] at h
      rw [if_neg hname]
      exact ih h

mutual

theorem recipe?_ofDeclaration : ∀ {d : Declaration} {path : String} {node : Node},
    ofDeclaration owner path d = .ok node → node.recipe? = d.source?.map (Source.recipe owner)
  | .attributes m, path, node, h => by cases h; rfl
  | .body b, path, node, h => by cases h; rfl
  | .value v, path, node, h => by cases h
  | .group children, path, node, h => by
    obtain ⟨nodes, hc, ⟨hb, rfl⟩ | ⟨base, hb, rfl⟩⟩ := ofDeclaration_group h
    · exact recipe_baseOf hb
    · exact recipe_baseOf hb

theorem recipe_baseOf : ∀ {children : List (String × Declaration)} {path : String}
    {base : Option Recipe}, baseOf owner path children = .ok base →
      base = (Declaration.sourceOfBase? children).map (Source.recipe owner)
  | [], path, base, h => by cases h; rfl
  | (name, child) :: rest, path, base, h => by
    by_cases hname : name = baseName
    · subst hname
      obtain ⟨node, recipe, hd, hr, rfl⟩ := baseOf_cons h
      rw [Declaration.sourceOfBase?, if_pos rfl, ← hr]
      exact recipe?_ofDeclaration hd
    · rw [baseOf, if_neg hname] at h
      rw [Declaration.sourceOfBase?, if_neg hname]
      exact recipe_baseOf h

end

theorem ofDeclaration_eq_group_iff (h : ofDeclaration owner path d = .ok node) :
    (∃ nodes, node = .group nodes) ↔ d.IsPlainGroup := by
  cases d with
  | attributes m =>
    cases h
    simp [Declaration.IsPlainGroup]
  | body b =>
    cases h
    simp [Declaration.IsPlainGroup]
  | value v => cases h
  | group children =>
    obtain ⟨nodes, hc, ⟨hb, rfl⟩ | ⟨base, hb, rfl⟩⟩ := ofDeclaration_group h
    · exact ⟨fun _ => ⟨children, rfl, lookup_base_of_baseOf hb⟩, fun _ => ⟨nodes, rfl⟩⟩
    · constructor
      · rintro ⟨nodes', he⟩
        cases he
      · rintro ⟨children', he, hl⟩
        cases he
        exact absurd hl (lookup_base_ne_none hb)

theorem child?_ofDeclaration (h : ofDeclaration owner path d = .ok node) (name : String) :
    (d.child? name = none ∧ node.child? name = none) ∨
      ∃ child path' below, d.child? name = some child ∧
        ofDeclaration owner path' child = .ok below ∧
        node.child? name = some (below.onBases (d.source?.map (Source.recipe owner)).toList) := by
  cases d with
  | attributes m => cases h; exact .inl ⟨rfl, rfl⟩
  | body b => cases h; exact .inl ⟨rfl, rfl⟩
  | value v => cases h
  | group children =>
    have hr := recipe?_ofDeclaration h
    obtain ⟨nodes, hc, hb⟩ := ofDeclaration_group h
    by_cases hname : name = baseName
    · subst hname
      have hl := lookup_ofChildren_base hc
      refine .inl ⟨by rw [Declaration.child?_group, if_pos rfl], ?_⟩
      rcases hb with ⟨hb, rfl⟩ | ⟨base, hb, rfl⟩
      · exact hl
      · exact (lookup_onBaseAll base nodes baseName).trans (by rw [hl]; rfl)
    · rw [Declaration.child?_group, if_neg hname]
      rcases lookup_ofChildren hc hname with ⟨hd, hn⟩ | ⟨child, below, hd, hn, hok⟩
      · refine .inl ⟨hd, ?_⟩
        rcases hb with ⟨hb, rfl⟩ | ⟨base, hb, rfl⟩
        · exact hn
        · exact (lookup_onBaseAll base nodes name).trans (by rw [hn]; rfl)
      · refine .inr ⟨child, _, below, hd, hok, ?_⟩
        rw [← hr]
        rcases hb with ⟨hb, rfl⟩ | ⟨base, hb, rfl⟩
        · exact hn
        · exact (lookup_onBaseAll base nodes name).trans (by rw [hn]; rfl)

theorem onBases_append (below above : List Recipe) (node : Node) :
    node.onBases (below ++ above) = (node.onBases above).onBases below := by
  simp only [onBases, List.foldr_append]

theorem descend?_onBases (bases : List Recipe) (node : Node) (names : List String) :
    (node.onBases bases).descend? names = (node.descend? names).map (onBases bases) := by
  induction bases with
  | nil => exact Option.map_id'.symm
  | cons base rest ih =>
    change ((node.onBases rest).onBase base).descend? names = _
    rw [descend?_onBase, ih, Option.map_map]
    rfl

def basesOf (owner : Handle) (passed : List Declaration) : List Recipe :=
  (passed.filterMap Declaration.source?).map (Source.recipe owner)

theorem basesOf_cons (owner : Handle) (d : Declaration) (passed : List Declaration) :
    basesOf owner (d :: passed) =
      (d.source?.map (Source.recipe owner)).toList ++ basesOf owner passed := by
  cases h : d.source? <;> simp [basesOf, h]

theorem descend?_ofDeclaration (h : ofDeclaration owner path d = .ok node) (names : List String) :
    (d.walk? names = none ∧ node.descend? names = none) ∨
      ∃ w path' below, d.walk? names = some w ∧ ofDeclaration owner path' w.reached = .ok below ∧
        node.descend? names = some (below.onBases (basesOf owner w.passed)) := by
  induction names generalizing d path node with
  | nil => exact .inr ⟨⟨[], d⟩, path, node, rfl, h, rfl⟩
  | cons name rest ih =>
    rw [Declaration.walk?, descend?]
    rcases child?_ofDeclaration h name with ⟨hd, hn⟩ | ⟨child, path', below, hd, hok, hn⟩
    · exact .inl ⟨by rw [hd]; rfl, by rw [hn]; rfl⟩
    · rw [hd, hn]
      simp only [Option.bind_some, descend?_onBases]
      rcases ih hok with ⟨hw, hn'⟩ | ⟨w, path'', last, hw, hok', hn'⟩
      · exact .inl ⟨by rw [hw]; rfl, by rw [hn']; rfl⟩
      · refine .inr ⟨⟨d :: w.passed, w.reached⟩, path'', last, by rw [hw]; rfl, hok', ?_⟩
        rw [hn', Option.map_some, basesOf_cons, onBases_append]

theorem ofEntries_cons {name : String} {entries : List (String × Declaration)}
    (h : ofEntries owner ((name, d) :: entries) = .ok nodes) :
    ∃ node rest, ofDeclaration owner name d = .ok node ∧ ofEntries owner entries = .ok rest ∧
      nodes = (name, node) :: rest := by
  rw [ofEntries] at h
  cases hd : ofDeclaration owner name d with
  | error fault => rw [hd] at h; cases h
  | ok node =>
    rw [hd] at h
    cases hr : ofEntries owner entries with
    | error fault => rw [hr] at h; cases h
    | ok rest => rw [hr] at h; cases h; exact ⟨node, rest, rfl, rfl, rfl⟩

theorem keys_ofEntries {entries : List (String × Declaration)}
    (h : ofEntries owner entries = .ok nodes) : nodes.map Prod.fst = entries.map Prod.fst := by
  induction entries generalizing nodes with
  | nil => cases h; rfl
  | cons first rest ih =>
    obtain ⟨name, d⟩ := first
    obtain ⟨node, rest', hd, hr, rfl⟩ := ofEntries_cons h
    rw [List.map_cons, List.map_cons, ih hr]

theorem lookup_ofEntries {entries : List (String × Declaration)}
    (h : ofEntries owner entries = .ok nodes) (name : String) :
    (entries.lookup name = none ∧ nodes.lookup name = none) ∨
      ∃ d node, entries.lookup name = some d ∧ ofDeclaration owner name d = .ok node ∧
        nodes.lookup name = some node := by
  induction entries generalizing nodes with
  | nil => cases h; exact .inl ⟨rfl, rfl⟩
  | cons first rest ih =>
    obtain ⟨key, d⟩ := first
    obtain ⟨node, rest', hd, hr, rfl⟩ := ofEntries_cons h
    rw [lookup_entry, lookup_entry]
    by_cases he : name = key
    · subst he
      rw [if_pos rfl, if_pos rfl]
      exact .inr ⟨d, node, rfl, hd, rfl⟩
    · rw [if_neg he, if_neg he]
      exact ih hr

theorem get?_ofDeclarations {tree : Declarations} {nodes : Dict Node}
    (h : ofDeclarations owner tree = .ok nodes) (name : String) :
    (Dict.get? tree name = none ∧ nodes.get? name = none) ∨
      ∃ d node, Dict.get? tree name = some d ∧ ofDeclaration owner name d = .ok node ∧
        nodes.get? name = some node := by
  rw [ofDeclarations] at h
  cases he : ofEntries owner tree.entries with
  | error fault => rw [he] at h; cases h
  | ok entries =>
    rw [he] at h
    cases h
    have hasc : Ascending entries := by
      have hkeys := tree.ascending
      rw [Ascending, ← List.pairwise_map] at hkeys
      rwa [← keys_ofEntries he, List.pairwise_map] at hkeys
    rw [Dict.get?_ofList hasc]
    exact lookup_ofEntries he name

theorem invoke_layers (setting : Setting) (resolve : Handle → Path → Resolving) (owner : Handle)
    (sources : List Source) (s : Source) (e : Evaluation) :
    ((sources.map (Source.recipe owner)).foldr .layered (s.recipe owner)).invoke
        setting resolve e =
      Resolving.mergeAll (Source.evaluate setting resolve owner) (sources ++ [s]) ∅ e := by
  induction sources generalizing e with
  | nil =>
    rw [List.map_nil, List.foldr_nil, List.nil_append, Source.invoke_recipe]
    exact (Resolving.mergeAll_singleton s e).symm
  | cons first rest ih =>
    rw [List.map_cons, List.foldr_cons, List.cons_append]
    have he := congrFun (Source.invoke_recipe setting resolve owner first) e
    cases h : first.evaluate setting resolve owner e with
    | mk answer after =>
      rw [h] at he
      cases answer with
      | error fault =>
        rw [Recipe.invoke_layered_error he, Resolving.mergeAll_cons_error h]
      | ok attributes =>
        rw [Recipe.invoke_layered_ok he, Resolving.mergeAll_cons_ok h, ih after]

/-- A node means what a walk reaches: a group without a base, or the merge of what it brought. -/
structure Means (owner : Handle) (w : Declaration.Walk) (node : Node) : Prop where
  group_iff : (∃ children, node = .group children) ↔ w.reached.IsPlainGroup
  invoke : ¬ w.reached.IsPlainGroup → ∃ recipe, node.recipe? = some recipe ∧
    ∀ setting resolve e, recipe.invoke setting resolve e =
      Resolving.mergeAll (Source.evaluate setting resolve owner) w.sources ∅ e

theorem means_onBases {w : Declaration.Walk} (h : ofDeclaration owner path w.reached = .ok node) :
    (node.onBases (basesOf owner w.passed)).Means owner w := by
  have hgroup := ofDeclaration_eq_group_iff h
  refine ⟨(onBases_eq_group_iff _ node).trans hgroup, fun hw => ?_⟩
  have hr := recipe?_ofDeclaration h
  cases hs : w.reached.source? with
  | none =>
    rw [hs] at hr
    cases node with
    | leaf recipe => cases hr
    | based base nodes => cases hr
    | group nodes => exact absurd (hgroup.1 ⟨nodes, rfl⟩) hw
  | some s =>
    rw [hs] at hr
    refine ⟨_, (recipe?_onBases _ node).trans (by rw [hr]; rfl), fun setting resolve e => ?_⟩
    have hsources : w.sources = w.passed.filterMap Declaration.source? ++ [s] := by
      simp only [Declaration.Walk.sources, List.filterMap_append, List.filterMap_cons, hs,
        List.filterMap_nil]
    rw [hsources]
    exact invoke_layers setting resolve owner _ s e

/-- The nodes of an accepted tree reach and mean what the tree itself does. -/
theorem ofDeclarations_preserves_meaning {tree : Declarations} {nodes : Dict Node}
    (h : ofDeclarations owner tree = .ok nodes) (name : String) (rest : List String) :
    ((((nodes.get? name).bind fun node => node.descend? rest).isSome ↔
        (tree.walk? name rest).isSome)) ∧
      ∀ w node, tree.walk? name rest = some w →
        ((nodes.get? name).bind fun node => node.descend? rest) = some node →
          node.Means owner w := by
  rw [Declarations.walk?]
  rcases get?_ofDeclarations h name with ⟨hd, hn⟩ | ⟨d, node, hd, hok, hn⟩
  · rw [hd, hn]
    exact ⟨Iff.rfl, fun w node hw => by cases hw⟩
  · rw [hd, hn, Option.bind_some, Option.bind_some]
    rcases descend?_ofDeclaration hok rest with ⟨hw, hn'⟩ | ⟨w, path, below, hw, hok', hn'⟩
    · rw [hw, hn']
      exact ⟨Iff.rfl, fun w node hw => by cases hw⟩
    · rw [hw, hn']
      refine ⟨by simp, fun w' node' he he' => ?_⟩
      cases he
      cases he'
      exact means_onBases hok'

/-- A title below two groups; the base of the inner one is itself a group around a body. -/
def titleBelowTwoBases : Declarations :=
  Dict.singleton "card" (.group [
    ("attributes", .attributes (Dict.singleton "width" (.integer 1))),
    ("header", .group [
      ("attributes", .group [("attributes", .body (Body.ofSteps [.inclusion "base"]))]),
      ("title", .attributes (Dict.singleton "width" (.integer 2)))])])

theorem title_below_two_bases :
    ∃ nodes w node, ofDeclarations Handle.root titleBelowTwoBases = .ok nodes ∧
      titleBelowTwoBases.walk? "card" ["header", "title"] = some w ∧
      ((nodes.get? "card").bind fun node => node.descend? ["header", "title"]) = some node ∧
      w.sources = [.mapping (Dict.singleton "width" (.integer 1)),
        .body (Body.ofSteps [.inclusion "base"]), .mapping (Dict.singleton "width" (.integer 2))] ∧
      node.Means Handle.root w := by
  have hok : ofDeclarations Handle.root titleBelowTwoBases = .ok _ := rfl
  have hw : titleBelowTwoBases.walk? "card" ["header", "title"] = some _ := rfl
  exact ⟨_, _, _, hok, hw, rfl, rfl,
    (ofDeclarations_preserves_meaning hok "card" ["header", "title"]).2 _ _ hw rfl⟩

end Node

end Stylebook
