import Stylebook.Registry
import Stylebook.Proofs.Body.Asking
import Stylebook.Proofs.Node.Meaning

namespace Stylebook

def Recipe.OwnedBy (owner : Handle) : Recipe → Prop
  | .fixed _ => True
  | .run own _ => own = owner
  | .layered base top => base.OwnedBy owner ∧ top.OwnedBy owner

theorem Recipe.Runs.owner_eq {setting : Setting} {resolve : Handle → Path → Resolving}
    {recipe : Recipe} {e : Evaluation} {owner runner : Handle} {program : Program Attributes}
    {p : Progress} (h : recipe.Runs setting resolve e runner program p)
    (ho : recipe.OwnedBy owner) : runner = owner := by
  induction h with
  | run reaches => exact ho
  | base runs ih => exact ih ho.1
  | top base_ok runs ih => exact ih ho.2

theorem Recipe.Asks.owner_eq {setting : Setting} {resolve : Handle → Path → Resolving}
    {recipe : Recipe} {e now : Evaluation} {owner asker : Handle} {path : Path}
    (h : recipe.Asks setting resolve e asker path now) (ho : recipe.OwnedBy owner) :
    asker = owner := by
  obtain ⟨selector, next, p, runs, _⟩ := h
  exact runs.owner_eq ho

/-- The bodies at any depth of a recipe, each with the scope on whose behalf it is run. -/
def Recipe.bodies : Recipe → List (Handle × Body)
  | .fixed _ => []
  | .run owner body => [(owner, body)]
  | .layered base top => base.bodies ++ top.bodies

theorem Recipe.OwnedBy.owner_eq {owner : Handle} {recipe : Recipe} (h : recipe.OwnedBy owner)
    {entry : Handle × Body} (hmem : entry ∈ recipe.bodies) : entry.1 = owner := by
  induction recipe with
  | fixed attributes => cases hmem
  | run own body => exact (List.mem_singleton.1 hmem) ▸ h
  | layered base top ihbase ihtop =>
    rcases List.mem_append.1 hmem with hmem | hmem
    · exact ihbase h.1 hmem
    · exact ihtop h.2 hmem

namespace Node

mutual

/-- All bodies of the tree run on behalf of the owner. -/
def OwnedBy (owner : Handle) : Node → Prop
  | .leaf recipe => recipe.OwnedBy owner
  | .group children => AllOwnedBy owner children
  | .based base children => base.OwnedBy owner ∧ AllOwnedBy owner children

def AllOwnedBy (owner : Handle) : List (String × Node) → Prop
  | [] => True
  | (_, child) :: rest => child.OwnedBy owner ∧ AllOwnedBy owner rest

end

variable {owner : Handle}

theorem AllOwnedBy.lookup {nodes : List (String × Node)} {name : String} {child : Node}
    (h : AllOwnedBy owner nodes) (hc : nodes.lookup name = some child) : child.OwnedBy owner := by
  induction nodes with
  | nil => cases hc
  | cons first rest ih =>
    obtain ⟨key, node⟩ := first
    rw [lookup_entry] at hc
    by_cases he : name = key
    · rw [if_pos he] at hc
      cases hc
      exact h.1
    · rw [if_neg he] at hc
      exact ih h.2 hc

theorem OwnedBy.descend? {node below : Node} {names : List String} (h : node.OwnedBy owner)
    (hd : node.descend? names = some below) : below.OwnedBy owner := by
  induction names generalizing node with
  | nil => cases hd; exact h
  | cons name rest ih =>
    rw [Node.descend?] at hd
    obtain ⟨child, hc, hbelow⟩ := Option.bind_eq_some_iff.1 hd
    cases node with
    | leaf recipe => cases hc
    | group children => exact ih (AllOwnedBy.lookup h hc) hbelow
    | based base children => exact ih (AllOwnedBy.lookup h.2 hc) hbelow

theorem OwnedBy.recipe? {node : Node} {recipe : Recipe} (h : node.OwnedBy owner)
    (hr : node.recipe? = some recipe) : recipe.OwnedBy owner := by
  cases node with
  | leaf own => cases hr; exact h
  | group children => cases hr
  | based base children => cases hr; exact h.1

mutual

/-- The bodies at any depth of a tree, those of the bases among them. -/
def bodies : Node → List (Handle × Body)
  | .leaf recipe => recipe.bodies
  | .group children => bodiesAll children
  | .based base children => base.bodies ++ bodiesAll children

def bodiesAll : List (String × Node) → List (Handle × Body)
  | [] => []
  | (_, child) :: rest => child.bodies ++ bodiesAll rest

end

mutual

theorem OwnedBy.owner_eq {entry : Handle × Body} : ∀ {node : Node}, node.OwnedBy owner →
    entry ∈ node.bodies → entry.1 = owner
  | .leaf recipe, h, hmem => Recipe.OwnedBy.owner_eq h hmem
  | .group children, h, hmem => AllOwnedBy.owner_eq h hmem
  | .based base children, h, hmem => by
    rw [bodies] at hmem
    rcases List.mem_append.1 hmem with hmem | hmem
    · exact Recipe.OwnedBy.owner_eq h.1 hmem
    · exact AllOwnedBy.owner_eq h.2 hmem

theorem AllOwnedBy.owner_eq {entry : Handle × Body} : ∀ {nodes : List (String × Node)},
    AllOwnedBy owner nodes → entry ∈ bodiesAll nodes → entry.1 = owner
  | [], _, hmem => by cases hmem
  | (_, child) :: rest, h, hmem => by
    rw [bodiesAll] at hmem
    rcases List.mem_append.1 hmem with hmem | hmem
    · exact OwnedBy.owner_eq h.1 hmem
    · exact AllOwnedBy.owner_eq h.2 hmem

end

theorem bodies_subset_bodiesAll {nodes : List (String × Node)} {name : String} {child : Node}
    (h : nodes.lookup name = some child) : child.bodies ⊆ bodiesAll nodes := by
  induction nodes with
  | nil => cases h
  | cons first rest ih =>
    obtain ⟨key, node⟩ := first
    rw [lookup_entry] at h
    rw [bodiesAll]
    by_cases he : name = key
    · rw [if_pos he] at h
      cases h
      exact List.subset_append_left _ _
    · rw [if_neg he] at h
      exact List.Subset.trans (ih h) (List.subset_append_right _ _)

theorem bodies_descend?_subset {node below : Node} {names : List String}
    (h : node.descend? names = some below) : below.bodies ⊆ node.bodies := by
  induction names generalizing node with
  | nil => cases h; exact List.Subset.refl _
  | cons name rest ih =>
    rw [Node.descend?] at h
    obtain ⟨child, hc, hbelow⟩ := Option.bind_eq_some_iff.1 h
    apply List.Subset.trans (ih hbelow)
    cases node with
    | leaf recipe => cases hc
    | group children => exact bodies_subset_bodiesAll hc
    | based base children =>
      exact List.Subset.trans (bodies_subset_bodiesAll hc) (List.subset_append_right _ _)

theorem bodies_recipe?_subset {node : Node} {recipe : Recipe} (h : node.recipe? = some recipe) :
    recipe.bodies ⊆ node.bodies := by
  cases node with
  | leaf own => cases h; exact List.Subset.refl _
  | group children => cases h
  | based base children => cases h; exact List.subset_append_left _ _

mutual

theorem OwnedBy.onBase {base : Recipe} (hb : base.OwnedBy owner) :
    ∀ node : Node, node.OwnedBy owner → (node.onBase base).OwnedBy owner
  | .leaf _, h => ⟨hb, h⟩
  | .group children, h => AllOwnedBy.onBaseAll hb children h
  | .based _ children, h => ⟨⟨hb, h.1⟩, AllOwnedBy.onBaseAll hb children h.2⟩

theorem AllOwnedBy.onBaseAll {base : Recipe} (hb : base.OwnedBy owner) :
    ∀ nodes : List (String × Node), AllOwnedBy owner nodes →
      AllOwnedBy owner (onBaseAll base nodes)
  | [], _ => trivial
  | (_, child) :: rest, h => ⟨OwnedBy.onBase hb child h.1, AllOwnedBy.onBaseAll hb rest h.2⟩

end

mutual

theorem ownedBy_ofDeclaration : ∀ {d : Declaration} {path : String} {node : Node},
    ofDeclaration owner path d = .ok node → node.OwnedBy owner
  | .attributes m, path, node, h => by cases h; trivial
  | .body b, path, node, h => by cases h; rfl
  | .value v, path, node, h => by cases h
  | .group children, path, node, h => by
    obtain ⟨nodes, hc, ⟨hb, rfl⟩ | ⟨base, hb, rfl⟩⟩ := ofDeclaration_group h
    · exact allOwnedBy_ofChildren hc
    · have hbase := ownedBy_baseOf hb
      exact ⟨hbase, AllOwnedBy.onBaseAll hbase nodes (allOwnedBy_ofChildren hc)⟩

theorem ownedBy_baseOf : ∀ {children : List (String × Declaration)} {path : String} {base : Recipe},
    baseOf owner path children = .ok (some base) → base.OwnedBy owner
  | [], path, base, h => by cases h
  | (name, child) :: rest, path, base, h => by
    by_cases hname : name = baseName
    · subst hname
      obtain ⟨node, recipe, hd, hr, he⟩ := baseOf_cons h
      cases he
      exact (ownedBy_ofDeclaration hd).recipe? hr
    · rw [baseOf, if_neg hname] at h
      exact ownedBy_baseOf h

theorem allOwnedBy_ofChildren : ∀ {children : List (String × Declaration)} {path : String}
    {nodes : List (String × Node)}, ofChildren owner path children = .ok nodes →
      AllOwnedBy owner nodes
  | [], path, nodes, h => by cases h; trivial
  | (name, child) :: rest, path, nodes, h => by
    by_cases hname : name = baseName
    · rw [ofChildren, if_pos hname] at h
      exact allOwnedBy_ofChildren h
    · obtain ⟨node, nodes', hd, hc, rfl⟩ := ofChildren_cons hname h
      exact ⟨ownedBy_ofDeclaration hd, allOwnedBy_ofChildren hc⟩

end

end Node

def Scope.OwnedBy (owner : Handle) (s : Scope) : Prop :=
  ∀ name node, s.declarations.get? name = some node → node.OwnedBy owner

theorem Scope.OwnedBy.find? {owner : Handle} {s : Scope} {path : Path} {node : Node}
    (h : s.OwnedBy owner) (hn : s.find? path = some node) : node.OwnedBy owner := by
  obtain ⟨top, ht, hd⟩ := Option.bind_eq_some_iff.1 hn
  exact (h path.head top ht).descend? hd

theorem Scope.OwnedBy.allOwnedBy {owner : Handle} {s : Scope} (h : s.OwnedBy owner) :
    Node.AllOwnedBy owner s.declarations.entries := by
  have hmem : ∀ e ∈ s.declarations.entries, e.2.OwnedBy owner := by
    intro e he
    exact h e.1 e.2 (s.declarations.ascending.lookup_of_mem he)
  generalize s.declarations.entries = entries at hmem
  induction entries with
  | nil => trivial
  | cons first rest ih =>
    refine ⟨hmem first List.mem_cons_self, ih ?_⟩
    intro e he
    exact hmem e (List.mem_cons_of_mem _ he)

def Scope.bodies (s : Scope) : List (Handle × Body) := Node.bodiesAll s.declarations.entries

theorem Scope.OwnedBy.owner_eq {owner : Handle} {s : Scope} (h : s.OwnedBy owner)
    {entry : Handle × Body} (hmem : entry ∈ s.bodies) : entry.1 = owner :=
  h.allOwnedBy.owner_eq hmem

theorem Scope.bodies_find?_subset {s : Scope} {path : Path} {node : Node} {recipe : Recipe}
    (hn : s.find? path = some node) (hr : node.recipe? = some recipe) :
    recipe.bodies ⊆ s.bodies := by
  obtain ⟨top, ht, hd⟩ := Option.bind_eq_some_iff.1 hn
  have htop : top.bodies ⊆ s.bodies := Node.bodies_subset_bodiesAll ht
  have hnode : node.bodies ⊆ s.bodies := List.Subset.trans (Node.bodies_descend?_subset hd) htop
  exact List.Subset.trans (Node.bodies_recipe?_subset hr) hnode

theorem Scope.OwnedBy.declare {owner : Handle} {s : Scope} {nodes : Dict Node}
    {tree : Declarations} (h : s.OwnedBy owner) (hok : Node.ofDeclarations owner tree = .ok nodes) :
    (s.declare nodes).OwnedBy owner := by
  intro name node hn
  rw [Scope.declare, Dict.get?_merge] at hn
  rcases Node.get?_ofDeclarations hok name with ⟨_, hnone⟩ | ⟨d, own, _, hd, hsome⟩
  · rw [hnone] at hn
    exact h name node hn
  · rw [hsome] at hn
    cases hn
    exact Node.ownedBy_ofDeclaration hd

end Stylebook
