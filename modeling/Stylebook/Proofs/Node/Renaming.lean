import Stylebook.Node.OfDeclaration

namespace Stylebook

/-- Other handles in the place of handles. Different ones stay different, and the root stays. -/
structure Renaming where
  handle : Handle → Handle
  injective : ∀ a b, handle a = handle b → a = b
  root : handle Handle.root = Handle.root

namespace Renaming

def refl : Renaming := ⟨fun h => h, fun _ _ h => h, rfl⟩

variable (ρ : Renaming)

theorem handle_inj {a b : Handle} : ρ.handle a = ρ.handle b ↔ a = b :=
  ⟨ρ.injective a b, congrArg ρ.handle⟩

theorem handle_beq (a b : Handle) : (ρ.handle a == ρ.handle b) = (a == b) := by
  rw [Bool.eq_iff_iff, beq_iff_eq, beq_iff_eq, ρ.handle_inj]

theorem handle_bne (a b : Handle) : (ρ.handle a != ρ.handle b) = (a != b) :=
  congrArg not (ρ.handle_beq a b)

theorem handle_eq_root_iff {h : Handle} : ρ.handle h = Handle.root ↔ h = Handle.root := by
  rw [← @handle_inj ρ h, ρ.root]

@[simp] theorem isRoot_handle (h : Handle) : (ρ.handle h).isRoot = h.isRoot := by
  rw [Bool.eq_iff_iff, Handle.isRoot_iff, Handle.isRoot_iff, ρ.handle_eq_root_iff]

end Renaming

namespace Recipe

def rename (ρ : Renaming) : Recipe → Recipe
  | .fixed attributes => .fixed attributes
  | .run owner body => .run (ρ.handle owner) body
  | .layered base top => .layered (base.rename ρ) (top.rename ρ)

@[simp] theorem rename_refl (recipe : Recipe) : recipe.rename .refl = recipe := by
  induction recipe with
  | fixed attributes => rfl
  | run owner body => rfl
  | layered base top ihbase ihtop => rw [rename, ihbase, ihtop]

end Recipe

namespace Node

mutual

def rename (ρ : Renaming) : Node → Node
  | .leaf recipe => .leaf (recipe.rename ρ)
  | .group children => .group (renameAll ρ children)
  | .based base children => .based (base.rename ρ) (renameAll ρ children)

def renameAll (ρ : Renaming) : List (String × Node) → List (String × Node)
  | [] => []
  | (name, child) :: rest => (name, child.rename ρ) :: renameAll ρ rest

end

mutual

@[simp] theorem rename_refl : ∀ node : Node, node.rename .refl = node
  | .leaf recipe => by rw [rename, Recipe.rename_refl]
  | .group children => by rw [rename, renameAll_refl children]
  | .based base children => by rw [rename, Recipe.rename_refl, renameAll_refl children]

@[simp] theorem renameAll_refl : ∀ nodes : List (String × Node), renameAll .refl nodes = nodes
  | [] => rfl
  | (name, child) :: rest => by rw [renameAll, rename_refl child, renameAll_refl rest]

end

variable (ρ : Renaming)

theorem renameAll_eq_map (nodes : List (String × Node)) :
    renameAll ρ nodes = nodes.map fun e => (e.1, e.2.rename ρ) := by
  induction nodes with
  | nil => rfl
  | cons first rest ih => rw [renameAll, ih, List.map_cons]

theorem recipe?_rename (node : Node) :
    (node.rename ρ).recipe? = node.recipe?.map (Recipe.rename ρ) := by
  cases node <;> rfl

theorem children_rename (node : Node) : (node.rename ρ).children = renameAll ρ node.children := by
  cases node <;> rfl

theorem child?_rename (node : Node) (name : String) :
    (node.rename ρ).child? name = (node.child? name).map (rename ρ) := by
  rw [child?, child?, children_rename, renameAll_eq_map, Dict.lookup_map]

theorem descend?_rename (node : Node) (names : List String) :
    (node.rename ρ).descend? names = (node.descend? names).map (rename ρ) := by
  induction names generalizing node with
  | nil => rfl
  | cons name rest ih =>
    rw [descend?, descend?, child?_rename]
    cases node.child? name with
    | none => rfl
    | some child => exact ih child

mutual

theorem rename_onBase (base : Recipe) :
    ∀ node : Node, (node.onBase base).rename ρ = (node.rename ρ).onBase (base.rename ρ)
  | .leaf recipe => rfl
  | .group children => by rw [onBase, rename, rename, onBase, renameAll_onBaseAll base children]
  | .based own children => by
    rw [onBase, rename, rename, onBase, renameAll_onBaseAll base children, Recipe.rename]

theorem renameAll_onBaseAll (base : Recipe) : ∀ nodes : List (String × Node),
    renameAll ρ (onBaseAll base nodes) = onBaseAll (base.rename ρ) (renameAll ρ nodes)
  | [] => rfl
  | (name, child) :: rest => by
    rw [onBaseAll, renameAll, renameAll, onBaseAll, rename_onBase base child,
      renameAll_onBaseAll base rest]

end

variable (owner : Handle)

mutual

/-- The owner of a tree shows in its bodies and nowhere else, also where the tree is refused. -/
theorem ofDeclaration_rename : ∀ (d : Declaration) (path : String),
    ofDeclaration (ρ.handle owner) path d = (ofDeclaration owner path d).map (rename ρ)
  | .attributes _, _ => rfl
  | .body _, _ => rfl
  | .value _, _ => rfl
  | .group children, path => by
    rw [ofDeclaration, ofDeclaration, baseOf_rename children, ofChildren_rename children]
    cases baseOf owner path children with
    | error fault => rfl
    | ok base? =>
      cases ofChildren owner path children with
      | error fault => cases base? <;> rfl
      | ok nodes =>
        cases base? with
        | none => rfl
        | some base =>
          have hnodes := renameAll_onBaseAll ρ base nodes
          exact congrArg (fun nodes => Except.ok (Node.based (base.rename ρ) nodes)) hnodes.symm

theorem baseOf_rename : ∀ (children : List (String × Declaration)) (path : String),
    baseOf (ρ.handle owner) path children =
      (baseOf owner path children).map (Option.map (Recipe.rename ρ))
  | [], _ => rfl
  | (name, child) :: rest, path => by
    rw [baseOf, baseOf]
    split
    · dsimp only
      rw [ofDeclaration_rename child]
      cases ofDeclaration owner (path ++ "." ++ baseName) child with
      | error fault => rfl
      | ok node => cases node <;> rfl
    · exact baseOf_rename rest path

theorem ofChildren_rename : ∀ (children : List (String × Declaration)) (path : String),
    ofChildren (ρ.handle owner) path children =
      (ofChildren owner path children).map (renameAll ρ)
  | [], _ => rfl
  | (name, child) :: rest, path => by
    rw [ofChildren, ofChildren]
    split
    · exact ofChildren_rename rest path
    · rw [ofDeclaration_rename child, ofChildren_rename rest path]
      cases ofDeclaration owner (path ++ "." ++ name) child with
      | error fault => rfl
      | ok node => cases ofChildren owner path rest <;> rfl

end

theorem ofEntries_rename (entries : List (String × Declaration)) :
    ofEntries (ρ.handle owner) entries = (ofEntries owner entries).map (renameAll ρ) := by
  induction entries with
  | nil => rfl
  | cons first rest ih =>
    rw [ofEntries, ofEntries, ofDeclaration_rename, ih]
    cases ofDeclaration owner first.1 first.2 with
    | error fault => rfl
    | ok node => cases ofEntries owner rest <;> rfl

theorem ofDeclarations_rename (tree : Declarations) :
    ofDeclarations (ρ.handle owner) tree =
      (ofDeclarations owner tree).map (Dict.map (rename ρ)) := by
  rw [ofDeclarations, ofDeclarations, ofEntries_rename]
  cases ofEntries owner tree.entries with
  | error fault => rfl
  | ok nodes =>
    have hnodes := Dict.map_ofList (rename ρ) nodes
    rw [← renameAll_eq_map] at hnodes
    exact congrArg Except.ok hnodes.symm

end Node

end Stylebook
