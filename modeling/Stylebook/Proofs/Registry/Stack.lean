import Stylebook.Registry.Resolve

namespace Stylebook

namespace Node

mutual

def positions : Node → List (List String)
  | .leaf _ => [[]]
  | .group children => positionsAll children
  | .based _ children => [] :: positionsAll children

def positionsAll : List (String × Node) → List (List String)
  | [] => []
  | (name, child) :: rest => child.positions.map (name :: ·) ++ positionsAll rest

end

mutual

theorem length_positions : ∀ node : Node, node.positions.length = node.invokableCount
  | .leaf _ => rfl
  | .group children => length_positionsAll children
  | .based _ children => congrArg (· + 1) (length_positionsAll children)

theorem length_positionsAll : ∀ nodes : List (String × Node),
    (positionsAll nodes).length = invokableCountAll nodes
  | [] => rfl
  | (name, child) :: rest => by
    rw [positionsAll, invokableCountAll, List.length_append, List.length_map,
      length_positions child, length_positionsAll rest]

end

theorem mem_positionsAll {nodes : List (String × Node)} {name : String} {child : Node}
    {names : List String} (h : nodes.lookup name = some child) (hn : names ∈ child.positions) :
    name :: names ∈ positionsAll nodes := by
  induction nodes with
  | nil => cases h
  | cons first rest ih =>
    obtain ⟨key, node⟩ := first
    rw [lookup_entry] at h
    rw [positionsAll]
    by_cases he : name = key
    · rw [if_pos he] at h
      cases h
      subst he
      exact List.mem_append_left _ (List.mem_map_of_mem hn)
    · rw [if_neg he] at h
      exact List.mem_append_right _ (ih h)

theorem mem_positions {node below : Node} {names : List String} {recipe : Recipe}
    (h : node.descend? names = some below) (hr : below.recipe? = some recipe) :
    names ∈ node.positions := by
  induction names generalizing node with
  | nil =>
    cases h
    cases below with
    | leaf own => exact List.mem_singleton_self _
    | group children => cases hr
    | based base children => exact List.mem_cons_self
  | cons name rest ih =>
    rw [descend?] at h
    obtain ⟨child, hc, hd⟩ := Option.bind_eq_some_iff.1 h
    have hmem := mem_positionsAll hc (ih hd)
    cases node with
    | leaf own => cases hc
    | group children => exact hmem
    | based base children => exact List.mem_cons_of_mem _ hmem

end Node

def Scope.positions (s : Scope) : List (List String) := Node.positionsAll s.declarations.entries

theorem Scope.length_positions (s : Scope) : s.positions.length = s.invokableCount :=
  Node.length_positionsAll _

theorem Scope.mem_positions {s : Scope} {path : Path} {node : Node} {recipe : Recipe}
    (h : s.find? path = some node) (hr : node.recipe? = some recipe) :
    path.segments ∈ s.positions := by
  obtain ⟨top, ht, hd⟩ := Option.bind_eq_some_iff.1 h
  exact Node.mem_positionsAll ht (Node.mem_positions hd hr)

namespace Registry

variable {r : Registry} {active : List Located} {found : Located}

/-- What tells declarations apart: the owner and the key. -/
def keysIn (owner : Handle) (scope : Scope) : List (Handle × String) :=
  scope.positions.map fun segments => (owner, ".".intercalate segments)

def keysFrom (r : Registry) : Nat → List Scope → List (Handle × String)
  | _, [] => []
  | index, scope :: rest => keysIn (r.handleAt index) scope ++ r.keysFrom (index + 1) rest

def keys (r : Registry) : List (Handle × String) :=
  keysIn Handle.root r.root ++ r.keysFrom 0 r.namespaces

theorem length_keysIn (owner : Handle) (scope : Scope) :
    (keysIn owner scope).length = scope.invokableCount := by
  rw [keysIn, List.length_map, scope.length_positions]

theorem foldl_invokableCount (r : Registry) (index count : Nat) (scopes : List Scope) :
    scopes.foldl (fun count scope => count + scope.invokableCount) count =
      count + (r.keysFrom index scopes).length := by
  induction scopes generalizing index count with
  | nil => rfl
  | cons scope rest ih =>
    rw [List.foldl_cons, ih (index + 1), keysFrom, List.length_append, length_keysIn]
    omega

theorem length_keys (r : Registry) : r.keys.length = r.invokableCount := by
  rw [keys, List.length_append, length_keysIn, invokableCount, foldl_invokableCount r 0]

theorem keysIn_subset_keysFrom {scopes : List Scope} {index offset : Nat} {scope : Scope}
    (h : scopes[offset]? = some scope) :
    keysIn (r.handleAt (index + offset)) scope ⊆ r.keysFrom index scopes := by
  induction scopes generalizing index offset with
  | nil => cases h
  | cons first rest ih =>
    rw [keysFrom]
    cases offset with
    | zero =>
      cases h
      exact List.subset_append_left _ _
    | succ offset =>
      have hsub : keysIn (r.handleAt (index + 1 + offset)) scope ⊆ r.keysFrom (index + 1) rest :=
        ih h
      rw [Nat.add_right_comm, Nat.add_assoc] at hsub
      exact List.Subset.trans hsub (List.subset_append_right _ _)

theorem keysIn_subset_keys {owner : Handle} {scope : Scope} (h : r.scope? owner = some scope) :
    keysIn owner scope ⊆ r.keys := by
  rcases scope?_eq_some h with ⟨rfl, rfl⟩ | ⟨index, rfl, hi⟩
  · exact List.subset_append_left _ _
  · have hsub : keysIn (r.handleAt (0 + index)) scope ⊆ r.keysFrom 0 r.namespaces :=
      keysIn_subset_keysFrom hi
    rw [Nat.zero_add] at hsub
    exact List.Subset.trans hsub (List.subset_append_right _ _)

theorem mem_keys_of_locate {path : Path} {start : Handle} (h : r.locate path start = .ok found) :
    (found.owner, found.key) ∈ r.keys := by
  obtain ⟨scope, inner, node, hs, hn, hr, hk⟩ := locate_eq_ok h
  rw [hk]
  exact keysIn_subset_keys hs (List.mem_map_of_mem (Scope.mem_positions hn hr))

/-- Different declarations of the registry, as they can be in progress at once. -/
structure IsStack (r : Registry) (active : List Located) : Prop where
  distinct : active.Pairwise fun a b => ¬ (a.owner = b.owner ∧ a.key = b.key)
  declared : ∀ found ∈ active, (found.owner, found.key) ∈ r.keys

theorem isStack_nil (r : Registry) : r.IsStack [] :=
  ⟨List.Pairwise.nil, fun _ h => by cases h⟩

theorem IsStack.push {e : Evaluation} (h : r.IsStack e.active) {path : Path} {start : Handle}
    (hfound : r.locate path start = .ok found) (hidle : ¬ e.isActive found = true) :
    r.IsStack (e.push found).active := by
  rw [Evaluation.push_active]
  constructor
  · apply List.pairwise_append.2
    refine ⟨h.distinct, List.pairwise_singleton _ _, ?_⟩
    intro a ha b hb hsame
    cases List.mem_singleton.1 hb
    exact hidle (Evaluation.isActive_iff.2 ⟨a, ha, hsame⟩)
  · intro a ha
    rcases List.mem_append.1 ha with ha | ha
    · exact h.declared a ha
    · cases List.mem_singleton.1 ha
      exact mem_keys_of_locate hfound

theorem IsStack.length_le (h : r.IsStack active) : active.length ≤ r.invokableCount := by
  let keys := active.map fun a => (a.owner, a.key)
  have hnodup : keys.Nodup := by
    apply List.pairwise_map.2
    exact h.distinct.imp fun hab he => hab (Prod.mk.inj he)
  have hsub : keys ⊆ r.keys := by
    intro key hkey
    obtain ⟨a, ha, rfl⟩ := List.mem_map.1 hkey
    exact h.declared a ha
  have hlen := hnodup.length_le_of_subset hsub
  rwa [List.length_map, length_keys] at hlen

end Registry

end Stylebook
