import Stylebook.Proofs.Registry.Operations

namespace Stylebook.Registry

variable {r : Registry} {handle : Handle} {scope : Scope} {index : Nat}

theorem chain_of_dead (h : r.scope? handle = none) (fuel : Nat) : r.chain fuel handle = [] := by
  cases fuel with
  | zero => rfl
  | succ fuel => simp only [chain, h]

theorem WellFormed.chain_root (h : r.WellFormed) (fuel : Nat) :
    r.chain (fuel + 1) Handle.root = [r.root] := by
  simp only [chain, r.scope?_root, h.root_scope.2]

theorem WellFormed.chain_handleAt (h : r.WellFormed) (hi : r.namespaces[index]? = some scope)
    (fuel : Nat) : r.chain (fuel + 2) (r.handleAt index) = [scope, r.root] := by
  have hs : r.scope? (r.handleAt index) = some scope := (r.scope?_handleAt index).trans hi
  obtain ⟨hparent, _⟩ := h.namespace_scope index scope hi
  rw [chain]
  simp only [hs, hparent, h.chain_root]

theorem ancestors_of_dead (h : r.scope? handle = none) : r.ancestors handle = [] :=
  chain_of_dead h _

theorem WellFormed.ancestors_root (h : r.WellFormed) : r.ancestors Handle.root = [r.root] :=
  h.chain_root _

theorem WellFormed.ancestors_handleAt (h : r.WellFormed)
    (hi : r.namespaces[index]? = some scope) :
    r.ancestors (r.handleAt index) = [scope, r.root] := by
  have hlt : index < r.namespaces.length := (List.getElem?_eq_some_iff.1 hi).1
  obtain ⟨n, hn⟩ : ∃ n, r.namespaces.length = n + 1 := ⟨r.namespaces.length - 1, by omega⟩
  rw [ancestors, hn]
  exact h.chain_handleAt hi n

theorem WellFormed.chain_eq_ancestors (h : r.WellFormed) (handle : Handle) (fuel : Nat) :
    r.chain (fuel + 2) handle = r.ancestors handle := by
  cases hs : r.scope? handle with
  | none => rw [chain_of_dead hs, ancestors_of_dead hs]
  | some scope =>
    rcases scope?_eq_some hs with ⟨rfl, _⟩ | ⟨index, rfl, hi⟩
    · rw [h.chain_root, h.ancestors_root]
    · rw [h.chain_handleAt hi, h.ancestors_handleAt hi]

theorem WellFormed.handle?_iff (h : r.WellFormed) (name : String) (handle : Handle) :
    r.handle? name = some handle ↔ ∃ index scope, r.namespaces[index]? = some scope ∧
      scope.name = some name ∧ handle = r.handleAt index := by
  constructor
  · intro hn
    obtain ⟨index, scope, rfl, hi, hname⟩ := h.named name handle hn
    exact ⟨index, scope, hi, hname, rfl⟩
  · rintro ⟨index, scope, hi, hname, rfl⟩
    obtain ⟨_, own, hown, hhandle⟩ := h.namespace_scope index scope hi
    rw [hname] at hown
    cases hown
    exact hhandle

theorem handleAt_injective (r : Registry) {i j : Nat} (h : r.handleAt i = r.handleAt j) : i = j :=
  Nat.succ.inj (congrArg Handle.slot h)

theorem WellFormed.names_nodup (h : r.WellFormed) : (r.namespaces.map Scope.name).Nodup := by
  apply List.pairwise_iff_getElem.2
  intro i j hi hj hlt hname
  rw [List.length_map] at hi hj
  rw [List.getElem_map, List.getElem_map] at hname
  obtain ⟨_, name, hiname, hihandle⟩ :=
    h.namespace_scope i _ (List.getElem?_eq_getElem hi)
  obtain ⟨_, name', hjname, hjhandle⟩ :=
    h.namespace_scope j _ (List.getElem?_eq_getElem hj)
  -- one name leads to one handle, and handles of different slots differ
  rw [hiname, hjname] at hname
  cases hname
  rw [hihandle] at hjhandle
  have hij := r.handleAt_injective (Option.some.inj hjhandle)
  omega

theorem WellFormed.names_perm (h : r.WellFormed) :
    (r.names.keys.map some).Perm (r.namespaces.map Scope.name) := by
  have hsome : (r.names.keys.map some).Nodup :=
    List.pairwise_map.2 (r.names.nodup_keys.imp fun hne he => hne (Option.some.inj he))
  refine (List.perm_ext_iff_of_nodup hsome h.names_nodup).2 ?_
  intro entry
  rw [List.mem_map, List.mem_map]
  constructor
  · rintro ⟨name, hname, rfl⟩
    obtain ⟨handle, hn⟩ := (r.names.mem_keys_iff name).1 hname
    obtain ⟨index, scope, _, hi, hown⟩ := h.named name handle hn
    exact ⟨scope, List.mem_of_getElem? hi, hown⟩
  · rintro ⟨scope, hscope, rfl⟩
    obtain ⟨index, hi⟩ := List.mem_iff_getElem?.1 hscope
    obtain ⟨_, name, hname, hhandle⟩ := h.namespace_scope index scope hi
    exact ⟨name, (r.names.mem_keys_iff name).2 ⟨_, hhandle⟩, hname.symm⟩

/-- The slots that are read to locate a path and to name what is found there. -/
inductive ReadsSlot (r : Registry) (path : Path) (start : Handle) : Nat → Prop
  | root : ReadsSlot r path start Handle.root.slot
  | other {other : Handle} (named : r.otherNamespace? path start = some other) :
      ReadsSlot r path start other.slot
  | owner {found : Located} (present : r.locate path start = .ok found) :
      ReadsSlot r path start found.owner.slot

theorem scopeAt?_slot (h : r.scope? handle = some scope) : r.scopeAt? handle.slot = some scope := by
  rcases scope?_eq_some h with ⟨rfl, rfl⟩ | ⟨index, rfl, hi⟩
  · rfl
  · exact hi

theorem WellFormed.scopeAt?_of_readsSlot (h : r.WellFormed) {path : Path} {start : Handle}
    {slot : Nat} (hslot : r.ReadsSlot path start slot) : (r.scopeAt? slot).isSome = true := by
  cases hslot with
  | root => rfl
  | other named =>
    obtain ⟨hn, _⟩ := Option.filter_eq_some_iff.1 named
    obtain ⟨index, scope, rfl, hi, _⟩ := h.named path.head _ hn
    exact Option.isSome_iff_exists.2 ⟨scope, hi⟩
  | owner present =>
    obtain ⟨scope, _, _, hs, _⟩ := locate_eq_ok present
    exact Option.isSome_iff_exists.2 ⟨scope, scopeAt?_slot hs⟩

/-- Scopes, names, slots and the owners of bodies are in step. -/
structure Coherent (r : Registry) : Prop where
  nameless : ∀ slot scope, r.scopeAt? slot = some scope → (scope.name = none ↔ slot = 0)
  parentless : ∀ slot scope, r.scopeAt? slot = some scope → (scope.parent = none ↔ slot = 0)
  parents : ∀ slot scope, slot ≠ 0 → r.scopeAt? slot = some scope →
    scope.parent = some Handle.root
  handles : ∀ name handle, r.handle? name = some handle ↔
    ∃ index scope, r.namespaces[index]? = some scope ∧ scope.name = some name ∧
      handle = r.handleAt index
  names : (r.names.keys.map some).Perm (r.namespaces.map Scope.name)
  names_nodup : (r.namespaces.map Scope.name).Nodup
  owners : ∀ handle scope, r.scope? handle = some scope →
    ∀ entry ∈ scope.bodies, entry.1 = handle
  ancestors_root : r.ancestors Handle.root = [r.root]
  ancestors_namespace : ∀ index scope, r.namespaces[index]? = some scope →
    r.ancestors (r.handleAt index) = [scope, r.root]
  ancestors_end : ∀ handle fuel, r.chain (fuel + 2) handle = r.ancestors handle
  slots_read : ∀ path start slot, r.ReadsSlot path start slot → (r.scopeAt? slot).isSome = true
  slots_changed : ∀ ns, ((r.ensure ns).scopeAt? (r.handleFor ns).slot).isSome = true

theorem WellFormed.name_and_parent (h : r.WellFormed) {slot : Nat}
    (hs : r.scopeAt? slot = some scope) :
    (slot = 0 ∧ scope.name = none ∧ scope.parent = none) ∨
      (slot ≠ 0 ∧ scope.name ≠ none ∧ scope.parent = some Handle.root) := by
  cases slot with
  | zero =>
    cases hs
    exact .inl ⟨rfl, h.root_scope⟩
  | succ index =>
    obtain ⟨hparent, name, hname, _⟩ := h.namespace_scope index scope hs
    refine .inr ⟨Nat.succ_ne_zero index, ?_, hparent⟩
    rw [hname]
    exact Option.some_ne_none name

theorem WellFormed.coherent (h : r.WellFormed) : r.Coherent where
  nameless := by
    intro slot scope hs
    rcases h.name_and_parent hs with ⟨hslot, hname, _⟩ | ⟨hslot, hname, _⟩
    · exact iff_of_true hname hslot
    · exact iff_of_false hname hslot
  parentless := by
    intro slot scope hs
    rcases h.name_and_parent hs with ⟨hslot, _, hparent⟩ | ⟨hslot, _, hparent⟩
    · exact iff_of_true hparent hslot
    · rw [hparent]
      exact iff_of_false (Option.some_ne_none _) hslot
  parents := by
    intro slot scope hslot hs
    rcases h.name_and_parent hs with ⟨hzero, _⟩ | ⟨_, _, hparent⟩
    · exact absurd hzero hslot
    · exact hparent
  handles := h.handle?_iff
  names := h.names_perm
  names_nodup := h.names_nodup
  owners := by
    intro handle scope hs entry hmem
    exact (h.owned handle scope hs).owner_eq hmem
  ancestors_root := h.ancestors_root
  ancestors_namespace := by
    intro index scope hi
    exact h.ancestors_handleAt hi
  ancestors_end := h.chain_eq_ancestors
  slots_read := by
    intro path start slot hslot
    exact h.scopeAt?_of_readsSlot hslot
  slots_changed := by
    intro ns
    obtain ⟨scope, hs⟩ := h.scope?_handleFor ns
    exact Option.isSome_iff_exists.2 ⟨scope, scopeAt?_slot hs⟩

/-- Whatever is done to a new registry, its scopes, names and bodies stay in step. -/
theorem performAll_coherent (options : Options) (operations : List Operation) :
    ((Registry.new options).performAll operations).Coherent := by
  have hreachable : ((Registry.new options).performAll operations).Reachable :=
    reachable_iff_performAll.2 ⟨options, operations, rfl⟩
  exact hreachable.wellFormed.coherent

end Stylebook.Registry
