import Stylebook.Session
import Stylebook.Proofs.Query.Evaluation
import Stylebook.Proofs.Registry.Ownership

namespace Stylebook.Registry

inductive Reachable : Registry → Prop
  | new (options : Options) : Reachable (Registry.new options)
  | change {r r' : Registry} {ns : Option String} {change : Change} {handle : Handle}
      (before : Reachable r) (applied : r.apply ns change = .ok (handle, r')) : Reachable r'
  | reset {r : Registry} (before : Reachable r) : Reachable r.reset
  | expand {r : Registry} (before : Reachable r) (text : String) : Reachable (r.expand text).2
  | paths {r : Registry} (before : Reachable r) (q : Query) : Reachable (q.paths r).2
  | resolve {r : Registry} (before : Reachable r) (q : Query) : Reachable (q.resolve r).2

/-- The scopes and the names of a registry tell one story, and every scope owns the bodies in it. -/
structure WellFormed (r : Registry) : Prop where
  root_scope : r.root.name = none ∧ r.root.parent = none
  namespace_scope : ∀ index scope, r.namespaces[index]? = some scope →
    scope.parent = some Handle.root ∧
      ∃ name, scope.name = some name ∧ r.handle? name = some (r.handleAt index)
  named : ∀ name handle, r.handle? name = some handle →
    ∃ index scope, handle = r.handleAt index ∧ r.namespaces[index]? = some scope ∧
      scope.name = some name
  owned : ∀ handle scope, r.scope? handle = some scope → scope.OwnedBy handle
  sound : r.memo.Sound

variable {r r' : Registry} {handle : Handle} {scope : Scope} {ns : Option String}

theorem scope_ownedBy_of_empty (hs : scope.declarations = ∅) (owner : Handle) :
    scope.OwnedBy owner := by
  intro name node h
  rw [hs] at h
  cases h

theorem wellFormed_of_empty (options : Options) (epoch : Nat) {memo : Memo}
    (hm : memo.stored = ∅) : WellFormed ⟨options, epoch, Scope.root, [], ∅, memo⟩ where
  root_scope := ⟨rfl, rfl⟩
  namespace_scope := fun index scope h => by cases h
  named := fun name handle h => by cases h
  owned := fun handle scope h => by
    rcases scope?_eq_some h with ⟨rfl, rfl⟩ | ⟨index, rfl, hi⟩
    · exact scope_ownedBy_of_empty rfl _
    · cases hi
  sound := Memo.sound_of_empty hm

theorem WellFormed.withMemo (h : r.WellFormed) {m : Memo} (hm : m.Sound) :
    WellFormed { r with memo := m } where
  root_scope := h.root_scope
  namespace_scope := h.namespace_scope
  named := h.named
  owned := h.owned
  sound := hm

theorem ensure_of_new {name : String} (hnew : r.handle? name = none) :
    r.ensure (some name) =
      { r with
        namespaces := r.namespaces ++ [Scope.ofNamespace name]
        names := r.names.insert name r.nextHandle } := by
  simp only [ensure, hnew]

theorem getElem?_newScope {scopes : List Scope} {added : Scope} {index : Nat}
    (h : (scopes ++ [added])[index]? = some scope) :
    scopes[index]? = some scope ∨ (index = scopes.length ∧ scope = added) := by
  rcases Nat.lt_trichotomy index scopes.length with hlt | rfl | hgt
  · exact .inl ((List.getElem?_append_left hlt).symm.trans h)
  · rw [List.getElem?_concat_length] at h
    exact .inr ⟨rfl, (Option.some.inj h).symm⟩
  · rw [List.getElem?_eq_none (by simp; omega)] at h
    cases h

theorem WellFormed.addNamespace (h : r.WellFormed) {name : String}
    (hnew : r.handle? name = none) :
    WellFormed
      { r with
        namespaces := r.namespaces ++ [Scope.ofNamespace name]
        names := r.names.insert name r.nextHandle } where
  root_scope := h.root_scope
  namespace_scope := by
    intro index scope hi
    rcases getElem?_newScope hi with hi | ⟨rfl, rfl⟩
    · obtain ⟨hparent, own, hown, hhandle⟩ := h.namespace_scope index scope hi
      refine ⟨hparent, own, hown, ?_⟩
      have hne : own ≠ name := by
        rintro rfl
        rw [hhandle] at hnew
        cases hnew
      exact (Dict.get?_insert _ _ _ _).trans ((if_neg hne).trans hhandle)
    · exact ⟨rfl, name, rfl, (Dict.get?_insert _ _ _ _).trans (if_pos rfl)⟩
  named := by
    intro own handle hh
    change (r.names.insert name r.nextHandle).get? own = some handle at hh
    rw [Dict.get?_insert] at hh
    by_cases he : own = name
    · rw [if_pos he] at hh
      cases hh
      exact ⟨r.namespaces.length, Scope.ofNamespace name, rfl, by simp, by rw [he]; rfl⟩
    · rw [if_neg he] at hh
      obtain ⟨index, scope, hhandle, hi, hname⟩ := h.named own handle hh
      refine ⟨index, scope, hhandle, ?_, hname⟩
      have hlt := (List.getElem?_eq_some_iff.1 hi).1
      exact (List.getElem?_append_left hlt).trans hi
  owned := by
    intro handle scope hs
    rcases scope?_eq_some hs with ⟨rfl, rfl⟩ | ⟨index, rfl, hi⟩
    · exact h.owned Handle.root r.root rfl
    · rcases getElem?_newScope hi with hi | ⟨rfl, rfl⟩
      · exact h.owned (r.handleAt index) scope ((r.scope?_handleAt index).trans hi)
      · exact scope_ownedBy_of_empty rfl _
  sound := h.sound

theorem WellFormed.ensure (h : r.WellFormed) (ns : Option String) : (r.ensure ns).WellFormed := by
  cases ns with
  | none => exact h
  | some name =>
    cases hn : r.handle? name with
    | some handle => simp only [Registry.ensure, hn]; exact h
    | none =>
      rw [ensure_of_new hn]
      exact h.addNamespace hn

theorem WellFormed.scope?_handleFor (h : r.WellFormed) (ns : Option String) :
    ∃ scope, (r.ensure ns).scope? (r.handleFor ns) = some scope := by
  cases ns with
  | none => exact ⟨r.root, rfl⟩
  | some name =>
    cases hn : r.handle? name with
    | some handle =>
      obtain ⟨index, scope, rfl, hi, _⟩ := h.named name handle hn
      simp only [Registry.ensure, handleFor, hn, Option.getD_some]
      exact ⟨scope, (r.scope?_handleAt index).trans hi⟩
    | none =>
      rw [ensure_of_new hn, handleFor, hn, Option.getD_none]
      refine ⟨Scope.ofNamespace name, (scope?_handleAt _ r.namespaces.length).trans ?_⟩
      simp

/-- A change that leaves the name and the parent of a scope alone, and its bodies to the owner. -/
structure Keeps (change : Scope → Scope) (owner : Handle) : Prop where
  name : ∀ s, (change s).name = s.name
  parent : ∀ s, (change s).parent = s.parent
  owned : ∀ s : Scope, s.OwnedBy owner → (change s).OwnedBy owner

theorem WellFormed.modifyRoot (h : r.WellFormed) {change : Scope → Scope}
    (hkeep : Keeps change Handle.root) : WellFormed { r with root := change r.root } where
  root_scope := ⟨(hkeep.name _).trans h.root_scope.1, (hkeep.parent _).trans h.root_scope.2⟩
  namespace_scope := h.namespace_scope
  named := h.named
  owned := by
    intro handle scope hs
    rcases scope?_eq_some hs with ⟨rfl, rfl⟩ | ⟨index, rfl, hi⟩
    · exact hkeep.owned _ (h.owned Handle.root r.root rfl)
    · exact h.owned (r.handleAt index) scope ((r.scope?_handleAt index).trans hi)
  sound := h.sound

theorem getElem?_modify_eq_some {scopes : List Scope} {change : Scope → Scope} {at_ index : Nat}
    (h : (scopes.modify at_ change)[index]? = some scope) :
    ∃ s, scopes[index]? = some s ∧ scope = if at_ = index then change s else s := by
  rw [List.getElem?_modify, Option.map_eq_map, Option.map_eq_some_iff] at h
  obtain ⟨s, hs, he⟩ := h
  exact ⟨s, hs, he.symm⟩

theorem WellFormed.modifyNamespace (h : r.WellFormed) {change : Scope → Scope} {slot : Nat}
    (hkeep : Keeps change (r.handleAt slot)) :
    WellFormed { r with namespaces := r.namespaces.modify slot change } where
  root_scope := h.root_scope
  namespace_scope := by
    intro index scope hi
    obtain ⟨s, hs, rfl⟩ := getElem?_modify_eq_some hi
    obtain ⟨hparent, name, hname, hhandle⟩ := h.namespace_scope index s hs
    by_cases he : slot = index
    · rw [if_pos he]
      exact ⟨(hkeep.parent s).trans hparent, name, (hkeep.name s).trans hname, hhandle⟩
    · rw [if_neg he]
      exact ⟨hparent, name, hname, hhandle⟩
  named := by
    intro name handle hh
    obtain ⟨index, scope, hhandle, hi, hname⟩ := h.named name handle hh
    refine ⟨index, if slot = index then change scope else scope, hhandle, ?_, ?_⟩
    · exact (List.getElem?_modify ..).trans (by rw [hi]; rfl)
    · by_cases he : slot = index
      · rw [if_pos he]
        exact (hkeep.name scope).trans hname
      · rw [if_neg he]
        exact hname
  owned := by
    intro handle scope hs
    rcases scope?_eq_some hs with ⟨rfl, rfl⟩ | ⟨index, rfl, hi⟩
    · exact h.owned Handle.root r.root rfl
    · obtain ⟨s, hbefore, rfl⟩ := getElem?_modify_eq_some hi
      have hown := h.owned (r.handleAt index) s ((r.scope?_handleAt index).trans hbefore)
      by_cases he : slot = index
      · subst he
        rw [if_pos rfl]
        exact hkeep.owned s hown
      · rw [if_neg he]
        exact hown
  sound := h.sound

theorem WellFormed.modifyScope (h : r.WellFormed) (ns : Option String) {change : Scope → Scope}
    (hkeep : Keeps change (r.handleFor ns)) : (r.modifyScope ns change).2.WellFormed := by
  obtain ⟨scope, hs⟩ := h.scope?_handleFor ns
  change ((r.ensure ns).modifyAt change (r.handleFor ns).slot).WellFormed
  rcases scope?_eq_some hs with ⟨he, _⟩ | ⟨index, he, _⟩
  · rw [he] at hkeep ⊢
    exact (h.ensure ns).modifyRoot hkeep
  · rw [he] at hkeep ⊢
    exact (h.ensure ns).modifyNamespace hkeep

theorem register_eq_ok {tree : Declarations} (h : r.register ns tree = .ok (handle, r')) :
    ∃ nodes, Node.ofDeclarations (r.handleFor ns) tree = .ok nodes ∧
      r.modifyScope ns (fun scope => scope.declare nodes) = (handle, r') := by
  rw [register] at h
  cases hn : Node.ofDeclarations (r.handleFor ns) tree with
  | error fault => rw [hn] at h; cases h
  | ok nodes => rw [hn] at h; cases h; exact ⟨nodes, rfl, rfl⟩

theorem WellFormed.register (h : r.WellFormed) {tree : Declarations}
    (hok : r.register ns tree = .ok (handle, r')) : r'.WellFormed := by
  obtain ⟨nodes, hn, he⟩ := register_eq_ok hok
  have hkeep : Keeps (fun scope => scope.declare nodes) (r.handleFor ns) :=
    ⟨fun _ => rfl, fun _ => rfl, fun _ hs => hs.declare hn⟩
  have hkept := h.modifyScope ns hkeep
  rw [he] at hkept
  exact hkept

theorem WellFormed.apply (h : r.WellFormed) {change : Change}
    (hok : r.apply ns change = .ok (handle, r')) : r'.WellFormed := by
  cases change with
  | register tree => exact h.register hok
  | registerSketches sketches => exact h.register hok
  | defineVariables vars =>
    cases hok
    have hkeep : Keeps (fun scope => scope.define vars) (r.handleFor ns) :=
      ⟨fun _ => rfl, fun _ => rfl, fun _ hs => hs⟩
    exact h.modifyScope ns hkeep
  | defineMixin name mixin =>
    cases hok
    have hkeep : Keeps (fun scope => scope.defineMixin name mixin) (r.handleFor ns) :=
      ⟨fun _ => rfl, fun _ => rfl, fun _ hs => hs⟩
    exact h.modifyScope ns hkeep

theorem WellFormed.resolve (h : r.WellFormed) (q : Query) : (q.resolve r).2.WellFormed := by
  have hmerged := Resolving.mergeAll_eq_mergeAnswers q.resolver_alike (q.paths r).1
    (q.evaluation_alike h.sound)
  rw [Query.resolve_eq_conclude]
  exact h.withMemo hmerged.2.sound

theorem Reachable.wellFormed (h : r.Reachable) : r.WellFormed := by
  induction h with
  | new options => exact wellFormed_of_empty options 0 rfl
  | change before applied ih => exact ih.apply applied
  | @reset r before ih => exact wellFormed_of_empty r.options (r.epoch + 1) rfl
  | expand before text ih => exact ih.withMemo (ih.sound.expand text)
  | paths before q ih => exact ih.withMemo (ih.sound.expandAll q.selector.parts).2
  | resolve before q ih => exact ih.resolve q

theorem WellFormed.ownedBy_of_locate (h : r.WellFormed) {path : Path} {start : Handle}
    {found : Located} (hl : r.locate path start = .ok found) :
    found.recipe.OwnedBy found.owner := by
  obtain ⟨scope, inner, node, hs, hn, hr, _⟩ := locate_eq_ok hl
  exact ((h.owned found.owner scope hs).find? hn).recipe? hr

theorem reachable_sampleRegistry : Query.sampleRegistry.Reachable := by
  have happly : (Registry.new .default).apply none (.register Query.sampleTree) =
      .ok (Handle.root, Query.sampleRegistry) := rfl
  exact .change (.new .default) happly

end Stylebook.Registry
