import Stylebook.Proofs.Registry.Handles

namespace Stylebook.Registry

variable {r : Registry} {ns : Option String} {name : String} {handle target : Handle}
  {scope : Scope}

theorem handleFor_of_some (h : r.handle? name = some handle) :
    r.handleFor (some name) = handle := by
  rw [handleFor, h, Option.getD_some]

theorem handleFor_of_none (h : r.handle? name = none) :
    r.handleFor (some name) = r.nextHandle := by
  rw [handleFor, h, Option.getD_none]

theorem scope?_nextHandle (r : Registry) : r.scope? r.nextHandle = none := by
  rw [nextHandle, scope?_handleAt]
  exact List.getElem?_eq_none (Nat.le_refl _)

theorem WellFormed.handleFor_ne_root (h : r.WellFormed) (name : String) :
    r.handleFor (some name) ≠ Handle.root := by
  intro he
  have hslot := congrArg Handle.slot he
  cases hn : r.handle? name with
  | some own =>
    obtain ⟨index, _, rfl, _⟩ := h.named name own hn
    rw [handleFor_of_some hn] at hslot
    exact Nat.succ_ne_zero index hslot
  | none =>
    rw [handleFor_of_none hn] at hslot
    exact Nat.succ_ne_zero r.namespaces.length hslot

theorem WellFormed.eq_of_handle?_handleFor (h : r.WellFormed)
    (hn : r.handle? name = some (r.handleFor ns)) : ns = some name := by
  obtain ⟨own, hown, hname⟩ := (h.denotes_iff _ name).2 hn
  cases ns with
  | none =>
    cases hown
    rw [h.root_scope.1] at hname
    cases hname
  | some name' =>
    cases hn' : r.handle? name' with
    | none =>
      rw [handleFor_of_none hn', r.scope?_nextHandle] at hown
      cases hown
    | some handle =>
      rw [handleFor_of_some hn'] at hown
      obtain ⟨own', hown', hname'⟩ := (h.denotes_iff handle name').2 hn'
      rw [hown] at hown'
      cases hown'
      rw [← hname, ← hname']

theorem eq_of_slot_eq {scope' : Scope} (h : r.scope? handle = some scope)
    (h' : r.scope? target = some scope') (hslot : handle.slot = target.slot) : handle = target := by
  rcases scope?_eq_some h with ⟨rfl, _⟩ | ⟨index, rfl, _⟩
  · rcases scope?_eq_some h' with ⟨rfl, _⟩ | ⟨index', rfl, _⟩
    · rfl
    · exact absurd hslot.symm (Nat.succ_ne_zero index')
  · rcases scope?_eq_some h' with ⟨rfl, _⟩ | ⟨index', rfl, _⟩
    · exact absurd hslot (Nat.succ_ne_zero index)
    · exact congrArg r.handleAt (Nat.succ.inj hslot)

theorem handle?_ensure_of_ne (h : ns ≠ some name) :
    (r.ensure ns).handle? name = r.handle? name := by
  cases ns with
  | none => rfl
  | some own =>
    cases hn : r.handle? own with
    | some handle => simp only [Registry.ensure, hn]
    | none =>
      have hne : name ≠ own := fun he => h (congrArg some he.symm)
      rw [ensure_of_new hn]
      exact (Dict.get?_insert _ _ _ _).trans (if_neg hne)

theorem scope?_ensure_nextHandle (h : r.handle? name = none) :
    (r.ensure (some name)).scope? r.nextHandle = some (Scope.ofNamespace name) := by
  rw [ensure_of_new h]
  exact (scope?_handleAt _ r.namespaces.length).trans List.getElem?_concat_length

theorem scope?_ensure_of_ne (r : Registry) (ns : Option String) (h : handle ≠ r.nextHandle) :
    (r.ensure ns).scope? handle = r.scope? handle := by
  cases ns with
  | none => rfl
  | some name =>
    cases hn : r.handle? name with
    | some own => simp only [Registry.ensure, hn]
    | none =>
      rw [ensure_of_new hn]
      by_cases hroot : handle = Handle.root
      · rw [hroot]
        rfl
      · by_cases hepoch : handle.epoch = r.epoch
        · obtain ⟨slot, epoch, root_epoch⟩ := handle
          obtain rfl : epoch = r.epoch := hepoch
          cases slot with
          | zero => exact absurd ((Handle.isRoot_iff _).1 rfl) hroot
          | succ index =>
            -- only the slot after the last one is filled
            have hindex : index ≠ r.namespaces.length := by
              rintro rfl
              exact h rfl
            refine (scope?_handleAt _ index).trans (Eq.trans ?_ (r.scope?_handleAt index).symm)
            rcases Nat.lt_or_gt_of_ne hindex with hlt | hgt
            · exact List.getElem?_append_left hlt
            · rw [List.getElem?_eq_none (Nat.le_of_lt hgt), List.getElem?_eq_none]
              rw [List.length_append]
              exact hgt
        · have hdead := scope?_of_epoch_ne hroot hepoch
          rw [← r.ensure_epoch (some name), ensure_of_new hn] at hepoch
          rw [hdead, scope?_of_epoch_ne hroot hepoch]

theorem scope?_ensure_of_live (h : r.scope? handle = some scope) :
    (r.ensure ns).scope? handle = some scope := by
  rw [scope?_ensure_of_ne r ns, h]
  rintro rfl
  rw [r.scope?_nextHandle] at h
  cases h

theorem scope?_modifyAt (r : Registry) (edit : Scope → Scope) (slot : Nat) (handle : Handle) :
    (r.modifyAt edit slot).scope? handle =
      (r.scope? handle).map fun s => if slot = handle.slot then edit s else s := by
  have hat : (r.modifyAt edit slot).scopeAt? handle.slot =
      (r.scopeAt? handle.slot).map fun s => if slot = handle.slot then edit s else s := by
    cases slot with
    | zero =>
      cases handle.slot with
      | zero => rfl
      | succ index => simp [modifyAt, scopeAt?]
    | succ slot =>
      cases handle.slot with
      | zero => rfl
      | succ index => simp [modifyAt, scopeAt?, List.getElem?_modify]
  rw [scope?, scope?, hat, modifyAt_epoch]
  split <;> rfl

theorem WellFormed.scope?_modifyScope (h : r.WellFormed) (ns : Option String)
    (edit : Scope → Scope) (handle : Handle) :
    (r.modifyScope ns edit).2.scope? handle =
      ((r.ensure ns).scope? handle).map fun s =>
        if handle = r.handleFor ns then edit s else s := by
  obtain ⟨home, hhome⟩ := h.scope?_handleFor ns
  refine (scope?_modifyAt _ edit _ handle).trans ?_
  cases hs : (r.ensure ns).scope? handle with
  | none => rfl
  | some scope =>
    have hslot : (r.handleFor ns).slot = handle.slot ↔ handle = r.handleFor ns :=
      ⟨fun he => eq_of_slot_eq hs hhome he.symm, fun he => congrArg Handle.slot he.symm⟩
    simp only [hslot]

theorem handle?_modifyScope (r : Registry) (name : String) (edit : Scope → Scope) :
    (r.modifyScope (some name) edit).2.handle? name = some (r.handleFor (some name)) :=
  (modifyAt_handle? _ edit _ name).trans (r.handle?_ensure name)

theorem handle?_modifyScope_of_ne (r : Registry) (h : ns ≠ some name) (edit : Scope → Scope) :
    (r.modifyScope ns edit).2.handle? name = r.handle? name :=
  (modifyAt_handle? _ edit _ name).trans (handle?_ensure_of_ne h)

theorem modifyScope_kept (r : Registry) (ns : Option String) (edit : Scope → Scope) :
    (r.modifyScope ns edit).2.options = r.options ∧ (r.modifyScope ns edit).2.memo = r.memo := by
  have hensure : (r.ensure ns).options = r.options ∧ (r.ensure ns).memo = r.memo := by
    cases ns with
    | none => exact ⟨rfl, rfl⟩
    | some name =>
      rw [ensure]
      cases r.handle? name <;> exact ⟨rfl, rfl⟩
  change ((r.ensure ns).modifyAt edit (r.handleFor ns).slot).options = r.options ∧
    ((r.ensure ns).modifyAt edit (r.handleFor ns).slot).memo = r.memo
  cases (r.handleFor ns).slot <;> exact hensure

theorem apply_kept {r' : Registry} {change : Change} (h : r.apply ns change = .ok (handle, r')) :
    r'.options = r.options ∧ r'.memo = r.memo := by
  obtain ⟨edit, he⟩ := apply_eq_ok h
  have hkept := r.modifyScope_kept ns edit
  rw [he] at hkept
  exact hkept

theorem scope?_of_no_namespaces (h : r.namespaces = []) (hroot : handle ≠ Handle.root) :
    r.scope? handle = none := by
  cases hs : r.scope? handle with
  | none => rfl
  | some scope =>
    rcases scope?_eq_some hs with ⟨he, _⟩ | ⟨index, _, hi⟩
    · exact absurd he hroot
    · rw [h] at hi
      cases hi

end Stylebook.Registry
