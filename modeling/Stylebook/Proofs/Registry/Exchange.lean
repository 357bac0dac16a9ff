import Stylebook.Proofs.Registry.Renaming

namespace Stylebook

variable {ρ : Renaming} {owner : Handle}

theorem Recipe.OwnedBy.rename_eq {recipe : Recipe} (h : recipe.OwnedBy owner)
    (hρ : ρ.handle owner = owner) : recipe.rename ρ = recipe := by
  induction recipe with
  | fixed attributes => rfl
  | run own body =>
    obtain rfl : own = owner := h
    rw [rename, hρ]
  | layered base top ihbase ihtop => rw [rename, ihbase h.1, ihtop h.2]

mutual

theorem Node.OwnedBy.rename_eq (hρ : ρ.handle owner = owner) :
    ∀ {node : Node}, node.OwnedBy owner → node.rename ρ = node
  | .leaf recipe, h => by rw [Node.rename, Recipe.OwnedBy.rename_eq h hρ]
  | .group children, h => by rw [Node.rename, Node.AllOwnedBy.renameAll_eq hρ h]
  | .based base children, h => by
    rw [Node.rename, Recipe.OwnedBy.rename_eq h.1 hρ, Node.AllOwnedBy.renameAll_eq hρ h.2]

theorem Node.AllOwnedBy.renameAll_eq (hρ : ρ.handle owner = owner) :
    ∀ {nodes : List (String × Node)}, Node.AllOwnedBy owner nodes → Node.renameAll ρ nodes = nodes
  | [], _ => rfl
  | (name, child) :: rest, h => by
    rw [Node.renameAll, Node.OwnedBy.rename_eq hρ h.1, Node.AllOwnedBy.renameAll_eq hρ h.2]

end

theorem Scope.OwnedBy.rename_eq {s : Scope} (h : s.OwnedBy owner) (hρ : ρ.handle owner = owner)
    (hparent : s.parent.map ρ.handle = s.parent) : s.rename ρ = s := by
  have hdeclarations : s.declarations.map (Node.rename ρ) = s.declarations := by
    ext name
    rw [Dict.get?_map]
    cases hn : s.declarations.get? name with
    | none => rfl
    | some node => rw [Option.map_some, (h name node hn).rename_eq hρ]
  rw [rename, hparent, hdeclarations]

def Renaming.swap (a b : Handle) (ha : a ≠ Handle.root) (hb : b ≠ Handle.root) : Renaming where
  handle h := if h = a then b else if h = b then a else h
  injective := by
    intro x y h
    grind
  root := by rw [if_neg ha.symm, if_neg hb.symm]

namespace Renaming

variable {a b : Handle} {ha : a ≠ Handle.root} {hb : b ≠ Handle.root}

theorem swap_left : (swap a b ha hb).handle a = b := if_pos rfl

theorem swap_right : (swap a b ha hb).handle b = a := by
  by_cases h : b = a
  · exact (if_pos h).trans h
  · exact (if_neg h).trans (if_pos rfl)

theorem swap_of_ne {h : Handle} (hneA : h ≠ a) (hneB : h ≠ b) : (swap a b ha hb).handle h = h :=
  (if_neg hneA).trans (if_neg hneB)

end Renaming

/-- The edit of its scope that a change comes to; sketches are drawn from what the view shows. -/
def Change.edit (view : View) (owner : Handle) : Change → Except Fault (Scope → Scope)
  | .register declarations =>
    (Node.ofDeclarations owner declarations).map fun nodes scope => scope.declare nodes
  | .registerSketches sketches =>
    (Node.ofDeclarations owner (Dict.ofList (Sketch.drawAll view sketches))).map
      fun nodes scope => scope.declare nodes
  | .defineVariables vars => .ok fun scope => scope.define vars
  | .defineMixin name mixin => .ok fun scope => scope.defineMixin name mixin

/-- All that the change registers stands in the change itself. -/
def Change.isFixed : Change → Bool
  | .registerSketches _ => false
  | _ => true

theorem Change.edit_of_isFixed {change : Change} (h : change.isFixed = true) (view view' : View)
    (owner : Handle) : change.edit view owner = change.edit view' owner := by
  cases change with
  | registerSketches sketches => cases h
  | _ => rfl

namespace Registry

variable {r r₁ r₂ : Registry} {ns ns₁ ns₂ : Option String} {c₁ c₂ : Change} {h₁ h₂ : Handle}

theorem apply_eq_edit (r : Registry) (ns : Option String) (change : Change) :
    r.apply ns change = (change.edit r.sketchView (r.handleFor ns)).map (r.modifyScope ns) := by
  have hregister : ∀ tree, r.register ns tree = ((Node.ofDeclarations (r.handleFor ns) tree).map
      fun nodes (scope : Scope) => scope.declare nodes).map (r.modifyScope ns) := by
    intro tree
    rw [register]
    cases Node.ofDeclarations (r.handleFor ns) tree <;> rfl
  cases change with
  | register tree => exact hregister tree
  | registerSketches sketches => exact hregister _
  | defineVariables vars => rfl
  | defineMixin name mixin => rfl

def Has (r : Registry) (ns : Option String) : Prop := ∃ handle, r.handleOf? ns = some handle

theorem Has.ensure_eq (h : r.Has ns) : r.ensure ns = r := by
  obtain ⟨handle, hn⟩ := h
  cases ns with
  | none => rfl
  | some name =>
    have hn : r.handle? name = some handle := hn
    simp only [ensure, hn]

theorem exists_new_of_not_has (h : ¬ r.Has ns) :
    ∃ name, ns = some name ∧ r.handle? name = none := by
  cases ns with
  | none => exact absurd ⟨Handle.root, rfl⟩ h
  | some name =>
    refine ⟨name, rfl, ?_⟩
    cases hn : r.handle? name with
    | none => rfl
    | some handle => exact absurd ⟨handle, hn⟩ h

theorem has_ensure (r : Registry) (ns : Option String) : (r.ensure ns).Has ns := by
  cases ns with
  | none => exact ⟨Handle.root, rfl⟩
  | some name => exact ⟨_, r.handle?_ensure name⟩

theorem Continues.has (h : r.Continues r₁) (hr : r.Has ns) : r₁.Has ns := by
  obtain ⟨handle, hn⟩ := hr
  cases ns with
  | none => exact ⟨handle, hn⟩
  | some name => exact ⟨handle, h.handles name handle hn⟩

theorem Continues.handleFor (h : r.Continues r₁) (hr : r.Has ns) :
    r₁.handleFor ns = r.handleFor ns := by
  obtain ⟨handle, hn⟩ := hr
  cases ns with
  | none => rfl
  | some name => rw [handleFor_of_some hn, handleFor_of_some (h.handles name handle hn)]

theorem handleFor_ensure (r : Registry) (ns : Option String) :
    (r.ensure ns).handleFor ns = r.handleFor ns := by
  cases ns with
  | none => rfl
  | some name => rw [handleFor_of_some (r.handle?_ensure name)]

theorem sketchView_ensure (r : Registry) (ns : Option String) :
    (r.ensure ns).sketchView = r.sketchView := by
  cases ns with
  | none => rfl
  | some name =>
    rw [ensure]
    cases r.handle? name <;> rfl

theorem Has.modifyScope_eq (h : r.Has ns) (edit : Scope → Scope) :
    r.modifyScope ns edit = (r.handleFor ns, r.modifyAt edit (r.handleFor ns).slot) := by
  rw [modifyScope, h.ensure_eq]

theorem WellFormed.scope?_of_has (hr : r.WellFormed) (h : r.Has ns) :
    ∃ scope, r.scope? (r.handleFor ns) = some scope := by
  have hlive := hr.scope?_handleFor ns
  rwa [h.ensure_eq] at hlive

/-- It does not matter to a change whether its scope is there before. -/
theorem apply_ensure (r : Registry) (ns : Option String) (change : Change) :
    (r.ensure ns).apply ns change = r.apply ns change := by
  have hmodify : (r.ensure ns).modifyScope ns = r.modifyScope ns := by
    funext edit
    rw [(r.has_ensure ns).modifyScope_eq, handleFor_ensure, modifyScope]
  rw [apply_eq_edit, apply_eq_edit, handleFor_ensure, sketchView_ensure, hmodify]

theorem append_modify {scopes added : List Scope} {index : Nat} (h : index < scopes.length)
    (edit : Scope → Scope) :
    (scopes ++ added).modify index edit = scopes.modify index edit ++ added := by
  rw [List.modify_eq_take_cons_drop h, List.modify_eq_take_cons_drop (by simp; omega)]
  simp [List.getElem_append_left h, List.take_append_of_le_length (Nat.le_of_lt h),
    List.drop_append_of_le_length h]

theorem ensure_modifyAt {handle : Handle} {scope : Scope} (hs : r.scope? handle = some scope)
    (edit : Scope → Scope) (ns : Option String) :
    (r.modifyAt edit handle.slot).ensure ns = (r.ensure ns).modifyAt edit handle.slot := by
  cases ns with
  | none => rfl
  | some name =>
    have hkept := modifyAt_handle? r edit handle.slot name
    cases hn : r.handle? name with
    | some own =>
      rw [hn] at hkept
      simp only [ensure, hn, hkept]
    | none =>
      rw [hn] at hkept
      rw [ensure_of_new hkept, ensure_of_new hn]
      rcases scope?_eq_some hs with ⟨rfl, _⟩ | ⟨index, rfl, hi⟩
      · rfl
      · have hlt : index < r.namespaces.length := (List.getElem?_eq_some_iff.1 hi).1
        have hsize : (r.namespaces.modify index edit).length = r.namespaces.length :=
          List.length_modify ..
        simp only [modifyAt, handleAt, append_modify hlt, nextHandle, hsize]

theorem WellFormed.apply_ensure_of_has (hr : r.WellFormed) (has : r.Has ns) (change : Change)
    (other : Option String) : (r.ensure other).apply ns change =
      (r.apply ns change).map fun result => (result.1, result.2.ensure other) := by
  have hcontinues := r.continues_ensure other
  obtain ⟨scope, hs⟩ := hr.scope?_of_has has
  rw [apply_eq_edit, apply_eq_edit, sketchView_ensure, hcontinues.handleFor has]
  cases change.edit r.sketchView (r.handleFor ns) with
  | error fault => rfl
  | ok edit =>
    have hensured := (hcontinues.has has).modifyScope_eq edit
    rw [hcontinues.handleFor has, ← ensure_modifyAt hs] at hensured
    exact congrArg Except.ok (hensured.trans (by rw [has.modifyScope_eq]))

theorem WellFormed.apply_ensure_ensure (hr : r.WellFormed) (ns other : Option String)
    (change : Change) : ((r.ensure ns).ensure other).apply ns change =
      (r.apply ns change).map fun result => (result.1, result.2.ensure other) := by
  rw [(hr.ensure ns).apply_ensure_of_has (r.has_ensure ns), apply_ensure]

theorem modifyAt_comm (r : Registry) (edit edit' : Scope → Scope) {slot slot' : Nat}
    (h : slot ≠ slot') :
    (r.modifyAt edit slot).modifyAt edit' slot' = (r.modifyAt edit' slot').modifyAt edit slot := by
  cases slot with
  | zero =>
    cases slot' with
    | zero => exact absurd rfl h
    | succ index' => rfl
  | succ index =>
    cases slot' with
    | zero => rfl
    | succ index' =>
      have hne : index ≠ index' := fun he => h (congrArg Nat.succ he)
      simp only [modifyAt, List.modify_modify_ne _ _ _ hne]

theorem WellFormed.slot_ne (hr : r.WellFormed) (has₁ : r.Has ns₁) (has₂ : r.Has ns₂)
    (hne : ns₁ ≠ ns₂) : (r.handleFor ns₁).slot ≠ (r.handleFor ns₂).slot := by
  intro hslot
  obtain ⟨scope₁, hs₁⟩ := hr.scope?_of_has has₁
  obtain ⟨scope₂, hs₂⟩ := hr.scope?_of_has has₂
  have hhandle := eq_of_slot_eq hs₁ hs₂ hslot
  cases ns₁ with
  | none =>
    cases ns₂ with
    | none => exact hne rfl
    | some name₂ => exact hr.handleFor_ne_root name₂ hhandle.symm
  | some name₁ =>
    obtain ⟨own, hn⟩ := has₁
    have hn : r.handle? name₁ = some own := hn
    rw [handleFor_of_some hn] at hhandle
    rw [hhandle] at hn
    exact hne (hr.eq_of_handle?_handleFor hn).symm

theorem apply_eq_ok_of_has (has : r.Has ns₁) (h : r.apply ns₁ c₁ = .ok (h₁, r₁)) :
    ∃ edit, c₁.edit r.sketchView (r.handleFor ns₁) = .ok edit ∧ h₁ = r.handleFor ns₁ ∧
      r₁ = r.modifyAt edit (r.handleFor ns₁).slot := by
  rw [apply_eq_edit] at h
  cases he : c₁.edit r.sketchView (r.handleFor ns₁) with
  | error fault =>
    rw [he] at h
    cases h
  | ok edit =>
    rw [he] at h
    obtain ⟨hhandle, hafter⟩ := Prod.mk.inj ((has.modifyScope_eq edit).symm.trans (Except.ok.inj h))
    exact ⟨edit, rfl, hhandle.symm, hafter.symm⟩

theorem apply_of_edit (has : r.Has ns) {change : Change} {edit : Scope → Scope}
    (h : change.edit r.sketchView (r.handleFor ns) = .ok edit) :
    r.apply ns change = .ok (r.handleFor ns, r.modifyAt edit (r.handleFor ns).slot) := by
  rw [apply_eq_edit, h, ← has.modifyScope_eq]
  rfl

theorem WellFormed.apply_comm (hr : r.WellFormed) (has₁ : r.Has ns₁) (has₂ : r.Has ns₂)
    (hne : ns₁ ≠ ns₂) (fixed₁ : c₁.isFixed = true) (fixed₂ : c₂.isFixed = true)
    (first : r.apply ns₁ c₁ = .ok (h₁, r₁)) (second : r₁.apply ns₂ c₂ = .ok (h₂, r₂)) :
    ∃ r', r.apply ns₂ c₂ = .ok (h₂, r') ∧ r'.apply ns₁ c₁ = .ok (h₁, r₂) := by
  obtain ⟨edit₁, he₁, rfl, rfl⟩ := apply_eq_ok_of_has has₁ first
  have hfirst := r.continues_modifyAt edit₁ (r.handleFor ns₁).slot
  obtain ⟨edit₂, he₂, rfl, rfl⟩ := apply_eq_ok_of_has (hfirst.has has₂) second
  rw [hfirst.handleFor has₂] at he₂ ⊢
  have hsecond := r.continues_modifyAt edit₂ (r.handleFor ns₂).slot
  refine ⟨_, apply_of_edit has₂ ((c₂.edit_of_isFixed fixed₂ _ _ _).trans he₂), ?_⟩
  rw [← hsecond.handleFor has₁] at he₁
  rw [apply_of_edit (hsecond.has has₁) ((c₁.edit_of_isFixed fixed₁ _ _ _).trans he₁),
    hsecond.handleFor has₁, r.modifyAt_comm edit₁ edit₂ (hr.slot_ne has₁ has₂ hne)]

theorem Image.apply_ok {ρ : Renaming} {epochs : Nat} {change : Change} {handle : Handle}
    (h : r.Image ρ epochs r₁) (hr : r.WellFormed) (hr₁ : r₁.WellFormed)
    (applied : r.apply ns change = .ok (handle, r₂)) :
    ∃ r₃, r₁.apply ns change = .ok (ρ.handle handle, r₃) ∧ r₂.Image ρ epochs r₃ := by
  cases h.apply_same hr hr₁ ns change with
  | refused first second =>
    rw [applied] at first
    cases first
  | changed first second image =>
    rw [applied] at first
    cases first
    exact ⟨_, second, image⟩

theorem image_refl (r : Registry) : r.Image .refl 0 r where
  rootFallback := rfl
  epoch := rfl
  size := rfl
  scopes := by
    intro handle
    change r.scope? handle = _
    cases r.scope? handle with
    | none => rfl
    | some scope => rw [Option.map_some, Scope.rename_refl]
  handles := fun name => Option.map_id'.symm
  unissued := fun handle _ _ => handle.later_zero.symm

theorem WellFormed.rename_eq (hr : r.WellFormed) {handle : Handle} {scope : Scope}
    (hs : r.scope? handle = some scope) {ρ : Renaming} (hρ : ρ.handle handle = handle) :
    scope.rename ρ = scope := by
  apply (hr.owned handle scope hs).rename_eq hρ
  rcases hr.name_and_parent (scopeAt?_slot hs) with ⟨_, _, hparent⟩ | ⟨_, _, hparent⟩
  · rw [hparent]
    rfl
  · rw [hparent, Option.map_some, ρ.root]

def handleAfterNext (r : Registry) : Handle := r.handleAt (r.namespaces.length + 1)

/-- Two namespaces have come about, one after the other, and all else is as it was. -/
structure AddsTwo (r : Registry) (first second : String) (r' : Registry) : Prop where
  rootFallback : r'.options.rootFallback = r.options.rootFallback
  epoch : r'.epoch = r.epoch
  size : r'.namespaces.length = r.namespaces.length + 2
  scope_first : r'.scope? r.nextHandle = some (Scope.ofNamespace first)
  scope_second : r'.scope? r.handleAfterNext = some (Scope.ofNamespace second)
  scopes : ∀ handle, handle ≠ r.nextHandle → handle ≠ r.handleAfterNext →
    r'.scope? handle = r.scope? handle
  handle_first : r'.handle? first = some r.nextHandle
  handle_second : r'.handle? second = some r.handleAfterNext
  handles : ∀ name, name ≠ first → name ≠ second → r'.handle? name = r.handle? name

theorem addsTwo_ensure {first second : String} (hne : first ≠ second)
    (hfirst : r.handle? first = none) (hsecond : r.handle? second = none) :
    r.AddsTwo first second ((r.ensure (some first)).ensure (some second)) := by
  have hsecond' : (r.ensure (some first)).handle? second = none := by
    rw [handle?_ensure_of_ne fun he => hne (Option.some.inj he)]
    exact hsecond
  have hnext : (r.ensure (some first)).nextHandle = r.handleAfterNext := by
    rw [ensure_of_new hfirst]
    simp only [nextHandle, handleAfterNext, handleAt, List.length_append, List.length_singleton]
  have hdistinct : r.nextHandle ≠ r.handleAfterNext := by
    intro he
    exact absurd (r.handleAt_injective he) (Nat.ne_of_lt (Nat.lt_succ_self _))
  have hfound := r.handle?_ensure first
  rw [handleFor_of_none hfirst] at hfound
  exact {
    rootFallback := by
      rw [ensure_of_new hsecond', ensure_of_new hfirst]
    epoch := by rw [ensure_epoch, ensure_epoch]
    size := by
      rw [ensure_of_new hsecond', ensure_of_new hfirst]
      simp
    scope_first := by
      rw [scope?_ensure_of_ne _ _ (hnext ▸ hdistinct)]
      exact scope?_ensure_nextHandle hfirst
    scope_second := by
      rw [← hnext]
      exact scope?_ensure_nextHandle hsecond'
    scopes := by
      intro handle hneFirst hneSecond
      rw [scope?_ensure_of_ne _ _ (hnext ▸ hneSecond), scope?_ensure_of_ne _ _ hneFirst]
    handle_first := by
      rw [handle?_ensure_of_ne fun he => hne (Option.some.inj he).symm]
      exact hfound
    handle_second := by
      rw [handle?_ensure, handleFor_of_none hsecond', hnext]
    handles := by
      intro name hneFirst hneSecond
      rw [handle?_ensure_of_ne fun he => hneSecond (Option.some.inj he).symm,
        handle?_ensure_of_ne fun he => hneFirst (Option.some.inj he).symm] }

theorem nextHandle_ne_root (r : Registry) : r.nextHandle ≠ Handle.root :=
  fun he => Nat.succ_ne_zero r.namespaces.length (congrArg Handle.slot he)

theorem handleAfterNext_ne_root (r : Registry) : r.handleAfterNext ≠ Handle.root :=
  fun he => Nat.succ_ne_zero (r.namespaces.length + 1) (congrArg Handle.slot he)

def swapNext (r : Registry) : Renaming :=
  .swap r.nextHandle r.handleAfterNext r.nextHandle_ne_root r.handleAfterNext_ne_root

theorem swapNext_of_live {handle : Handle} {scope : Scope} (hs : r.scope? handle = some scope) :
    r.swapNext.handle handle = handle := by
  apply Renaming.swap_of_ne
  · rintro rfl
    rw [scope?_nextHandle] at hs
    cases hs
  · rintro rfl
    rw [handleAfterNext, scope?_handleAt, List.getElem?_eq_none (Nat.le_succ _)] at hs
    cases hs

theorem WellFormed.image_of_addsTwo (hr : r.WellFormed) {first second : String}
    (h : r.AddsTwo first second r₁) (h' : r.AddsTwo second first r₂) :
    r₁.Image r.swapNext 0 r₂ where
  rootFallback := h'.rootFallback.trans h.rootFallback.symm
  epoch := h'.epoch.trans h.epoch.symm
  size := h'.size.trans h.size.symm
  scopes := by
    intro handle
    by_cases hfirst : handle = r.nextHandle
    · rw [hfirst, swapNext, Renaming.swap_left, h.scope_first, h'.scope_second, Option.map_some,
        Scope.ofNamespace_rename]
    · by_cases hsecond : handle = r.handleAfterNext
      · rw [hsecond, swapNext, Renaming.swap_right, h.scope_second, h'.scope_first,
          Option.map_some, Scope.ofNamespace_rename]
      · rw [swapNext, Renaming.swap_of_ne hfirst hsecond, h.scopes _ hfirst hsecond,
          h'.scopes _ hfirst hsecond]
        cases hs : r.scope? handle with
        | none => rfl
        | some scope =>
          rw [Option.map_some]
          exact congrArg some (hr.rename_eq hs (Renaming.swap_of_ne hfirst hsecond)).symm
  handles := by
    intro name
    by_cases hfirst : name = first
    · rw [hfirst, h.handle_first, h'.handle_second, Option.map_some, swapNext, Renaming.swap_left]
    · by_cases hsecond : name = second
      · rw [hsecond, h.handle_second, h'.handle_first, Option.map_some, swapNext,
          Renaming.swap_right]
      · rw [h.handles name hfirst hsecond, h'.handles name hsecond hfirst]
        cases hn : r.handle? name with
        | none => rfl
        | some handle =>
          obtain ⟨index, scope, rfl, hi, _⟩ := hr.named name handle hn
          rw [Option.map_some, swapNext_of_live ((r.scope?_handleAt index).trans hi)]
  unissued := by
    intro handle _ hdead
    rw [Handle.later_zero]
    apply Renaming.swap_of_ne
    · rintro rfl
      rw [h.scope_first] at hdead
      cases hdead
    · rintro rfl
      rw [h.scope_second] at hdead
      cases hdead

/-- Two scopes that are given their place in either order have at most swapped handles. -/
theorem WellFormed.exists_image_ensure (hr : r.WellFormed) (hne : ns₁ ≠ ns₂) :
    ∃ ρ : Renaming, (∀ handle scope, r.scope? handle = some scope → ρ.handle handle = handle) ∧
      ((r.ensure ns₁).ensure ns₂).Image ρ 0 ((r.ensure ns₂).ensure ns₁) := by
  have hpresent : ∀ ns ns', r.Has ns → (r.ensure ns).ensure ns' = (r.ensure ns').ensure ns := by
    intro ns ns' has
    rw [has.ensure_eq, ((r.continues_ensure ns').has has).ensure_eq]
  by_cases has₁ : r.Has ns₁
  · refine ⟨.refl, fun handle scope _ => rfl, ?_⟩
    rw [hpresent ns₁ ns₂ has₁]
    exact image_refl _
  · by_cases has₂ : r.Has ns₂
    · refine ⟨.refl, fun handle scope _ => rfl, ?_⟩
      rw [hpresent ns₂ ns₁ has₂]
      exact image_refl _
    · obtain ⟨name₁, rfl, hn₁⟩ := exists_new_of_not_has has₁
      obtain ⟨name₂, rfl, hn₂⟩ := exists_new_of_not_has has₂
      have hnames : name₁ ≠ name₂ := fun he => hne (congrArg some he)
      refine ⟨r.swapNext, fun handle scope hs => swapNext_of_live hs, ?_⟩
      exact hr.image_of_addsTwo (addsTwo_ensure hnames hn₁ hn₂) (addsTwo_ensure hnames.symm hn₂ hn₁)

/-- Two changes of different scopes lead to the same in either order, but for new handles. -/
theorem WellFormed.apply_exchange (hr : r.WellFormed) (hne : ns₁ ≠ ns₂)
    (fixed₁ : c₁.isFixed = true) (fixed₂ : c₂.isFixed = true)
    (first : r.apply ns₁ c₁ = .ok (h₁, r₁)) (second : r₁.apply ns₂ c₂ = .ok (h₂, r₂)) :
    ∃ ρ : Renaming, ∃ r₁' r₂', r.apply ns₂ c₂ = .ok (ρ.handle h₂, r₁') ∧
      r₁'.apply ns₁ c₁ = .ok (ρ.handle h₁, r₂') ∧ r₂.Image ρ 0 r₂' ∧
      ∀ handle scope, r.scope? handle = some scope → ρ.handle handle = handle := by
  obtain ⟨ρ, hkept, himage⟩ := hr.exists_image_ensure hne
  -- both scopes are given their place first, in the order of the changes
  have hensured := (hr.ensure ns₁).ensure ns₂
  have hensured' := (hr.ensure ns₂).ensure ns₁
  have has₁ := ((r.ensure ns₁).continues_ensure ns₂).has (r.has_ensure ns₁)
  have has₂ := (r.ensure ns₁).has_ensure ns₂
  have hfirst := hr.apply_ensure_ensure ns₁ ns₂ c₁
  rw [first] at hfirst
  rw [← apply_ensure] at second
  obtain ⟨middle, hmiddle, hlast⟩ :=
    hensured.apply_comm has₁ has₂ hne fixed₁ fixed₂ hfirst second
  -- then they are changed there, in the other order, and so are their images
  obtain ⟨middle', hmiddle', image⟩ := himage.apply_ok hensured hensured' hmiddle
  obtain ⟨r₂', hlast', image'⟩ :=
    image.apply_ok (hensured.apply hmiddle) (hensured'.apply hmiddle') hlast
  rw [hr.apply_ensure_ensure ns₂ ns₁ c₂] at hmiddle'
  cases hother : r.apply ns₂ c₂ with
  | error fault =>
    rw [hother] at hmiddle'
    cases hmiddle'
  | ok changed =>
    rw [hother] at hmiddle'
    obtain ⟨hhandle, rfl⟩ := Prod.mk.inj (Except.ok.inj hmiddle')
    rw [apply_ensure] at hlast'
    refine ⟨ρ, changed.2, r₂', ?_, hlast', image', hkept⟩
    rw [← hhandle]

end Registry

end Stylebook
