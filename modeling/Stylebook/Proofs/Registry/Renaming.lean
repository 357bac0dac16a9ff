import Stylebook.Proofs.Node.Renaming
import Stylebook.Proofs.Registry.Targets

namespace Stylebook

def Handle.later (h : Handle) (epochs : Nat) : Handle :=
  ⟨h.slot, if h.slot = 0 then h.epoch else h.epoch + epochs, fun hslot =>
    (if_pos hslot).trans (h.root_epoch hslot)⟩

theorem Handle.later_injective {epochs : Nat} {a b : Handle} (h : a.later epochs = b.later epochs) :
    a = b := by
  obtain ⟨slot, epoch, _⟩ := a
  obtain ⟨slot', epoch', _⟩ := b
  obtain ⟨hslot, hepoch⟩ := Handle.mk.inj h
  obtain rfl : slot = slot' := hslot
  dsimp only at hepoch
  obtain rfl : epoch = epoch' := by
    split at hepoch
    · exact hepoch
    · exact Nat.add_right_cancel hepoch
  rfl

theorem Handle.later_zero (h : Handle) : h.later 0 = h := by
  obtain ⟨slot, epoch, _⟩ := h
  simp only [Handle.later, Nat.add_zero, ite_self]

def Renaming.later (epochs : Nat) : Renaming :=
  ⟨fun h => h.later epochs, fun _ _ => Handle.later_injective, rfl⟩

theorem Renaming.later_zero : Renaming.later 0 = .refl := by
  have hhandle : (fun h : Handle => h.later 0) = fun h => h := funext Handle.later_zero
  simp only [later, refl, hhandle]

namespace Scope

def rename (ρ : Renaming) (s : Scope) : Scope :=
  { s with parent := s.parent.map ρ.handle, declarations := s.declarations.map (Node.rename ρ) }

variable (ρ : Renaming)

@[simp] theorem rename_refl (s : Scope) : s.rename .refl = s := by
  have hparent : s.parent.map Renaming.refl.handle = s.parent := Option.map_id'
  have hdeclarations : s.declarations.map (Node.rename .refl) = s.declarations := by
    ext name
    rw [Dict.get?_map]
    cases s.declarations.get? name with
    | none => rfl
    | some node => rw [Option.map_some, Node.rename_refl]
  rw [rename, hparent, hdeclarations]

theorem ofNamespace_rename (name : String) :
    (Scope.ofNamespace name).rename ρ = Scope.ofNamespace name :=
  congrArg (fun parent => { Scope.ofNamespace name with parent := some parent }) ρ.root

theorem contains_rename (s : Scope) (name : String) :
    (s.rename ρ).declarations.contains name = s.declarations.contains name := by
  rw [Dict.contains, Dict.contains, rename, Dict.get?_map, Option.isSome_map]

theorem find?_rename (s : Scope) (path : Path) :
    (s.rename ρ).find? path = (s.find? path).map (Node.rename ρ) := by
  rw [find?, find?, rename, Dict.get?_map]
  cases s.declarations.get? path.head with
  | none => rfl
  | some node => exact node.descend?_rename ρ path.tail

theorem declare_rename (s : Scope) (nodes : Dict Node) :
    (s.rename ρ).declare (nodes.map (Node.rename ρ)) = (s.declare nodes).rename ρ :=
  congrArg (fun declarations => { s.rename ρ with declarations := declarations })
    (Dict.map_merge _ _ _).symm

end Scope

def Located.rename (ρ : Renaming) (found : Located) : Located :=
  { found with owner := ρ.handle found.owner, recipe := found.recipe.rename ρ }

@[simp] theorem Located.rename_refl (found : Located) : found.rename .refl = found := by
  rw [rename, Recipe.rename_refl]
  rfl

namespace Registry

variable {ρ : Renaming} {epochs : Nat} {r r' : Registry} {ns : Option String}

/-- The second registry is the first with handles renamed, some epochs later, memory apart. -/
structure Image (ρ : Renaming) (epochs : Nat) (r r' : Registry) : Prop where
  rootFallback : r'.options.rootFallback = r.options.rootFallback
  epoch : r'.epoch = r.epoch + epochs
  size : r'.namespaces.length = r.namespaces.length
  scopes : ∀ handle, r'.scope? (ρ.handle handle) = (r.scope? handle).map (Scope.rename ρ)
  handles : ∀ name, r'.handle? name = (r.handle? name).map ρ.handle
  unissued : ∀ handle, r.epoch ≤ handle.epoch → r.scope? handle = none →
    ρ.handle handle = handle.later epochs

namespace Image

theorem root (h : r.Image ρ epochs r') : r'.root = r.root.rename ρ := by
  have hroot := h.scopes Handle.root
  rw [ρ.root, scope?_root, scope?_root] at hroot
  exact Option.some.inj hroot

theorem chain (h : r.Image ρ epochs r') (fuel : Nat) (handle : Handle) :
    r'.chain fuel (ρ.handle handle) = (r.chain fuel handle).map (Scope.rename ρ) := by
  induction fuel generalizing handle with
  | zero => rfl
  | succ fuel ih =>
    rw [Registry.chain, Registry.chain, h.scopes]
    cases r.scope? handle with
    | none => rfl
    | some scope =>
      cases hparent : scope.parent with
      | none => simp only [Option.map_some, Scope.rename, hparent, Option.map_none, List.map_cons,
          List.map_nil]
      | some parent => simp only [Option.map_some, Scope.rename, hparent, ih, List.map_cons]

theorem ancestors (h : r.Image ρ epochs r') (handle : Handle) :
    r'.ancestors (ρ.handle handle) = (r.ancestors handle).map (Scope.rename ρ) := by
  rw [Registry.ancestors, h.size]
  exact h.chain _ handle

theorem lookup? (h : r.Image ρ epochs r') (handle : Handle) (name : String) :
    r'.lookup? (ρ.handle handle) name = r.lookup? handle name := by
  rw [Registry.lookup?, h.ancestors, List.findSome?_map]
  rfl

theorem mixin? (h : r.Image ρ epochs r') (handle : Handle) (name : String) :
    r'.mixin? (ρ.handle handle) name = r.mixin? handle name := by
  rw [Registry.mixin?, h.ancestors, List.findSome?_map]
  rfl

theorem locateIn (h : r.Image ρ epochs r') (asked : Path) (owner : Handle) (path : Path) :
    r'.locateIn asked (ρ.handle owner) path =
      (r.locateIn asked owner path).map (Located.rename ρ) := by
  rw [Registry.locateIn, Registry.locateIn, h.scopes]
  cases r.scope? owner with
  | none => rfl
  | some scope =>
    simp only [Option.map_some, Scope.find?_rename]
    cases scope.find? path with
    | none => rfl
    | some node =>
      simp only [Option.map_some, Node.recipe?_rename]
      cases node.recipe? <;> rfl

theorem otherNamespace? (h : r.Image ρ epochs r') (path : Path) (start : Handle) :
    r'.otherNamespace? path (ρ.handle start) =
      (r.otherNamespace? path start).map ρ.handle := by
  rw [Registry.otherNamespace?, Registry.otherNamespace?, h.handles]
  cases r.handle? path.head with
  | none => rfl
  | some handle =>
    rw [Option.map_some, Option.filter_some, Option.filter_some, ρ.handle_bne]
    split <;> rfl

theorem locate (h : r.Image ρ epochs r') (path : Path) (start : Handle) :
    r'.locate path (ρ.handle start) = (r.locate path start).map (Located.rename ρ) := by
  have hroot := h.locateIn path Handle.root path
  rw [ρ.root] at hroot
  rw [Registry.locate, Registry.locate, h.scopes]
  cases r.scope? start with
  | none => rfl
  | some scope =>
    simp only [Option.map_some, Scope.contains_rename, h.otherNamespace?]
    split
    · exact h.locateIn path start path
    · cases r.otherNamespace? path start with
      | some other =>
        simp only [Option.map_some]
        cases Path.ofSegments? path.tail with
        | none => rfl
        | some inner => exact h.locateIn path other inner
      | none =>
        simp only [Option.map_none, ρ.isRoot_handle, h.rootFallback]
        split
        · exact hroot
        · rfl

theorem label (h : r.Image ρ epochs r') (handle : Handle) :
    r'.label (ρ.handle handle) = r.label handle := by
  rw [Registry.label, Registry.label, h.scopes, Option.map_map]
  rfl

theorem nextHandle (h : r.Image ρ epochs r') : ρ.handle r.nextHandle = r'.nextHandle := by
  rw [h.unissued r.nextHandle (Nat.le_refl _) r.scope?_nextHandle]
  simp only [Handle.later, Registry.nextHandle, handleAt, h.size, h.epoch, Nat.succ_ne_zero,
    if_false]

theorem handleFor (h : r.Image ρ epochs r') (ns : Option String) :
    r'.handleFor ns = ρ.handle (r.handleFor ns) := by
  cases ns with
  | none => exact ρ.root.symm
  | some name =>
    rw [Registry.handleFor, Registry.handleFor, h.handles, ← h.nextHandle]
    cases r.handle? name <;> rfl

theorem handle?_ensure (h : r.Image ρ epochs r') (ns : Option String) (name : String) :
    (r'.ensure ns).handle? name = ((r.ensure ns).handle? name).map ρ.handle := by
  by_cases hns : ns = some name
  · rw [hns, Registry.handle?_ensure, Registry.handle?_ensure, h.handleFor, Option.map_some]
  · rw [handle?_ensure_of_ne hns, handle?_ensure_of_ne hns, h.handles]

theorem ensure (h : r.Image ρ epochs r') (ns : Option String) :
    (r.ensure ns).Image ρ epochs (r'.ensure ns) := by
  cases ns with
  | none => exact h
  | some name =>
    cases hn : r.handle? name with
    | some handle =>
      have hn' : r'.handle? name = some (ρ.handle handle) := by rw [h.handles, hn, Option.map_some]
      simp only [Registry.ensure, hn, hn']
      exact h
    | none =>
      have hn' : r'.handle? name = none := by rw [h.handles, hn, Option.map_none]
      exact {
        rootFallback := by
          rw [ensure_of_new hn, ensure_of_new hn']
          exact h.rootFallback
        epoch := by rw [ensure_epoch, ensure_epoch, h.epoch]
        size := by
          rw [ensure_of_new hn, ensure_of_new hn', List.length_append, List.length_append, h.size]
        scopes := by
          intro handle
          -- the one handle that comes to life is renamed to the one that comes to life there
          by_cases hnext : handle = r.nextHandle
          · rw [hnext, h.nextHandle, scope?_ensure_nextHandle hn, scope?_ensure_nextHandle hn',
              Option.map_some, Scope.ofNamespace_rename]
          · have hnext' : ρ.handle handle ≠ r'.nextHandle := by
              rw [← h.nextHandle, Ne, ρ.handle_inj]
              exact hnext
            rw [scope?_ensure_of_ne r _ hnext, scope?_ensure_of_ne r' _ hnext', h.scopes]
        handles := h.handle?_ensure (some name)
        unissued := by
          intro handle hepoch hdead
          rw [ensure_epoch] at hepoch
          apply h.unissued handle hepoch
          cases hs : r.scope? handle with
          | none => rfl
          | some scope =>
            rw [scope?_ensure_of_live hs] at hdead
            cases hdead }

theorem size_modifyScope (r : Registry) (ns : Option String) (edit : Scope → Scope) :
    (r.modifyScope ns edit).2.namespaces.length = (r.ensure ns).namespaces.length := by
  change ((r.ensure ns).modifyAt edit (r.handleFor ns).slot).namespaces.length = _
  cases (r.handleFor ns).slot with
  | zero => rfl
  | succ slot => exact List.length_modify ..

theorem modifyScope (h : r.Image ρ epochs r') (hr : r.WellFormed) (hr' : r'.WellFormed)
    {edit edit' : Scope → Scope} (hedit : ∀ s, edit' (s.rename ρ) = (edit s).rename ρ) :
    (r.modifyScope ns edit).2.Image ρ epochs (r'.modifyScope ns edit').2 := by
  have hensured := h.ensure ns
  exact {
    rootFallback := by
      rw [(r.modifyScope_kept ns edit).1, (r'.modifyScope_kept ns edit').1]
      exact h.rootFallback
    epoch := by
      refine (modifyAt_epoch _ edit' _).trans (hensured.epoch.trans ?_)
      rw [← modifyAt_epoch _ edit (r.handleFor ns).slot]
      rfl
    size := by rw [size_modifyScope, size_modifyScope, hensured.size]
    scopes := by
      intro handle
      rw [hr.scope?_modifyScope, hr'.scope?_modifyScope, hensured.scopes, h.handleFor]
      simp only [ρ.handle_inj, Option.map_map]
      congr 1
      funext s
      simp only [Function.comp]
      split
      · exact hedit s
      · rfl
    handles := by
      intro name
      refine (modifyAt_handle? _ edit' _ name).trans ((hensured.handles name).trans ?_)
      rw [← modifyAt_handle? _ edit (r.handleFor ns).slot]
      rfl
    unissued := by
      intro handle hepoch hdead
      rw [hr.scope?_modifyScope, Option.map_eq_none_iff] at hdead
      apply hensured.unissued handle _ hdead
      rw [← modifyAt_epoch _ edit (r.handleFor ns).slot]
      exact hepoch }

/-- Both are refused for the same fault, or both are changed and alike but for the handles. -/
inductive SameOutcome (ρ : Renaming) (epochs : Nat) (x y : Except Fault (Handle × Registry)) : Prop
  | refused {fault : Fault} (first : x = .error fault) (second : y = .error fault)
  | changed {handle : Handle} {next next' : Registry} (first : x = .ok (handle, next))
      (second : y = .ok (ρ.handle handle, next')) (image : next.Image ρ epochs next')

theorem modifyScope_same (h : r.Image ρ epochs r') (hr : r.WellFormed) (hr' : r'.WellFormed)
    (ns : Option String) {edit edit' : Scope → Scope}
    (hedit : ∀ s, edit' (s.rename ρ) = (edit s).rename ρ) :
    SameOutcome ρ epochs (.ok (r.modifyScope ns edit)) (.ok (r'.modifyScope ns edit')) := by
  have himage : (r.modifyScope ns edit).2.Image ρ epochs (r'.modifyScope ns edit').2 :=
    h.modifyScope hr hr' hedit
  apply SameOutcome.changed rfl _ himage
  rw [← h.handleFor]
  rfl

theorem register_same (h : r.Image ρ epochs r') (hr : r.WellFormed) (hr' : r'.WellFormed)
    (ns : Option String) (tree : Declarations) :
    SameOutcome ρ epochs (r.register ns tree) (r'.register ns tree) := by
  rw [Registry.register, Registry.register, h.handleFor, Node.ofDeclarations_rename]
  cases Node.ofDeclarations (r.handleFor ns) tree with
  | error fault => exact .refused rfl rfl
  | ok nodes => exact h.modifyScope_same hr hr' ns fun s => s.declare_rename ρ nodes

theorem apply_same (h : r.Image ρ epochs r') (hr : r.WellFormed) (hr' : r'.WellFormed)
    (ns : Option String) (change : Change) :
    SameOutcome ρ epochs (r.apply ns change) (r'.apply ns change) := by
  cases change with
  | register tree => exact h.register_same hr hr' ns tree
  | registerSketches sketches =>
    have hview : r'.sketchView = r.sketchView := by
      rw [sketchView, sketchView, h.root]
      rfl
    rw [Registry.apply, Registry.apply, registerSketches, registerSketches, hview]
    exact h.register_same hr hr' ns _
  | defineVariables vars => exact h.modifyScope_same hr hr' ns fun s => rfl
  | defineMixin name mixin => exact h.modifyScope_same hr hr' ns fun s => rfl

theorem reset (h : r.Image ρ epochs r') : r.reset.Image ρ epochs r'.reset where
  rootFallback := h.rootFallback
  epoch := by
    change r'.epoch + 1 = r.epoch + 1 + epochs
    rw [h.epoch, Nat.add_right_comm]
  size := rfl
  scopes := by
    intro handle
    by_cases hroot : handle = Handle.root
    · rw [hroot, ρ.root]
      rfl
    · have hroot' := mt ρ.handle_eq_root_iff.1 hroot
      rw [scope?_of_no_namespaces rfl hroot, scope?_of_no_namespaces rfl hroot']
      rfl
  handles := fun _ => rfl
  unissued := by
    intro handle hepoch hdead
    have hroot : handle ≠ Handle.root := by
      rintro rfl
      cases hdead
    -- no handle of a later epoch has been issued before the reset either
    have hlt : r.epoch < handle.epoch := hepoch
    exact h.unissued handle (Nat.le_of_lt hlt) (scope?_of_epoch_ne hroot (Nat.ne_of_gt hlt))

end Image

theorem image_of_empty {options options' : Options}
    (hfallback : options'.rootFallback = options.rootFallback) {epoch epoch' epochs : Nat}
    (hepoch : epoch' = epoch + epochs) (memo memo' : Memo) :
    Image (.later epochs) epochs ⟨options, epoch, Scope.root, [], ∅, memo⟩
      ⟨options', epoch', Scope.root, [], ∅, memo'⟩ where
  rootFallback := hfallback
  epoch := hepoch
  size := rfl
  scopes := by
    intro handle
    by_cases hroot : handle = Handle.root
    · rw [hroot, Renaming.root]
      rfl
    · have hroot' := mt (Renaming.later epochs).handle_eq_root_iff.1 hroot
      rw [scope?_of_no_namespaces rfl hroot, scope?_of_no_namespaces rfl hroot']
      rfl
  handles := fun _ => rfl
  unissued := fun _ _ _ => rfl

end Registry

end Stylebook
