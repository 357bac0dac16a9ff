import Stylebook.Proofs.Registry.Coherence

namespace Stylebook.Registry

variable {r r' : Registry} {ns : Option String} {name : String} {handle : Handle}

/-- A handle is handed out by a change, for its name, or with a declaration that it owns. -/
inductive Issues (r : Registry) : Option String → Handle → Registry → Prop
  | root : Issues r none Handle.root r
  | change {ns : Option String} {change : Change} {handle : Handle} {r' : Registry}
      (applied : r.apply ns change = .ok (handle, r')) : Issues r ns handle r'
  | named {name : String} {handle : Handle} (found : r.handle? name = some handle) :
      Issues r (some name) handle r
  | located {path : Path} {start : Handle} {found : Located} {scope : Scope}
      (present : r.locate path start = .ok found) (owner : r.scope? found.owner = some scope) :
      Issues r scope.name found.owner r

def handleOf? (r : Registry) : Option String → Option Handle
  | none => some Handle.root
  | some name => r.handle? name

theorem Issues.reachable (h : r.Issues ns handle r') (hr : r.Reachable) : r'.Reachable := by
  cases h with
  | root => exact hr
  | change applied => exact hr.change applied
  | named found => exact hr
  | located present owner => exact hr

theorem Issues.continues (h : r.Issues ns handle r') : r.Continues r' := by
  cases h with
  | root => exact .refl r
  | change applied => exact continues_apply applied
  | named found => exact .refl r
  | located present owner => exact .refl r

theorem handleOf?_of_apply {change : Change} (h : r.apply ns change = .ok (handle, r')) :
    r'.handleOf? ns = some handle := by
  obtain ⟨edit, he⟩ := apply_eq_ok h
  obtain ⟨rfl, rfl⟩ := Prod.mk.inj he
  cases ns with
  | none => rfl
  | some name => exact (modifyAt_handle? _ _ _ _).trans (r.handle?_ensure name)

theorem WellFormed.handleOf?_of_issues (h : r.WellFormed) (hi : r.Issues ns handle r') :
    r'.handleOf? ns = some handle := by
  cases hi with
  | root => rfl
  | change applied => exact handleOf?_of_apply applied
  | named found => exact found
  | @located path start found scope present owner =>
    rcases scope?_eq_some owner with ⟨hroot, rfl⟩ | ⟨index, hindex, hi⟩
    · rw [h.root_scope.1, hroot]
      rfl
    · obtain ⟨_, own, hown, hhandle⟩ := h.namespace_scope index scope hi
      rw [hown, hindex]
      exact hhandle

/-- A live handle stands for the scope of that name. -/
def Denotes (r : Registry) (handle : Handle) (name : String) : Prop :=
  ∃ scope, r.scope? handle = some scope ∧ scope.name = some name

theorem WellFormed.denotes_iff (h : r.WellFormed) (handle : Handle) (name : String) :
    r.Denotes handle name ↔ r.handle? name = some handle := by
  rw [h.handle?_iff]
  constructor
  · rintro ⟨scope, hs, hname⟩
    rcases scope?_eq_some hs with ⟨rfl, rfl⟩ | ⟨index, rfl, hi⟩
    · rw [h.root_scope.1] at hname
      cases hname
    · exact ⟨index, scope, hi, hname, rfl⟩
  · rintro ⟨index, scope, hi, hname, rfl⟩
    exact ⟨scope, (r.scope?_handleAt index).trans hi, hname⟩

theorem WellFormed.scope_of_handleOf? (h : r.WellFormed) (hn : r.handleOf? ns = some handle) :
    ∃ scope, r.scope? handle = some scope ∧ scope.name = ns := by
  cases ns with
  | none =>
    cases hn
    exact ⟨r.root, rfl, h.root_scope.1⟩
  | some name => exact (h.denotes_iff handle name).2 hn

/-- The handle denotes the scope of that name, and no other handle does or is handed out for it. -/
structure IsHandleOf (r : Registry) (handle : Handle) (name : String) : Prop where
  denotes : ∀ other, r.Denotes other name ↔ other = handle
  found : r.handle? name = some handle
  issued : ∀ other r', r.Issues (some name) other r' → other = handle

theorem WellFormed.isHandleOf (h : r.WellFormed) (hn : r.handle? name = some handle) :
    r.IsHandleOf handle name where
  denotes := by
    intro other
    rw [h.denotes_iff, hn, Option.some.injEq]
    exact eq_comm
  found := hn
  issued := by
    intro other r' hi
    have hother : r'.handle? name = some other := h.handleOf?_of_issues hi
    rw [hi.continues.handles name handle hn] at hother
    exact (Option.some.inj hother).symm

/-- Nothing is found by way of the handle, and it is not handed out again. -/
structure IsDead (r : Registry) (handle : Handle) : Prop where
  scope : r.scope? handle = none
  ancestors : r.ancestors handle = []
  vars : ∀ name, r.lookup? handle name = none
  mixins : ∀ name, r.mixin? handle name = none
  locate : ∀ path, r.locate path handle = .error (.unknownPath path.text)
  query : ∀ q : Query, q.start = handle → ∀ first rest, (q.paths r).1 = first :: rest →
    (q.resolve r).1 = .error (.unknownPath first.text)
  unissued : ∀ ns other r', r.Issues ns other r' → other ≠ handle

theorem scope?_of_epoch_ne (hroot : handle ≠ Handle.root) (hepoch : handle.epoch ≠ r.epoch) :
    r.scope? handle = none := by
  cases hs : r.scope? handle with
  | none => rfl
  | some scope =>
    rcases scope?_eq_some hs with ⟨he, _⟩ | ⟨index, rfl, _⟩
    · exact absurd he hroot
    · exact absurd rfl hepoch

theorem locate_of_dead (h : r.scope? handle = none) (path : Path) :
    r.locate path handle = .error (.unknownPath path.text) := by
  simp only [locate, h]

theorem Reachable.isDead (h : r.Reachable) (hroot : handle ≠ Handle.root)
    (hepoch : handle.epoch ≠ r.epoch) : r.IsDead handle := by
  have hs : r.scope? handle = none := scope?_of_epoch_ne hroot hepoch
  have ha : r.ancestors handle = [] := ancestors_of_dead hs
  exact {
    scope := hs
    ancestors := ha
    vars := by
      intro name
      rw [lookup?, ha]
      rfl
    mixins := by
      intro name
      rw [mixin?, ha]
      rfl
    locate := locate_of_dead hs
    query := by
      rintro q rfl first rest hpaths
      exact Query.resolve_of_missing hpaths (locate_of_dead hs first)
    unissued := by
      rintro ns other r' hi rfl
      have hother := h.wellFormed.handleOf?_of_issues hi
      cases ns with
      | none => exact hroot (Option.some.inj hother).symm
      | some name =>
        -- a handle that is handed out for a name bears the epoch that the registry is in
        obtain ⟨index, scope, he, _⟩ := (hi.reachable h).wellFormed.named name other hother
        rw [he] at hepoch
        exact hepoch hi.continues.epoch }

theorem Reachable.handle_of_issues (h : r.Reachable) (hi : r.Issues (some name) handle r') :
    r'.handle? name = some handle ∧ handle ≠ Handle.root ∧ handle.epoch = r'.epoch := by
  have hn : r'.handle? name = some handle := h.wellFormed.handleOf?_of_issues hi
  obtain ⟨index, scope, rfl, _⟩ := (hi.reachable h).wellFormed.named name handle hn
  refine ⟨hn, ?_, rfl⟩
  intro he
  exact Nat.succ_ne_zero index (congrArg Handle.slot he)

/-- Until a reset the handle of a namespace is the one handle of it, and then it is dead for good.
Fewer than 2^64 resets are meant. -/
theorem handles_live_one_epoch (hr : r.Reachable) :
    (∀ name handle r', r.Issues (some name) handle r' → ∀ operations, .reset ∉ operations →
      (r'.performAll operations).IsHandleOf handle name) ∧
    (∀ name handle r', r.Issues (some name) handle r' → ∀ operations, .reset ∈ operations →
      (r'.performAll operations).IsDead handle) ∧
    ∀ handle r', r.Issues none handle r' → ∀ operations,
      (r'.performAll operations).scope? handle = some (r'.performAll operations).root := by
  refine ⟨?_, ?_, ?_⟩
  · intro name handle r' hi operations hreset
    obtain ⟨hn, _⟩ := hr.handle_of_issues hi
    have hlater := ((hi.reachable hr).performAll operations).wellFormed
    exact hlater.isHandleOf ((r'.continues_performAll hreset).handles name handle hn)
  · intro name handle r' hi operations hreset
    obtain ⟨_, hroot, hepoch⟩ := hr.handle_of_issues hi
    have hlater := (hi.reachable hr).performAll operations
    have hlt := r'.epoch_lt_of_reset hreset
    exact hlater.isDead hroot (by omega)
  · intro handle r' hi operations
    have hroot : some Handle.root = some handle := hr.wellFormed.handleOf?_of_issues hi
    cases hroot
    rfl

def themed : Operation := .change (some "theme") (.defineVariables ∅)

def firstTheme : Handle := ⟨1, 0, fun h => absurd h Nat.one_ne_zero⟩

def secondTheme : Handle := ⟨1, 1, fun h => absurd h Nat.one_ne_zero⟩

theorem theme_dead_though_there_again :
    let now := (Registry.new .default).perform themed
    now.IsHandleOf firstTheme "theme" ∧
      (now.performAll [.reset, themed]).IsDead firstTheme ∧
      (now.performAll [.reset, themed]).handle? "theme" = some secondTheme := by
  have happly : (Registry.new .default).apply (some "theme") (.defineVariables ∅) =
      .ok (firstTheme, (Registry.new .default).perform themed) := rfl
  have hissued := Issues.change happly
  obtain ⟨hlive, hdead, _⟩ := handles_live_one_epoch (Reachable.new .default)
  refine ⟨hlive _ _ _ hissued [] List.not_mem_nil, ?_, rfl⟩
  exact hdead _ _ _ hissued [.reset, themed] List.mem_cons_self

end Stylebook.Registry
