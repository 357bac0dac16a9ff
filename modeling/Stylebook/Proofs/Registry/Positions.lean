import Stylebook.Proofs.Registry.Precedence
import Stylebook.Proofs.Selector.Canonical

namespace Stylebook.Registry

/-- A scope, and the names that lead from the top of its tree to a node. -/
structure Position where
  owner : Handle
  names : List String

/-- Where a path is looked for: in the start, in the namespace it begins with, or in the root. -/
inductive LeadsTo (r : Registry) (path : Path) (start : Handle) : Position → Prop
  | own (declared : r.Declares start path.head) : LeadsTo r path start ⟨start, path.segments⟩
  | inNamespace {other : Handle} (undeclared : ¬ r.Declares start path.head)
      (named : r.Denotes other path.head) (elsewhere : other ≠ start) (deeper : path.tail ≠ []) :
      LeadsTo r path start ⟨other, path.tail⟩
  | fallback (undeclared : ¬ r.Declares start path.head)
      (unnamed : ∀ other, r.Denotes other path.head → other = start)
      (inner : start ≠ Handle.root) (allowed : r.options.rootFallback = true) :
      LeadsTo r path start ⟨Handle.root, path.segments⟩

variable {r : Registry} {path path' asked : Path} {start start' owner : Handle}
  {position position' : Position} {found found' : Located}

theorem LeadsTo.eq (h : r.LeadsTo path start position) (h' : r.LeadsTo path start position')
    (hr : r.WellFormed) : position = position' := by
  cases h with
  | own declared =>
    cases h' with
    | own _ => rfl
    | inNamespace undeclared _ _ _ => exact absurd declared undeclared
    | fallback undeclared _ _ _ => exact absurd declared undeclared
  | @inNamespace other undeclared named elsewhere deeper =>
    cases h' with
    | own declared => exact absurd declared undeclared
    | @inNamespace other' _ named' _ _ =>
      -- one name has one handle
      have hother := (hr.denotes_iff other path.head).1 named
      have hother' := (hr.denotes_iff other' path.head).1 named'
      obtain rfl : other = other' := Option.some.inj (hother.symm.trans hother')
      rfl
    | fallback _ unnamed _ _ => exact absurd (unnamed other named) elsewhere
  | fallback undeclared unnamed inner allowed =>
    cases h' with
    | own declared => exact absurd declared undeclared
    | @inNamespace other _ named elsewhere _ => exact absurd (unnamed other named) elsewhere
    | fallback _ _ _ _ => rfl

theorem WellFormed.exists_leadsTo (hr : r.WellFormed) (h : r.locate path start = .ok found) :
    ∃ position, r.LeadsTo path start position ∧
      r.Decides path position.owner position.names (.ok found) := by
  cases hs : r.scope? start with
  | none =>
    rw [locate_of_dead hs] at h
    cases h
  | some scope =>
    have hrules := hr.singlesOut_locate hs path
    rw [h] at hrules
    cases hrules with
    | own declared decides => exact ⟨_, .own declared, decides⟩
    | inNamespace undeclared named elsewhere deeper decides =>
      exact ⟨_, .inNamespace undeclared named elsewhere deeper, decides⟩
    | fallback undeclared unnamed inner allowed decides =>
      exact ⟨_, .fallback undeclared unnamed inner allowed, decides⟩

theorem LeadsTo.exists_canonical (h : r.LeadsTo path start position) (hpath : path.IsCanonical) :
    ∃ inner : Path, inner.IsCanonical ∧ position.names = inner.segments := by
  cases h with
  | own _ => exact ⟨path, hpath, rfl⟩
  | fallback _ _ _ _ => exact ⟨path, hpath, rfl⟩
  | inNamespace _ _ _ deeper =>
    obtain ⟨head, tail⟩ := path
    cases tail with
    | nil => exact absurd rfl deeper
    | cons name names =>
      refine ⟨⟨name, names⟩, ?_, rfl⟩
      intro segment hsegment
      exact hpath segment (List.mem_cons_of_mem head hsegment)

theorem Decides.locate_eq {inner : Path} (hr : r.WellFormed)
    (h : r.Decides asked owner inner.segments (.ok found)) :
    found.owner = owner ∧ found.key = inner.text ∧ r.locate inner owner = .ok found := by
  cases h with
  | invokable live reached top =>
    refine ⟨rfl, rfl, ?_⟩
    obtain ⟨declared, _⟩ := id reached
    exact (SinglesOut.own ⟨_, _, live, declared⟩ (.invokable live reached top)).locate_eq hr live

/-- A position has the name of what is there: the owner, and a path whose text is the key. -/
theorem LeadsTo.named (h : r.LeadsTo path start position) (hpath : path.IsCanonical)
    (hr : r.WellFormed) (hfound : r.locate path start = .ok found) :
    ∃ inner : Path, inner.IsCanonical ∧ position = ⟨found.owner, inner.segments⟩ ∧
      found.key = inner.text ∧ r.locate inner found.owner = .ok found := by
  obtain ⟨position', hleads, decides⟩ := hr.exists_leadsTo hfound
  obtain rfl := h.eq hleads hr
  obtain ⟨inner, hinner, hnames⟩ := h.exists_canonical hpath
  obtain ⟨owner, names⟩ := position
  cases hnames
  obtain ⟨rfl, hkey, hagain⟩ := decides.locate_eq hr
  exact ⟨inner, hinner, rfl, hkey, hagain⟩

theorem LeadsTo.eq_iff (h : r.LeadsTo path start position)
    (h' : r.LeadsTo path' start' position') (hpath : path.IsCanonical) (hpath' : path'.IsCanonical)
    (hr : r.WellFormed) (hfound : r.locate path start = .ok found)
    (hfound' : r.locate path' start' = .ok found') :
    found.owner = found'.owner ∧ found.key = found'.key ↔ position = position' := by
  obtain ⟨inner, hinner, rfl, hkey, _⟩ := h.named hpath hr hfound
  obtain ⟨inner', hinner', rfl, hkey', _⟩ := h'.named hpath' hr hfound'
  rw [hkey, hkey', Position.mk.injEq]
  constructor
  · rintro ⟨howner, htext⟩
    exact ⟨howner, congrArg Path.segments (hinner.eq_of_text_eq hinner' htext)⟩
  · rintro ⟨howner, hsegments⟩
    exact ⟨howner, congrArg Path.text (Path.segments_injective hsegments)⟩

theorem WellFormed.exists_locate_key (hr : r.WellFormed) (hpath : path.IsCanonical)
    (hfound : r.locate path start = .ok found) :
    ∃ key, Path.parse? found.key = some key ∧ r.locate key found.owner = .ok found := by
  obtain ⟨position, hleads, _⟩ := hr.exists_leadsTo hfound
  obtain ⟨inner, hinner, _, hkey, hagain⟩ := hleads.named hpath hr hfound
  rw [hkey]
  exact ⟨inner, hinner.parse?_text, hagain⟩

theorem WellFormed.eq_of_owner_of_key (hr : r.WellFormed) (hpath : path.IsCanonical)
    (hpath' : path'.IsCanonical) (hfound : r.locate path start = .ok found)
    (hfound' : r.locate path' start' = .ok found') (howner : found.owner = found'.owner)
    (hkey : found.key = found'.key) : found = found' := by
  obtain ⟨key, hread, hagain⟩ := hr.exists_locate_key hpath hfound
  obtain ⟨key', hread', hagain'⟩ := hr.exists_locate_key hpath' hfound'
  rw [hkey, hread'] at hread
  cases hread
  rw [howner, hagain'] at hagain
  exact (Except.ok.inj hagain).symm

/-- Paths lead to one position just when owner and key agree, and the key leads back to it. -/
theorem owner_and_key_name_the_position (hr : r.Reachable) {text text' : String}
    (hpath : path ∈ Stylebook.expand text) (hpath' : path' ∈ Stylebook.expand text')
    (hfound : r.locate path start = .ok found) (hfound' : r.locate path' start' = .ok found') :
    (∃ position, r.LeadsTo path start position ∧
      r.Decides path position.owner position.names (.ok found)) ∧
    (∃ position, r.LeadsTo path' start' position ∧
      r.Decides path' position.owner position.names (.ok found')) ∧
    (∀ position position', r.LeadsTo path start position → r.LeadsTo path' start' position' →
      (found.owner = found'.owner ∧ found.key = found'.key ↔ position = position')) ∧
    (found.owner = found'.owner → found.key = found'.key →
      found.recipe = found'.recipe ∧ found.label = found'.label) ∧
    ∃ key, Path.parse? found.key = some key ∧ r.locate key found.owner = .ok found := by
  have hcanonical := Selector.isCanonical_of_mem_expandChars hpath
  have hcanonical' := Selector.isCanonical_of_mem_expandChars hpath'
  refine ⟨hr.wellFormed.exists_leadsTo hfound, hr.wellFormed.exists_leadsTo hfound', ?_, ?_,
    hr.wellFormed.exists_locate_key hcanonical hfound⟩
  · intro position position' h h'
    exact h.eq_iff h' hcanonical hcanonical' hr.wellFormed hfound hfound'
  · intro howner hkey
    have heq := hr.wellFormed.eq_of_owner_of_key hcanonical hcanonical' hfound hfound' howner hkey
    exact ⟨congrArg Located.recipe heq, congrArg Located.label heq⟩

theorem boxes_told_apart_by_owner :
    (∀ position position',
      crossed.LeadsTo ⟨"theme", ["box"]⟩ (crossed.handleAt 0) position →
      crossed.LeadsTo ⟨"theme", ["box"]⟩ Handle.root position' → position = position') ∧
    (∀ position position',
      crossed.LeadsTo ⟨"theme", ["box"]⟩ (crossed.handleAt 0) position →
      crossed.LeadsTo ⟨"theme", ["box"]⟩ (crossed.handleAt 1) position' → position ≠ position') ∧
    ∃ key, Path.parse? boxOfTheme.key = some key ∧
      crossed.locate key boxOfTheme.owner = .ok boxOfTheme := by
  have hreachable : crossed.Reachable := (Reachable.new .default).performAll _
  have hpath : ⟨"theme", ["box"]⟩ ∈ Stylebook.expand "theme.box" := by decide +kernel
  have hfallback : crossed.locate ⟨"theme", ["box"]⟩ (crossed.handleAt 0) = .ok boxOfRoot := rfl
  have hown : crossed.locate ⟨"theme", ["box"]⟩ Handle.root = .ok boxOfRoot := rfl
  have helsewhere : crossed.locate ⟨"theme", ["box"]⟩ (crossed.handleAt 1) = .ok boxOfTheme := rfl
  obtain ⟨_, _, hsame, _⟩ :=
    owner_and_key_name_the_position hreachable hpath hpath hfallback hown
  obtain ⟨_, _, hother, _⟩ :=
    owner_and_key_name_the_position hreachable hpath hpath hfallback helsewhere
  obtain ⟨_, _, _, _, hagain⟩ :=
    owner_and_key_name_the_position hreachable hpath hpath helsewhere helsewhere
  refine ⟨?_, ?_, hagain⟩
  · intro position position' h h'
    exact (hsame position position' h h').1 ⟨rfl, rfl⟩
  · rintro position position' h h' he
    obtain ⟨howner, _⟩ := (hother position position' h h').2 he
    exact absurd howner (by decide)

end Stylebook.Registry
