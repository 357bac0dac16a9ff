import Stylebook.Proofs.Query.Visibility
import Stylebook.Proofs.Registry.Precedence
import Stylebook.Proofs.Selector.Grammar

namespace Stylebook

namespace Registry

variable {r : Registry} {asked path : Path} {owner start : Handle} {names : List String}
  {found : Located}

/-- No namespace and no declaration, at whatever depth, has an opening bracket in its name. -/
structure Bracketless (r : Registry) : Prop where
  namespaces : ∀ name handle, r.handle? name = some handle → '[' ∉ name.toList
  declarations : ∀ handle scope names node, r.scope? handle = some scope →
    scope.Reaches names node → ∀ name ∈ names, '[' ∉ name.toList

theorem Bracketless.of_decides (h : r.Bracketless) (hd : r.Decides asked owner names (.ok found)) :
    ∀ name ∈ names, '[' ∉ name.toList := by
  cases hd with
  | invokable live reached top => exact h.declarations owner _ names _ live reached

theorem Bracketless.of_locate (h : r.Bracketless) (hr : r.WellFormed)
    (hl : r.locate path start = .ok found) : ∀ segment ∈ path.segments, '[' ∉ segment.toList := by
  cases hs : r.scope? start with
  | none =>
    rw [locate_of_dead hs] at hl
    cases hl
  | some scope =>
    have hrules := hr.singlesOut_locate hs path
    rw [hl] at hrules
    cases hrules with
    | own declared decides => exact h.of_decides decides
    | inNamespace undeclared named elsewhere deeper decides =>
      have hhead := h.namespaces _ _ ((hr.denotes_iff _ _).1 named)
      exact List.forall_mem_cons.2 ⟨hhead, h.of_decides decides⟩
    | fallback undeclared unnamed inner allowed decides => exact h.of_decides decides

end Registry

namespace Query

open Selector

variable {q : Query} {r : Registry}

theorem alone_of_missing {path : Path} {fault : Fault}
    (h : r.locate path q.start = .error fault) : q.alone r path = .error fault := by
  rw [alone_eq_resolver, resolver, Registry.resolveFrom, Registry.resolveWithin_missing h]

theorem resolve_fails {path : Path} {fault : Fault} (hr : r.memo.Sound)
    (hpath : path ∈ q.selector.parts.flatMap expand)
    (hmissing : r.locate path q.start = .error fault) :
    ∃ first, (q.resolve r).1 = .error first := by
  have halone : .error fault ∈ (q.selector.parts.flatMap expand).map (q.alone r) :=
    List.mem_map.2 ⟨path, hpath, alone_of_missing hmissing⟩
  obtain ⟨first, hfirst⟩ := Resolving.mergeAnswers_of_mem_error halone
  refine ⟨first, ?_⟩
  rw [resolve_eq hr, hfirst]
  rfl

/-- Where no name has a bracket, a selector with a part that is not read is refused. -/
theorem resolve_unread (hr : r.Reachable) (hnames : r.Bracketless) {part : String}
    (hpart : part ∈ q.selector.parts) (hunread : ¬ ∃ paths, Reads part.toList paths) :
    ∃ fault, (q.resolve r).1 = .error fault := by
  obtain ⟨path, hpath, segment, hsegment, hbracket⟩ := exists_bracket_of_unread hunread
  have hmem : path ∈ q.selector.parts.flatMap expand := List.mem_flatMap.2 ⟨part, hpart, hpath⟩
  cases hl : r.locate path q.start with
  | error fault => exact resolve_fails hr.wellFormed.sound hmem hl
  | ok found => exact absurd hbracket (hnames.of_locate hr.wellFormed hl segment hsegment)

/-- What the grammar reads is expanded so, and a query for any other text is refused. -/
theorem selectors_accepted_by_grammar :
    (∀ text paths, Reads text.toList paths →
      expand text = paths ∧ ∀ path ∈ expand text, ∀ segment ∈ path.segments, '[' ∉ segment.toList) ∧
    (∀ text, (¬ ∃ paths, Reads text.toList paths) →
      ∃ path ∈ expand text, ∃ segment ∈ path.segments, '[' ∈ segment.toList) ∧
    ∀ r : Registry, r.Reachable → r.Bracketless → ∀ q : Query,
      (∃ part ∈ q.selector.parts, ¬ ∃ paths, Reads part.toList paths) →
      ∃ fault, (q.resolve r).1 = .error fault := by
  refine ⟨?_, ?_, ?_⟩
  · intro text paths hreads
    have hexpand : expand text = paths := hreads.expandChars_eq
    refine ⟨hexpand, ?_⟩
    intro path hpath segment hsegment
    rw [hexpand] at hpath
    exact hreads.bracketless hpath hsegment
  · intro text hunread
    exact exists_bracket_of_unread hunread
  · intro r hr hnames q hpart
    obtain ⟨part, hpart, hunread⟩ := hpart
    exact resolve_unread hr hnames hpart hunread

def boxes : String := "box[lid base],base"

def boxPaths : List Path := [⟨"box", ["lid"]⟩, ⟨"box", ["base"]⟩, ⟨"base", []⟩]

def stuck : String := "x[a]y[b]"

theorem boxes_read : Reads boxes.toList boxPaths := by
  have hspelled : '[' ∉ spellOut boxes.toList := by decide +kernel
  obtain ⟨paths, hreads⟩ := exists_reads hspelled
  have hpaths : expandChars boxes.toList = boxPaths := by decide +kernel
  rw [hreads.expandChars_eq] at hpaths
  rwa [hpaths] at hreads

theorem stuck_unread : ¬ ∃ paths, Reads stuck.toList paths := by
  rintro ⟨paths, hreads⟩
  have hpath : (⟨"x[a]", []⟩ : Path) ∈ expandChars stuck.toList := by decide +kernel
  rw [hreads.expandChars_eq] at hpath
  exact absurd (hreads.bracketless hpath List.mem_cons_self) (by decide)

def baseOnly : Registry :=
  (Registry.new .default).perform
    (.change none (.register (Dict.singleton "base" (.attributes ∅))))

theorem bracketless_baseOnly : baseOnly.Bracketless where
  namespaces := by
    intro name handle h
    cases h
  declarations := by
    intro handle scope names node hs hreached
    have hentries : baseOnly.root.declarations.entries = [("base", .leaf (.fixed ∅))] := rfl
    rcases Registry.scope?_eq_some hs with ⟨_, rfl⟩ | ⟨index, _, hi⟩
    · obtain ⟨declared, below⟩ := hreached
      rw [Dict.get?, hentries, lookup_entry] at declared
      split at declared
      · next hname =>
        cases declared
        cases below with
        | here => exact List.forall_mem_singleton.2 (hname ▸ by decide)
        | child step rest => cases step
      · cases declared
    · cases hi

theorem boxes_expanded_and_stuck_refused :
    expand boxes = boxPaths ∧
      (∃ path ∈ expand stuck, ∃ segment ∈ path.segments, '[' ∈ segment.toList) ∧
      ∃ fault,
        ((Query.new Handle.root (.list ["base", stuck])).resolve baseOnly).1 = .error fault := by
  obtain ⟨hread, hunread, hrefused⟩ := selectors_accepted_by_grammar
  have hreachable : baseOnly.Reachable := (Registry.Reachable.new .default).perform _
  refine ⟨(hread boxes boxPaths boxes_read).1, hunread stuck stuck_unread, ?_⟩
  apply hrefused baseOnly hreachable bracketless_baseOnly
  exact ⟨stuck, List.mem_cons_of_mem _ List.mem_cons_self, stuck_unread⟩

end Query

end Stylebook
