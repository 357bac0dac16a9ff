import Stylebook.Proofs.Registry.Reachable

namespace Stylebook

def Stage.vars? : Stage → Option Attributes
  | .vars overrides => some overrides
  | .attributes _ => none

def Stage.attributes? : Stage → Option Attributes
  | .vars _ => none
  | .attributes staged => some staged

namespace Query

variable {q : Query} {r : Registry} {m : Memo}

def ofStages (start : Handle) (selector : Selector) (stages : List Stage) : Query :=
  stages.foldl withStage (new start selector)

theorem withAttributes_eq (q : Query) (attributes : Attributes) :
    q.withAttributes attributes =
      { q with staged := some ((q.staged.getD ∅).merge attributes) } := by
  rw [withAttributes]
  cases q.staged with
  | none => rw [Option.getD_none, Dict.empty_merge]
  | some staged => rfl

theorem foldl_withStage (q : Query) (stages : List Stage) :
    (stages.foldl withStage q).start = q.start ∧
      (stages.foldl withStage q).selector = q.selector ∧
      (stages.foldl withStage q).vars = (stages.filterMap Stage.vars?).foldl Dict.merge q.vars ∧
      (stages.foldl withStage q).staged.getD ∅ =
        (stages.filterMap Stage.attributes?).foldl Dict.merge (q.staged.getD ∅) := by
  induction stages generalizing q with
  | nil => exact ⟨rfl, rfl, rfl, rfl⟩
  | cons stage rest ih =>
    cases stage with
    | vars overrides => exact ih (q.withVariables overrides)
    | attributes staged =>
      have hrest := ih (q.withAttributes staged)
      rw [withAttributes_eq] at hrest
      rw [List.foldl_cons, withStage, withAttributes_eq]
      exact hrest

def plain (q : Query) (selector : Selector) : Query :=
  { q with selector := selector, staged := none }

/-- The answer for a path alone, given as a path: as a selector its text may stand for another. -/
def alone (q : Query) (r : Registry) (path : Path) : Except Fault Attributes :=
  ((q.plain q.selector).resolvePaths r [path] (Evaluation.start r.memo)).1

theorem paths_eq (hr : r.memo.Sound) (q : Query) :
    (q.paths r).1 = q.selector.parts.flatMap expand :=
  (hr.expandAll q.selector.parts).1

theorem resolve_eq (hr : r.memo.Sound) (q : Query) :
    (q.resolve r).1 =
      (Resolving.mergeAnswers ((q.selector.parts.flatMap expand).map (q.alone r))).map
        fun merged => merged.merge (q.staged.getD ∅) := by
  have hmerged := Resolving.mergeAll_eq_mergeAnswers q.resolver_alike (q.paths r).1
    (q.evaluation_alike hr)
  rw [resolve_eq_conclude, conclude, hmerged.1, paths_eq hr]
  rfl

theorem alone_memo (hr : r.memo.Sound) (hm : m.Sound) (path : Path) :
    q.alone { r with memo := m } path = q.alone r path := by
  rw [alone, resolvePaths_memo]
  exact (q.resolver_alike path (Evaluation.start m) ⟨rfl, hm, hr⟩).1

theorem resolve_memo (hr : r.memo.Sound) (hm : m.Sound) (q : Query) :
    (q.resolve { r with memo := m }).1 = (q.resolve r).1 := by
  have halone : q.alone { r with memo := m } = q.alone r := funext (alone_memo hr hm)
  rw [resolve_eq hm, resolve_eq hr, halone]

theorem resolve_congr {q q' : Query} (r : Registry) (hstart : q'.start = q.start)
    (hselector : q'.selector = q.selector) (hvars : q'.vars = q.vars)
    (hstaged : q'.staged.getD ∅ = q.staged.getD ∅) : q'.resolve r = q.resolve r := by
  obtain ⟨start, selector, vars, staged⟩ := q
  obtain ⟨start', selector', vars', staged'⟩ := q'
  cases hstart
  cases hselector
  cases hvars
  rw [resolve_eq_conclude, resolve_eq_conclude, conclude, conclude, hstaged]
  rfl

theorem resolve_plain (hr : r.memo.Sound) (q : Query) (selector : Selector) :
    ((q.plain selector).resolve r).1 =
      Resolving.mergeAnswers ((selector.parts.flatMap expand).map (q.alone r)) := by
  rw [resolve_eq hr]
  change Except.map (fun merged => merged)
    (Resolving.mergeAnswers ((selector.parts.flatMap expand).map (q.alone r))) = _
  cases Resolving.mergeAnswers ((selector.parts.flatMap expand).map (q.alone r)) <;> rfl

theorem resolve_append (hr : r.memo.Sound) (q : Query) (xs ys : List String) :
    ((q.plain (.list (xs ++ ys))).resolve r).1 = do
      let below ← ((q.plain (.list xs)).resolve r).1
      let above ← ((q.plain (.list ys)).resolve r).1
      return below.merge above := by
  rw [resolve_plain hr, resolve_plain hr, resolve_plain hr]
  simp only [Selector.parts]
  rw [List.flatMap_append, List.map_append, Resolving.mergeAnswers_append]

theorem resolve_repeat (hr : r.memo.Sound) (q : Query) (texts : List String) (n : Nat) :
    ((q.plain (.list (List.replicate (n + 1) texts).flatten)).resolve r).1 =
      ((q.plain (.list texts)).resolve r).1 := by
  induction n with
  | zero => rw [List.replicate_one, List.flatten_singleton]
  | succ n ih =>
    rw [List.replicate_succ, List.flatten_cons, resolve_append hr, ih]
    cases ((q.plain (.list texts)).resolve r).1 with
    | error fault => rfl
    | ok merged => exact congrArg Except.ok (Dict.merge_self merged)

theorem exists_alone_of_resolve_error {fault : Fault} (hr : r.memo.Sound)
    (h : (q.resolve r).1 = .error fault) :
    ∃ path ∈ (q.paths r).1, q.alone r path = .error fault := by
  rw [resolve_eq hr] at h
  cases hm : Resolving.mergeAnswers ((q.selector.parts.flatMap expand).map (q.alone r)) with
  | ok merged => rw [hm] at h; cases h
  | error first =>
    rw [hm] at h
    cases h
    obtain ⟨path, hpath, halone⟩ := List.mem_map.1 (Resolving.mem_of_mergeAnswers_error hm)
    rw [paths_eq hr]
    exact ⟨path, hpath, halone⟩

/-- The query is the merge of its paths alone, with `staged` merged over them. -/
structure IsOrderedMerge (q : Query) (r : Registry) (staged : List Attributes) : Prop where
  paths : (q.paths r).1 = q.selector.parts.flatMap expand
  single : ∀ selector path, ((q.plain selector).paths r).1 = [path] →
    ((q.plain selector).resolve r).1 = q.alone r path
  first_fault : ∀ before path after fault, (q.paths r).1 = before ++ path :: after →
    (∀ earlier ∈ before, ∃ attributes, q.alone r earlier = .ok attributes) →
    q.alone r path = .error fault → (q.resolve r).1 = .error fault
  merged : ∀ results, (q.paths r).1.map (q.alone r) = results.map Except.ok →
    (q.resolve r).1 = .ok ((results ++ staged).foldl Dict.merge ∅)
  short_way : ∀ selector resolve path,
    (q.plain selector).mergePaths resolve [path] = (q.plain selector).mergeStaged resolve [path]
  appended : ∀ xs ys, ((q.plain (.list (xs ++ ys))).resolve r).1 = do
    let below ← ((q.plain (.list xs)).resolve r).1
    let above ← ((q.plain (.list ys)).resolve r).1
    return below.merge above
  repeated : ∀ texts n, ((q.plain (.list (List.replicate (n + 1) texts).flatten)).resolve r).1 =
    ((q.plain (.list texts)).resolve r).1
  fault_of_one : ∀ fault, (q.resolve r).1 = .error fault →
    ∃ path ∈ (q.paths r).1, q.alone r path = .error fault
  undisturbed : ∀ other : Query, (q.resolve (other.resolve r).2).1 = (q.resolve r).1

theorem isOrderedMerge (hr : r.WellFormed) {staged : List Attributes}
    (hstaged : q.staged.getD ∅ = staged.foldl Dict.merge ∅) : q.IsOrderedMerge r staged where
  paths := paths_eq hr.sound q
  single := by
    intro selector path h
    rw [paths_eq hr.sound] at h
    change selector.parts.flatMap expand = [path] at h
    rw [resolve_plain hr.sound, h, List.map_singleton, Resolving.mergeAnswers_singleton]
  first_fault := by
    intro before path after fault h hbefore hfault
    rw [paths_eq hr.sound] at h
    have hanswers : ∀ answer ∈ before.map (q.alone r), ∃ attributes, answer = .ok attributes := by
      intro answer hmem
      obtain ⟨earlier, hearlier, rfl⟩ := List.mem_map.1 hmem
      exact hbefore earlier hearlier
    rw [resolve_eq hr.sound, h, List.map_append, List.map_cons, hfault,
      Resolving.mergeAnswers_first_error hanswers]
    rfl
  merged := by
    intro results h
    rw [paths_eq hr.sound] at h
    rw [resolve_eq hr.sound, h, Resolving.mergeAnswers_ok, hstaged, List.foldl_append,
      Dict.foldl_merge (results.foldl Dict.merge ∅)]
    rfl
  short_way := by
    intro selector resolve path
    exact mergePaths_eq_mergeStaged _ resolve [path]
  appended := resolve_append hr.sound q
  repeated := resolve_repeat hr.sound q
  fault_of_one := by
    intro fault h
    exact exists_alone_of_resolve_error hr.sound h
  undisturbed := by
    intro other
    exact resolve_memo hr.sound (hr.resolve other).sound q

/-- A query is the merge of its paths alone, in order, and then of what its stages come to. -/
theorem resolve_is_ordered_merge (hr : r.Reachable) (start : Handle) (selector : Selector)
    (stages : List Stage) :
    (ofStages start selector stages).IsOrderedMerge r (stages.filterMap Stage.attributes?) ∧
      (ofStages start selector stages).start = start ∧
      (ofStages start selector stages).selector = selector ∧
      (ofStages start selector stages).vars =
        (stages.filterMap Stage.vars?).foldl Dict.merge ∅ ∧
      ∀ stages' : List Stage,
        (stages'.filterMap Stage.vars?).foldl Dict.merge (∅ : Attributes) =
          (stages.filterMap Stage.vars?).foldl Dict.merge ∅ →
        (stages'.filterMap Stage.attributes?).foldl Dict.merge (∅ : Attributes) =
          (stages.filterMap Stage.attributes?).foldl Dict.merge ∅ →
        (ofStages start selector stages').resolve r =
          (ofStages start selector stages).resolve r := by
  obtain ⟨hstart, hselector, hvars, hstaged⟩ := foldl_withStage (new start selector) stages
  refine ⟨isOrderedMerge hr.wellFormed hstaged, hstart, hselector, hvars, ?_⟩
  intro stages' hsamevars hsamestaged
  obtain ⟨hstart', hselector', hvars', hstaged'⟩ := foldl_withStage (new start selector) stages'
  apply resolve_congr r
  · exact hstart'.trans hstart.symm
  · exact hselector'.trans hselector.symm
  · exact hvars'.trans (hsamevars.trans hvars.symm)
  · exact hstaged'.trans (hsamestaged.trans hstaged.symm)

def sampleStages : List Stage := [.attributes (Dict.singleton "height" (.integer 2)),
  .vars (Dict.singleton "width" (.integer 3)), .attributes (Dict.singleton "depth" (.integer 4))]

theorem base_twice_and_missing :
    ((ofStages Handle.root (.list ["base", "base"]) sampleStages).resolve sampleRegistry).1 =
      .ok ([Dict.singleton "width" (.integer 1), Dict.singleton "width" (.integer 1),
        Dict.singleton "height" (.integer 2), Dict.singleton "depth" (.integer 4)].foldl
          Dict.merge ∅) ∧
    ((ofStages Handle.root (.text "base missing") sampleStages).resolve sampleRegistry).1 =
      .error (.unknownPath "missing") := by
  have hr := Registry.reachable_sampleRegistry
  constructor
  · have hpaths : ((ofStages Handle.root (.list ["base", "base"]) sampleStages).paths
        sampleRegistry).1 = [⟨"base", []⟩, ⟨"base", []⟩] := by decide +kernel
    have hmerge := resolve_is_ordered_merge hr Handle.root (.list ["base", "base"]) sampleStages
    apply hmerge.1.merged [_, _]
    rw [hpaths]
    rfl
  · have hpaths : ((ofStages Handle.root (.text "base missing") sampleStages).paths
        sampleRegistry).1 = [⟨"base", []⟩, ⟨"missing", []⟩] := by decide +kernel
    have hmerge := resolve_is_ordered_merge hr Handle.root (.text "base missing") sampleStages
    apply hmerge.1.first_fault [⟨"base", []⟩] ⟨"missing", []⟩ []
    · exact hpaths
    · intro earlier h
      obtain rfl := List.mem_singleton.1 h
      exact ⟨_, rfl⟩
    · rfl

end Query

end Stylebook
