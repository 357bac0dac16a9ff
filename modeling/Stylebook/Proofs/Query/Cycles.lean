import Mathlib.Data.List.Chain
import Mathlib.Order.Basic
import Stylebook.Proofs.Body.Faults
import Stylebook.Proofs.Registry.Reachable

namespace Stylebook.Query

universe u

variable {q : Query} {r : Registry} {request : Request} {found : Located} {path : String}
  {chain : List String}

/-- While the query runs, a body of `a` asks from its owner for a path that leads to `b`. -/
def Includes (q : Query) (r : Registry) (a b : Located) : Prop :=
  ∃ request path now, q.Meets r request ∧ request.Begins r a ∧
    a.recipe.Asks (q.setting r) (q.resolver r (request.now.push a).active) (request.now.push a)
      a.owner path now ∧
    r.locate path a.owner = .ok b

def answer (q : Query) (r : Registry) (request : Request) : Except Fault Attributes :=
  (q.resolver r request.now.active request.owner request.path request.now).1

/-- While the query runs a request for a declaration in progress is answered by a cycle. -/
def Reports (q : Query) (r : Registry) (path : String) (chain : List String) : Prop :=
  ∃ request found, q.Meets r request ∧ r.locate request.path request.owner = .ok found ∧
    request.now.isActive found = true ∧ q.answer r request = .error (.cyclic path chain)

/-- The declarations `active` and the one asked for last, behind the labels of a report. -/
structure IsCycle (q : Query) (r : Registry) (path : String) (chain : List String)
    (active : List Located) (last : Located) : Prop where
  labels : chain = (active ++ [last]).map Located.label
  two_le_length : 2 ≤ chain.length
  getLast_chain : chain.getLast? = some path
  closed : ∃ earlier ∈ active, earlier.owner = last.owner ∧ earlier.key = last.key
  distinct : active.Pairwise fun a b => ¬ (a.owner = b.owner ∧ a.key = b.key)
  starts : ∃ asked ∈ (q.paths r).1, ∃ first,
    active.head? = some first ∧ r.locate asked q.start = .ok first
  steps : (active ++ [last]).IsChain (q.Includes r)

theorem mem_of_pathsAsk {resolve : Path → Resolving} {paths : List Path} {e now : Evaluation}
    {asked : Path} (h : PathsAsk resolve paths e asked now) : asked ∈ paths := by
  induction h with
  | here => exact List.mem_cons_self
  | later first_ok asks ih => exact List.mem_cons_of_mem _ ih

/-- The first of the entries is asked for by the query, and each other one by the one before it. -/
def IsCallChain (q : Query) (r : Registry) (entries : List Located) : Prop :=
  (∃ asked ∈ (q.paths r).1, ∃ first,
    entries.head? = some first ∧ r.locate asked q.start = .ok first) ∧
  entries.IsChain (q.Includes r)

theorem IsCallChain.push {entries : List Located} {last next : Located}
    (h : q.IsCallChain r (entries ++ [last])) (hnext : q.Includes r last next) :
    q.IsCallChain r (entries ++ [last] ++ [next]) := by
  obtain ⟨⟨asked, hmem, first, hfirst, hl⟩, hchain⟩ := h
  constructor
  · refine ⟨asked, hmem, first, ?_, hl⟩
    rw [List.head?_append, hfirst, Option.some_or]
  · refine List.isChain_append.2 ⟨hchain, List.isChain_singleton next, ?_⟩
    intro x hx y hy
    rw [List.getLast?_concat, Option.mem_some_iff] at hx
    rw [List.head?_cons, Option.mem_some_iff] at hy
    rw [← hx, ← hy]
    exact hnext

theorem Meets.isCallChain (hr : r.WellFormed) (h : q.Meets r request)
    (hfound : r.locate request.path request.owner = .ok found) :
    q.IsCallChain r (request.now.active ++ [found]) := by
  induction h generalizing found with
  | path asks =>
    rw [Registry.active_of_pathsAsk asks]
    exact ⟨⟨_, mem_of_pathsAsk asks, found, rfl, hfound⟩, List.isChain_singleton found⟩
  | @inclusion request begun asker asked now met begins asks ih =>
    -- every body in the recipe belongs to the owner under which the declaration was located
    obtain rfl := asks.owner_eq (hr.ownedBy_of_locate begins.1)
    rw [Registry.active_of_asks asks]
    exact (ih begins.1).push ⟨request, asked, now, met, begins, asks, hfound⟩

theorem Reports.isCycle (hr : r.WellFormed) (h : q.Reports r path chain) :
    ∃ active last, q.IsCycle r path chain active last := by
  obtain ⟨request, found, met, hfound, hbusy, hanswer⟩ := h
  rw [answer, resolver, Registry.resolveFrom,
    Registry.resolveWithin_refused hfound hbusy] at hanswer
  cases hanswer
  obtain ⟨earlier, hmem, hsame⟩ := Evaluation.isActive_iff.1 hbusy
  obtain ⟨⟨asked, hasked, first, hfirst, hl⟩, hsteps⟩ := met.isCallChain hr hfound
  have hpos := List.length_pos_of_mem hmem
  refine ⟨request.now.active, found, ?_⟩
  exact {
    labels := by rw [List.map_append, List.map_singleton]
    two_le_length := by
      rw [List.length_append, List.length_map, List.length_singleton]
      omega
    getLast_chain := List.getLast?_concat
    closed := ⟨earlier, hmem, hsame⟩
    distinct := met.isStack.distinct
    starts := by
      refine ⟨asked, hasked, first, ?_, hl⟩
      cases hactive : request.now.active with
      | nil => rw [hactive] at hpos; cases hpos
      | cons a rest => rw [hactive] at hfirst; exact hfirst
    steps := hsteps }

theorem not_reports_of_rank {α : Type*} [Preorder α] (hr : r.WellFormed)
    (rank : Handle → String → α)
    (hrank : ∀ a b, q.Includes r a b → rank b.owner b.key < rank a.owner a.key) :
    ¬ q.Reports r path chain := by
  intro h
  obtain ⟨active, last, hc⟩ := h.isCycle hr
  obtain ⟨earlier, hmem, ho, hk⟩ := hc.closed
  -- the chain leads downwards, but ends where it has been before
  let below : Located → Located → Prop := fun a b => rank b.owner b.key < rank a.owner a.key
  have htrans : Trans below below below := ⟨fun hab hbc => lt_trans hbc hab⟩
  have hdown : (active ++ [last]).IsChain below := hc.steps.imp fun a b => hrank a b
  have hpair := List.isChain_iff_pairwise.1 hdown
  have hlt : rank last.owner last.key < rank earlier.owner earlier.key :=
    (List.pairwise_append.1 hpair).2.2 earlier hmem last (List.mem_singleton_self last)
  rw [ho, hk] at hlt
  exact lt_irrefl _ hlt

/-- A body that is run while the query runs throws the fault itself. -/
def Throws (q : Query) (r : Registry) (fault : Fault) : Prop :=
  ∃ request found, q.Meets r request ∧ request.Begins r found ∧
    found.recipe.Throws (q.setting r) (q.resolver r (request.now.push found).active)
      (request.now.push found) fault

theorem answer_invoked (h : r.IsStack request.now.active) (hbegins : request.Begins r found) :
    q.answer r request = (found.recipe.invoke (q.setting r)
      (q.resolver r (request.now.push found).active) (request.now.push found)).1 := by
  rw [answer, resolver_invoked h hbegins]
  rfl

theorem Meets.cyclic_origin (h : q.Meets r request)
    (hanswer : q.answer r request = .error (.cyclic path chain)) :
    q.Reports r path chain ∨ q.Throws r (.cyclic path chain) := by
  refine Meets.induction_within (motive := fun request =>
    q.answer r request = .error (.cyclic path chain) →
      q.Reports r path chain ∨ q.Throws r (.cyclic path chain)) ?_ h hanswer
  intro request h ih hanswer
  cases r.encounter request.owner request.path request.now with
  | missing absent =>
    rw [answer, resolver, Registry.resolveFrom, Registry.resolveWithin_missing absent] at hanswer
    cases hanswer
    rcases Registry.locate_eq_error absent with he | he <;> cases he
  | refused present busy => exact .inl ⟨request, _, h, present, busy, hanswer⟩
  | @invoked found present idle =>
    have hbegins : request.Begins r found := ⟨present, idle⟩
    rw [answer_invoked h.isStack hbegins] at hanswer
    rcases Recipe.throws_or_answered hanswer with thrown | ⟨owner, inner, now, asks, he⟩
    · exact .inr ⟨request, found, h, hbegins, thrown⟩
    · rw [← Registry.active_of_asks asks] at he
      exact ih found owner inner now hbegins asks he

theorem cyclic_origin (h : (q.resolve r).1 = .error (.cyclic path chain)) :
    q.Reports r path chain ∨ q.Throws r (.cyclic path chain) := by
  rw [resolve_eq_conclude, conclude] at h
  cases hm : (Resolving.mergeAll (q.resolver r [] q.start) (q.paths r).1 ∅ (q.evaluation r)).1 with
  | ok merged => rw [hm] at h; cases h
  | error fault =>
    rw [hm] at h
    cases h
    obtain ⟨asked, now, asks, he⟩ := Resolving.mergeAll_failed hm
    have hnow : now.active = [] := Registry.active_of_pathsAsk asks
    rw [← hnow] at he
    exact Meets.cyclic_origin (.path asks) he

/-- A reported cycle is a chain of calls that comes back; where a rank falls there is none. -/
theorem cycle_reports_exact (hr : r.Reachable) (q : Query) :
    (∀ path chain, q.Reports r path chain →
      ∃ active last, q.IsCycle r path chain active last) ∧
    (∀ path chain, (q.resolve r).1 = .error (.cyclic path chain) →
      q.Reports r path chain ∨ q.Throws r (.cyclic path chain)) ∧
    ∀ (α : Type u) [Preorder α] (rank : Handle → String → α),
      (∀ a b, q.Includes r a b → rank b.owner b.key < rank a.owner a.key) →
        (∀ path chain, ¬ q.Reports r path chain) ∧
        ∀ path chain, (q.resolve r).1 = .error (.cyclic path chain) →
          q.Throws r (.cyclic path chain) := by
  refine ⟨?_, ?_, ?_⟩
  · intro path chain h
    exact h.isCycle hr.wellFormed
  · intro path chain h
    exact cyclic_origin h
  · intro α _ rank hrank
    have hnone : ∀ path chain, ¬ q.Reports r path chain := by
      intro path chain
      exact not_reports_of_rank hr.wellFormed rank hrank
    constructor
    · exact hnone
    · intro path chain h
      exact (cyclic_origin h).resolve_left (hnone path chain)

theorem reports_loop : (sampleQuery "loop").Reports sampleRegistry "loop" ["loop", "loop"] := by
  have hagain : (((sampleQuery "loop").evaluation sampleRegistry).expand "loop").1.paths =
      [⟨"loop", []⟩] := by decide +kernel
  have hbegins : Request.Begins sampleRegistry ⟨Handle.root, ⟨"loop", []⟩,
      (sampleQuery "loop").evaluation sampleRegistry⟩ sampleLoop := ⟨rfl, Bool.false_ne_true⟩
  have hmet := Meets.inclusion (Meets.first paths_loop) hbegins
    ⟨_, _, _, .run .here, PathsAsk.first hagain⟩
  exact ⟨_, sampleLoop, hmet, rfl, rfl, rfl⟩

theorem paths_twice : ((sampleQuery "twice").paths sampleRegistry).1 = [⟨"twice", []⟩] := by
  decide +kernel

theorem expand_twice :
    (((sampleQuery "twice").evaluation sampleRegistry).expand "base base").1.paths =
      [⟨"base", []⟩, ⟨"base", []⟩] := by decide +kernel

def AsksTwice (request : Request) : Prop :=
  request.owner = Handle.root ∧ (request.path = ⟨"base", []⟩ ∨ request.path = ⟨"twice", []⟩ ∧
    request.now = (sampleQuery "twice").evaluation sampleRegistry)

theorem AsksTwice.inclusion {resolve : Handle → Path → Resolving} {owner : Handle} {asked : Path}
    {now : Evaluation} (h : AsksTwice request) (begins : request.Begins sampleRegistry found)
    (asks : found.recipe.Asks ((sampleQuery "twice").setting sampleRegistry) resolve
      (request.now.push found) owner asked now) :
    found.key = "twice" ∧ owner = Handle.root ∧ asked = ⟨"base", []⟩ := by
  obtain ⟨start, path, e⟩ := request
  obtain ⟨rfl, rfl | ⟨rfl, rfl⟩⟩ := h
  · cases begins.1
    obtain ⟨_, _, _, runs, _⟩ := asks
    cases runs
  · cases begins.1
    obtain ⟨selector, next, p, runs, asks⟩ := asks
    cases runs with
    | run reaches =>
      cases reaches with
      | @inclusion _ _ _ fault _ _ _ included rest =>
        cases fault with
        | none => cases rest
        | some own => cases rest
      | here =>
        have hmem : asked ∈ (((sampleQuery "twice").evaluation sampleRegistry).expand
            "base base").1.paths := mem_of_pathsAsk asks
        rw [expand_twice] at hmem
        exact ⟨rfl, rfl, by simpa using hmem⟩

theorem Meets.asksTwice (h : (sampleQuery "twice").Meets sampleRegistry request) :
    AsksTwice request := by
  induction h with
  | path asks =>
    rw [paths_twice] at asks
    cases asks with
    | here => exact ⟨rfl, .inr ⟨rfl, rfl⟩⟩
    | later _ asks => cases asks
  | inclusion met begins asks ih =>
    obtain ⟨_, howner, hpath⟩ := ih.inclusion begins asks
    exact ⟨howner, .inl hpath⟩

theorem Includes.asksTwice {a b : Located} (h : (sampleQuery "twice").Includes sampleRegistry a b) :
    a.key = "twice" ∧ b.key = "base" := by
  obtain ⟨request, asked, now, met, begins, asks, hb⟩ := h
  obtain ⟨ha, howner, rfl⟩ := met.asksTwice.inclusion begins asks
  rw [howner] at hb
  cases hb
  exact ⟨ha, rfl⟩

theorem exists_includes_twice : ∃ a b, (sampleQuery "twice").Includes sampleRegistry a b := by
  have hbegins : Request.Begins sampleRegistry ⟨Handle.root, ⟨"twice", []⟩,
      (sampleQuery "twice").evaluation sampleRegistry⟩ _ := ⟨rfl, Bool.false_ne_true⟩
  exact ⟨_, _, _, ⟨"base", []⟩, _, Meets.first paths_twice, hbegins,
    ⟨_, _, _, .run .here, PathsAsk.first expand_twice⟩, rfl⟩

theorem loop_reported_and_repetition_not :
    (∃ active last,
      (sampleQuery "loop").IsCycle sampleRegistry "loop" ["loop", "loop"] active last) ∧
    ((sampleQuery "loop").resolve sampleRegistry).1 =
      .ok (Dict.singleton "fault" (Fault.cyclic "loop" ["loop", "loop"]).toValue) ∧
    (∃ a b, (sampleQuery "twice").Includes sampleRegistry a b) ∧
    ∀ path chain, ¬ (sampleQuery "twice").Reports sampleRegistry path chain := by
  refine ⟨?_, by with_unfolding_all rfl, exists_includes_twice, ?_⟩
  · have hexact := cycle_reports_exact.{0} Registry.reachable_sampleRegistry (sampleQuery "loop")
    exact hexact.1 "loop" ["loop", "loop"] reports_loop
  · let rank : Handle → String → Nat := fun _ key => if key = "twice" then 1 else 0
    have hrank : ∀ a b, (sampleQuery "twice").Includes sampleRegistry a b →
        rank b.owner b.key < rank a.owner a.key := by
      intro a b h
      obtain ⟨ha, hb⟩ := h.asksTwice
      dsimp only [rank]
      rw [ha, hb]
      decide
    have hexact := cycle_reports_exact Registry.reachable_sampleRegistry (sampleQuery "twice")
    exact (hexact.2.2 Nat rank hrank).1

end Stylebook.Query
