import Stylebook.Registry
import Stylebook.Proofs.Declaration.Offences

namespace Stylebook

namespace Declarations

/-- What stands in a tree at a path. At its top the name of the base is a name like any other. -/
def at? (tree : Declarations) (path : Path) : Option Declaration :=
  (Dict.get? tree path.head).bind fun d => d.at? path.tail

def Ordered (tree : Declarations) : Prop := ∀ entry ∈ tree.entries, entry.2.Ordered

/-- There is no bare value, and no base that is a group without a base of its own. -/
structure WellShaped (tree : Declarations) : Prop where
  no_bare_value : ∀ path value, tree.at? path ≠ some (.value value)
  no_group_as_base : ∀ path children base, tree.at? path = some (.group children) →
    children.lookup baseName = some base → ¬ base.IsPlainGroup

def Offends (tree : Declarations) (path : Path) (flaw : Flaw) : Prop :=
  ∃ d, Dict.get? tree path.head = some d ∧ d.Offends path.tail flaw

end Declarations

/-- The top of a tree is judged by the names alone. -/
def Path.Before (p q : Path) : Prop :=
  p.head < q.head ∨ (p.head = q.head ∧ Declaration.Before p.tail q.tail)

theorem Path.Before.asymm {p q : Path} (h : p.Before q) : ¬ q.Before p := by
  rintro (gt | ⟨he, h'⟩)
  · rcases h with lt | ⟨he, _⟩
    · exact String.lt_irrefl _ (String.lt_trans lt gt)
    · exact String.lt_irrefl _ (he ▸ gt)
  · rcases h with lt | ⟨_, h⟩
    · exact String.lt_irrefl _ (he ▸ lt)
    · exact h.asymm h'

namespace Declarations

/-- Every other offence of the tree is judged later. -/
structure IsFirstOffence (tree : Declarations) (path : Path) (flaw : Flaw) : Prop where
  offends : tree.Offends path flaw
  first : ∀ path' flaw', tree.Offends path' flaw' →
    (path' = path ∧ flaw' = flaw) ∨ path.Before path'

/-- A message that fits what stands at a path. -/
inductive Tells (tree : Declarations) (path : Path) : String → Prop
  | bareValue {value : Value} (found : tree.at? path = some (.value value)) :
      tree.Tells path ("expected a declaration, found bare value " ++ value.compact)
  | groupAsBase {base : Declaration} (found : tree.at? path = some base)
      (plain : base.IsPlainGroup) (last : path.tail.getLast? = some baseName) :
      tree.Tells path "the `attributes` entry must be attributes or a function, not a group"

def Blames (tree : Declarations) (fault : Fault) : Prop :=
  ∃ path flaw, tree.IsFirstOffence path flaw ∧ tree.Tells path flaw.message ∧
    fault = .malformed path.text flaw

/-- An answer accepts a well-shaped tree, and blames the first offence of any other. -/
structure Judged {α : Type} (tree : Declarations) (answer : Except Fault α) : Prop where
  accepted_iff : (∃ a, answer = .ok a) ↔ tree.WellShaped
  blamed_iff : ∀ fault, answer = .error fault ↔ tree.Blames fault

variable {tree : Declarations} {path : Path} {flaw : Flaw}

theorem Offends.tells (h : tree.Offends path flaw) : tree.Tells path flaw.message := by
  obtain ⟨d, hd, h⟩ := h
  have hat : tree.at? path = d.at? path.tail := by rw [at?, hd]; rfl
  cases path with
  | mk head tail =>
    cases h with
    | bareValue found => exact .bareValue (hat.trans found)
    | groupAsBase found plain =>
      exact .groupAsBase (hat.trans found) plain List.getLast?_concat

theorem wellShaped_iff : tree.WellShaped ↔ ∀ path flaw, ¬ tree.Offends path flaw := by
  constructor
  · rintro h ⟨head, tail⟩ flaw ⟨d, hd, hoffends⟩
    have hat : ∀ names, tree.at? ⟨head, names⟩ = d.at? names := by
      intro names
      rw [at?, hd]
      rfl
    cases hoffends with
    | bareValue found => exact h.no_bare_value _ _ ((hat _).trans found)
    | groupAsBase found plain =>
      obtain ⟨children, hgroup, hbase⟩ := Declaration.at?_concat.1 found
      exact h.no_group_as_base _ children _ ((hat _).trans hgroup) hbase plain
  · intro h
    constructor
    · intro path value found
      obtain ⟨d, hd, found⟩ := Option.bind_eq_some_iff.1 found
      exact h path _ ⟨d, hd, .bareValue found⟩
    · intro path children base found hbase plain
      obtain ⟨d, hd, found⟩ := Option.bind_eq_some_iff.1 found
      have hat := Declaration.at?_concat.2 ⟨children, found, hbase⟩
      exact h ⟨path.head, path.tail ++ [baseName]⟩ _ ⟨d, hd, .groupAsBase hat plain⟩

def atTop (name : String) (offences : List (List String × Flaw)) : List (Path × Flaw) :=
  offences.map fun o => (⟨name, o.1⟩, o.2)

def offences (tree : Declarations) : List (Path × Flaw) :=
  tree.entries.flatMap fun entry => atTop entry.1 entry.2.offences

theorem mem_offences (h : tree.Ordered) :
    (path, flaw) ∈ tree.offences ↔ tree.Offends path flaw := by
  rw [offences, List.mem_flatMap]
  constructor
  · rintro ⟨⟨name, d⟩, hentry, hmem⟩
    obtain ⟨⟨names, flaw⟩, ho, he⟩ := List.mem_map.1 hmem
    cases he
    exact ⟨d, tree.ascending.lookup_of_mem hentry, (Declaration.mem_offences (h _ hentry)).1 ho⟩
  · rintro ⟨d, hd, hoffends⟩
    have hentry : (path.head, d) ∈ tree.entries := mem_of_lookup hd
    refine ⟨(path.head, d), hentry, List.mem_map.2 ⟨(path.tail, flaw), ?_, rfl⟩⟩
    exact (Declaration.mem_offences (h _ hentry)).2 hoffends

theorem offences_inOrder (h : tree.Ordered) : tree.offences.Pairwise fun a b => a.1.Before b.1 := by
  apply List.pairwise_flatMap.2
  constructor
  · intro entry hentry
    apply List.pairwise_map.2
    exact (Declaration.offences_inOrder (h entry hentry)).imp fun before => .inr ⟨rfl, before⟩
  · apply tree.ascending.imp
    intro entry entry' lt o ho o' ho'
    obtain ⟨_, _, rfl⟩ := List.mem_map.1 ho
    obtain ⟨_, _, rfl⟩ := List.mem_map.1 ho'
    exact .inl lt

theorem head?_offences_iff (h : tree.Ordered) :
    tree.offences.head? = some (path, flaw) ↔ tree.IsFirstOffence path flaw := by
  have horder := offences_inOrder h
  have hmem : ∀ path flaw, (path, flaw) ∈ tree.offences ↔ tree.Offends path flaw :=
    fun _ _ => mem_offences h
  generalize tree.offences = listed at horder hmem
  cases listed with
  | nil =>
    constructor
    · intro he
      cases he
    · intro hfirst
      cases (hmem path flaw).2 hfirst.offends
  | cons o rest =>
    have hrest := (List.pairwise_cons.1 horder).1
    constructor
    · intro he
      cases he
      refine ⟨(hmem path flaw).1 List.mem_cons_self, fun path' flaw' ho => ?_⟩
      rcases List.mem_cons.1 ((hmem path' flaw').2 ho) with he | hmem'
      · cases he
        exact .inl ⟨rfl, rfl⟩
      · exact .inr (hrest _ hmem')
    · intro hfirst
      rcases List.mem_cons.1 ((hmem path flaw).2 hfirst.offends) with rfl | hmem'
      · rfl
      · -- the head of the list would come before the first offence, and after it
        rcases hfirst.first o.1 o.2 ((hmem o.1 o.2).1 List.mem_cons_self) with ⟨rfl, rfl⟩ | hbefore
        · rfl
        · exact absurd (hrest _ hmem') hbefore.asymm

end Declarations

def fault? {α : Type} : Except Fault α → Option Fault
  | .error fault => some fault
  | .ok _ => none

theorem fault?_eq_some_iff {α : Type} {answer : Except Fault α} {fault : Fault} :
    fault? answer = some fault ↔ answer = .error fault := by
  cases answer <;> simp [fault?]

theorem fault?_eq_none_iff {α : Type} {answer : Except Fault α} :
    fault? answer = none ↔ ∃ a, answer = .ok a := by
  cases answer <;> simp [fault?]

theorem fault?_bind {α β : Type} {answer : Except Fault α} {next : α → Except Fault β}
    {then? : Option Fault} (h : ∀ a, answer = .ok a → fault? (next a) = then?) :
    fault? (answer >>= next) = (fault? answer).or then? := by
  cases answer with
  | error fault => rfl
  | ok a => exact h a rfl

theorem fault?_bind_ok {α β : Type} {answer : Except Fault α} {next : α → Except Fault β}
    (h : ∀ a, ∃ b, next a = .ok b) : fault? (answer >>= next) = fault? answer := by
  rw [fault?_bind fun a _ => fault?_eq_none_iff.2 (h a), Option.or_none]

def dotted (path : String) (names : List String) : String :=
  names.foldl (fun path name => path ++ "." ++ name) path

theorem Path.text_eq_dotted (head : String) (tail : List String) :
    (⟨head, tail⟩ : Path).text = dotted head tail := by
  induction tail generalizing head with
  | nil => rfl
  | cons name rest ih => exact ih (head ++ "." ++ name)

/-- The fault that blames the first of some offences, seen from where the names start. -/
def report? (path : String) (offences : List (List String × Flaw)) : Option Fault :=
  offences.head?.map fun o => .malformed (dotted path o.1) o.2

theorem report?_append (path : String) (offences others : List (List String × Flaw)) :
    report? path (offences ++ others) = (report? path offences).or (report? path others) := by
  cases offences <;> rfl

theorem report?_under (path name : String) (offences : List (List String × Flaw)) :
    report? path (Declaration.under name offences) = report? (path ++ "." ++ name) offences := by
  cases offences <;> rfl

def reportTop? (offences : List (Path × Flaw)) : Option Fault :=
  offences.head?.map fun o => .malformed o.1.text o.2

theorem reportTop?_append (offences others : List (Path × Flaw)) :
    reportTop? (offences ++ others) = (reportTop? offences).or (reportTop? others) := by
  cases offences <;> rfl

theorem reportTop?_atTop (name : String) (offences : List (List String × Flaw)) :
    reportTop? (Declarations.atTop name offences) = report? name offences := by
  cases offences with
  | nil => rfl
  | cons o rest =>
    exact congrArg (fun text => some (Fault.malformed text o.2)) (Path.text_eq_dotted name o.1)

namespace Node

variable {owner : Handle}

theorem fault?_group (path : String) (children : List (String × Declaration)) :
    fault? (ofDeclaration owner path (.group children)) =
      (fault? (baseOf owner path children)).or (fault? (ofChildren owner path children)) := by
  rw [ofDeclaration]
  apply fault?_bind
  intro base _
  cases base with
  | none => exact fault?_bind_ok fun _ => ⟨_, rfl⟩
  | some base => exact fault?_bind_ok fun _ => ⟨_, rfl⟩

theorem recipe?_eq_none_iff {path : String} {d : Declaration} {node : Node}
    (h : ofDeclaration owner path d = .ok node) : node.recipe? = none ↔ d.IsPlainGroup := by
  rw [← ofDeclaration_eq_group_iff h]
  cases node <;> simp [recipe?]

mutual

theorem fault?_ofDeclaration : ∀ (d : Declaration) (path : String),
    fault? (ofDeclaration owner path d) = report? path d.offences
  | .attributes m, path => by rw [ofDeclaration, Declaration.offences]; rfl
  | .body b, path => by rw [ofDeclaration, Declaration.offences]; rfl
  | .value v, path => by rw [ofDeclaration, Declaration.offences]; rfl
  | .group children, path => by
    rw [fault?_group, fault?_baseOf children path, fault?_ofChildren children path,
      Declaration.offences, report?_append]

theorem fault?_baseOf : ∀ (children : List (String × Declaration)) (path : String),
    fault? (baseOf owner path children) = report? path (Declaration.offencesOfBase children)
  | [], path => by rw [baseOf, Declaration.offencesOfBase]; rfl
  | (name, child) :: rest, path => by
    rw [baseOf, Declaration.offencesOfBase]
    split
    · rw [report?_under, report?_append, ← fault?_ofDeclaration child]
      apply fault?_bind
      intro node hok
      have hplain := recipe?_eq_none_iff hok
      cases hrecipe : node.recipe? with
      | none => rw [Declaration.flawsAsBase_of_plain (hplain.1 hrecipe)]; rfl
      | some base =>
        rw [Declaration.flawsAsBase_of_not_plain fun plain => by
          rw [hplain.2 plain] at hrecipe
          cases hrecipe]
        rfl
    · exact fault?_baseOf rest path

theorem fault?_ofChildren : ∀ (children : List (String × Declaration)) (path : String),
    fault? (ofChildren owner path children) = report? path (Declaration.offencesOfOthers children)
  | [], path => by rw [ofChildren, Declaration.offencesOfOthers]; rfl
  | (name, child) :: rest, path => by
    rw [ofChildren, Declaration.offencesOfOthers]
    split
    · exact fault?_ofChildren rest path
    · rw [report?_append, report?_under, ← fault?_ofDeclaration child, ← fault?_ofChildren rest]
      apply fault?_bind
      intro node _
      exact fault?_bind_ok fun _ => ⟨_, rfl⟩

end

theorem fault?_ofEntries (entries : List (String × Declaration)) :
    fault? (ofEntries owner entries) =
      reportTop? (entries.flatMap fun entry => Declarations.atTop entry.1 entry.2.offences) := by
  induction entries with
  | nil => rfl
  | cons first rest ih =>
    obtain ⟨name, d⟩ := first
    rw [ofEntries, List.flatMap_cons, reportTop?_append, reportTop?_atTop, ← ih,
      ← fault?_ofDeclaration d]
    apply fault?_bind
    intro node _
    exact fault?_bind_ok fun _ => ⟨_, rfl⟩

theorem fault?_ofDeclarations (tree : Declarations) :
    fault? (ofDeclarations owner tree) = reportTop? tree.offences := by
  rw [Declarations.offences, ← @fault?_ofEntries owner, ofDeclarations]
  cases ofEntries owner tree.entries <;> rfl

end Node

theorem Registry.fault?_register (r : Registry) (ns : Option String) (tree : Declarations) :
    fault? (r.register ns tree) = reportTop? tree.offences :=
  (fault?_bind_ok fun _ => ⟨_, rfl⟩).trans (Node.fault?_ofDeclarations tree)

namespace Declarations

variable {tree : Declarations}

theorem judged_of_fault? {α : Type} {answer : Except Fault α} (h : tree.Ordered)
    (hanswer : fault? answer = reportTop? tree.offences) : tree.Judged answer := by
  constructor
  · rw [← fault?_eq_none_iff, hanswer, reportTop?, Option.map_eq_none_iff, List.head?_eq_none_iff,
      List.eq_nil_iff_forall_not_mem, wellShaped_iff]
    exact ⟨fun hnone path flaw ho => hnone (path, flaw) ((mem_offences h).2 ho),
      fun hnone o hmem => hnone o.1 o.2 ((mem_offences h).1 hmem)⟩
  · intro fault
    rw [← fault?_eq_some_iff, hanswer, reportTop?, Option.map_eq_some_iff]
    constructor
    · rintro ⟨⟨path, flaw⟩, hhead, rfl⟩
      have hfirst := (head?_offences_iff h).1 hhead
      exact ⟨path, flaw, hfirst, hfirst.offends.tells, rfl⟩
    · rintro ⟨path, flaw, hfirst, _, rfl⟩
      exact ⟨(path, flaw), (head?_offences_iff h).2 hfirst, rfl⟩

/-- Whatever the scope, a tree is accepted if it is well-shaped, or its first offence is blamed. -/
theorem first_offence_blamed_in_every_scope (h : tree.Ordered) :
    (∀ owner, tree.Judged (Node.ofDeclarations owner tree)) ∧
      ∀ (r : Registry) ns, tree.Judged (r.register ns tree) :=
  ⟨fun _ => judged_of_fault? h (Node.fault?_ofDeclarations tree),
    fun r ns => judged_of_fault? h (r.fault?_register ns tree)⟩

theorem ordered_ofList {entries : List (String × Declaration)}
    (h : ∀ entry ∈ entries, entry.2.Ordered) : Ordered (Dict.ofList entries) :=
  fun entry hentry => h entry (Dict.mem_of_mem_ofList hentry)

def baseOnGroup : Declaration :=
  .ofChildren [
    ("align", .value (.integer 1)),
    ("attributes", .ofChildren [("title", .attributes ∅)])]

def cardOnGroup : Declarations :=
  Dict.ofList [
    ("alert", .body (Body.ofSteps [.inclusion "base"])),
    ("card", .ofChildren [("active", .value .null), ("attributes", baseOnGroup)]),
    ("deck", .value (.integer 2))]

theorem card_base_blamed_first :
    cardOnGroup.Ordered ∧
      Node.ofDeclarations Handle.root cardOnGroup =
        .error (.malformed "card.attributes.attributes" .groupAsBase) ∧
      cardOnGroup.Blames (.malformed "card.attributes.attributes" .groupAsBase) := by
  have hbase : baseOnGroup.Ordered := Declaration.ordered_ofChildren (by simp)
  have hordered : cardOnGroup.Ordered := ordered_ofList (by simp [hbase])
  have herror : Node.ofDeclarations Handle.root cardOnGroup =
      .error (.malformed "card.attributes.attributes" .groupAsBase) := rfl
  have hjudged := (first_offence_blamed_in_every_scope hordered).1 Handle.root
  exact ⟨hordered, herror, (hjudged.blamed_iff _).1 herror⟩

end Declarations

end Stylebook
