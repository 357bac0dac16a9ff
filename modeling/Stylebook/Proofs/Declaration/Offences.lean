import Stylebook.Proofs.Node.Meaning

namespace Stylebook.Declaration

/-- The entry of a group under a name, its base included. -/
def entry? : Declaration → String → Option Declaration
  | .group children, name => children.lookup name
  | _, _ => none

/-- What stands in a declaration where the names lead. -/
def at? (d : Declaration) : List String → Option Declaration
  | [] => some d
  | name :: rest => (d.entry? name).bind fun child => child.at? rest

/-- The entries of every group stand in ascending order of their names, as those of a dictionary. -/
inductive Ordered : Declaration → Prop
  | attributes (attributes : Attributes) : Ordered (.attributes attributes)
  | body (body : Body) : Ordered (.body body)
  | value (value : Value) : Ordered (.value value)
  | group {children : List (String × Declaration)} (ascending : Ascending children)
      (entries : ∀ entry ∈ children, Ordered entry.2) : Ordered (.group children)

attribute [simp] Ordered.attributes Ordered.body Ordered.value

@[simp] theorem ordered_ofChildren {children : List (String × Declaration)}
    (h : ∀ entry ∈ children, entry.2.Ordered) : (ofChildren children).Ordered :=
  .group (Dict.ofList children).ascending fun entry hentry =>
    h entry (Dict.mem_of_mem_ofList hentry)

/-- A bare value offends anywhere, and a group without a base where it is a base itself. -/
inductive Offends (d : Declaration) : List String → Flaw → Prop
  | bareValue {names : List String} {value : Value} (found : d.at? names = some (.value value)) :
      d.Offends names (.bareValue value)
  | groupAsBase {names : List String} {base : Declaration}
      (found : d.at? (names ++ [baseName]) = some base) (plain : base.IsPlainGroup) :
      d.Offends (names ++ [baseName]) .groupAsBase

/-- What is below a declaration is judged before it, and the base of a group before the others. -/
inductive Before : List String → List String → Prop
  | inner {name : String} {rest : List String} : Before (name :: rest) []
  | base {name : String} {rest rest' : List String} (other : name ≠ baseName) :
      Before (baseName :: rest) (name :: rest')
  | sibling {a b : String} {rest rest' : List String} (ha : a ≠ baseName) (hb : b ≠ baseName)
      (lt : a < b) : Before (a :: rest) (b :: rest')
  | within {name : String} {rest rest' : List String} (earlier : Before rest rest') :
      Before (name :: rest) (name :: rest')

theorem Before.asymm {a b : List String} (h : Before a b) : ¬ Before b a := by
  induction h with
  | inner => rintro ⟨⟩
  | base other =>
    intro h
    cases h with
    | base same => exact same rfl
    | sibling _ same _ => exact same rfl
    | within _ => exact other rfl
  | sibling ha hb lt =>
    intro h
    cases h with
    | base _ => exact hb rfl
    | sibling _ _ gt => exact String.lt_irrefl _ (String.lt_trans lt gt)
    | within _ => exact String.lt_irrefl _ lt
  | within _ ih =>
    intro h
    cases h with
    | base same => exact same rfl
    | sibling _ _ lt => exact String.lt_irrefl _ lt
    | within h => exact ih h

variable {children : List (String × Declaration)} {names : List String} {flaw : Flaw}

/-- A base brings its own offences, and it may be one itself. -/
def OffendsAsBase (d : Declaration) (names : List String) (flaw : Flaw) : Prop :=
  d.Offends names flaw ∨ (names = [] ∧ flaw = .groupAsBase ∧ d.IsPlainGroup)

theorem at?_group_cons {name : String} {rest : List String} {found : Declaration} :
    (Declaration.group children).at? (name :: rest) = some found ↔
      ∃ child, children.lookup name = some child ∧ child.at? rest = some found :=
  Option.bind_eq_some_iff

theorem at?_concat {d base : Declaration} {name : String} :
    d.at? (names ++ [name]) = some base ↔
      ∃ children, d.at? names = some (.group children) ∧ children.lookup name = some base := by
  induction names generalizing d with
  | nil =>
    cases d with
    | group children => simp [at?, entry?]
    | attributes m => simp [at?, entry?]
    | body b => simp [at?, entry?]
    | value v => simp [at?, entry?]
  | cons first rest ih =>
    rw [List.cons_append, at?, at?]
    cases d.entry? first with
    | none => simp
    | some child => exact ih

theorem Offends.of_child {name : String} {child : Declaration}
    (hc : children.lookup name = some child) (h : child.Offends names flaw) :
    (Declaration.group children).Offends (name :: names) flaw := by
  cases h with
  | bareValue found => exact .bareValue (at?_group_cons.2 ⟨child, hc, found⟩)
  | @groupAsBase names base found plain =>
    exact @Offends.groupAsBase _ (name :: names) base (at?_group_cons.2 ⟨child, hc, found⟩) plain

theorem Offends.of_base {base : Declaration} (hb : children.lookup baseName = some base)
    (h : base.OffendsAsBase names flaw) :
    (Declaration.group children).Offends (baseName :: names) flaw := by
  rcases h with h | ⟨rfl, rfl, plain⟩
  · exact h.of_child hb
  · exact @Offends.groupAsBase _ [] base (at?_group_cons.2 ⟨base, hb, rfl⟩) plain

theorem Offends.of_group (h : (Declaration.group children).Offends names flaw) :
    (∃ name rest child, names = name :: rest ∧ children.lookup name = some child ∧
      child.Offends rest flaw) ∨
    ∃ base, names = [baseName] ∧ flaw = .groupAsBase ∧ children.lookup baseName = some base ∧
      base.IsPlainGroup := by
  cases h with
  | bareValue found =>
    cases names with
    | nil => cases found
    | cons name rest =>
      obtain ⟨child, hc, hfound⟩ := at?_group_cons.1 found
      exact .inl ⟨name, rest, child, rfl, hc, .bareValue hfound⟩
  | @groupAsBase names base found plain =>
    cases names with
    | nil =>
      obtain ⟨child, hc, hfound⟩ := at?_group_cons.1 found
      cases hfound
      exact .inr ⟨base, rfl, rfl, hc, plain⟩
    | cons name rest =>
      obtain ⟨child, hc, hfound⟩ := at?_group_cons.1 found
      exact .inl ⟨name, rest ++ [baseName], child, rfl, hc, .groupAsBase hfound plain⟩

def OffendsInBase (children : List (String × Declaration)) (names : List String) (flaw : Flaw) :
    Prop :=
  ∃ rest base, names = baseName :: rest ∧ children.lookup baseName = some base ∧
    base.OffendsAsBase rest flaw

def OffendsInOthers (children : List (String × Declaration)) (names : List String) (flaw : Flaw) :
    Prop :=
  ∃ name rest child, names = name :: rest ∧ name ≠ baseName ∧ children.lookup name = some child ∧
    child.Offends rest flaw

theorem offends_group_iff : (Declaration.group children).Offends names flaw ↔
    OffendsInBase children names flaw ∨ OffendsInOthers children names flaw := by
  constructor
  · intro h
    rcases h.of_group with ⟨name, rest, child, hnames, hc, h⟩ | ⟨base, hnames, hflaw, hb, plain⟩
    · by_cases hname : name = baseName
      · subst hname
        exact .inl ⟨rest, child, hnames, hc, .inl h⟩
      · exact .inr ⟨name, rest, child, hnames, hname, hc, h⟩
    · exact .inl ⟨[], base, hnames, hb, .inr ⟨rfl, hflaw, plain⟩⟩
  · rintro (⟨rest, base, rfl, hb, h⟩ | ⟨name, rest, child, rfl, _, hc, h⟩)
    · exact .of_base hb h
    · exact h.of_child hc

theorem not_offends_group_nil : ¬ (Declaration.group children).Offends [] flaw := by
  intro h
  rcases h.of_group with ⟨name, rest, child, hnames, _⟩ | ⟨base, hnames, _⟩
  · cases hnames
  · cases hnames

theorem offends_leaf_iff {d : Declaration} (hd : ∀ name, d.entry? name = none) :
    d.Offends names flaw ↔ names = [] ∧ ∃ value, d = .value value ∧ flaw = .bareValue value := by
  have hat : ∀ {names found}, d.at? names = some found → names = [] ∧ found = d := by
    intro names found h
    cases names with
    | nil => cases h; exact ⟨rfl, rfl⟩
    | cons name rest =>
      rw [at?, hd] at h
      cases h
  constructor
  · intro h
    cases h with
    | @bareValue _ value found =>
      obtain ⟨hnames, hvalue⟩ := hat found
      exact ⟨hnames, value, hvalue.symm, rfl⟩
    | groupAsBase found plain =>
      have hnames := (hat found).1
      exact absurd hnames (List.append_ne_nil_of_right_ne_nil _ (List.cons_ne_nil _ _))
  · rintro ⟨rfl, value, rfl, rfl⟩
    exact .bareValue rfl

def under (name : String) (offences : List (List String × Flaw)) : List (List String × Flaw) :=
  offences.map fun o => (name :: o.1, o.2)

/-- What is wrong with a declaration that stands for a base, on top of what is wrong in it. -/
def flawsAsBase : Declaration → List (List String × Flaw)
  | .group children => if (children.lookup baseName).isNone then [([], .groupAsBase)] else []
  | _ => []

mutual

/-- The offences in a declaration, in the order in which they are judged. -/
def offences : Declaration → List (List String × Flaw)
  | .attributes _ => []
  | .body _ => []
  | .value v => [([], .bareValue v)]
  | .group children => offencesOfBase children ++ offencesOfOthers children

def offencesOfBase : List (String × Declaration) → List (List String × Flaw)
  | [] => []
  | (name, child) :: rest =>
    if name = baseName then under baseName (child.offences ++ child.flawsAsBase)
    else offencesOfBase rest

def offencesOfOthers : List (String × Declaration) → List (List String × Flaw)
  | [] => []
  | (name, child) :: rest =>
    if name = baseName then offencesOfOthers rest
    else under name child.offences ++ offencesOfOthers rest

end

theorem mem_under {name : String} {listed : List (List String × Flaw)} :
    (names, flaw) ∈ under name listed ↔ ∃ rest, names = name :: rest ∧ (rest, flaw) ∈ listed := by
  rw [under, List.mem_map]
  constructor
  · rintro ⟨⟨rest, flaw⟩, hmem, he⟩
    cases he
    exact ⟨rest, rfl, hmem⟩
  · rintro ⟨rest, rfl, hmem⟩
    exact ⟨(rest, flaw), hmem, rfl⟩

theorem flawsAsBase_of_plain {d : Declaration} (h : d.IsPlainGroup) :
    d.flawsAsBase = [([], .groupAsBase)] := by
  obtain ⟨children, rfl, hnone⟩ := h
  rw [flawsAsBase, hnone]
  rfl

theorem flawsAsBase_of_not_plain {d : Declaration} (h : ¬ d.IsPlainGroup) : d.flawsAsBase = [] := by
  cases d with
  | group children =>
    rw [flawsAsBase, if_neg]
    intro hnone
    exact h ⟨children, rfl, Option.isNone_iff_eq_none.1 hnone⟩
  | attributes m => rfl
  | body b => rfl
  | value v => rfl

theorem mem_flawsAsBase {d : Declaration} :
    (names, flaw) ∈ d.flawsAsBase ↔ names = [] ∧ flaw = .groupAsBase ∧ d.IsPlainGroup := by
  by_cases h : d.IsPlainGroup
  · rw [flawsAsBase_of_plain h, List.mem_singleton, Prod.mk.injEq, and_iff_left h]
  · rw [flawsAsBase_of_not_plain h]
    exact iff_of_false List.not_mem_nil fun hplain => h hplain.2.2

theorem offendsInOthers_cons {key : String} {child : Declaration}
    (h : Ascending ((key, child) :: children)) :
    OffendsInOthers ((key, child) :: children) names flaw ↔
      (key ≠ baseName ∧ ∃ rest, names = key :: rest ∧ child.Offends rest flaw) ∨
        OffendsInOthers children names flaw := by
  constructor
  · rintro ⟨name, rest, other, hnames, hname, hc, hoffends⟩
    rcases h.lookup_cons_iff.1 hc with ⟨rfl, rfl⟩ | hc
    · exact .inl ⟨hname, rest, hnames, hoffends⟩
    · exact .inr ⟨name, rest, other, hnames, hname, hc, hoffends⟩
  · rintro (⟨hkey, rest, hnames, hoffends⟩ | ⟨name, rest, other, hnames, hname, hc, hoffends⟩)
    · exact ⟨key, rest, child, hnames, hkey, h.lookup_cons_iff.2 (.inl ⟨rfl, rfl⟩), hoffends⟩
    · exact ⟨name, rest, other, hnames, hname, h.lookup_cons_iff.2 (.inr hc), hoffends⟩

mutual

/-- The list holds what is out of place, and nothing else. -/
theorem mem_offences : ∀ {d : Declaration}, d.Ordered → ∀ {names : List String} {flaw : Flaw},
    (names, flaw) ∈ d.offences ↔ d.Offends names flaw
  | .attributes m, _, names, flaw => by
    rw [offences, offends_leaf_iff fun _ => rfl]
    exact iff_of_false List.not_mem_nil fun ⟨_, _, he, _⟩ => by cases he
  | .body b, _, names, flaw => by
    rw [offences, offends_leaf_iff fun _ => rfl]
    exact iff_of_false List.not_mem_nil fun ⟨_, _, he, _⟩ => by cases he
  | .value v, _, names, flaw => by
    rw [offences, offends_leaf_iff fun _ => rfl, List.mem_singleton, Prod.mk.injEq]
    constructor
    · rintro ⟨hnames, hflaw⟩
      exact ⟨hnames, v, rfl, hflaw⟩
    · rintro ⟨hnames, value, he, hflaw⟩
      cases he
      exact ⟨hnames, hflaw⟩
  | .group children, h, names, flaw => by
    cases h with
    | group ascending entries =>
      rw [offences, List.mem_append, mem_offencesOfBase entries,
        mem_offencesOfOthers ascending entries, offends_group_iff]

theorem mem_offencesOfBase : ∀ {children : List (String × Declaration)},
    (∀ entry ∈ children, entry.2.Ordered) → ∀ {names : List String} {flaw : Flaw},
      (names, flaw) ∈ offencesOfBase children ↔ OffendsInBase children names flaw
  | [], _, names, flaw => by
    rw [offencesOfBase]
    refine iff_of_false List.not_mem_nil ?_
    rintro ⟨rest, base, _, hb, _⟩
    cases hb
  | (key, child) :: rest, h, names, flaw => by
    rw [offencesOfBase, OffendsInBase, lookup_entry]
    by_cases hkey : key = baseName
    · have hchild : (key, child).2.Ordered := h (key, child) List.mem_cons_self
      rw [if_pos hkey, if_pos hkey.symm, mem_under]
      simp only [List.mem_append, mem_offences hchild, mem_flawsAsBase, Option.some.injEq,
        OffendsAsBase]
      constructor
      · rintro ⟨rest, hnames, hmem⟩
        exact ⟨rest, child, hnames, rfl, hmem⟩
      · rintro ⟨rest, base, hnames, rfl, hmem⟩
        exact ⟨rest, hnames, hmem⟩
    · rw [if_neg hkey, if_neg (Ne.symm hkey)]
      exact mem_offencesOfBase fun entry hentry => h entry (List.mem_cons_of_mem _ hentry)

theorem mem_offencesOfOthers : ∀ {children : List (String × Declaration)}, Ascending children →
    (∀ entry ∈ children, entry.2.Ordered) → ∀ {names : List String} {flaw : Flaw},
      (names, flaw) ∈ offencesOfOthers children ↔ OffendsInOthers children names flaw
  | [], _, _, names, flaw => by
    rw [offencesOfOthers]
    refine iff_of_false List.not_mem_nil ?_
    rintro ⟨name, rest, child, _, _, hc, _⟩
    cases hc
  | (key, child) :: rest, ascending, h, names, flaw => by
    have hchild : (key, child).2.Ordered := h (key, child) List.mem_cons_self
    have hrest := @mem_offencesOfOthers rest (List.pairwise_cons.1 ascending).2
      (fun entry hentry => h entry (List.mem_cons_of_mem _ hentry)) names flaw
    rw [offencesOfOthers, offendsInOthers_cons ascending, ← hrest]
    by_cases hkey : key = baseName
    · rw [if_pos hkey]
      exact (or_iff_right fun hfirst => hfirst.1 hkey).symm
    · rw [if_neg hkey, List.mem_append, mem_under, and_iff_right hkey]
      simp only [mem_offences hchild]

end

def InOrder (offences : List (List String × Flaw)) : Prop :=
  offences.Pairwise fun a b => Before a.1 b.1

theorem InOrder.under {listed : List (List String × Flaw)} (h : InOrder listed) (name : String) :
    InOrder (under name listed) :=
  List.pairwise_map.2 (h.imp .within)

theorem offences_base_inOrder {d : Declaration} (hd : d.Ordered) (h : InOrder d.offences) :
    InOrder (d.offences ++ d.flawsAsBase) := by
  by_cases plain : d.IsPlainGroup
  · rw [flawsAsBase_of_plain plain]
    apply List.pairwise_append.2
    refine ⟨h, List.pairwise_singleton _ _, ?_⟩
    rintro ⟨names, flaw⟩ hmem _ hself
    cases List.mem_singleton.1 hself
    obtain ⟨children, rfl, _⟩ := plain
    cases names with
    | nil => exact absurd ((mem_offences hd).1 hmem) not_offends_group_nil
    | cons name rest => exact .inner
  · rw [flawsAsBase_of_not_plain plain, List.append_nil]
    exact h

mutual

theorem offences_inOrder : ∀ {d : Declaration}, d.Ordered → InOrder d.offences
  | .attributes m, _ => by rw [offences]; exact List.Pairwise.nil
  | .body b, _ => by rw [offences]; exact List.Pairwise.nil
  | .value v, _ => by rw [offences]; exact List.pairwise_singleton _ _
  | .group children, h => by
    cases h with
    | group ascending entries =>
      rw [offences]
      apply List.pairwise_append.2
      refine ⟨offencesOfBase_inOrder entries, offencesOfOthers_inOrder ascending entries, ?_⟩
      rintro ⟨names, flaw⟩ hmem ⟨names', flaw'⟩ hmem'
      obtain ⟨rest, _, rfl, _⟩ := (mem_offencesOfBase entries).1 hmem
      obtain ⟨name, rest', _, rfl, hname, _⟩ := (mem_offencesOfOthers ascending entries).1 hmem'
      exact .base hname

theorem offencesOfBase_inOrder : ∀ {children : List (String × Declaration)},
    (∀ entry ∈ children, entry.2.Ordered) → InOrder (offencesOfBase children)
  | [], _ => by rw [offencesOfBase]; exact List.Pairwise.nil
  | (key, child) :: rest, h => by
    rw [offencesOfBase]
    split
    · have hchild : (key, child).2.Ordered := h (key, child) List.mem_cons_self
      exact (offences_base_inOrder hchild (offences_inOrder hchild)).under baseName
    · exact offencesOfBase_inOrder fun entry hentry => h entry (List.mem_cons_of_mem _ hentry)

theorem offencesOfOthers_inOrder : ∀ {children : List (String × Declaration)}, Ascending children →
    (∀ entry ∈ children, entry.2.Ordered) → InOrder (offencesOfOthers children)
  | [], _, _ => by rw [offencesOfOthers]; exact List.Pairwise.nil
  | (key, child) :: rest, ascending, h => by
    obtain ⟨hkeys, hascending⟩ := List.pairwise_cons.1 ascending
    have hentries : ∀ entry ∈ rest, entry.2.Ordered := fun entry hentry =>
      h entry (List.mem_cons_of_mem _ hentry)
    have hrest := offencesOfOthers_inOrder hascending hentries
    rw [offencesOfOthers]
    split
    · exact hrest
    · next hkey =>
      have hchild : (key, child).2.Ordered := h (key, child) List.mem_cons_self
      apply List.pairwise_append.2
      refine ⟨(offences_inOrder hchild).under key, hrest, ?_⟩
      rintro ⟨names, flaw⟩ hmem ⟨names', flaw'⟩ hmem'
      obtain ⟨rest', rfl, _⟩ := mem_under.1 hmem
      obtain ⟨name, rest'', child', rfl, hname, hc, _⟩ :=
        (mem_offencesOfOthers hascending hentries).1 hmem'
      exact .sibling hkey hname (hkeys (name, child') (mem_of_lookup hc))

end

end Stylebook.Declaration
