namespace Stylebook

universe u v

/-- Put `value` under `key`, before the first greater key. -/
def insertEntry {α : Type u} (key : String) (value : α) : List (String × α) → List (String × α)
  | [] => [(key, value)]
  | (k, v) :: rest =>
    if key < k then (key, value) :: (k, v) :: rest
    else if key = k then (key, value) :: rest
    else (k, v) :: insertEntry key value rest

def Ascending {α : Type u} (entries : List (String × α)) : Prop :=
  entries.Pairwise fun a b => a.1 < b.1

theorem mem_insertEntry {α : Type u} {key : String} {value : α} {entries : List (String × α)}
    {e : String × α} (h : e ∈ insertEntry key value entries) : e = (key, value) ∨ e ∈ entries := by
  induction entries with
  | nil => simpa [insertEntry] using h
  | cons first rest ih =>
    obtain ⟨k, v⟩ := first
    rw [insertEntry] at h
    split at h
    · simpa using h
    · split at h
      · rcases List.mem_cons.1 h with h | h
        · exact .inl h
        · exact .inr (List.mem_cons_of_mem _ h)
      · rcases List.mem_cons.1 h with h | h
        · exact .inr (h ▸ List.mem_cons_self)
        · exact (ih h).imp id (List.mem_cons_of_mem _)

theorem Ascending.insertEntry {α : Type u} {entries : List (String × α)} (h : Ascending entries)
    (key : String) (value : α) : Ascending (insertEntry key value entries) := by
  induction entries with
  | nil => simp [Stylebook.insertEntry, Ascending]
  | cons first rest ih =>
    obtain ⟨k, v⟩ := first
    obtain ⟨hk, hrest⟩ := List.pairwise_cons.1 h
    rw [Stylebook.insertEntry]
    split
    · next hlt =>
      refine List.pairwise_cons.2 ⟨fun e he => ?_, h⟩
      rcases List.mem_cons.1 he with rfl | he
      · exact hlt
      · exact String.lt_trans hlt (hk e he)
    · next hlt =>
      split
      · next heq => subst heq; exact List.pairwise_cons.2 ⟨hk, hrest⟩
      · next hne =>
        refine List.pairwise_cons.2 ⟨fun e he => ?_, ih hrest⟩
        rcases mem_insertEntry he with rfl | he
        · exact Std.lt_of_le_of_ne (String.not_lt.1 hlt) (Ne.symm hne)
        · exact hk e he

theorem lookup_entry {α : Type u} (name key : String) (value : α) (rest : List (String × α)) :
    ((key, value) :: rest).lookup name = if name = key then some value else rest.lookup name := by
  by_cases h : name = key
  · simp [h]
  · rw [List.lookup_cons, beq_false_of_ne h, if_neg h]

theorem mem_of_lookup {α : Type u} {name : String} {value : α} {entries : List (String × α)}
    (h : entries.lookup name = some value) : (name, value) ∈ entries := by
  obtain ⟨before, after, he, _⟩ := List.lookup_eq_some_iff.1 h
  rw [he]
  exact List.mem_append_right _ List.mem_cons_self

theorem lookup_insertEntry {α : Type u} (key : String) (value : α) (entries : List (String × α))
    (name : String) :
    (insertEntry key value entries).lookup name =
      if name = key then some value else entries.lookup name := by
  induction entries with
  | nil => rw [insertEntry, lookup_entry]
  | cons first rest ih =>
    obtain ⟨k, v⟩ := first
    rw [insertEntry]
    split
    · rw [lookup_entry]
    · split
      · next heq =>
        subst heq
        by_cases h : name = key <;> simp only [lookup_entry, h, if_true, if_false]
      · next hne =>
        rw [lookup_entry, lookup_entry, ih]
        by_cases h : name = key
        · subst h; rw [if_neg hne, if_pos rfl, if_pos rfl]
        · rw [if_neg h, if_neg h]

theorem lookup_eq_none_of_forall_lt {α : Type u} {entries : List (String × α)} {key : String}
    (h : ∀ e ∈ entries, key < e.1) : entries.lookup key = none := by
  refine List.lookup_eq_none_iff.2 fun e he => ?_
  have hlt := h e he
  simp only [bne_iff_ne, ne_eq]
  rintro rfl
  exact String.lt_irrefl _ hlt

theorem Ascending.lookup_of_mem {α : Type u} {entries : List (String × α)} (h : Ascending entries)
    {e : String × α} (he : e ∈ entries) : entries.lookup e.1 = some e.2 := by
  induction entries with
  | nil => cases he
  | cons first rest ih =>
    obtain ⟨k, v⟩ := first
    obtain ⟨hk, hrest⟩ := List.pairwise_cons.1 h
    rw [lookup_entry]
    rcases List.mem_cons.1 he with rfl | he
    · exact if_pos rfl
    · have hlt : k < e.1 := hk e he
      have hne : e.1 ≠ k := by
        rintro heq
        exact String.lt_irrefl k (heq ▸ hlt)
      rw [if_neg hne]
      exact ih hrest he

theorem Ascending.lookup_cons_iff {α : Type u} {key name : String} {first value : α}
    {rest : List (String × α)} (h : Ascending ((key, first) :: rest)) :
    ((key, first) :: rest).lookup name = some value ↔
      (name = key ∧ value = first) ∨ rest.lookup name = some value := by
  have hkey : rest.lookup key = none := lookup_eq_none_of_forall_lt (List.pairwise_cons.1 h).1
  rw [lookup_entry]
  by_cases hname : name = key
  · subst hname
    rw [if_pos rfl, hkey, Option.some.injEq, eq_comm]
    simp
  · rw [if_neg hname]
    exact ⟨.inr, fun he => he.resolve_left fun hfirst => hname hfirst.1⟩

theorem Ascending.ext {α : Type u} {xs ys : List (String × α)} (hx : Ascending xs)
    (hy : Ascending ys) (h : ∀ key, xs.lookup key = ys.lookup key) : xs = ys := by
  induction xs generalizing ys with
  | nil =>
    cases ys with
    | nil => rfl
    | cons y ys =>
      have hy := h y.1
      rw [lookup_entry, if_pos rfl] at hy
      cases hy
  | cons x xs ih =>
    cases ys with
    | nil =>
      have hx := h x.1
      rw [lookup_entry, if_pos rfl] at hx
      cases hx
    | cons y ys =>
      obtain ⟨kx, vx⟩ := x
      obtain ⟨ky, vy⟩ := y
      obtain ⟨hxs, hxs'⟩ := List.pairwise_cons.1 hx
      obtain ⟨hys, hys'⟩ := List.pairwise_cons.1 hy
      have hkey : kx = ky := by
        rcases Std.lt_trichotomy kx ky with hlt | heq | hgt
        · have hnone : ((ky, vy) :: ys).lookup kx = none :=
            lookup_eq_none_of_forall_lt fun e he => by
              rcases List.mem_cons.1 he with rfl | he
              · exact hlt
              · exact String.lt_trans hlt (hys e he)
          have hsome := h kx
          rw [hnone, lookup_entry, if_pos rfl] at hsome
          cases hsome
        · exact heq
        · have hnone : ((kx, vx) :: xs).lookup ky = none :=
            lookup_eq_none_of_forall_lt fun e he => by
              rcases List.mem_cons.1 he with rfl | he
              · exact hgt
              · exact String.lt_trans hgt (hxs e he)
          have hsome := h ky
          rw [hnone, lookup_entry, if_pos rfl] at hsome
          cases hsome
      subst hkey
      have hval := h kx
      rw [lookup_entry, lookup_entry, if_pos rfl, if_pos rfl] at hval
      obtain rfl := Option.some.inj hval
      congr 1
      refine ih hxs' hys' fun key => ?_
      by_cases hk : key = kx
      · subst hk
        rw [lookup_eq_none_of_forall_lt hxs, lookup_eq_none_of_forall_lt hys]
      · have hrest := h key
        rwa [lookup_entry, lookup_entry, if_neg hk, if_neg hk] at hrest

/-- A dictionary: at most one entry a key, in ascending order. -/
structure Dict (α : Type u) where
  entries : List (String × α)
  ascending : Ascending entries

namespace Dict

variable {α : Type u} {β : Type v}

def empty : Dict α := ⟨[], List.Pairwise.nil⟩

instance : EmptyCollection (Dict α) := ⟨empty⟩

instance : Inhabited (Dict α) := ⟨empty⟩

def get? (d : Dict α) (key : String) : Option α := d.entries.lookup key

def contains (d : Dict α) (key : String) : Bool := (d.get? key).isSome

def keys (d : Dict α) : List String := d.entries.map Prod.fst

def size (d : Dict α) : Nat := d.entries.length

def isEmpty (d : Dict α) : Bool := d.entries.isEmpty

def insert (d : Dict α) (key : String) (value : α) : Dict α :=
  ⟨insertEntry key value d.entries, d.ascending.insertEntry key value⟩

/-- Insert the entries from left to right, so that the last of several with one key stays. -/
def insertAll (d : Dict α) (entries : List (String × α)) : Dict α :=
  entries.foldl (fun acc e => acc.insert e.1 e.2) d

def ofList (entries : List (String × α)) : Dict α := (empty : Dict α).insertAll entries

def singleton (key : String) (value : α) : Dict α := (empty : Dict α).insert key value

/-- Every entry of `e` replaces the entry of `d` with its key. -/
def merge (d e : Dict α) : Dict α := d.insertAll e.entries

def map (f : α → β) (d : Dict α) : Dict β :=
  ⟨d.entries.map fun e => (e.1, f e.2), by
    have h := d.ascending
    simpa [Ascending, List.pairwise_map] using h⟩

@[ext] theorem ext {d e : Dict α} (h : ∀ key, d.get? key = e.get? key) : d = e := by
  obtain ⟨xs, hx⟩ := d
  obtain ⟨ys, hy⟩ := e
  obtain rfl : xs = ys := hx.ext hy h
  rfl

@[simp] theorem get?_empty (key : String) : (empty : Dict α).get? key = none := rfl

@[simp] theorem get?_emptyCollection (key : String) : (∅ : Dict α).get? key = none := rfl

@[simp] theorem get?_insert (d : Dict α) (key : String) (value : α) (name : String) :
    (d.insert key value).get? name = if name = key then some value else d.get? name :=
  lookup_insertEntry key value d.entries name

theorem lookup_map (f : α → β) (entries : List (String × α)) (name : String) :
    (entries.map fun e => (e.1, f e.2)).lookup name = (entries.lookup name).map f := by
  induction entries with
  | nil => rfl
  | cons first rest ih =>
    rw [List.map_cons, lookup_entry, lookup_entry, ih]
    split <;> rfl

@[simp] theorem get?_map (f : α → β) (d : Dict α) (name : String) :
    (d.map f).get? name = (d.get? name).map f :=
  lookup_map f d.entries name

theorem map_id (d : Dict α) : (d.map fun value => value) = d := by
  apply Dict.ext
  intro name
  rw [get?_map]
  exact Option.map_id'

theorem map_insert (f : α → β) (d : Dict α) (key : String) (value : α) :
    (d.insert key value).map f = (d.map f).insert key (f value) := by
  ext name
  rw [get?_map, get?_insert, get?_insert, get?_map]
  split <;> rfl

theorem map_insertAll (f : α → β) (d : Dict α) (entries : List (String × α)) :
    (d.insertAll entries).map f = (d.map f).insertAll (entries.map fun e => (e.1, f e.2)) := by
  induction entries generalizing d with
  | nil => rfl
  | cons first rest ih => exact (ih _).trans (by rw [map_insert]; rfl)

theorem map_ofList (f : α → β) (entries : List (String × α)) :
    (ofList entries).map f = ofList (entries.map fun e => (e.1, f e.2)) :=
  map_insertAll f empty entries

theorem map_merge (f : α → β) (d e : Dict α) : (d.merge e).map f = (d.map f).merge (e.map f) :=
  map_insertAll f d e.entries

theorem mem_keys_iff (d : Dict α) (key : String) :
    key ∈ d.keys ↔ ∃ value, d.get? key = some value := by
  rw [keys, List.mem_map]
  constructor
  · rintro ⟨entry, hmem, rfl⟩
    exact ⟨entry.2, d.ascending.lookup_of_mem hmem⟩
  · rintro ⟨value, hv⟩
    exact ⟨(key, value), mem_of_lookup hv, rfl⟩

theorem notMem_keys_iff {d : Dict α} {key : String} : key ∉ d.keys ↔ d.get? key = none := by
  rw [mem_keys_iff, Option.eq_none_iff_forall_ne_some, not_exists]

theorem nodup_keys (d : Dict α) : d.keys.Nodup := by
  apply List.pairwise_map.2
  apply d.ascending.imp
  intro a b hlt he
  rw [he] at hlt
  exact String.lt_irrefl b.1 hlt

theorem get?_insertAll (d : Dict α) {entries : List (String × α)} (h : Ascending entries)
    (name : String) :
    (d.insertAll entries).get? name = (entries.lookup name).or (d.get? name) := by
  induction entries generalizing d with
  | nil => simp [insertAll]
  | cons first rest ih =>
    obtain ⟨k, v⟩ := first
    obtain ⟨hk, hrest⟩ := List.pairwise_cons.1 h
    have step : d.insertAll ((k, v) :: rest) = (d.insert k v).insertAll rest := rfl
    rw [step, ih _ hrest, get?_insert, lookup_entry]
    by_cases hname : name = k
    · subst hname
      rw [lookup_eq_none_of_forall_lt hk, if_pos rfl, if_pos rfl]
      rfl
    · rw [if_neg hname, if_neg hname]

theorem get?_ofList {entries : List (String × α)} (h : Ascending entries) (name : String) :
    (ofList entries).get? name = entries.lookup name := by
  rw [ofList, get?_insertAll _ h, get?_empty, Option.or_none]

theorem entries_ofList {entries : List (String × α)} (h : Ascending entries) :
    (ofList entries).entries = entries :=
  (ofList entries).ascending.ext h (get?_ofList h)

theorem mem_of_get?_insertAll {d : Dict α} {entries : List (String × α)} {name : String} {value : α}
    (h : (d.insertAll entries).get? name = some value) :
    name ∈ entries.map Prod.fst ∨ d.get? name = some value := by
  induction entries generalizing d with
  | nil => exact .inr h
  | cons first rest ih =>
    rcases ih h with hrest | hd
    · exact .inl (List.mem_cons_of_mem _ hrest)
    · rw [get?_insert] at hd
      split at hd
      · next hname => exact .inl (hname ▸ List.mem_cons_self)
      · exact .inr hd

theorem mem_of_mem_insertAll {d : Dict α} {entries : List (String × α)} {e : String × α}
    (h : e ∈ (d.insertAll entries).entries) : e ∈ entries ∨ e ∈ d.entries := by
  induction entries generalizing d with
  | nil => exact .inr h
  | cons first rest ih =>
    rcases ih h with hrest | hd
    · exact .inl (List.mem_cons_of_mem _ hrest)
    · rcases mem_insertEntry hd with rfl | hd
      · exact .inl List.mem_cons_self
      · exact .inr hd

theorem mem_of_mem_ofList {entries : List (String × α)} {e : String × α}
    (h : e ∈ (ofList entries).entries) : e ∈ entries :=
  (mem_of_mem_insertAll h).resolve_right List.not_mem_nil

@[simp] theorem get?_merge (d e : Dict α) (name : String) :
    (d.merge e).get? name = (e.get? name).or (d.get? name) :=
  get?_insertAll d e.ascending name

@[simp] theorem merge_empty (d : Dict α) : d.merge ∅ = d := rfl

@[simp] theorem empty_merge (d : Dict α) : (∅ : Dict α).merge d = d := by
  ext name; simp

theorem merge_assoc (d e f : Dict α) : (d.merge e).merge f = d.merge (e.merge f) := by
  ext name; simp [Option.or_assoc]

theorem foldl_merge (d : Dict α) (dicts : List (Dict α)) :
    dicts.foldl merge d = d.merge (dicts.foldl merge ∅) := by
  induction dicts generalizing d with
  | nil => rfl
  | cons first rest ih =>
    rw [List.foldl_cons, List.foldl_cons, ih (d.merge first), ih ((∅ : Dict α).merge first),
      empty_merge, merge_assoc]

@[simp] theorem merge_self (d : Dict α) : d.merge d = d := by
  ext name; simp

end Dict

end Stylebook
