import Stylebook.Value.Reader

namespace Stylebook.Value

/-- The fields of every object stand in ascending order of their names, as those of a dictionary. -/
inductive Ordered : Value → Prop
  | null : Ordered .null
  | bool (value : Bool) : Ordered (.bool value)
  | number (value : Number) : Ordered (.number value)
  | string (text : String) : Ordered (.string text)
  | array {items : List Value} (each : ∀ item ∈ items, Ordered item) : Ordered (.array items)
  | object {fields : List (String × Value)} (ascending : Ascending fields)
      (each : ∀ field ∈ fields, Ordered field.2) : Ordered (.object fields)

attribute [simp] Ordered.null Ordered.bool Ordered.number Ordered.string

@[simp] theorem ordered_integer (value : Int) : (integer value).Ordered := .number (.integer value)

@[simp] theorem ordered_ofAttributes_ofList {fields : List (String × Value)}
    (h : ∀ field ∈ fields, field.2.Ordered) : (ofAttributes (Dict.ofList fields)).Ordered :=
  .object (Dict.ofList fields).ascending fun field hfield =>
    h field (Dict.mem_of_mem_ofList hfield)

namespace Reader

theorem eq_of_literal {word : String} {value v : Value} {cs rest : List Char}
    (h : literal word value cs = some (v, rest)) : v = value := by
  rw [literal] at h
  split at h
  · cases h
    rfl
  · cases h

mutual

theorem ordered_of_value : ∀ {fuel : Nat} {cs rest : List Char} {v : Value},
    value fuel cs = some (v, rest) → v.Ordered
  | 0, cs, rest, v, h => by cases h
  | fuel + 1, cs, rest, v, h => by
    rw [value] at h
    split at h
    · rw [eq_of_literal h]
      exact .null
    · rw [eq_of_literal h]
      exact .bool true
    · rw [eq_of_literal h]
      exact .bool false
    · obtain ⟨⟨text, rest'⟩, _, he⟩ := Option.bind_eq_some_iff.1 h
      cases he
      exact .string text
    · split at h
      · cases h
        exact .array fun item hitem => by cases hitem
      · obtain ⟨⟨list, rest'⟩, hitems, he⟩ := Option.bind_eq_some_iff.1 h
        cases he
        exact .array (ordered_of_items hitems)
    · split at h
      · cases h
        exact .object List.Pairwise.nil fun field hfield => by cases hfield
      · obtain ⟨⟨list, rest'⟩, hfields, he⟩ := Option.bind_eq_some_iff.1 h
        cases he
        exact ordered_ofAttributes_ofList (ordered_of_fields hfields)
    · obtain ⟨⟨n, rest'⟩, _, he⟩ := Option.bind_eq_some_iff.1 h
      cases he
      exact .number n

theorem ordered_of_items : ∀ {fuel : Nat} {cs rest : List Char} {list : List Value},
    items fuel cs = some (list, rest) → ∀ item ∈ list, item.Ordered
  | 0, cs, rest, list, h => by cases h
  | fuel + 1, cs, rest, list, h => by
    rw [items] at h
    obtain ⟨⟨first, rest'⟩, hfirst, h⟩ := Option.bind_eq_some_iff.1 h
    have hfirst := ordered_of_value hfirst
    dsimp only at h
    split at h
    · obtain ⟨⟨more, rest''⟩, hmore, he⟩ := Option.bind_eq_some_iff.1 h
      cases he
      exact List.forall_mem_cons.2 ⟨hfirst, ordered_of_items hmore⟩
    · cases h
      exact List.forall_mem_singleton.2 hfirst
    · cases h

theorem ordered_of_fields : ∀ {fuel : Nat} {cs rest : List Char} {list : List (String × Value)},
    fields fuel cs = some (list, rest) → ∀ field ∈ list, field.2.Ordered
  | 0, cs, rest, list, h => by cases h
  | fuel + 1, cs, rest, list, h => by
    rw [fields] at h
    split at h
    · obtain ⟨⟨name, rest'⟩, _, h⟩ := Option.bind_eq_some_iff.1 h
      dsimp only at h
      split at h
      · obtain ⟨⟨first, rest''⟩, hfirst, h⟩ := Option.bind_eq_some_iff.1 h
        have hfirst := ordered_of_value hfirst
        dsimp only at h
        split at h
        · obtain ⟨⟨more, last⟩, hmore, he⟩ := Option.bind_eq_some_iff.1 h
          cases he
          exact List.forall_mem_cons.2 ⟨hfirst, ordered_of_fields hmore⟩
        · cases h
          exact List.forall_mem_singleton.2 hfirst
        · cases h
      · cases h
    · cases h

end

end Reader

theorem ordered_of_read? {text : String} {v : Value} (h : read? text = some v) : v.Ordered := by
  obtain ⟨⟨value, rest⟩, hvalue, h⟩ := Option.bind_eq_some_iff.1 h
  dsimp only at h
  split at h
  · cases h
    exact Reader.ordered_of_value hvalue
  · cases h

end Stylebook.Value
