import Stylebook.Proofs.Node.Acceptance
import Stylebook.Proofs.Value.Ordered

namespace Stylebook

namespace Value

def fields : Value → List (String × Value)
  | .object fields => fields
  | _ => []

def IsFlat (v : Value) : Prop := ∀ field ∈ v.fields, field.2.isObject = false

/-- What can stand for the base of a group, as far as it can be declared. -/
def ServesAsBase (v : Value) : Prop := v.IsFlat ∨ ∃ field ∈ v.fields, field.1 = baseName

/-- A flat object is a mapping; of any other all fields are declarable, and its base is a base. -/
inductive Declarable : Value → Prop
  | flat {fields : List (String × Value)} (flat : (object fields).IsFlat) :
      Declarable (.object fields)
  | nested {fields : List (String × Value)} (each : ∀ field ∈ fields, Declarable field.2)
      (base : ∀ field ∈ fields, field.1 = baseName → field.2.ServesAsBase) :
      Declarable (.object fields)

theorem not_isFlat_iff {v : Value} :
    ¬ v.IsFlat ↔ ∃ field ∈ v.fields, field.2.isObject = true := by
  simp [IsFlat]

theorem declarable_object_iff {fields : List (String × Value)} :
    (object fields).Declarable ↔ (object fields).IsFlat ∨
      ((∀ field ∈ fields, field.2.Declarable) ∧
        ∀ field ∈ fields, field.1 = baseName → field.2.ServesAsBase) := by
  constructor
  · intro h
    cases h with
    | flat flat => exact .inl flat
    | nested each base => exact .inr ⟨each, base⟩
  · rintro (flat | ⟨each, base⟩)
    · exact .flat flat
    · exact .nested each base

end Value

namespace Declaration

mutual

/-- The value that a declaration can be made of. There is none if a body stands in it. -/
def toValue? : Declaration → Option Value
  | .attributes m => some (.ofAttributes m)
  | .body _ => none
  | .group children => (toFields? children).map .object
  | .value v => some v

def toFields? : List (String × Declaration) → Option (List (String × Value))
  | [] => some []
  | (name, child) :: rest =>
    child.toValue?.bind fun field => (toFields? rest).map fun fields => (name, field) :: fields

end

/-- No bodies, no objects in mappings, and in every group a mapping or another group. -/
inductive IsData : Declaration → Prop
  | bare {v : Value} (bare : v.isObject = false) : IsData (.value v)
  | mapping {m : Attributes} (flat : (Value.ofAttributes m).IsFlat) : IsData (.attributes m)
  | group {children : List (String × Declaration)} (each : ∀ entry ∈ children, IsData entry.2)
      (nested : ∃ entry ∈ children,
        (∃ m, entry.2 = .attributes m) ∨ ∃ below, entry.2 = .group below) :
      IsData (.group children)

def Flawless (d : Declaration) : Prop := ∀ names flaw, ¬ d.Offends names flaw

variable {fields : List (String × Value)} {v : Value} {children : List (String × Declaration)}

theorem ofValue_flat (h : (Value.object fields).IsFlat) :
    ofValue (.object fields) = .attributes (Dict.ofList fields) := by
  rw [ofValue, if_neg]
  intro hany
  exact absurd h (Value.not_isFlat_iff.2 (List.any_eq_true.1 hany))

theorem ofValue_nested (h : ¬ (Value.object fields).IsFlat) :
    ofValue (.object fields) = .group (ofFields fields) := by
  rw [ofValue, if_pos]
  exact List.any_eq_true.2 (Value.not_isFlat_iff.1 h)

theorem ofValue_of_isObject (h : v.isObject = true) :
    (∃ m, ofValue v = .attributes m) ∨ ∃ children, ofValue v = .group children := by
  cases v with
  | object fields =>
    by_cases hflat : (Value.object fields).IsFlat
    · exact .inl ⟨_, ofValue_flat hflat⟩
    · exact .inr ⟨_, ofValue_nested hflat⟩
  | _ => cases h

theorem ofValue_eq_group (h : ofValue v = .group children) :
    ∃ fields, v = .object fields ∧ ¬ v.IsFlat ∧ children = ofFields fields := by
  cases v with
  | object fields =>
    by_cases hflat : (Value.object fields).IsFlat
    · rw [ofValue_flat hflat] at h
      cases h
    · rw [ofValue_nested hflat] at h
      cases h
      exact ⟨fields, rfl, hflat, rfl⟩
  | _ => cases h

theorem ofFields_eq_map : ∀ fields : List (String × Value),
    ofFields fields = fields.map fun field => (field.1, ofValue field.2)
  | [] => rfl
  | (name, field) :: rest => by rw [ofFields, ofFields_eq_map rest, List.map_cons]

theorem mem_ofFields {entry : String × Declaration} :
    entry ∈ ofFields fields ↔ ∃ field ∈ fields, (field.1, ofValue field.2) = entry := by
  rw [ofFields_eq_map, List.mem_map]

theorem forall_mem_ofFields {p : Declaration → Prop} :
    (∀ entry ∈ ofFields fields, p entry.2) ↔ ∀ field ∈ fields, p (ofValue field.2) := by
  rw [ofFields_eq_map, List.forall_mem_map]

theorem lookup_ofFields (fields : List (String × Value)) (name : String) :
    (ofFields fields).lookup name = (fields.lookup name).map ofValue := by
  rw [ofFields_eq_map, Dict.lookup_map]

theorem lookup_ofFields_iff (h : Ascending fields) {name : String} {child : Declaration} :
    (ofFields fields).lookup name = some child ↔
      ∃ field ∈ fields, field.1 = name ∧ child = ofValue field.2 := by
  rw [lookup_ofFields, Option.map_eq_some_iff]
  constructor
  · rintro ⟨w, hw, rfl⟩
    exact ⟨(name, w), mem_of_lookup hw, rfl, rfl⟩
  · rintro ⟨field, hfield, rfl, rfl⟩
    exact ⟨field.2, h.lookup_of_mem hfield, rfl⟩

theorem lookup_ofFields_eq_none_iff {name : String} :
    (ofFields fields).lookup name = none ↔ ¬ ∃ field ∈ fields, field.1 = name := by
  rw [lookup_ofFields, Option.map_eq_none_iff, List.lookup_eq_none_iff]
  simp only [bne_iff_ne, ne_comm, not_exists, not_and, ne_eq]

theorem ascending_ofFields (h : Ascending fields) : Ascending (ofFields fields) := by
  rw [ofFields_eq_map]
  exact List.pairwise_map.2 h

theorem ordered_ofValue (h : v.Ordered) : (ofValue v).Ordered := by
  induction h with
  | @object fields ascending each ih =>
    by_cases hflat : (Value.object fields).IsFlat
    · rw [ofValue_flat hflat]
      exact .attributes _
    · rw [ofValue_nested hflat]
      exact .group (ascending_ofFields ascending) (forall_mem_ofFields.2 ih)
  | _ => exact .value _

theorem isData_ofValue (h : v.Ordered) : (ofValue v).IsData := by
  induction h with
  | @object fields ascending each ih =>
    by_cases hflat : (Value.object fields).IsFlat
    · rw [ofValue_flat hflat]
      exact .mapping fun field hfield => hflat field (Dict.mem_of_mem_ofList hfield)
    · rw [ofValue_nested hflat]
      obtain ⟨field, hfield, hobject⟩ := Value.not_isFlat_iff.1 hflat
      exact .group (forall_mem_ofFields.2 ih)
        ⟨_, mem_ofFields.2 ⟨field, hfield, rfl⟩, ofValue_of_isObject hobject⟩
  | _ => exact .bare rfl

theorem toFields?_ofFields (h : ∀ field ∈ fields, (ofValue field.2).toValue? = some field.2) :
    toFields? (ofFields fields) = some fields := by
  induction fields with
  | nil => rfl
  | cons first rest ih =>
    obtain ⟨name, field⟩ := first
    obtain ⟨hfirst, hrest⟩ := List.forall_mem_cons.1 h
    rw [ofFields, toFields?, hfirst, ih hrest]
    rfl

theorem toValue?_ofValue (h : v.Ordered) : (ofValue v).toValue? = some v := by
  induction h with
  | @object fields ascending each ih =>
    by_cases hflat : (Value.object fields).IsFlat
    · rw [ofValue_flat hflat, toValue?, Value.ofAttributes, Dict.entries_ofList ascending]
    · rw [ofValue_nested hflat, toValue?, toFields?_ofFields ih]
      rfl
  | _ => rfl

theorem flawless_attributes (m : Attributes) : (Declaration.attributes m).Flawless := by
  intro names flaw h
  obtain ⟨_, value, he, _⟩ := (offends_leaf_iff fun _ => rfl).1 h
  cases he

theorem not_flawless_value (v : Value) : ¬ (Declaration.value v).Flawless :=
  fun h => h [] _ (.bareValue rfl)

theorem flawless_group_iff : (Declaration.group children).Flawless ↔
    (∀ name child, children.lookup name = some child → child.Flawless) ∧
      ∀ base, children.lookup baseName = some base → ¬ base.IsPlainGroup := by
  constructor
  · intro h
    exact ⟨fun name child hc names flaw ho => h _ _ (ho.of_child hc),
      fun base hb plain => h _ _ (.of_base hb (.inr ⟨rfl, rfl, plain⟩))⟩
  · rintro ⟨hchildren, hbase⟩ names flaw h
    rcases h.of_group with ⟨name, rest, child, _, hc, ho⟩ | ⟨base, _, _, hb, plain⟩
    · exact hchildren name child hc rest flaw ho
    · exact hbase base hb plain

theorem isPlainGroup_ofValue_iff : (ofValue v).IsPlainGroup ↔ ¬ v.ServesAsBase := by
  rw [Value.ServesAsBase, not_or]
  constructor
  · rintro ⟨children, hgroup, hbase⟩
    obtain ⟨fields, rfl, hnested, rfl⟩ := ofValue_eq_group hgroup
    exact ⟨hnested, lookup_ofFields_eq_none_iff.1 hbase⟩
  · rintro ⟨hnested, hbase⟩
    cases v with
    | object fields =>
      exact ⟨ofFields fields, ofValue_nested hnested, lookup_ofFields_eq_none_iff.2 hbase⟩
    | _ => exact absurd (fun field hfield => by cases hfield) hnested

theorem flawless_ofFields_iff (h : Ascending fields) :
    (Declaration.group (ofFields fields)).Flawless ↔
      (∀ field ∈ fields, (ofValue field.2).Flawless) ∧
        ∀ field ∈ fields, field.1 = baseName → field.2.ServesAsBase := by
  rw [flawless_group_iff]
  simp only [lookup_ofFields_iff h]
  constructor
  · rintro ⟨hchildren, hbase⟩
    constructor
    · intro field hfield
      exact hchildren field.1 _ ⟨field, hfield, rfl, rfl⟩
    · intro field hfield hname
      have hplain := mt isPlainGroup_ofValue_iff.2 (hbase _ ⟨field, hfield, hname, rfl⟩)
      exact Classical.not_not.1 hplain
  · rintro ⟨hfields, hbase⟩
    constructor
    · rintro name child ⟨field, hfield, _, rfl⟩
      exact hfields field hfield
    · rintro base ⟨field, hfield, hname, rfl⟩ plain
      exact isPlainGroup_ofValue_iff.1 plain (hbase field hfield hname)

theorem flawless_ofValue_iff (h : v.Ordered) : (ofValue v).Flawless ↔ v.Declarable := by
  induction h with
  | @object fields ascending each ih =>
    by_cases hflat : (Value.object fields).IsFlat
    · rw [ofValue_flat hflat]
      exact iff_of_true (flawless_attributes _) (.flat hflat)
    · have hfields : (∀ field ∈ fields, (ofValue field.2).Flawless) ↔
          ∀ field ∈ fields, field.2.Declarable := forall₂_congr ih
      rw [ofValue_nested hflat, flawless_ofFields_iff ascending, hfields,
        Value.declarable_object_iff, or_iff_right hflat]
  | _ => exact iff_of_false (not_flawless_value _) fun h => by cases h

end Declaration

namespace Declarations

variable {fields : List (String × Value)} {v : Value}

theorem wellShaped_ofFields_iff (h : (Value.object fields).Ordered) :
    WellShaped (Dict.ofList (Declaration.ofFields fields)) ↔
      ∀ field ∈ fields, field.2.Declarable := by
  cases h with
  | object ascending each =>
    have hget : ∀ name, Dict.get? (Dict.ofList (Declaration.ofFields fields)) name =
        (Declaration.ofFields fields).lookup name :=
      Dict.get?_ofList (Declaration.ascending_ofFields ascending)
    rw [wellShaped_iff]
    constructor
    · intro hnone field hfield
      apply (Declaration.flawless_ofValue_iff (each field hfield)).1
      intro names flaw ho
      have hlookup := (Declaration.lookup_ofFields_iff ascending).2 ⟨field, hfield, rfl, rfl⟩
      exact hnone ⟨field.1, names⟩ flaw ⟨_, (hget field.1).trans hlookup, ho⟩
    · rintro hfields path flaw ⟨d, hd, ho⟩
      rw [hget] at hd
      obtain ⟨field, hfield, _, rfl⟩ := (Declaration.lookup_ofFields_iff ascending).1 hd
      have hiff := Declaration.flawless_ofValue_iff (each field hfield)
      exact hiff.2 (hfields field hfield) path.tail flaw ho

theorem ofFields_accepted_iff (h : (Value.object fields).Ordered) (owner : Handle) :
    (∃ nodes, Node.ofDeclarations owner (Dict.ofList (Declaration.ofFields fields)) = .ok nodes) ↔
      ∀ field ∈ fields, field.2.Declarable := by
  have hordered : Ordered (Dict.ofList (Declaration.ofFields fields)) := by
    apply ordered_ofList
    cases h with
    | object ascending each =>
      exact Declaration.forall_mem_ofFields.2 fun field hfield =>
        Declaration.ordered_ofValue (each field hfield)
  have hjudged := judged_of_fault? hordered (@Node.fault?_ofDeclarations owner _)
  rw [hjudged.accepted_iff, wellShaped_ofFields_iff h]

/-- Nothing of a value is lost when it is declared, and its shape decides whether it is accepted. -/
theorem declared_without_loss_and_accepted_by_shape (h : v.Ordered) :
    (Declaration.ofValue v).toValue? = some v ∧ (Declaration.ofValue v).IsData ∧
      ∀ owner, (∃ nodes, (ofValue v >>= Node.ofDeclarations owner) = .ok nodes) ↔
        ∃ fields, v = .object fields ∧ ∀ field ∈ fields, field.2.Declarable := by
  refine ⟨Declaration.toValue?_ofValue h, Declaration.isData_ofValue h, fun owner => ?_⟩
  cases v with
  | object fields =>
    have haccepted := ofFields_accepted_iff h owner
    constructor
    · intro hok
      exact ⟨fields, rfl, haccepted.1 hok⟩
    · rintro ⟨_, he, hfields⟩
      cases he
      exact haccepted.2 hfields
  | _ => exact iff_of_false (fun ⟨_, he⟩ => by cases he) (fun ⟨_, he, _⟩ => by cases he)

def cardOnNestedBase : Value :=
  .ofAttributes (Dict.ofList [
    ("attributes", .ofAttributes (Dict.ofList [
      ("attributes", .ofAttributes (Dict.ofList [("width", .integer 1)])),
      ("title", .ofAttributes (Dict.ofList [("width", .integer 2)]))])),
    ("header", .ofAttributes (Dict.ofList [("width", .integer 3)]))])

def cardAndAlert : Value :=
  .ofAttributes (Dict.ofList [
    ("alert", .ofAttributes (Dict.ofList [("attributes", .integer 1), ("width", .null)])),
    ("card", cardOnNestedBase)])

/-- What stands for the base of the card is a bare value, next to a mapping. -/
def cardOnBareValue : Value :=
  .ofAttributes (Dict.ofList [
    ("card", .ofAttributes (Dict.ofList [
      ("attributes", .integer 1),
      ("header", .ofAttributes (Dict.ofList [("width", .integer 3)]))]))])

theorem card_accepted_on_group_and_not_on_bare_value :
    cardAndAlert.Ordered ∧ cardOnBareValue.Ordered ∧
      (Declaration.ofValue cardAndAlert).toValue? = some cardAndAlert ∧
      (∃ nodes, (ofValue cardAndAlert >>= Node.ofDeclarations Handle.root) = .ok nodes) ∧
      (∃ fields, cardAndAlert = .object fields ∧ ∀ field ∈ fields, field.2.Declarable) ∧
      (ofValue cardOnBareValue >>= Node.ofDeclarations Handle.root) =
        .error (.malformed "card.attributes" (.bareValue (.integer 1))) ∧
      ¬ ∃ fields, cardOnBareValue = .object fields ∧ ∀ field ∈ fields, field.2.Declarable := by
  have hnested : cardOnNestedBase.Ordered := by
    apply Value.ordered_ofAttributes_ofList
    simp
  have hcard : cardAndAlert.Ordered := by simp [cardAndAlert, hnested]
  have hbare : cardOnBareValue.Ordered := by
    apply Value.ordered_ofAttributes_ofList
    simp
  obtain ⟨hkept, _, haccepted⟩ := declared_without_loss_and_accepted_by_shape hcard
  obtain ⟨_, _, hrefused⟩ := declared_without_loss_and_accepted_by_shape hbare
  have hok : ∃ nodes, (ofValue cardAndAlert >>= Node.ofDeclarations Handle.root) = .ok nodes :=
    ⟨_, rfl⟩
  have herror : (ofValue cardOnBareValue >>= Node.ofDeclarations Handle.root) =
      .error (.malformed "card.attributes" (.bareValue (.integer 1))) := rfl
  refine ⟨hcard, hbare, hkept, hok, (haccepted _).1 hok, herror, fun hfields => ?_⟩
  obtain ⟨nodes, hnodes⟩ := (hrefused Handle.root).2 hfields
  rw [herror] at hnodes
  cases hnodes

end Declarations

end Stylebook
