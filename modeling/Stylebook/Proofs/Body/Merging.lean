import Stylebook.Body.Run

namespace Stylebook.Resolving

variable {α : Type} {resolve : α → Resolving}

theorem mergeAll_merged (resolve : α → Resolving) (items : List α) (merged : Attributes)
    (e : Evaluation) :
    mergeAll resolve items merged e =
      ((mergeAll resolve items ∅ e).1.map merged.merge, (mergeAll resolve items ∅ e).2) := by
  induction items generalizing merged e with
  | nil => rfl
  | cons item rest ih =>
    cases h : resolve item e with
    | mk answer after =>
      cases answer with
      | error fault => simp only [mergeAll, h, Except.map]
      | ok attributes =>
        simp only [mergeAll, h, Dict.empty_merge]
        rw [ih (merged.merge attributes), ih attributes]
        cases (mergeAll resolve rest ∅ after).1 with
        | error fault => rfl
        | ok above => simp only [Except.map, Dict.merge_assoc]

theorem mergeAll_cons_ok {item : α} {rest : List α} {attributes : Attributes} {e after : Evaluation}
    (h : resolve item e = (.ok attributes, after)) :
    mergeAll resolve (item :: rest) ∅ e =
      ((mergeAll resolve rest ∅ after).1.map attributes.merge,
        (mergeAll resolve rest ∅ after).2) := by
  rw [← mergeAll_merged]
  simp only [mergeAll, h, Dict.empty_merge]

theorem mergeAll_cons_error {item : α} {rest : List α} {fault : Fault} {e after : Evaluation}
    (h : resolve item e = (.error fault, after)) (merged : Attributes) :
    mergeAll resolve (item :: rest) merged e = (.error fault, after) := by
  simp only [mergeAll, h]

theorem mergeAll_singleton (item : α) (e : Evaluation) :
    mergeAll resolve [item] ∅ e = resolve item e := by
  cases h : resolve item e with
  | mk answer after =>
    cases answer with
    | error fault => exact mergeAll_cons_error h ∅
    | ok attributes => simp only [mergeAll, h, Dict.empty_merge]

/-- Answers in order, each merged over those before it. The first fault is the answer. -/
def mergeAnswers : List (Except Fault Attributes) → Except Fault Attributes
  | [] => .ok ∅
  | answer :: rest => do
    let below ← answer
    let above ← mergeAnswers rest
    return below.merge above

theorem mergeAnswers_singleton (answer : Except Fault Attributes) :
    mergeAnswers [answer] = answer := by
  cases answer <;> rfl

theorem mergeAnswers_append (xs ys : List (Except Fault Attributes)) :
    mergeAnswers (xs ++ ys) = do
      let below ← mergeAnswers xs
      let above ← mergeAnswers ys
      return below.merge above := by
  induction xs with
  | nil =>
    change mergeAnswers ys = (mergeAnswers ys).bind fun above => .ok ((∅ : Attributes).merge above)
    cases mergeAnswers ys with
    | error fault => rfl
    | ok above => rw [Except.bind, Dict.empty_merge]
  | cons answer rest ih =>
    rw [List.cons_append, mergeAnswers, mergeAnswers, ih]
    cases answer with
    | error fault => rfl
    | ok first =>
      cases mergeAnswers rest with
      | error fault => rfl
      | ok below =>
        cases mergeAnswers ys with
        | error fault => rfl
        | ok above => exact congrArg Except.ok (Dict.merge_assoc first below above).symm

theorem mergeAnswers_ok (results : List Attributes) :
    mergeAnswers (results.map Except.ok) = .ok (results.foldl Dict.merge ∅) := by
  induction results with
  | nil => rfl
  | cons first rest ih =>
    rw [List.map_cons, mergeAnswers, ih, List.foldl_cons, Dict.empty_merge, Dict.foldl_merge first]
    rfl

theorem mergeAnswers_first_error {before : List (Except Fault Attributes)}
    (h : ∀ answer ∈ before, ∃ attributes, answer = .ok attributes) (fault : Fault)
    (after : List (Except Fault Attributes)) :
    mergeAnswers (before ++ .error fault :: after) = .error fault := by
  induction before with
  | nil => rfl
  | cons answer rest ih =>
    obtain ⟨first, rfl⟩ := h _ List.mem_cons_self
    have hrest := ih fun answer hmem => h answer (List.mem_cons_of_mem _ hmem)
    rw [List.cons_append, mergeAnswers, hrest]
    rfl

theorem mergeAnswers_of_mem_error {answers : List (Except Fault Attributes)} {fault : Fault}
    (h : .error fault ∈ answers) : ∃ first, mergeAnswers answers = .error first := by
  induction answers with
  | nil => cases h
  | cons answer rest ih =>
    cases answer with
    | error first => exact ⟨first, rfl⟩
    | ok below =>
      rcases List.mem_cons.1 h with he | hrest
      · cases he
      · obtain ⟨first, hfirst⟩ := ih hrest
        refine ⟨first, ?_⟩
        rw [mergeAnswers, hfirst]
        rfl

theorem mem_of_mergeAnswers_error {answers : List (Except Fault Attributes)} {fault : Fault}
    (h : mergeAnswers answers = .error fault) : .error fault ∈ answers := by
  induction answers with
  | nil => cases h
  | cons answer rest ih =>
    cases answer with
    | error first =>
      cases h
      exact List.mem_cons_self
    | ok below =>
      apply List.mem_cons_of_mem
      apply ih
      rw [mergeAnswers] at h
      cases hr : mergeAnswers rest with
      | error first => rw [hr] at h; exact h
      | ok above => rw [hr] at h; cases h

theorem mergeAll_eq_mergeAnswers {M : Evaluation → Prop} {answer : α → Except Fault Attributes}
    (hresolve : ∀ item e, M e →
      (resolve item e).1 = answer item ∧ M (resolve item e).2)
    (items : List α) {e : Evaluation} (hm : M e) :
    (mergeAll resolve items ∅ e).1 = mergeAnswers (items.map answer) ∧
      M (mergeAll resolve items ∅ e).2 := by
  induction items generalizing e with
  | nil => exact ⟨rfl, hm⟩
  | cons item rest ih =>
    obtain ⟨hitem, hafter⟩ := hresolve item e hm
    rw [List.map_cons, mergeAnswers, ← hitem]
    cases h : resolve item e with
    | mk answer after =>
      rw [h] at hafter
      cases answer with
      | error fault =>
        rw [mergeAll_cons_error h]
        exact ⟨rfl, hafter⟩
      | ok attributes =>
        obtain ⟨hrest, hlast⟩ := ih hafter
        rw [mergeAll_cons_ok h, hrest]
        exact ⟨rfl, hlast⟩

end Stylebook.Resolving
