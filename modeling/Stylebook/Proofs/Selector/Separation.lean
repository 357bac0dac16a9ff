import Stylebook.Proofs.Selector.Grammar
import Stylebook.Proofs.Selector.Memory

namespace Stylebook

namespace Selector

theorem expand_append (a b : String) {c : Char} (hc : isSeparator c = true)
    (h : Closed a.toList ∨ ']' ∉ b.toList) :
    expand (a ++ String.singleton c ++ b) = expand a ++ expand b := by
  have htext : (a ++ String.singleton c ++ b).toList = a.toList ++ c :: b.toList := by simp
  rw [expand, htext]
  exact expandChars_append_cons hc h

theorem expand_intercalate {items : List String} (h : ∀ item ∈ items.dropLast, Closed item.toList) :
    expand (" ".intercalate items) = items.flatMap expand := by
  induction items with
  | nil => decide +kernel
  | cons item rest ih =>
    cases rest with
    | nil => simp
    | cons next others =>
      obtain ⟨hitem, hothers⟩ := List.forall_mem_cons.1 h
      have hblank : " " = String.singleton ' ' := rfl
      have hseparator : isSeparator ' ' = true := by decide
      rw [String.intercalate_cons_cons, List.flatMap_cons, ← ih hothers, hblank]
      exact expand_append item _ hseparator (.inl hitem)

/-- Expansion goes through the parts of a text, and so does a memory through those of a list. -/
theorem expanded_part_by_part :
    (∀ (a b : String) (c : Char), isSeparator c = true →
      (Closed a.toList ∨ ']' ∉ b.toList) →
        expand (a ++ String.singleton c ++ b) = expand a ++ expand b) ∧
    ∀ (limit : Option Nat) (calls : List Memo.Call) (items : List String),
      (∀ item ∈ items.dropLast, Closed item.toList) →
        let memo := ((Memo.new limit).run calls).2
        (memo.expandSelector (.list items)).1 = expand (Selector.list items).display ∧
          (memo.expand (Selector.list items).display).1.paths =
            expand (Selector.list items).display := by
  constructor
  · intro a b c hc h
    exact expand_append a b hc h
  · intro limit calls items hitems
    have hsound : ((Memo.new limit).run calls).2.Sound := (Memo.sound_of_empty rfl).run calls
    refine ⟨?_, hsound.paths_expand _⟩
    exact (hsound.expandAll items).1.trans (expand_intercalate hitems).symm

theorem cards_expanded_part_by_part :
    (Closed "card[header footer]".toList ∧
      expand "card[header footer],box]" = expand "card[header footer]" ++ expand "box]" ∧
      expand "card[header footer],box]" =
        [⟨"card", ["header"]⟩, ⟨"card", ["footer"]⟩, ⟨"box]", []⟩]) ∧
    (¬ Closed "card[header".toList ∧ ']' ∉ "footer".toList ∧
      expand "card[header footer" = expand "card[header" ++ expand "footer" ∧
      expand "card[header footer" = [⟨"card[header", []⟩, ⟨"footer", []⟩]) ∧
    ((Memo.new (some 1)).expandSelector (.list ["card[header footer]", "box", "left[open"])).1 =
      expand "card[header footer] box left[open" ∧
    ((Memo.new (some 1)).expandSelector (.list ["card[header footer]", "box", "left[open"])).1 =
      [⟨"card", ["header"]⟩, ⟨"card", ["footer"]⟩, ⟨"box", []⟩, ⟨"left[open", []⟩] := by
  obtain ⟨happend, hlist⟩ := expanded_part_by_part
  have hclosed : Closed "card[header footer]".toList := by decide +kernel
  have hunclosable : ']' ∉ "footer".toList := by decide +kernel
  refine ⟨⟨hclosed, ?_, by decide +kernel⟩,
    ⟨by decide +kernel, hunclosable, ?_, by decide +kernel⟩, ?_, by decide +kernel⟩
  · exact happend "card[header footer]" "box]" ',' (by decide) (.inl hclosed)
  · exact happend "card[header" "footer" ' ' (by decide) (.inr hunclosable)
  · refine (hlist (some 1) [] ["card[header footer]", "box", "left[open"] ?_).1
    decide +kernel

/-- A group is not expanded part by part: its bracket is closed behind the separator. -/
example : expand "card[header footer]" ≠ expand "card[header" ++ expand "footer]" := by
  decide +kernel

end Selector

end Stylebook
