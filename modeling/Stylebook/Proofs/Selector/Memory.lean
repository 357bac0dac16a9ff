import Stylebook.Proofs.Body.Asking

namespace Stylebook

namespace Memo

/-- What is stored under a text is its expansion. -/
def Sound (m : Memo) : Prop :=
  ∀ text slice, m.stored.get? text = some slice → slice.paths = Stylebook.expand text

variable {m : Memo}

theorem sound_of_empty (hm : m.stored = ∅) : m.Sound := by
  intro text slice h
  rw [hm] at h
  cases h

theorem Sound.paths_expand (h : m.Sound) (text : String) :
    (m.expand text).1.paths = Stylebook.expand text := by
  rw [expand]
  cases hs : m.stored.get? text with
  | some slice => exact h text slice hs
  | none => rfl

theorem Sound.expand (h : m.Sound) (text : String) : (m.expand text).2.Sound := by
  rw [Memo.expand]
  cases hs : m.stored.get? text with
  | some slice => exact h
  | none =>
    intro name slice hn
    dsimp only at hn
    by_cases hroom : m.hasRoom = true
    · rw [if_pos hroom, Dict.get?_insert] at hn
      by_cases he : name = text
      · rw [if_pos he] at hn
        cases hn
        rw [he]
      · rw [if_neg he] at hn
        exact h name slice hn
    · rw [if_neg hroom] at hn
      exact h name slice hn

theorem expandAll_keeps {P : Memo → Prop} (hP : ∀ m, P m → ∀ text, P (m.expand text).2)
    (h : P m) (texts : List String) : P (m.expandAll texts).2 := by
  induction texts generalizing m with
  | nil => exact h
  | cons text rest ih => exact ih (hP m h text)

theorem run_keeps {P : Memo → Prop} (hexpand : ∀ m, P m → ∀ text, P (m.expand text).2)
    (hclear : ∀ m, P m → P m.clear) (h : P m) (calls : List Call) : P (m.run calls).2 := by
  induction calls generalizing m with
  | nil => exact h
  | cons c rest ih =>
    apply ih
    cases c with
    | expand text => exact hexpand m h text
    | expandSelector selector => exact expandAll_keeps hexpand h selector.parts
    | clear => exact hclear m h

theorem limit_expand (m : Memo) (text : String) : (m.expand text).2.limit = m.limit := by
  rw [Memo.expand]
  cases m.stored.get? text <;> rfl

theorem Sound.expandAll (h : m.Sound) (texts : List String) :
    (m.expandAll texts).1 = texts.flatMap Stylebook.expand ∧ (m.expandAll texts).2.Sound := by
  induction texts generalizing m with
  | nil => exact ⟨rfl, h⟩
  | cons text rest ih =>
    obtain ⟨hpaths, hsound⟩ := ih (h.expand text)
    refine ⟨?_, hsound⟩
    rw [List.flatMap_cons, ← hpaths, ← h.paths_expand text]
    rfl

theorem Sound.run (h : m.Sound) (calls : List Call) : (m.run calls).2.Sound :=
  run_keeps (fun _ h text => h.expand text) (fun _ _ => sound_of_empty rfl) h calls

end Memo

namespace Evaluation

/-- The same declarations are in progress, and both memories hand out expansions. -/
structure Alike (e e' : Evaluation) : Prop where
  active : e.active = e'.active
  sound : e.memo.Sound
  sound' : e'.memo.Sound

variable {e e' : Evaluation}

theorem indistinct_alike : Indistinct Alike := by
  intro e e' h text
  constructor
  · exact (h.sound.paths_expand text).trans (h.sound'.paths_expand text).symm
  · exact ⟨h.active, h.sound.expand text, h.sound'.expand text⟩

theorem Alike.trans {e'' : Evaluation} (h : Alike e e') (h' : Alike e' e'') : Alike e e'' :=
  ⟨h.active.trans h'.active, h.sound, h'.sound'⟩

theorem Alike.push (h : Alike e e') (found : Located) : Alike (e.push found) (e'.push found) :=
  ⟨congrArg (· ++ [found]) h.active, h.sound, h.sound'⟩

theorem Alike.pop (h : Alike e e') : Alike e.pop e'.pop :=
  ⟨congrArg List.dropLast h.active, h.sound, h.sound'⟩

theorem Alike.isActive (h : Alike e e') (found : Located) : e.isActive found = e'.isActive found :=
  congrArg (fun active => active.any found.isSame) h.active

end Evaluation

end Stylebook
