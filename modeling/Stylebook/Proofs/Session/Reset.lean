import Stylebook.Proofs.Session.Making

namespace Stylebook

def Slice.later (stamps : Nat) (s : Slice) : Slice := { s with stamp := s.stamp + stamps }

namespace Memo

/-- The memory as it would be if so many more slices had been made before. -/
def later (stamps : Nat) (m : Memo) : Memo :=
  ⟨m.limit, m.stored.map (Slice.later stamps), m.issued + stamps⟩

theorem hasRoom_later (stamps : Nat) (m : Memo) : (m.later stamps).hasRoom = m.hasRoom := by
  have hsize : (m.later stamps).size = m.size := List.length_map ..
  rw [hasRoom, hasRoom, hsize]
  rfl

theorem expand_later (stamps : Nat) (m : Memo) (text : String) :
    (m.later stamps).expand text =
      ((m.expand text).1.later stamps, (m.expand text).2.later stamps) := by
  have hstored : (m.later stamps).stored.get? text =
      (m.stored.get? text).map (Slice.later stamps) := Dict.get?_map _ _ _
  rw [expand, expand, hstored]
  cases m.stored.get? text with
  | some slice => rfl
  | none =>
    simp only [Option.map_none, hasRoom_later]
    by_cases hroom : m.hasRoom = true
    · simp only [if_pos hroom, later, Dict.map_insert, Nat.add_right_comm m.issued 1]
      rfl
    · simp only [if_neg hroom, later, Nat.add_right_comm m.issued 1]
      rfl

theorem indistinct_later (stamps : Nat) : Indistinct fun m m' => m' = m.later stamps where
  paths := by
    rintro m _ rfl text
    rw [expand_later]
    rfl
  expand := by
    rintro m _ rfl text
    rw [expand_later]
  clear := by
    rintro m _ rfl
    rfl

end Memo

theorem Registry.Reachable.limit_eq {r : Registry} (h : r.Reachable) :
    r.memo.limit = r.options.cacheLimit := by
  have hexpand : ∀ limit m, m.limit = limit → ∀ text, (Memo.expand m text).2.limit = limit := by
    intro limit m hm text
    exact (m.limit_expand text).trans hm
  induction h with
  | new options => rfl
  | change before applied ih =>
    obtain ⟨hoptions, hmemo⟩ := apply_kept applied
    rw [hoptions, hmemo, ih]
  | reset before ih => exact ih
  | expand before text ih => exact hexpand _ _ ih text
  | paths before q ih => exact Memo.expandAll_keeps (hexpand _) ih q.selector.parts
  | resolve before q ih => exact q.resolve_keeps (hexpand _) ih

namespace Session

variable {epochs stamps : Nat} {s s' : Session}

/-- The second session is the first one some epochs later, when more slices have been made. -/
structure Later (epochs stamps : Nat) (s s' : Session) : Prop
    extends s.Image (.later epochs) epochs (fun m m' => m' = m.later stamps) s' where
  options : s'.registry.options = s.registry.options

end Session

def Answer.later (epochs stamps : Nat) : Answer → Answer :=
  Answer.rename (.later epochs) (Slice.later stamps)

namespace Session

/-- Slices are made in the same order, so that all stamps are later by the same number. -/
theorem Later.actAll (h : Later epochs stamps s s') {actions : List (Action Command)}
    (hc : ∀ options, .plain (.renew options) ∉ actions)
    (blind : ∀ action ∈ actions, action.IsBlind) :
    (s'.actAll actions).1 = (s.actAll actions).1.map (Answer.later epochs stamps) ∧
      (s.actAll actions).2.Image (.later epochs) epochs (fun m m' => m' = m.later stamps)
        (s'.actAll actions).2 := by
  apply h.toImage.actAll (Memo.indistinct_later stamps) _ h.options hc blind
  rintro m _ rfl text
  rw [Memo.expand_later]

/-- A session on the registry after a reset is one on a new registry, in a later epoch. -/
theorem later_reset {r : Registry} (hr : r.Reachable) :
    Later (r.epoch + 1) r.memo.issued (Session.new r.options) ⟨r.reset, ∅⟩ where
  registry := Registry.image_of_empty rfl (Nat.zero_add _).symm _ _
  memo := by
    change Memo.mk r.memo.limit ∅ r.memo.issued =
      Memo.mk r.options.cacheLimit ∅ (0 + r.memo.issued)
    rw [hr.limit_eq, Nat.zero_add]
  wellFormed := Registry.wellFormed_of_empty _ _ rfl
  wellFormed' := Registry.wellFormed_of_empty _ _ rfl
  saved := rfl
  options := rfl

end Session

namespace Registry

/-- From every handle the second registry is answered as the first, but for later handles. -/
structure AnswersLater (epochs stamps : Nat) (r r' : Registry) : Prop where
  look : ∀ start look, r'.look (start.later epochs) look = (r.look start look).later epochs stamps
  ask : ∀ start selector stages,
    (r'.ask (start.later epochs) selector stages).1 = (r.ask start selector stages).1
  vars : ∀ start name, r'.lookup? (start.later epochs) name = r.lookup? start name
  mixins : ∀ start name, r'.mixin? (start.later epochs) name = r.mixin? start name

theorem AnswersRenamed.later {epochs stamps : Nat} {r r' : Registry}
    (h : r.AnswersRenamed (.later epochs) (Slice.later stamps) r') :
    r.AnswersLater epochs stamps r' :=
  ⟨h.look, h.ask, h.vars, h.mixins⟩

/-- After a reset every run is answered as by a new registry, with handles of later epochs.
Fewer than 2^64 resets are meant. -/
theorem reset_answers_as_new {r : Registry} (hr : r.Reachable) {actions : List (Action Command)}
    (hc : ∀ options, .plain (.renew options) ∉ actions)
    (blind : ∀ action ∈ actions, action.IsBlind) :
    let fresh := (Session.new r.options).actAll actions
    let again := (Session.mk r.reset ∅).actAll actions
    again.1 = fresh.1.map (Answer.later (r.epoch + 1) r.memo.issued) ∧
      (∀ label, again.2.saved.get? label =
        (fresh.2.saved.get? label).map fun handle => handle.later (r.epoch + 1)) ∧
      fresh.2.registry.AnswersLater (r.epoch + 1) r.memo.issued again.2.registry := by
  obtain ⟨hanswers, hlast⟩ := (Session.later_reset hr).actAll hc blind
  refine ⟨hanswers, ?_, (answersRenamed hlast (Memo.indistinct_later r.memo.issued)).later⟩
  intro label
  rw [hlast.saved, Dict.get?_map]
  rfl

def usedRegistry : Registry :=
  (Registry.new .default).performAll [themed, .expand "box", .expand "frame"]

def themeActions : List (Action Command) := [
  .plain (.change (some "theme") (.register (Dict.singleton "box" (.body (Body.ofSteps []))))
    (some "first")),
  .make (some "theme") frameLikeBox none,
  .make none (.ofSketches [("late", .filled (.variableOr "width" (.literal .null)))]) none,
  .plain (.compare (.saved "first") (.named "theme")),
  .plain (.look (.saved "first") (.locate ⟨"frame", []⟩)),
  .plain (.look (.saved "first") (.locate ⟨"box", []⟩)),
  .plain (.expandTwice "box"),
  .plain .reset,
  .plain (.look (.saved "first") .scope)]

theorem theme_in_later_epoch :
    ((Session.mk usedRegistry.reset ∅).actAll themeActions).1 = [
      .issued secondTheme "theme",
      .issued secondTheme "theme",
      .refused (.malformed "late" (.bareValue .null)),
      .same true,
      .located "theme" ⟨secondTheme, "frame", "theme.frame",
        .fixed (Dict.singleton "like" (.string "theme.box"))⟩,
      .located "theme" ⟨secondTheme, "box", "theme.box", .run secondTheme (Body.ofSteps [])⟩,
      .slices ⟨2, [⟨"box", []⟩]⟩ ⟨2, [⟨"box", []⟩]⟩,
      .done,
      .scope none] := by
  have hr : usedRegistry.Reachable := (Reachable.new .default).performAll _
  have hc : ∀ options, .plain (.renew options) ∉ themeActions := by
    intro options hmem
    simp [themeActions] at hmem
  have blind : ∀ action ∈ themeActions, action.IsBlind := by
    simp [themeActions, Action.IsBlind, blind_frameLikeBox, Factory.blind_ofSketches]
  have hbox : [⟨"box", []⟩] = Stylebook.expand "box" := by decide +kernel
  obtain ⟨hanswers, _⟩ := reset_answers_as_new hr hc blind
  rw [hanswers, hbox]
  rfl

end Registry

end Stylebook
