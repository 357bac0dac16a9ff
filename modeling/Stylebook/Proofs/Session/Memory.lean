import Stylebook.Proofs.Session.Making

namespace Stylebook

def Command.isRead : Command → Bool
  | .renew _ => false
  | .reset => false
  | .change _ _ _ => false
  | _ => true

/-- A step of a run: an action that both runs have, or a reading one that the other may lack. -/
inductive Entry
  | common (action : Action Command) (blind : action.IsBlind)
  | extra (command : Command) (reads : command.isRead = true)

namespace Entry

def action : Entry → Action Command
  | .common action _ => action
  | .extra command _ => .plain command

def common? : Entry → Option (Action Command)
  | .common action _ => some action
  | .extra _ _ => none

/-- Of the answers to all entries, those to the common ones. -/
def commonAnswers : List Entry → List Answer → List Answer
  | .common _ _ :: entries, answer :: answers => answer :: commonAnswers entries answers
  | .extra _ _ :: entries, _ :: answers => commonAnswers entries answers
  | _, _ => []

end Entry

/-- What is left of an answer when neither shared slices nor the size of the memory count. -/
def Answer.visible : Answer → Answer
  | .slice made => .slice ⟨0, made.paths⟩
  | .slices first second => .slices ⟨0, first.paths⟩ ⟨0, second.paths⟩
  | .options reported => .options { reported with cacheLimit := none }
  | answer => answer

namespace Memo

def BothSound (m m' : Memo) : Prop := m.Sound ∧ m'.Sound

theorem indistinct_bothSound : Indistinct BothSound where
  paths := by
    intro m m' h text
    rw [h.1.paths_expand, h.2.paths_expand]
  expand := by
    intro m m' h text
    exact ⟨h.1.expand text, h.2.expand text⟩
  clear := by
    intro m m' _
    exact ⟨sound_of_empty rfl, sound_of_empty rfl⟩

end Memo

namespace Session

variable {s s' : Session} {command : Command}

/-- The sessions have everything in common but what they remember, and how much they may. -/
def SameButMemory (s s' : Session) : Prop := s.Image .refl 0 Memo.BothSound s'

theorem sameButMemory_new {options options' : Options}
    (h : options'.rootFallback = options.rootFallback) (saved : Dict Handle) :
    SameButMemory ⟨Registry.new options, saved⟩ ⟨Registry.new options', saved⟩ where
  registry := Renaming.later_zero ▸ Registry.image_of_empty h rfl _ _
  memo := ⟨Memo.sound_of_empty rfl, Memo.sound_of_empty rfl⟩
  wellFormed := Registry.wellFormed_of_empty _ _ rfl
  wellFormed' := Registry.wellFormed_of_empty _ _ rfl
  saved := (Dict.map_id saved).symm

theorem SameButMemory.paths (h : SameButMemory s s') (text : String) :
    (s'.registry.memo.expand text).1.paths = (s.registry.memo.expand text).1.paths :=
  (Memo.indistinct_bothSound.paths _ _ h.memo text).symm

theorem SameButMemory.step (h : SameButMemory s s') (command : Command) :
    (s'.step command).1.visible = (s.step command).1.visible ∧
      SameButMemory (s.step command).2 (s'.step command).2 := by
  cases hplain : command.isPlain with
  | true =>
    obtain ⟨hanswer, himage⟩ := Image.step h Memo.indistinct_bothSound hplain
    rw [Answer.rename_refl] at hanswer
    exact ⟨congrArg Answer.visible hanswer, himage⟩
  | false =>
    match command, hplain with
    | .renew options, _ =>
      have hsaved : s'.saved = s.saved := h.saved.trans (Dict.map_id s.saved)
      refine ⟨rfl, ?_⟩
      rw [Session.step, Session.step, hsaved]
      exact sameButMemory_new rfl s.saved
    | .expand text, _ =>
      refine ⟨?_, Image.expand h Memo.indistinct_bothSound text⟩
      exact congrArg (fun paths => Answer.slice ⟨0, paths⟩) (h.paths text)
    | .expandTwice text, _ =>
      have hafter := Image.expand h Memo.indistinct_bothSound text
      refine ⟨?_, Image.expand hafter Memo.indistinct_bothSound text⟩
      have hsecond : ((s'.registry.memo.expand text).2.expand text).1.paths =
          ((s.registry.memo.expand text).2.expand text).1.paths := SameButMemory.paths hafter text
      have hvisible : ∀ s : Session, (s.step (.expandTwice text)).1.visible =
          .slices ⟨0, (s.registry.memo.expand text).1.paths⟩
            ⟨0, ((s.registry.memo.expand text).2.expand text).1.paths⟩ := fun _ => rfl
      rw [hvisible, hvisible, h.paths text, hsecond]
    | .options, _ =>
      refine ⟨?_, h⟩
      exact congrArg (fun fallback => Answer.options ⟨none, fallback⟩) h.registry.rootFallback

theorem SameButMemory.act (h : SameButMemory s s') {action : Action Command}
    (blind : action.IsBlind) :
    (s'.act action).1.visible = (s.act action).1.visible ∧
      SameButMemory (s.act action).2 (s'.act action).2 := by
  cases action with
  | plain command => exact h.step command
  | make ns factory label =>
    obtain ⟨hmade, hafter⟩ := Image.make (blind .refl) h Memo.indistinct_bothSound
    rw [act_make, act_make, hmade]
    exact SameButMemory.step hafter (.change ns _ label)

theorem step_read (h : s.registry.WellFormed) (reads : command.isRead = true) :
    ∃ m : Memo, m.Sound ∧
      (s.step command).2 = { s with registry := { s.registry with memo := m } } := by
  cases command with
  | renew options => cases reads
  | reset => cases reads
  | change ns change label => cases reads
  | look start look =>
    refine ⟨s.registry.memo, h.sound, ?_⟩
    rw [step]
    cases s.handle start <;> rfl
  | ask start selector stages =>
    rw [step]
    cases s.handle start with
    | error answer => exact ⟨s.registry.memo, h.sound, rfl⟩
    | ok handle => exact ⟨_, (h.ask handle selector stages).sound, rfl⟩
  | findNamespace name => exact ⟨s.registry.memo, h.sound, rfl⟩
  | compare a b =>
    refine ⟨s.registry.memo, h.sound, ?_⟩
    rw [step]
    cases s.handle a with
    | error answer => rfl
    | ok a => cases s.handle b <;> rfl
  | expand text => exact ⟨_, h.sound.expand text, rfl⟩
  | expandTwice text => exact ⟨_, (h.sound.expand text).expand text, rfl⟩
  | options => exact ⟨s.registry.memo, h.sound, rfl⟩

theorem SameButMemory.read (h : SameButMemory s s') (reads : command.isRead = true) :
    SameButMemory (s.step command).2 s' := by
  obtain ⟨m, hm, hstep⟩ := step_read h.wellFormed reads
  rw [hstep]
  exact ⟨h.registry.withMemo m _, ⟨hm, h.memo.2⟩, h.wellFormed.withMemo hm, h.wellFormed', h.saved⟩

theorem SameButMemory.commonAnswers (h : SameButMemory s s') (entries : List Entry) :
    (Entry.commonAnswers entries (s.actAll (entries.map Entry.action)).1).map Answer.visible =
      (s'.actAll (entries.filterMap Entry.common?)).1.map Answer.visible := by
  induction entries generalizing s s' with
  | nil => rfl
  | cons entry rest ih =>
    cases entry with
    | common action blind =>
      obtain ⟨hanswer, hafter⟩ := h.act blind
      simp only [List.map_cons, List.filterMap_cons, Entry.action, Entry.common?, actAll_cons,
        Entry.commonAnswers, hanswer, ih hafter]
    | extra command reads => exact ih (h.read reads)

end Session

/-- Runs alike but for commands that only read answer alike, whatever each may remember. -/
theorem Session.memory_is_invisible :
    (∀ (rootFallback : Bool) (limit limit' : Option Nat) (entries entries' : List Entry),
      entries.filterMap Entry.common? = entries'.filterMap Entry.common? →
      (Entry.commonAnswers entries
        ((Session.new ⟨limit, rootFallback⟩).actAll (entries.map Entry.action)).1).map
          Answer.visible =
      (Entry.commonAnswers entries'
        ((Session.new ⟨limit', rootFallback⟩).actAll (entries'.map Entry.action)).1).map
          Answer.visible) ∧
    ∀ (limit : Option Nat) (calls : List Memo.Call),
      let m := ((Memo.new limit).run calls).2
      (∀ text, (m.expand text).1.paths = expand text) ∧
        ∀ selector, (m.expandSelector selector).1 = selector.parts.flatMap expand := by
  constructor
  · intro rootFallback limit limit' entries entries' hcommon
    have hsame : ∀ limit, SameButMemory (Session.new ⟨limit, rootFallback⟩)
        (Session.new ⟨limit', rootFallback⟩) :=
      fun limit => @sameButMemory_new ⟨limit, rootFallback⟩ ⟨limit', rootFallback⟩ rfl ∅
    rw [(hsame limit).commonAnswers, (hsame limit').commonAnswers, hcommon]
  · intro limit calls
    have hsound : ((Memo.new limit).run calls).2.Sound :=
      Memo.Sound.run (Memo.sound_of_empty rfl) calls
    exact ⟨hsound.paths_expand, fun selector => (hsound.expandAll selector.parts).1⟩

def themeChange : Action Command :=
  .plain (.change (some "theme") (.register (Dict.singleton "box" (.attributes ∅))) none)

def frameMade : Entry := .common (.make none frameLikeBox (some "made")) blind_frameLikeBox

def plainEntries : List Entry := [
  .common themeChange trivial,
  frameMade,
  .common (.plain (.expandTwice "box")) trivial]

def mixedEntries : List Entry := [
  .extra (.expand "frame") rfl,
  .common themeChange trivial,
  .extra (.look (.named "theme") (.locate ⟨"box", []⟩)) rfl,
  frameMade,
  .common (.plain (.expandTwice "box")) trivial]

theorem Session.box_expanded_alike :
    let mindful := (Session.new ⟨none, true⟩).actAll (plainEntries.map Entry.action)
    let forgetful := (Session.new ⟨some 0, true⟩).actAll (mixedEntries.map Entry.action)
    Entry.commonAnswers plainEntries mindful.1 =
      [.issued Registry.firstTheme "theme", .issued Handle.root "root",
        .slices ⟨0, [⟨"box", []⟩]⟩ ⟨0, [⟨"box", []⟩]⟩] ∧
    Entry.commonAnswers mixedEntries forgetful.1 =
      [.issued Registry.firstTheme "theme", .issued Handle.root "root",
        .slices ⟨1, [⟨"box", []⟩]⟩ ⟨2, [⟨"box", []⟩]⟩] ∧
    (Entry.commonAnswers plainEntries mindful.1).map Answer.visible =
      (Entry.commonAnswers mixedEntries forgetful.1).map Answer.visible := by
  have hbox : [⟨"box", []⟩] = expand "box" := by decide +kernel
  obtain ⟨hsame, _⟩ := memory_is_invisible
  refine ⟨?_, ?_, hsame true none (some 0) plainEntries mixedEntries rfl⟩
  · rw [hbox]
    rfl
  · rw [hbox]
    rfl

end Stylebook
