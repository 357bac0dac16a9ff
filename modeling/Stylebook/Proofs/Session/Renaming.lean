import Stylebook.Proofs.Query.Renaming

namespace Stylebook

variable {N : Memo → Memo → Prop} {ρ : Renaming} {epochs : Nat} {f : Slice → Slice}

/-- The answer with its handles renamed, and with other slices in the place of slices. -/
def Answer.rename (ρ : Renaming) (f : Slice → Slice) : Answer → Answer
  | .issued handle label => .issued (ρ.handle handle) label
  | .located label found => .located label (found.rename ρ)
  | .scope found => .scope (found.map (Scope.rename ρ))
  | .namespaceFound found => .namespaceFound (found.map fun e => (ρ.handle e.1, e.2))
  | .slice made => .slice (f made)
  | .slices first second => .slices (f first) (f second)
  | answer => answer

theorem Answer.rename_refl (answer : Answer) : answer.rename .refl (fun made => made) = answer := by
  cases answer with
  | located label found => rw [rename, Located.rename_refl]
  | scope found =>
    cases found with
    | none => rfl
    | some scope => rw [rename, Option.map_some, Scope.rename_refl]
  | namespaceFound found => cases found <;> rfl
  | _ => rfl

theorem Registry.Image.look {r r' : Registry} (h : r.Image ρ epochs r') (start : Handle)
    (look : Look) : r'.look (ρ.handle start) look = (r.look start look).rename ρ f := by
  cases look with
  | locate path =>
    rw [Registry.look, Registry.look, h.locate]
    cases r.locate path start with
    | error fault => rfl
    | ok found => exact congrArg (Answer.located · (found.rename ρ)) (h.label found.owner)
  | mixin name =>
    rw [Registry.look, Registry.look, h.mixin?, h.scopes, Option.map_map]
    rfl
  | ownVariable name =>
    rw [Registry.look, Registry.look, h.scopes]
    cases r.scope? start <;> rfl
  | scope =>
    rw [Registry.look, Registry.look, h.scopes]
    rfl
  | ancestors =>
    rw [Registry.look, Registry.look, h.ancestors, List.map_map]
    rfl

theorem Registry.WellFormed.ask {r : Registry} (h : r.WellFormed) (start : Handle)
    (selector : Selector) (stages : List Stage) : (r.ask start selector stages).2.WellFormed := by
  have hpaths := h.withMemo (h.sound.expandAll selector.parts).2
  rw [Registry.ask_eq]
  apply WellFormed.resolve
  have hselector := (Query.foldl_withStage (Query.new start selector) stages).2.1
  rw [Query.paths, Query.ofStages, hselector]
  exact hpaths

/-- The commands that a registry in use answers without handing out a slice or its options. -/
def Command.isPlain : Command → Bool
  | .renew _ => false
  | .expand _ => false
  | .expandTwice _ => false
  | .options => false
  | _ => true

namespace Session

/-- The second session is the first one with its handles renamed, the saved ones among them. -/
structure Image (ρ : Renaming) (epochs : Nat) (N : Memo → Memo → Prop) (s s' : Session) : Prop where
  registry : s.registry.Image ρ epochs s'.registry
  memo : N s.registry.memo s'.registry.memo
  wellFormed : s.registry.WellFormed
  wellFormed' : s'.registry.WellFormed
  saved : s'.saved = s.saved.map ρ.handle

variable {s s' : Session} {command : Command}

theorem step_options (h : ∀ options, command ≠ .renew options) :
    (s.step command).2.registry.options = s.registry.options := by
  cases command with
  | renew options => exact absurd rfl (h options)
  | change ns change label =>
    rw [step]
    cases hc : s.registry.apply ns change with
    | error fault => rfl
    | ok changed =>
      have hkept := (Registry.apply_kept hc).1
      cases label <;> exact hkept
  | look start look =>
    rw [step]
    cases s.handle start <;> rfl
  | ask start selector stages =>
    rw [step]
    cases s.handle start <;> rfl
  | compare a b =>
    rw [step]
    cases s.handle a with
    | error answer => rfl
    | ok a => cases s.handle b <;> rfl
  | reset => rfl
  | findNamespace name => rfl
  | expand text => rfl
  | expandTwice text => rfl
  | options => rfl

namespace Image

theorem handle (h : s.Image ρ epochs N s') (place : Place) :
    s'.handle place = (s.handle place).map ρ.handle := by
  cases place with
  | root => exact congrArg Except.ok ρ.root.symm
  | named name =>
    rw [Session.handle, Session.handle, h.registry.handles]
    cases s.registry.handle? name <;> rfl
  | saved label =>
    rw [Session.handle, Session.handle, h.saved, Dict.get?_map]
    cases s.saved.get? label <;> rfl

theorem rename_of_handle_error {place : Place} {answer : Answer}
    (h : s.handle place = .error answer) : answer.rename ρ f = answer := by
  cases place with
  | root => cases h
  | named name =>
    rw [Session.handle] at h
    split at h <;> cases h
    rfl
  | saved label =>
    rw [Session.handle] at h
    split at h <;> cases h
    rfl

theorem save (h : s.Image ρ epochs N s') (label : Option String) (handle : Handle) :
    (s.save label handle).Image ρ epochs N (s'.save label (ρ.handle handle)) := by
  cases label with
  | none => exact h
  | some label =>
    refine ⟨h.registry, h.memo, h.wellFormed, h.wellFormed', ?_⟩
    rw [Session.save, Session.save, h.saved, Dict.map_insert]

theorem expand (h : s.Image ρ epochs N s') (hN : Memo.Indistinct N) (text : String) :
    (s.step (.expand text)).2.Image ρ epochs N (s'.step (.expand text)).2 where
  registry := h.registry.withMemo _ _
  memo := hN.expand _ _ h.memo text
  wellFormed := h.wellFormed.withMemo (h.wellFormed.sound.expand text)
  wellFormed' := h.wellFormed'.withMemo (h.wellFormed'.sound.expand text)
  saved := h.saved

theorem reset (h : s.Image ρ epochs N s') (hN : Memo.Indistinct N) :
    (s.step .reset).2.Image ρ epochs N (s'.step .reset).2 where
  registry := h.registry.reset
  memo := hN.clear _ _ h.memo
  wellFormed := Registry.wellFormed_of_empty _ _ rfl
  wellFormed' := Registry.wellFormed_of_empty _ _ rfl
  saved := h.saved

/-- The same answer but for the handles, and sessions that are the same but for the handles. -/
def Follows (ρ : Renaming) (epochs : Nat) (f : Slice → Slice) (N : Memo → Memo → Prop)
    (x y : Answer × Session) : Prop :=
  y.1 = x.1.rename ρ f ∧ x.2.Image ρ epochs N y.2

theorem change (h : s.Image ρ epochs N s') (ns : Option String) (change : Change)
    (label : Option String) :
    Follows ρ epochs f N (s.step (.change ns change label))
      (s'.step (.change ns change label)) := by
  rw [step, step]
  cases h.registry.apply_same h.wellFormed h.wellFormed' ns change with
  | refused first second =>
    rw [first, second]
    exact ⟨rfl, h⟩
  | @changed handle next next' first second image =>
    rw [first, second]
    refine ⟨congrArg (Answer.issued (ρ.handle handle)) (image.label handle), ?_⟩
    have hkept := Registry.apply_kept first
    have hkept' := Registry.apply_kept second
    apply save
    refine ⟨image, ?_, h.wellFormed.apply first, h.wellFormed'.apply second, h.saved⟩
    dsimp only
    rw [hkept.2, hkept'.2]
    exact h.memo

theorem look (h : s.Image ρ epochs N s') (start : Place) (look : Look) :
    Follows ρ epochs f N (s.step (.look start look)) (s'.step (.look start look)) := by
  rw [step, step, h.handle]
  cases hs : s.handle start with
  | error answer => exact ⟨(rename_of_handle_error hs).symm, h⟩
  | ok handle => exact ⟨h.registry.look handle look, h⟩

theorem ask (h : s.Image ρ epochs N s') (hN : Memo.Indistinct N) (start : Place)
    (selector : Selector) (stages : List Stage) :
    Follows ρ epochs f N (s.step (.ask start selector stages))
      (s'.step (.ask start selector stages)) := by
  rw [step, step, h.handle]
  cases hs : s.handle start with
  | error answer => exact ⟨(rename_of_handle_error hs).symm, h⟩
  | ok handle =>
    obtain ⟨hanswer, himage, hmemo⟩ := h.registry.ask hN h.memo handle selector stages
    exact ⟨hanswer, himage, hmemo, h.wellFormed.ask .., h.wellFormed'.ask .., h.saved⟩

theorem findNamespace (h : s.Image ρ epochs N s') (name : String) :
    Follows ρ epochs f N (s.step (.findNamespace name)) (s'.step (.findNamespace name)) := by
  refine ⟨?_, h⟩
  rw [step, step, h.registry.handles]
  cases s.registry.handle? name with
  | none => rfl
  | some handle =>
    have hlabel := h.registry.label handle
    exact congrArg (fun label => Answer.namespaceFound (some (ρ.handle handle, label))) hlabel

theorem compare (h : s.Image ρ epochs N s') (a b : Place) :
    Follows ρ epochs f N (s.step (.compare a b)) (s'.step (.compare a b)) := by
  rw [step, step, h.handle, h.handle]
  cases ha : s.handle a with
  | error answer => exact ⟨(rename_of_handle_error ha).symm, h⟩
  | ok a =>
    cases hb : s.handle b with
    | error answer => exact ⟨(rename_of_handle_error hb).symm, h⟩
    | ok b => exact ⟨congrArg Answer.same (ρ.handle_beq a b), h⟩

theorem step (h : s.Image ρ epochs N s') (hN : Memo.Indistinct N)
    (plain : command.isPlain = true) : Follows ρ epochs f N (s.step command) (s'.step command) := by
  cases command with
  | renew options => cases plain
  | reset => exact ⟨rfl, h.reset hN⟩
  | change ns change label => exact h.change ns change label
  | look start look => exact h.look start look
  | ask start selector stages => exact h.ask hN start selector stages
  | findNamespace name => exact h.findNamespace name
  | compare a b => exact h.compare a b
  | expand text => cases plain
  | expandTwice text => cases plain
  | options => cases plain

theorem step_of_slices (h : s.Image ρ epochs N s') (hN : Memo.Indistinct N)
    (hslices : ∀ m m', N m m' → ∀ text, (m'.expand text).1 = f (m.expand text).1)
    (hoptions : s'.registry.options = s.registry.options)
    (hc : ∀ options, command ≠ .renew options) :
    Follows ρ epochs f N (s.step command) (s'.step command) := by
  have hexpand : ∀ {s s' : Session}, s.Image ρ epochs N s' → ∀ text,
      (s'.registry.expand text).1 = f (s.registry.expand text).1 :=
    fun h text => hslices _ _ h.memo text
  cases hplain : command.isPlain with
  | true => exact h.step hN hplain
  | false =>
    match command, hplain with
    | .renew options, _ => exact absurd rfl (hc options)
    | .expand text, _ => exact ⟨congrArg Answer.slice (hexpand h text), h.expand hN text⟩
    | .expandTwice text, _ =>
      have hafter := h.expand hN text
      have hsecond := hexpand hafter text
      exact ⟨congr (congrArg Answer.slices (hexpand h text)) hsecond, hafter.expand hN text⟩
    | .options, _ => exact ⟨congrArg Answer.options hoptions, h⟩

end Image

end Session

namespace Registry

/-- The second registry is answered from a handle as the first from the one it stands for. -/
structure AnswersRenamed (ρ : Renaming) (f : Slice → Slice) (r r' : Registry) : Prop where
  look : ∀ start look, r'.look (ρ.handle start) look = (r.look start look).rename ρ f
  ask : ∀ start selector stages,
    (r'.ask (ρ.handle start) selector stages).1 = (r.ask start selector stages).1
  vars : ∀ start name, r'.lookup? (ρ.handle start) name = r.lookup? start name
  mixins : ∀ start name, r'.mixin? (ρ.handle start) name = r.mixin? start name

theorem answersRenamed {s s' : Session} (h : s.Image ρ epochs N s') (hN : Memo.Indistinct N) :
    s.registry.AnswersRenamed ρ f s'.registry where
  look := h.registry.look
  ask := by
    intro start selector stages
    exact (h.registry.ask hN h.memo start selector stages).1
  vars := h.registry.lookup?
  mixins := h.registry.mixin?

end Registry

end Stylebook
