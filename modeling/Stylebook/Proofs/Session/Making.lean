import Stylebook.Factory
import Stylebook.Proofs.Session.Renaming

namespace Stylebook

variable {N : Memo → Memo → Prop} {ρ : Renaming} {epochs : Nat} {f : Slice → Slice}

def Question.rename (ρ : Renaming) : Question → Question
  | .look start what => .look (ρ.handle start) what
  | .ask start selector stages => .ask (ρ.handle start) selector stages
  | question => question

namespace Factory

/-- The second factory asks and gives what the first does, with renamed handles, and no options. -/
inductive Renamed (ρ : Renaming) : Factory → Factory → Prop
  | give (declarations : Declarations) : Renamed ρ (.give declarations) (.give declarations)
  | ask {question : Question} {next next' : Answer → Factory} (seen : question ≠ .options)
      (answered : ∀ answer, Renamed ρ (next answer) (next' (answer.rename ρ fun made => made))) :
      Renamed ρ (.ask question next) (.ask (question.rename ρ) next')
  | expand (text : String) {next next' : List Path → Factory}
      (expanded : ∀ paths, Renamed ρ (next paths) (next' paths)) :
      Renamed ρ (.expand text next) (.expand text next')

/-- A factory that sees neither handles nor options: with renamed handles it does the same. -/
def Blind (factory : Factory) : Prop := ∀ ρ, Renamed ρ factory factory

theorem Renamed.ask_of_eq {question question' : Question} {next next' : Answer → Factory}
    (same : question.rename ρ = question') (seen : question ≠ .options)
    (answered : ∀ answer, Renamed ρ (next answer) (next' (answer.rename ρ fun made => made))) :
    Renamed ρ (.ask question next) (.ask question' next') :=
  same ▸ .ask seen answered

theorem blind_ofSketches (sketches : List (String × Sketch)) : (ofSketches sketches).Blind := by
  intro ρ
  have hroot : (Question.look Handle.root .scope).rename ρ = .look Handle.root .scope :=
    congrArg (Question.look · .scope) ρ.root
  apply Renamed.ask_of_eq hroot (by rintro ⟨⟩)
  intro answer
  cases answer with
  | scope found =>
    cases found with
    | none => exact .give ∅
    | some root => exact .give _
  | _ => exact .give ∅

theorem make_options (factory : Factory) (r : Registry) :
    (factory.make r).2.options = r.options := by
  induction factory generalizing r with
  | give declarations => rfl
  | ask question next ih =>
    rw [make_ask, ih]
    cases question <;> rfl
  | expand text next ih =>
    rw [make_expand, ih]
    rfl

end Factory

/-- The factory passes on the handle of the theme, and gives the label that it finds from there. -/
def frameLikeBox : Factory := .ask (.findNamespace "theme") fun
  | .namespaceFound (some (theme, _)) => .ask (.look theme (.locate ⟨"box", []⟩)) fun
    | .located _ found => .give (Dict.singleton "frame"
        (.attributes (Dict.singleton "like" (.string found.label))))
    | _ => .give ∅
  | _ => .give ∅

theorem blind_frameLikeBox : frameLikeBox.Blind := by
  intro ρ
  apply Factory.Renamed.ask_of_eq rfl (by rintro ⟨⟩)
  intro answer
  cases answer with
  | namespaceFound found =>
    cases found with
    | none => exact .give ∅
    | some theme =>
      apply Factory.Renamed.ask_of_eq rfl (by rintro ⟨⟩)
      intro answer
      cases answer with
      | located label found => exact .give _
      | _ => exact .give ∅
  | _ => exact .give ∅

/-- A factory that is run by the action sees neither handles nor options. -/
def Action.IsBlind {α : Type} : Action α → Prop
  | .plain _ => True
  | .make _ factory _ => factory.Blind

namespace Session

variable {s s' : Session}

/-- To register what a factory makes is to let it ask, and then to register its declarations. -/
theorem act_make (s : Session) (ns : Option String) (factory : Factory) (label : Option String) :
    s.act (.make ns factory label) =
      { s with registry := (factory.make s.registry).2 }.step
        (.change ns (.register (factory.make s.registry).1) label) := by
  cases h : (factory.make s.registry).2.register ns (factory.make s.registry).1 with
  | error fault => simp only [act, step, Registry.registerMade_refused h, Registry.apply, h]
  | ok changed => simp only [act, step, Registry.registerMade_registered h, Registry.apply, h]

theorem act_options {action : Action Command} (h : ∀ options, action ≠ .plain (.renew options)) :
    (s.act action).2.registry.options = s.registry.options := by
  cases action with
  | plain command =>
    apply step_options
    rintro options rfl
    exact h options rfl
  | make ns factory label =>
    rw [act_make, step_options fun options he => by cases he]
    exact factory.make_options s.registry

namespace Image

theorem consult (h : s.Image ρ epochs N s') (hN : Memo.Indistinct N) {question : Question}
    (seen : question ≠ .options) :
    (s'.registry.consult (question.rename ρ)).1 = (s.registry.consult question).1.rename ρ f ∧
      { s with registry := (s.registry.consult question).2 }.Image ρ epochs N
        { s' with registry := (s'.registry.consult (question.rename ρ)).2 } := by
  cases question with
  | look start look => exact ⟨h.registry.look start look, h⟩
  | ask start selector stages =>
    obtain ⟨hanswer, himage, hmemo⟩ := h.registry.ask hN h.memo start selector stages
    exact ⟨hanswer, himage, hmemo, h.wellFormed.ask .., h.wellFormed'.ask .., h.saved⟩
  | findNamespace name => exact ⟨(h.findNamespace name).1, h⟩
  | options => exact absurd rfl seen

theorem make {factory factory' : Factory} (hf : factory.Renamed ρ factory')
    (h : s.Image ρ epochs N s') (hN : Memo.Indistinct N) :
    (factory'.make s'.registry).1 = (factory.make s.registry).1 ∧
      { s with registry := (factory.make s.registry).2 }.Image ρ epochs N
        { s' with registry := (factory'.make s'.registry).2 } := by
  induction hf generalizing s s' with
  | give declarations => exact ⟨rfl, h⟩
  | @ask question next next' seen answered ih =>
    obtain ⟨hanswer, hafter⟩ := h.consult (f := fun made => made) hN seen
    rw [Factory.make_ask, Factory.make_ask, hanswer]
    exact ih _ hafter
  | @expand text next next' expanded ih =>
    have hpaths : (s.registry.expand text).1.paths = (s'.registry.expand text).1.paths :=
      hN.paths _ _ h.memo text
    rw [Factory.make_expand, Factory.make_expand, ← hpaths]
    exact ih _ (h.expand hN text)

theorem act (h : s.Image ρ epochs N s') (hN : Memo.Indistinct N)
    (hslices : ∀ m m', N m m' → ∀ text, (m'.expand text).1 = f (m.expand text).1)
    (hoptions : s'.registry.options = s.registry.options) {action : Action Command}
    (hc : ∀ options, action ≠ .plain (.renew options)) (blind : action.IsBlind) :
    Follows ρ epochs f N (s.act action) (s'.act action) := by
  cases action with
  | plain command =>
    apply h.step_of_slices hN hslices hoptions
    rintro options rfl
    exact hc options rfl
  | make ns factory label =>
    obtain ⟨hmade, hafter⟩ := h.make (blind ρ) hN
    rw [act_make, act_make, hmade]
    exact hafter.change ns _ label

/-- A run has the same answers but for handles and slices, and leaves the sessions the same. -/
theorem actAll (h : s.Image ρ epochs N s') (hN : Memo.Indistinct N)
    (hslices : ∀ m m', N m m' → ∀ text, (m'.expand text).1 = f (m.expand text).1)
    (hoptions : s'.registry.options = s.registry.options) {actions : List (Action Command)}
    (hc : ∀ options, .plain (.renew options) ∉ actions)
    (blind : ∀ action ∈ actions, action.IsBlind) :
    (s'.actAll actions).1 = (s.actAll actions).1.map (Answer.rename ρ f) ∧
      (s.actAll actions).2.Image ρ epochs N (s'.actAll actions).2 := by
  induction actions generalizing s s' with
  | nil => exact ⟨rfl, h⟩
  | cons action rest ih =>
    have hfirst : ∀ options, action ≠ .plain (.renew options) := by
      rintro options rfl
      exact hc options List.mem_cons_self
    have hrest : ∀ options, .plain (.renew options) ∉ rest :=
      fun options hmem => hc options (List.mem_cons_of_mem _ hmem)
    obtain ⟨hblind, hothers⟩ := List.forall_mem_cons.1 blind
    obtain ⟨hanswer, hafter⟩ := h.act hN hslices hoptions hfirst hblind
    have hkept : (s'.act action).2.registry.options = (s.act action).2.registry.options := by
      rw [act_options hfirst, act_options hfirst, hoptions]
    obtain ⟨hanswers, hlast⟩ := ih hafter hkept hrest hothers
    refine ⟨?_, hlast⟩
    rw [actAll_cons, actAll_cons, List.map_cons, ← hanswer, ← hanswers]

end Image

end Session

end Stylebook
