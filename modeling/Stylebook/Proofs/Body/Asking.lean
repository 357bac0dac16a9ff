import Stylebook.Recipe.Invoke
import Stylebook.Proofs.Body.Merging

namespace Stylebook

/-- Resolving paths in order asks for a path, in the evaluation as it then is. A fault ends it. -/
inductive PathsAsk (resolve : Path → Resolving) : List Path → Evaluation → Path → Evaluation → Prop
  | here {path : Path} {rest : List Path} {e : Evaluation} :
      PathsAsk resolve (path :: rest) e path e
  | later {first path : Path} {rest : List Path} {e after now : Evaluation}
      {attributes : Attributes} (first_ok : resolve first e = (.ok attributes, after))
      (asks : PathsAsk resolve rest after path now) : PathsAsk resolve (first :: rest) e path now

theorem PathsAsk.first {resolve : Path → Resolving} {paths rest : List Path} {path : Path}
    {e : Evaluation} (h : paths = path :: rest) : PathsAsk resolve paths e path e := by
  rw [h]
  exact .here

def Context.InclusionAsks (c : Context) (selector : String) (e : Evaluation) (path : Path)
    (now : Evaluation) : Prop :=
  PathsAsk c.resolve (e.expand selector).1.paths (e.expand selector).2 path now

/-- Running a program comes to the rest of it, with the progress that there is by then. -/
inductive Program.Reaches {α : Type} (c : Context) :
    Program α → Progress → Program α → Progress → Prop
  | here {program : Program α} {p : Progress} : Reaches c program p program p
  | collect {attributes : Attributes} {next last : Program α} {p q : Progress}
      (rest : Reaches c next (p.collect attributes) last q) :
      Reaches c (.collect attributes next) p last q
  | collected {next : Attributes → Program α} {last : Program α} {p q : Progress}
      (rest : Reaches c (next p.collected) p last q) : Reaches c (.collected next) p last q
  | callMixin {name : String} {arguments : List Value} {next : Option Fault → Program α}
      {last : Program α} {fault : Option Fault} {p after q : Progress}
      (called : c.callMixin name arguments p = (fault, after))
      (rest : Reaches c (next fault) after last q) :
      Reaches c (.callMixin name arguments next) p last q
  | inclusion {selector : String} {next : Option Fault → Program α} {last : Program α}
      {fault : Option Fault} {p after q : Progress}
      (included : c.inclusion selector p = (fault, after))
      (rest : Reaches c (next fault) after last q) : Reaches c (.inclusion selector next) p last q

/-- While a recipe is invoked a body of an owner comes to a program, with some progress. -/
inductive Recipe.Runs (setting : Setting) (resolve : Handle → Path → Resolving) :
    Recipe → Evaluation → Handle → Program Attributes → Progress → Prop
  | run {owner : Handle} {body : Body} {e : Evaluation} {program : Program Attributes}
      {p : Progress}
      (reaches : (body (Context.ofOwner setting resolve owner).view).Reaches
        (Context.ofOwner setting resolve owner) ⟨∅, e⟩ program p) :
      Recipe.Runs setting resolve (.run owner body) e owner program p
  | base {base top : Recipe} {e : Evaluation} {owner : Handle} {program : Program Attributes}
      {p : Progress} (runs : Recipe.Runs setting resolve base e owner program p) :
      Recipe.Runs setting resolve (.layered base top) e owner program p
  | top {base top : Recipe} {below : Attributes} {e after : Evaluation} {owner : Handle}
      {program : Program Attributes} {p : Progress}
      (base_ok : base.invoke setting resolve e = (.ok below, after))
      (runs : Recipe.Runs setting resolve top after owner program p) :
      Recipe.Runs setting resolve (.layered base top) e owner program p

/-- Invoking a recipe asks for a path, on behalf of the owner of a body that includes it. -/
def Recipe.Asks (setting : Setting) (resolve : Handle → Path → Resolving) (recipe : Recipe)
    (e : Evaluation) (owner : Handle) (path : Path) (now : Evaluation) : Prop :=
  ∃ selector next p, recipe.Runs setting resolve e owner (.inclusion selector next) p ∧
    (Context.ofOwner setting resolve owner).InclusionAsks selector p.evaluation path now

/-- Related evaluations give the same expansions, and go on being related. -/
def Evaluation.Indistinct (M : Evaluation → Evaluation → Prop) : Prop :=
  ∀ e e', M e e' → ∀ text, (e.expand text).1.paths = (e'.expand text).1.paths ∧
    M (e.expand text).2 (e'.expand text).2

/-- The same answer, and related evaluations. -/
def Resolving.Same (M : Evaluation → Evaluation → Prop)
    (x y : Except Fault Attributes × Evaluation) : Prop :=
  ∃ answer n n', x = (answer, n) ∧ y = (answer, n') ∧ M n n'

/-- The same result, the same collected attributes, and related evaluations. -/
def Progress.Same {β : Type} (M : Evaluation → Evaluation → Prop) (x y : β × Progress) : Prop :=
  ∃ result collected n n', x = (result, ⟨collected, n⟩) ∧ y = (result, ⟨collected, n'⟩) ∧ M n n'

def Context.redirect (c : Context) (resolve : Path → Resolving) : Context :=
  { c with resolve := resolve }

variable {M : Evaluation → Evaluation → Prop} {c : Context} {other : Path → Resolving} {α : Type}

theorem Progress.same_of {β : Type} (result : β) (collected : Attributes) {e e' : Evaluation}
    (hm : M e e') : Progress.Same M (result, ⟨collected, e⟩) (result, ⟨collected, e'⟩) :=
  ⟨result, collected, e, e', rfl, rfl, hm⟩

theorem Context.includeAll_same {paths : List Path} {a : Attributes} {e e' : Evaluation}
    (hm : M e e')
    (hres : ∀ path n n', PathsAsk c.resolve paths e path n → M n n' →
      Resolving.Same M (c.resolve path n) (other path n')) :
    Progress.Same M (c.includeAll paths ⟨a, e⟩) ((c.redirect other).includeAll paths ⟨a, e'⟩) := by
  induction paths generalizing a e e' with
  | nil => exact Progress.same_of _ _ hm
  | cons path rest ih =>
    obtain ⟨answer, n, n', hx, hy, hn⟩ := hres path e e' .here hm
    change (c.redirect other).resolve path e' = _ at hy
    cases answer with
    | error fault =>
      simp only [includeAll, hx, hy]
      exact Progress.same_of _ _ hn
    | ok attributes =>
      simp only [includeAll, hx, hy]
      apply ih hn
      intro path k k' asks hk
      exact hres path k k' (.later hx asks) hk

theorem Context.inclusion_same (hM : Evaluation.Indistinct M) {selector : String} {a : Attributes}
    {e e' : Evaluation} (hm : M e e')
    (hres : ∀ path n n', c.InclusionAsks selector e path n → M n n' →
      Resolving.Same M (c.resolve path n) (other path n')) :
    Progress.Same M (c.inclusion selector ⟨a, e⟩)
      ((c.redirect other).inclusion selector ⟨a, e'⟩) := by
  obtain ⟨hpaths, hexpanded⟩ := hM e e' hm selector
  rw [inclusion, inclusion]
  dsimp only
  rw [← hpaths]
  exact Context.includeAll_same hexpanded hres

theorem Context.callMixin_same (other : Path → Resolving) (name : String) (arguments : List Value)
    (a : Attributes) {e e' : Evaluation} (hm : M e e') :
    Progress.Same M (c.callMixin name arguments ⟨a, e⟩)
      ((c.redirect other).callMixin name arguments ⟨a, e'⟩) := by
  have hmixin : (c.redirect other).mixin? name = c.mixin? name := rfl
  rw [callMixin, callMixin, hmixin]
  cases c.mixin? name with
  | none => exact Progress.same_of _ a hm
  | some mixin => exact Progress.same_of none _ hm

namespace Program

variable {program rest : Program α} {p q : Progress}

theorem Reaches.run_eq (h : program.Reaches c p rest q) : program.run c p = rest.run c q := by
  induction h with
  | here => rfl
  | collect rest ih => exact ih
  | collected rest ih => exact ih
  | callMixin called rest ih => rw [run_callMixin, called, ih]
  | inclusion included rest ih => rw [run_inclusion, included, ih]

/-- A program that depends on the resolver through its inclusions runs alike where they do. -/
theorem run_same (hM : Evaluation.Indistinct M) (program : Program α) {a : Attributes}
    {e e' : Evaluation} (hm : M e e')
    (hres : ∀ selector next p path n n', program.Reaches c ⟨a, e⟩ (.inclusion selector next) p →
      c.InclusionAsks selector p.evaluation path n → M n n' →
        Resolving.Same M (c.resolve path n) (other path n')) :
    Progress.Same M (program.run c ⟨a, e⟩) (program.run (c.redirect other) ⟨a, e'⟩) := by
  induction program generalizing a e e' with
  | done result => exact Progress.same_of _ a hm
  | fail fault => exact Progress.same_of _ a hm
  | collect attributes next ih =>
    apply ih hm
    intro selector rest p path n n' reaches
    exact hres selector rest p path n n' (.collect reaches)
  | collected next ih =>
    apply ih a hm
    intro selector rest p path n n' reaches
    exact hres selector rest p path n n' (.collected reaches)
  | callMixin name arguments next ih =>
    obtain ⟨fault, b, n, n', hx, hy, hn⟩ := Context.callMixin_same other name arguments a hm
    rw [run_callMixin, run_callMixin, hx, hy]
    apply ih fault hn
    intro selector rest p path k k' reaches
    exact hres selector rest p path k k' (.callMixin hx reaches)
  | inclusion selector next ih =>
    obtain ⟨fault, b, n, n', hx, hy, hn⟩ := Context.inclusion_same (a := a) hM hm
      fun path k k' asks hk => hres selector next ⟨a, e⟩ path k k' .here asks hk
    rw [run_inclusion, run_inclusion, hx, hy]
    apply ih fault hn
    intro selector rest p path k k' reaches
    exact hres selector rest p path k k' (.inclusion hx reaches)

end Program

variable {setting : Setting} {resolve resolve' : Handle → Path → Resolving}

theorem Body.run_same (hM : Evaluation.Indistinct M) (body : Body) {e e' : Evaluation} (hm : M e e')
    (hres : ∀ selector next p path n n',
      (body c.view).Reaches c ⟨∅, e⟩ (.inclusion selector next) p →
      c.InclusionAsks selector p.evaluation path n → M n n' →
        Resolving.Same M (c.resolve path n) (other path n')) :
    Resolving.Same M (body.run c e) (body.run (c.redirect other) e') := by
  have hview : (c.redirect other).view = c.view := rfl
  obtain ⟨result, b, n, n', hx, hy, hn⟩ := Program.run_same hM (body c.view) hm hres
  rw [Body.run, Body.run, hview, hx, hy]
  cases result with
  | ok returned => exact ⟨.ok (b.merge returned), n, n', rfl, rfl, hn⟩
  | error fault => exact ⟨.error fault, n, n', rfl, rfl, hn⟩

namespace Recipe

theorem Asks.base {base top : Recipe} {e now : Evaluation} {owner : Handle} {path : Path}
    (asks : base.Asks setting resolve e owner path now) :
    (layered base top).Asks setting resolve e owner path now := by
  obtain ⟨selector, next, p, runs, asks⟩ := asks
  exact ⟨selector, next, p, .base runs, asks⟩

theorem Asks.top {base top : Recipe} {below : Attributes} {e after now : Evaluation}
    {owner : Handle} {path : Path} (base_ok : base.invoke setting resolve e = (.ok below, after))
    (asks : top.Asks setting resolve after owner path now) :
    (layered base top).Asks setting resolve e owner path now := by
  obtain ⟨selector, next, p, runs, asks⟩ := asks
  exact ⟨selector, next, p, .top base_ok runs, asks⟩

theorem layered_same {setting' : Setting} {base base' top top' : Recipe} {e e' : Evaluation}
    (hbase : Resolving.Same M (base.invoke setting resolve e) (base'.invoke setting' resolve' e'))
    (htop : ∀ below n n', base.invoke setting resolve e = (.ok below, n) → M n n' →
      Resolving.Same M (top.invoke setting resolve n) (top'.invoke setting' resolve' n')) :
    Resolving.Same M ((layered base top).invoke setting resolve e)
      ((layered base' top').invoke setting' resolve' e') := by
  obtain ⟨answer, n, n', hx, hy, hn⟩ := hbase
  cases answer with
  | error fault =>
    rw [invoke_layered_error hx, invoke_layered_error hy]
    exact ⟨.error fault, n, n', rfl, rfl, hn⟩
  | ok below =>
    rw [invoke_layered_ok hx, invoke_layered_ok hy]
    obtain ⟨answer, k, k', hx', hy', hk⟩ := htop below n n' hx hn
    rw [hx', hy']
    exact ⟨answer.map below.merge, k, k', rfl, rfl, hk⟩

/-- An invocation depends on the resolver through the requests that it makes. -/
theorem invoke_same (hM : Evaluation.Indistinct M) (recipe : Recipe) {e e' : Evaluation}
    (hm : M e e')
    (hres : ∀ owner path n n', recipe.Asks setting resolve e owner path n → M n n' →
      Resolving.Same M (resolve owner path n) (resolve' owner path n')) :
    Resolving.Same M (recipe.invoke setting resolve e) (recipe.invoke setting resolve' e') := by
  induction recipe generalizing e e' with
  | fixed attributes => exact ⟨.ok attributes, e, e', rfl, rfl, hm⟩
  | run owner body =>
    apply Body.run_same hM body hm
    intro selector next p path n n' reaches asks hn
    exact hres owner path n n' ⟨selector, next, p, .run reaches, asks⟩ hn
  | layered base top ihbase ihtop =>
    apply layered_same
    · apply ihbase hm
      intro owner path n n' asks hn
      exact hres owner path n n' asks.base hn
    · intro below n n' hx hn
      apply ihtop hn
      intro owner path k k' asks hk
      exact hres owner path k k' (.top hx asks) hk

end Recipe

theorem Resolving.mergeAll_same {answer answer' : Path → Resolving} {paths : List Path}
    (merged : Attributes) {e e' : Evaluation} (hm : M e e')
    (hres : ∀ path n n', PathsAsk answer paths e path n → M n n' →
      Resolving.Same M (answer path n) (answer' path n')) :
    Resolving.Same M (mergeAll answer paths merged e) (mergeAll answer' paths merged e') := by
  induction paths generalizing merged e e' with
  | nil => exact ⟨.ok merged, e, e', rfl, rfl, hm⟩
  | cons path rest ih =>
    obtain ⟨result, n, n', hx, hy, hn⟩ := hres path e e' .here hm
    cases result with
    | error fault =>
      rw [mergeAll_cons_error hx, mergeAll_cons_error hy]
      exact ⟨.error fault, n, n', rfl, rfl, hn⟩
    | ok attributes =>
      simp only [mergeAll, hx, hy]
      apply ih _ hn
      intro path k k' asks hk
      exact hres path k k' (.later hx asks) hk

def Evaluation.Stable (P : Evaluation → Prop) : Prop :=
  ∀ e, P e → ∀ text, P (e.expand text).2

variable {P : Evaluation → Prop}

theorem Evaluation.Stable.indistinct (hP : Evaluation.Stable P) :
    Evaluation.Indistinct fun e e' => e = e' ∧ P e := by
  rintro e _ ⟨rfl, h⟩ text
  exact ⟨rfl, rfl, hP e h text⟩

theorem Resolving.same_self {x : Except Fault Attributes × Evaluation} (h : P x.2) :
    Resolving.Same (fun e e' => e = e' ∧ P e) x x :=
  ⟨x.1, x.2, x.2, rfl, rfl, rfl, h⟩

theorem Recipe.invoke_keeps (hP : Evaluation.Stable P)
    (hres : ∀ owner path n, P n → P (resolve owner path n).2) (recipe : Recipe) {e : Evaluation}
    (he : P e) : P (recipe.invoke setting resolve e).2 := by
  have hsame : Resolving.Same (fun e e' => e = e' ∧ P e) (recipe.invoke setting resolve e)
      (recipe.invoke setting resolve e) := by
    apply Recipe.invoke_same hP.indistinct recipe ⟨rfl, he⟩
    rintro owner path n _ _ ⟨rfl, hn⟩
    exact Resolving.same_self (hres owner path n hn)
  obtain ⟨answer, n, n', hx, _, _, hn⟩ := hsame
  rw [hx]
  exact hn

theorem PathsAsk.keeps {answer : Path → Resolving} {paths : List Path} {e now : Evaluation}
    {path : Path} (h : PathsAsk answer paths e path now)
    (hres : ∀ path n, P n → P (answer path n).2) (he : P e) : P now := by
  induction h with
  | here => exact he
  | @later first path rest e after now attributes first_ok asks ih =>
    have hafter := hres first e he
    rw [first_ok] at hafter
    exact ih hafter

theorem Context.inclusion_keeps (hP : Evaluation.Stable P)
    (hres : ∀ path n, P n → P (c.resolve path n).2) (selector : String) {p : Progress}
    (hp : P p.evaluation) : P (c.inclusion selector p).2.evaluation := by
  obtain ⟨a, e⟩ := p
  have hsame : Progress.Same (fun e e' => e = e' ∧ P e) (c.inclusion selector ⟨a, e⟩)
      ((c.redirect c.resolve).inclusion selector ⟨a, e⟩) := by
    apply Context.inclusion_same hP.indistinct ⟨rfl, hp⟩
    rintro path n _ _ ⟨rfl, hn⟩
    exact Resolving.same_self (hres path n hn)
  obtain ⟨fault, b, n, n', hx, _, _, hn⟩ := hsame
  rw [hx]
  exact hn

theorem Context.callMixin_evaluation (c : Context) (name : String) (arguments : List Value)
    (p : Progress) : (c.callMixin name arguments p).2.evaluation = p.evaluation := by
  rw [callMixin]
  cases c.mixin? name <;> rfl

theorem Program.Reaches.keeps {program rest : Program α} {p q : Progress}
    (h : program.Reaches c p rest q) (hP : Evaluation.Stable P)
    (hres : ∀ path n, P n → P (c.resolve path n).2) (hp : P p.evaluation) : P q.evaluation := by
  induction h with
  | here => exact hp
  | collect rest ih => exact ih hp
  | collected rest ih => exact ih hp
  | @callMixin name arguments next last fault p after q called rest ih =>
    have hafter := c.callMixin_evaluation name arguments p
    rw [called] at hafter
    exact ih (hafter ▸ hp)
  | @inclusion selector next last fault p after q included rest ih =>
    have hafter := Context.inclusion_keeps hP hres selector hp
    rw [included] at hafter
    exact ih hafter

theorem Recipe.Runs.keeps {recipe : Recipe} {owner : Handle} {program : Program Attributes}
    {e : Evaluation} {p : Progress} (h : recipe.Runs setting resolve e owner program p)
    (hP : Evaluation.Stable P) (hres : ∀ owner path n, P n → P (resolve owner path n).2)
    (he : P e) : P p.evaluation := by
  induction h with
  | @run owner body e program p reaches => exact reaches.keeps hP (hres owner) he
  | base runs ih => exact ih he
  | @top base top below e after owner program p base_ok runs ih =>
    have hafter : P (base.invoke setting resolve e).2 := Recipe.invoke_keeps hP hres base he
    rw [base_ok] at hafter
    exact ih hafter

theorem Recipe.Asks.keeps {recipe : Recipe} {owner : Handle} {path : Path} {e now : Evaluation}
    (h : recipe.Asks setting resolve e owner path now) (hP : Evaluation.Stable P)
    (hres : ∀ owner path n, P n → P (resolve owner path n).2) (he : P e) : P now := by
  obtain ⟨selector, next, p, runs, asks⟩ := h
  exact asks.keeps (hres owner) (hP _ (runs.keeps hP hres he) selector)

end Stylebook
