import Stylebook.Factory
import Stylebook.Proofs.Query.Merge
import Stylebook.Proofs.Registry.Exchange

namespace Stylebook

namespace Registry

/-- The second registry is the first one with another memory. Both memories hand out expansions. -/
inductive OtherMemory (r : Registry) : Registry → Prop
  | memo {m : Memo} (sound : r.memo.Sound) (sound' : m.Sound) : OtherMemory r { r with memo := m }

variable {r r' : Registry}

theorem OtherMemory.refl (h : r.memo.Sound) : r.OtherMemory r := .memo h h

theorem OtherMemory.sound (h : r.OtherMemory r') : r.memo.Sound := by
  cases h with
  | memo sound sound' => exact sound

theorem OtherMemory.sound' (h : r.OtherMemory r') : r'.memo.Sound := by
  cases h with
  | memo sound sound' => exact sound'

theorem OtherMemory.symm (h : r.OtherMemory r') : r'.OtherMemory r := by
  cases h with
  | memo sound sound' => exact .memo sound' sound

theorem OtherMemory.trans {r'' : Registry} (h : r.OtherMemory r') (h' : r'.OtherMemory r'') :
    r.OtherMemory r'' := by
  cases h with
  | memo sound _ =>
    cases h' with
    | memo _ sound'' => exact .memo sound sound''

theorem OtherMemory.after {s s' : Registry} (h : r.OtherMemory r') (read : r.OtherMemory s)
    (read' : r'.OtherMemory s') : s.OtherMemory s' :=
  (read.symm.trans h).trans read'

theorem OtherMemory.reset (h : r.OtherMemory r') : r.reset.OtherMemory r'.reset := by
  cases h with
  | memo sound sound' => exact .memo (Memo.sound_of_empty rfl) (Memo.sound_of_empty rfl)

theorem ensure_memo (r : Registry) (m : Memo) (ns : Option String) :
    { r with memo := m }.ensure ns = { r.ensure ns with memo := m } := by
  cases ns with
  | none => rfl
  | some name =>
    have hname : { r with memo := m }.handle? name = r.handle? name := rfl
    rw [ensure, ensure, hname]
    cases r.handle? name <;> rfl

theorem modifyScope_memo (r : Registry) (m : Memo) (ns : Option String) (edit : Scope → Scope) :
    { r with memo := m }.modifyScope ns edit =
      ((r.modifyScope ns edit).1, { (r.modifyScope ns edit).2 with memo := m }) := by
  have hhandle : { r with memo := m }.handleFor ns = r.handleFor ns := rfl
  rw [modifyScope, modifyScope, ensure_memo, hhandle]
  cases (r.handleFor ns).slot <;> rfl

theorem apply_memo (r : Registry) (m : Memo) (ns : Option String) (change : Change) :
    { r with memo := m }.apply ns change =
      (r.apply ns change).map fun changed => (changed.1, { changed.2 with memo := m }) := by
  have hhandle : { r with memo := m }.handleFor ns = r.handleFor ns := rfl
  have hview : { r with memo := m }.sketchView = r.sketchView := rfl
  rw [apply_eq_edit, apply_eq_edit, hhandle, hview]
  cases change.edit r.sketchView (r.handleFor ns) with
  | error fault => rfl
  | ok edit => exact congrArg Except.ok (r.modifyScope_memo m ns edit)

/-- Both are refused for the same fault, or both are changed under the same handle. -/
inductive ChangedAlike (x y : Except Fault (Handle × Registry)) : Prop
  | refused {fault : Fault} (first : x = .error fault) (second : y = .error fault)
  | changed {handle : Handle} {next next' : Registry} (first : x = .ok (handle, next))
      (second : y = .ok (handle, next')) (other : next.OtherMemory next')

theorem OtherMemory.apply (h : r.OtherMemory r') (ns : Option String) (change : Change) :
    ChangedAlike (r.apply ns change) (r'.apply ns change) := by
  cases h with
  | @memo m sound sound' =>
    have happly := r.apply_memo m ns change
    cases hc : r.apply ns change with
    | error fault =>
      rw [hc] at happly
      exact .refused rfl happly
    | ok changed =>
      rw [hc] at happly
      have hkept := (apply_kept hc).2
      exact .changed rfl happly (.memo (hkept ▸ sound) sound')

theorem OtherMemory.handle? (h : r.OtherMemory r') (name : String) :
    r'.handle? name = r.handle? name := by
  cases h with
  | memo sound sound' => rfl

theorem OtherMemory.label (h : r.OtherMemory r') (handle : Handle) :
    r'.label handle = r.label handle := by
  cases h with
  | memo sound sound' => rfl

theorem OtherMemory.look (h : r.OtherMemory r') (start : Handle) (look : Look) :
    r'.look start look = r.look start look := by
  cases h with
  | @memo m sound sound' =>
    cases look with
    | locate path => rfl
    | mixin name =>
      rw [Registry.look, Registry.look, mixin?_memo]
      rfl
    | ownVariable name => rfl
    | scope => rfl
    | ancestors =>
      rw [Registry.look, Registry.look, ancestors_memo]

theorem OtherMemory.expand (h : r.OtherMemory r') (text : String) :
    (r'.expand text).1.paths = (r.expand text).1.paths :=
  (h.sound'.paths_expand text).trans (h.sound.paths_expand text).symm

theorem otherMemory_expand (h : r.memo.Sound) (text : String) :
    r.OtherMemory (r.expand text).2 :=
  .memo h (h.expand text)

theorem OtherMemory.afterExpand (h : r.OtherMemory r') (text : String) :
    (r.expand text).2.OtherMemory (r'.expand text).2 :=
  h.after (otherMemory_expand h.sound text) (otherMemory_expand h.sound' text)

theorem otherMemory_paths (h : r.memo.Sound) (q : Query) : r.OtherMemory (q.paths r).2 :=
  .memo h (h.expandAll q.selector.parts).2

theorem otherMemory_resolve (h : r.memo.Sound) (q : Query) : r.OtherMemory (q.resolve r).2 := by
  have hsound : ((q.resolve r).2).memo.Sound := q.resolve_keeps (fun m hm text => hm.expand text) h
  rw [Query.resolve_eq_conclude] at hsound ⊢
  exact .memo h hsound

theorem OtherMemory.paths (h : r.OtherMemory r') (q : Query) : (q.paths r').1 = (q.paths r).1 := by
  rw [Query.paths_eq h.sound, Query.paths_eq h.sound']

theorem OtherMemory.resolve (h : r.OtherMemory r') (q : Query) :
    (q.resolve r').1 = (q.resolve r).1 := by
  cases h with
  | memo sound sound' => exact Query.resolve_memo sound sound' q

theorem OtherMemory.ask (h : r.OtherMemory r') (start : Handle) (selector : Selector)
    (stages : List Stage) :
    (r'.ask start selector stages).1 = (r.ask start selector stages).1 := by
  let q := Query.ofStages start selector stages
  have hafter := h.after (otherMemory_paths h.sound q) (otherMemory_paths h.sound' q)
  change Answer.resolved (q.paths r').1 (q.resolve (q.paths r').2).1 =
    Answer.resolved (q.paths r).1 (q.resolve (q.paths r).2).1
  rw [h.paths, hafter.resolve]

theorem otherMemory_ask (h : r.memo.Sound) (start : Handle) (selector : Selector)
    (stages : List Stage) : r.OtherMemory (r.ask start selector stages).2 := by
  let q := Query.ofStages start selector stages
  have hpaths := otherMemory_paths h q
  exact hpaths.trans (otherMemory_resolve hpaths.sound' q)

theorem otherMemory_consult (h : r.memo.Sound) (question : Question) :
    r.OtherMemory (r.consult question).2 := by
  cases question with
  | ask start selector stages => exact otherMemory_ask h start selector stages
  | look start look => exact .refl h
  | findNamespace name => exact .refl h
  | options => exact .refl h

theorem OtherMemory.consult (h : r.OtherMemory r') (question : Question) :
    (r'.consult question).1 = (r.consult question).1 := by
  cases question with
  | ask start selector stages => exact h.ask start selector stages
  | look start look => exact h.look start look
  | findNamespace name =>
    cases h with
    | memo sound sound' => rfl
  | options =>
    cases h with
    | memo sound sound' => rfl

theorem otherMemory_make (factory : Factory) {r : Registry} (h : r.memo.Sound) :
    r.OtherMemory (factory.make r).2 := by
  induction factory generalizing r with
  | give declarations => exact .refl h
  | ask question next ih =>
    have hfirst := otherMemory_consult h question
    exact hfirst.trans (ih _ hfirst.sound')
  | expand text next ih =>
    have hfirst := otherMemory_expand h text
    exact hfirst.trans (ih _ hfirst.sound')

theorem OtherMemory.make (factory : Factory) {r r' : Registry} (h : r.OtherMemory r') :
    (factory.make r').1 = (factory.make r).1 := by
  induction factory generalizing r r' with
  | give declarations => rfl
  | ask question next ih =>
    have hafter := h.after (otherMemory_consult h.sound question)
      (otherMemory_consult h.sound' question)
    rw [Factory.make_ask, Factory.make_ask, h.consult]
    exact ih _ hafter
  | expand text next ih =>
    rw [Factory.make_expand, Factory.make_expand, h.expand]
    exact ih _ (h.afterExpand text)

theorem OtherMemory.registerMade (h : r.OtherMemory r') (ns : Option String)
    (factory : Factory) :
    (r'.registerMade ns factory).1 = (r.registerMade ns factory).1 ∧
      (r.registerMade ns factory).2.OtherMemory (r'.registerMade ns factory).2 := by
  have hmade := h.after (otherMemory_make factory h.sound) (otherMemory_make factory h.sound')
  cases hmade.apply ns (.register (factory.make r).1) with
  | refused first second =>
    rw [← h.make factory] at second
    rw [registerMade_refused first, registerMade_refused second]
    exact ⟨rfl, hmade⟩
  | changed first second other =>
    rw [← h.make factory] at second
    rw [registerMade_registered first, registerMade_registered second]
    exact ⟨rfl, other⟩

/-- When what a factory made is refused, all that is left of it is what it has asked for. -/
theorem otherMemory_of_registerMade_error {ns : Option String} {factory : Factory} {fault : Fault}
    (h : r.memo.Sound) (refused : (r.registerMade ns factory).1 = .error fault) :
    r.OtherMemory (r.registerMade ns factory).2 := by
  cases hr : (factory.make r).2.register ns (factory.make r).1 with
  | error own =>
    rw [registerMade_refused hr]
    exact otherMemory_make factory h
  | ok changed =>
    rw [registerMade_registered hr] at refused
    cases refused

end Registry

end Stylebook
