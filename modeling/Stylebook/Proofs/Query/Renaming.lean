import Stylebook.Proofs.Query.Merge
import Stylebook.Proofs.Registry.Renaming

namespace Stylebook

/-- Related memories give the same expansions, and go on being related. -/
structure Memo.Indistinct (N : Memo → Memo → Prop) : Prop where
  paths : ∀ m m', N m m' → ∀ text, (m.expand text).1.paths = (m'.expand text).1.paths
  expand : ∀ m m', N m m' → ∀ text, N (m.expand text).2 (m'.expand text).2
  clear : ∀ m m', N m m' → N m.clear m'.clear

variable {N : Memo → Memo → Prop} {ρ : Renaming} {epochs : Nat}

theorem Memo.Indistinct.expandAll (hN : Indistinct N) {m m' : Memo} (hm : N m m')
    (texts : List String) :
    (m.expandAll texts).1 = (m'.expandAll texts).1 ∧
      N (m.expandAll texts).2 (m'.expandAll texts).2 := by
  induction texts generalizing m m' with
  | nil => exact ⟨rfl, hm⟩
  | cons text rest ih =>
    obtain ⟨hrest, hlast⟩ := ih (hN.expand m m' hm text)
    refine ⟨?_, hlast⟩
    simp only [Memo.expandAll, hN.paths m m' hm text, hrest]

theorem Located.isSame_rename (a b : Located) : (a.rename ρ).isSame (b.rename ρ) = a.isSame b :=
  congrArg (· && a.key == b.key) (ρ.handle_beq a.owner b.owner)

/-- The same declarations are in progress, renamed, and the memories are related. -/
structure Evaluation.Image (ρ : Renaming) (N : Memo → Memo → Prop) (e e' : Evaluation) : Prop where
  active : e'.active = e.active.map (Located.rename ρ)
  memo : N e.memo e'.memo

namespace Evaluation.Image

variable {e e' : Evaluation}

theorem indistinct (hN : Memo.Indistinct N) : Evaluation.Indistinct (Evaluation.Image ρ N) := by
  intro e e' h text
  exact ⟨hN.paths _ _ h.memo text, h.active, hN.expand _ _ h.memo text⟩

theorem push (h : e.Image ρ N e') (found : Located) :
    (e.push found).Image ρ N (e'.push (found.rename ρ)) where
  active := by
    rw [push_active, push_active, h.active, List.map_append]
    rfl
  memo := h.memo

theorem pop (h : e.Image ρ N e') : e.pop.Image ρ N e'.pop where
  active := by rw [pop_active, pop_active, h.active, List.map_dropLast]
  memo := h.memo

theorem isActive (h : e.Image ρ N e') (found : Located) :
    e'.isActive (found.rename ρ) = e.isActive found := by
  rw [Evaluation.isActive, h.active, List.any_map]
  exact congrArg e.active.any (funext fun a => Located.isSame_rename found a)

theorem cycle (h : e.Image ρ N e') (found : Located) :
    Registry.cycle e'.active (found.rename ρ) = Registry.cycle e.active found := by
  rw [Registry.cycle, h.active, List.map_map]
  rfl

end Evaluation.Image

/-- The same variables from the renamed start, and the same mixins from renamed scopes. -/
structure Setting.Image (ρ : Renaming) (s s' : Setting) : Prop where
  start : s'.start = ρ.handle s.start
  lookup : s'.lookup = s.lookup
  mixins : ∀ handle, s'.mixin? (ρ.handle handle) = s.mixin? handle

variable {setting setting' : Setting} {resolve resolve' : Handle → Path → Resolving}

/-- A body cannot tell by what it sees whether the handles are renamed. -/
theorem Setting.Image.ofOwner (h : setting.Image ρ setting') (owner : Handle) :
    Context.ofOwner setting' resolve' (ρ.handle owner) =
      (Context.ofOwner setting resolve owner).redirect (resolve' (ρ.handle owner)) := by
  simp only [Context.ofOwner, Context.redirect, h.start, h.lookup, h.mixins, ρ.isRoot_handle,
    ρ.handle_beq]

theorem Recipe.invoke_image {M : Evaluation → Evaluation → Prop} (hM : Evaluation.Indistinct M)
    (h : setting.Image ρ setting') (recipe : Recipe) {e e' : Evaluation} (hm : M e e')
    (hres : ∀ owner path n n', recipe.Asks setting resolve e owner path n → M n n' →
      Resolving.Same M (resolve owner path n) (resolve' (ρ.handle owner) path n')) :
    Resolving.Same M (recipe.invoke setting resolve e)
      ((recipe.rename ρ).invoke setting' resolve' e') := by
  induction recipe generalizing e e' with
  | fixed attributes => exact ⟨.ok attributes, e, e', rfl, rfl, hm⟩
  | run owner body =>
    rw [rename, invoke, invoke, h.ofOwner]
    apply Body.run_same hM body hm
    intro selector next p path n n' reaches asks hn
    exact hres owner path n n' ⟨selector, next, p, .run reaches, asks⟩ hn
  | layered base top ihbase ihtop =>
    apply Recipe.layered_same
    · apply ihbase hm
      intro owner path n n' asks hn
      exact hres owner path n n' asks.base hn
    · intro below n n' hx hn
      apply ihtop hn
      intro owner path k k' asks hk
      exact hres owner path k k' (.top hx asks) hk

theorem Located.invoke_image (hN : Memo.Indistinct N) (h : setting.Image ρ setting')
    (found : Located) {e e' : Evaluation} (he : e.Image ρ N e')
    (hres : ∀ owner path n n', found.recipe.Asks setting resolve (e.push found) owner path n →
      n.Image ρ N n' → Resolving.Same (Evaluation.Image ρ N) (resolve owner path n)
        (resolve' (ρ.handle owner) path n')) :
    Resolving.Same (Evaluation.Image ρ N) (found.invoke setting resolve e)
      ((found.rename ρ).invoke setting' resolve' e') := by
  obtain ⟨answer, n, n', hx, hy, hn⟩ : Resolving.Same (Evaluation.Image ρ N)
      (found.recipe.invoke setting resolve (e.push found))
      ((found.rename ρ).recipe.invoke setting' resolve' (e'.push (found.rename ρ))) :=
    Recipe.invoke_image (Evaluation.Image.indistinct hN) h found.recipe (he.push found) hres
  rw [invoke, invoke, hx, hy]
  exact ⟨answer, n.pop, n'.pop, rfl, rfl, hn.pop⟩

namespace Registry.Image

variable {r r' : Registry}

/-- As long as both have room for all that can still be begun, they resolve a path alike. -/
theorem resolveWithin (h : r.Image ρ epochs r') (hs : setting.Image ρ setting')
    (hN : Memo.Indistinct N) {spare spare' : Nat} {e e' : Evaluation} (he : e.Image ρ N e')
    (hstack : r.IsStack e.active) (hstack' : r'.IsStack e'.active)
    (hspare : r.invokableCount ≤ e.active.length + spare)
    (hspare' : r'.invokableCount ≤ e'.active.length + spare') (owner : Handle) (path : Path) :
    Resolving.Same (Evaluation.Image ρ N) (r.resolveWithin setting spare owner path e)
      (r'.resolveWithin setting' spare' (ρ.handle owner) path e') := by
  induction spare using Nat.strongRecOn generalizing spare' owner path e e' with
  | ind spare ih =>
    have hlocate := h.locate path owner
    cases r.encounter owner path e with
    | missing absent =>
      rw [absent] at hlocate
      rw [resolveWithin_missing absent, resolveWithin_missing hlocate]
      exact ⟨_, e, e', rfl, rfl, he⟩
    | @refused found present busy =>
      rw [present] at hlocate
      have busy' := (he.isActive found).trans busy
      rw [resolveWithin_refused present busy, resolveWithin_refused hlocate busy', he.cycle]
      exact ⟨_, e, e', rfl, rfl, he⟩
    | @invoked found present idle =>
      rw [present] at hlocate
      have idle' : ¬ e'.isActive (found.rename ρ) = true := he.isActive found ▸ idle
      obtain ⟨n, rfl, hroom⟩ := hstack.exists_spare hspare present idle
      obtain ⟨n', rfl, hroom'⟩ := hstack'.exists_spare hspare' hlocate idle'
      rw [resolveWithin_invoked present idle, resolveWithin_invoked hlocate idle']
      apply Located.invoke_image hN hs found he
      intro owner' path' k k' asks hk
      -- at every request the stacks are the ones that were there when the invocation began
      have hactive : k.active = (e.push found).active := active_of_asks asks
      have hactive' : k'.active = (e'.push (found.rename ρ)).active := by
        rw [hk.active, hactive, (he.push found).active]
      have hdeeper := hstack.push present idle
      have hdeeper' := hstack'.push hlocate idle'
      rw [← hactive] at hdeeper hroom
      rw [← hactive'] at hdeeper' hroom'
      exact ih n (Nat.lt_succ_self n) hk hdeeper hdeeper' hroom hroom' owner' path'

theorem withMemo (h : r.Image ρ epochs r') (m m' : Memo) :
    { r with memo := m }.Image ρ epochs { r' with memo := m' } :=
  ⟨h.rootFallback, h.epoch, h.size, h.scopes, h.handles, h.unissued⟩

end Registry.Image

namespace Query

variable {r r' : Registry}

def rename (ρ : Renaming) (q : Query) : Query := { q with start := ρ.handle q.start }

theorem withStage_rename (ρ : Renaming) (q : Query) (stage : Stage) :
    (q.rename ρ).withStage stage = (q.withStage stage).rename ρ := by
  cases stage with
  | vars vars => rfl
  | attributes attributes =>
    rw [withStage, withStage, withAttributes_eq, withAttributes_eq]
    rfl

theorem ofStages_rename (ρ : Renaming) (start : Handle) (selector : Selector)
    (stages : List Stage) :
    ofStages (ρ.handle start) selector stages = (ofStages start selector stages).rename ρ := by
  have hfoldl : ∀ q : Query, stages.foldl withStage (q.rename ρ) =
      (stages.foldl withStage q).rename ρ := by
    intro q
    induction stages generalizing q with
    | nil => rfl
    | cons stage rest ih => rw [List.foldl_cons, List.foldl_cons, withStage_rename, ih]
  exact hfoldl (new start selector)

theorem setting_image (h : r.Image ρ epochs r') (q : Query) :
    (q.setting r).Image ρ ((q.rename ρ).setting r') where
  start := rfl
  lookup := by
    funext name
    exact congrArg (q.vars.get? name).or (h.lookup? q.start name)
  mixins := by
    intro handle
    funext name
    exact h.mixin? handle name

theorem paths_image (ρ : Renaming) (hN : Memo.Indistinct N) (hm : N r.memo r'.memo) (q : Query) :
    ((q.rename ρ).paths r').1 = (q.paths r).1 ∧
      (q.evaluation r).Image ρ N ((q.rename ρ).evaluation r') := by
  obtain ⟨hpaths, hmemo⟩ := hN.expandAll hm q.selector.parts
  exact ⟨hpaths.symm, rfl, hmemo⟩

theorem resolve_image (h : r.Image ρ epochs r') (hN : Memo.Indistinct N) (hm : N r.memo r'.memo)
    (q : Query) :
    ((q.rename ρ).resolve r').1 = (q.resolve r).1 ∧
      (q.resolve r).2.Image ρ epochs ((q.rename ρ).resolve r').2 ∧
      N (q.resolve r).2.memo ((q.rename ρ).resolve r').2.memo := by
  obtain ⟨hpaths, hevaluation⟩ := paths_image ρ hN hm q
  have hsame : Resolving.Same (Evaluation.Image ρ N)
      (Resolving.mergeAll (q.resolver r [] q.start) (q.paths r).1 ∅ (q.evaluation r))
      (Resolving.mergeAll ((q.rename ρ).resolver r' [] (q.rename ρ).start) (q.paths r).1 ∅
        ((q.rename ρ).evaluation r')) := by
    apply Resolving.mergeAll_same ∅ hevaluation
    intro path n n' asks hn
    have hactive : n.active = [] := Registry.active_of_pathsAsk asks
    have hactive' : n'.active = [] := by rw [hn.active, hactive, List.map_nil]
    apply h.resolveWithin (setting_image h q) hN hn
    · exact hactive ▸ r.isStack_nil
    · exact hactive' ▸ r'.isStack_nil
    · rw [hactive]
      exact Registry.room_for_all r []
    · rw [hactive']
      exact Registry.room_for_all r' []
  obtain ⟨answer, n, n', hx, hy, hn⟩ := hsame
  rw [resolve_eq_conclude, resolve_eq_conclude, hpaths, hx, hy]
  exact ⟨rfl, h.withMemo _ _, hn.memo⟩

end Query

theorem Registry.ask_eq (r : Registry) (start : Handle) (selector : Selector)
    (stages : List Stage) :
    r.ask start selector stages =
      let q := Query.ofStages start selector stages
      (.resolved (q.paths r).1 (q.resolve (q.paths r).2).1, (q.resolve (q.paths r).2).2) :=
  rfl

theorem Registry.Image.ask {r r' : Registry} (h : r.Image ρ epochs r') (hN : Memo.Indistinct N)
    (hm : N r.memo r'.memo) (start : Handle) (selector : Selector) (stages : List Stage) :
    (r'.ask (ρ.handle start) selector stages).1 = (r.ask start selector stages).1 ∧
      (r.ask start selector stages).2.Image ρ epochs
        (r'.ask (ρ.handle start) selector stages).2 ∧
      N (r.ask start selector stages).2.memo
        (r'.ask (ρ.handle start) selector stages).2.memo := by
  let q := Query.ofStages start selector stages
  obtain ⟨hpaths, hevaluation⟩ := Query.paths_image ρ hN hm q
  obtain ⟨hanswer, hafter⟩ := Query.resolve_image (h.withMemo _ _) hN hevaluation.memo q
  rw [ask_eq, ask_eq, Query.ofStages_rename]
  refine ⟨?_, hafter⟩
  change Answer.resolved ((q.rename ρ).paths r').1 _ = Answer.resolved (q.paths r).1 _
  rw [hpaths]
  exact congrArg (Answer.resolved (q.paths r).1) hanswer

end Stylebook
