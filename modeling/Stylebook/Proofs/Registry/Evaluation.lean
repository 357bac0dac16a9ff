import Stylebook.Proofs.Registry.Stack
import Stylebook.Proofs.Selector.Memory

namespace Stylebook.Registry

variable {r : Registry} {setting : Setting} {owner : Handle} {path : Path} {e e' : Evaluation}
  {found : Located} {fault : Fault}

/-- What resolving a path comes upon. -/
inductive Encounter (r : Registry) (owner : Handle) (path : Path) (e : Evaluation) : Prop
  | missing {fault : Fault} (absent : r.locate path owner = .error fault)
  | refused {found : Located} (present : r.locate path owner = .ok found)
      (busy : e.isActive found = true)
  | invoked {found : Located} (present : r.locate path owner = .ok found)
      (idle : ¬ e.isActive found = true)

theorem encounter (r : Registry) (owner : Handle) (path : Path) (e : Evaluation) :
    r.Encounter owner path e := by
  cases hl : r.locate path owner with
  | error fault => exact .missing hl
  | ok found =>
    by_cases hbusy : e.isActive found = true
    · exact .refused hl hbusy
    · exact .invoked hl hbusy

theorem resolveWithin_missing (h : r.locate path owner = .error fault) (spare : Nat) :
    r.resolveWithin setting spare owner path e = (.error fault, e) := by
  cases spare <;> simp only [resolveWithin, h]

theorem resolveWithin_refused (h : r.locate path owner = .ok found)
    (hbusy : e.isActive found = true) (spare : Nat) :
    r.resolveWithin setting spare owner path e = (.error (cycle e.active found), e) := by
  cases spare with
  | zero => simp only [resolveWithin, h]
  | succ spare => simp only [resolveWithin, h, if_pos hbusy]

theorem resolveWithin_invoked (h : r.locate path owner = .ok found)
    (hidle : ¬ e.isActive found = true) (spare : Nat) :
    r.resolveWithin setting (spare + 1) owner path e =
      found.invoke setting (r.resolveWithin setting spare) e := by
  simp only [resolveWithin, h, if_neg hidle]

theorem stable_active (active : List Located) :
    Evaluation.Stable fun e => e.active = active :=
  fun _ h _ => h

theorem invoke_active {resolve : Handle → Path → Resolving}
    (hres : ∀ owner path n, (resolve owner path n).2.active = n.active) (found : Located)
    (e : Evaluation) : (found.invoke setting resolve e).2.active = e.active := by
  have hlast : (found.recipe.invoke setting resolve (e.push found)).2.active =
      (e.push found).active := by
    apply Recipe.invoke_keeps (stable_active _) _ found.recipe rfl
    intro owner path n hn
    exact (hres owner path n).trans hn
  rw [Located.invoke, Evaluation.pop_active, hlast, Evaluation.push_active, List.dropLast_concat]

theorem resolveWithin_active (r : Registry) (setting : Setting) (spare : Nat) (owner : Handle)
    (path : Path) (e : Evaluation) :
    (r.resolveWithin setting spare owner path e).2.active = e.active := by
  induction spare generalizing owner path e with
  | zero =>
    rw [resolveWithin]
    cases r.locate path owner <;> rfl
  | succ spare ih =>
    cases r.encounter owner path e with
    | missing absent => rw [resolveWithin_missing absent]
    | refused present busy => rw [resolveWithin_refused present busy]
    | invoked present idle =>
      rw [resolveWithin_invoked present idle]
      exact invoke_active ih _ e

theorem resolveWithin_keeps {P : Memo → Prop} (hP : ∀ m, P m → ∀ text, P (m.expand text).2)
    (r : Registry) (setting : Setting) (spare : Nat) (owner : Handle) (path : Path)
    {e : Evaluation} (he : P e.memo) :
    P (r.resolveWithin setting spare owner path e).2.memo := by
  have hstable : Evaluation.Stable fun e => P e.memo := fun e h text => hP e.memo h text
  induction spare generalizing owner path e with
  | zero =>
    rw [resolveWithin]
    cases r.locate path owner <;> exact he
  | succ spare ih =>
    cases r.encounter owner path e with
    | missing absent =>
      rw [resolveWithin_missing absent]
      exact he
    | refused present busy =>
      rw [resolveWithin_refused present busy]
      exact he
    | @invoked found present idle =>
      rw [resolveWithin_invoked present idle]
      exact Recipe.invoke_keeps hstable (fun owner path n hn => ih owner path hn) found.recipe he

/-- While a declaration is invoked, the same declarations are in progress at all its requests. -/
theorem active_of_asks {recipe : Recipe} {spare : Nat} {now : Evaluation}
    (h : recipe.Asks setting (r.resolveWithin setting spare) e owner path now) :
    now.active = e.active := by
  apply h.keeps (stable_active e.active) _ rfl
  intro owner path n hn
  exact (r.resolveWithin_active setting spare owner path n).trans hn

theorem active_of_pathsAsk {paths : List Path} {spare : Nat} {now : Evaluation}
    (h : PathsAsk (r.resolveWithin setting spare owner) paths e path now) :
    now.active = e.active := by
  have hres : ∀ path n, n.active = e.active →
      (r.resolveWithin setting spare owner path n).2.active = e.active := by
    intro path n hn
    exact (r.resolveWithin_active setting spare owner path n).trans hn
  exact h.keeps hres rfl

/-- What resolving a path gives, with a derivation for each request that is made on the way. -/
inductive Resolves (r : Registry) (setting : Setting) :
    Handle → Path → Evaluation → Except Fault Attributes × Evaluation → Prop
  | missing {owner : Handle} {path : Path} {e : Evaluation} {fault : Fault}
      (absent : r.locate path owner = .error fault) :
      Resolves r setting owner path e (.error fault, e)
  | refused {owner : Handle} {path : Path} {e : Evaluation} {found : Located}
      (present : r.locate path owner = .ok found) (busy : e.isActive found = true) :
      Resolves r setting owner path e (.error (cycle e.active found), e)
  | invoked {owner : Handle} {path : Path} {e : Evaluation} {found : Located}
      {resolve : Handle → Path → Resolving} (present : r.locate path owner = .ok found)
      (idle : ¬ e.isActive found = true)
      (answers : ∀ owner' path' now,
        found.recipe.Asks setting resolve (e.push found) owner' path' now →
          Resolves r setting owner' path' now (resolve owner' path' now)) :
      Resolves r setting owner path e (found.invoke setting resolve e)

/-- As long as something can still be begun, there is room for it in the bound. -/
theorem IsStack.exists_spare (h : r.IsStack e.active) {spare : Nat}
    (hspare : r.invokableCount ≤ e.active.length + spare)
    (hfound : r.locate path owner = .ok found) (hidle : ¬ e.isActive found = true) :
    ∃ n, spare = n + 1 ∧ r.invokableCount ≤ (e.push found).active.length + n := by
  have hlen := (h.push hfound hidle).length_le
  rw [Evaluation.push_active, List.length_append, List.length_singleton] at hlen ⊢
  exact ⟨spare - 1, by omega, by omega⟩

theorem resolves_resolveWithin (h : r.IsStack e.active) {spare : Nat}
    (hspare : r.invokableCount ≤ e.active.length + spare) (owner : Handle) (path : Path) :
    r.Resolves setting owner path e (r.resolveWithin setting spare owner path e) := by
  induction spare using Nat.strongRecOn generalizing owner path e with
  | ind spare ih =>
    cases r.encounter owner path e with
    | missing absent =>
      rw [resolveWithin_missing absent]
      exact .missing absent
    | refused present busy =>
      rw [resolveWithin_refused present busy]
      exact .refused present busy
    | invoked present idle =>
      obtain ⟨n, rfl, hroom⟩ := h.exists_spare hspare present idle
      rw [resolveWithin_invoked present idle]
      apply Resolves.invoked present idle
      intro owner' path' now asks
      have hactive := active_of_asks asks
      have hstack := h.push present idle
      rw [← hactive] at hstack hroom
      exact ih n (Nat.lt_succ_self n) hstack hroom owner' path'

theorem Resolves.eq_resolveWithin {x : Except Fault Attributes × Evaluation}
    (hx : r.Resolves setting owner path e x) (h : r.IsStack e.active) {spare : Nat}
    (hspare : r.invokableCount ≤ e.active.length + spare) :
    x = r.resolveWithin setting spare owner path e := by
  induction hx generalizing spare with
  | missing absent => exact (resolveWithin_missing absent spare).symm
  | refused present busy => exact (resolveWithin_refused present busy spare).symm
  | @invoked owner path e found resolve present idle answers ih =>
    obtain ⟨n, rfl, hroom⟩ := h.exists_spare hspare present idle
    -- the same requests come up, with the same declarations in progress, and have equal answers
    have hsame : Resolving.Same (fun n n' => n = n' ∧ n.active = (e.push found).active)
        (found.recipe.invoke setting resolve (e.push found))
        (found.recipe.invoke setting (r.resolveWithin setting n) (e.push found)) := by
      apply Recipe.invoke_same (stable_active _).indistinct found.recipe ⟨rfl, rfl⟩
      rintro owner' path' now _ asks ⟨rfl, hnow⟩
      have hanswer := ih owner' path' now asks (hnow ▸ h.push present idle) (hnow ▸ hroom)
      rw [hanswer]
      exact Resolving.same_self ((r.resolveWithin_active setting n owner' path' now).trans hnow)
    obtain ⟨answer, last, last', hx, hy, rfl, _⟩ := hsame
    rw [resolveWithin_invoked present idle, Located.invoke, Located.invoke, hx, hy]

/-- Resolve paths while `active` are in progress, with room for every declaration besides. -/
def resolveFrom (r : Registry) (setting : Setting) (active : List Located) :
    Handle → Path → Resolving :=
  r.resolveWithin setting (r.invokableCount - active.length)

theorem room_for_all (r : Registry) (active : List Located) :
    r.invokableCount ≤ active.length + (r.invokableCount - active.length) := by
  omega

theorem IsStack.resolves_iff (h : r.IsStack e.active) {x : Except Fault Attributes × Evaluation} :
    r.Resolves setting owner path e x ↔ x = r.resolveFrom setting e.active owner path e := by
  constructor
  · intro hx
    exact hx.eq_resolveWithin h (room_for_all r e.active)
  · rintro rfl
    exact resolves_resolveWithin h (room_for_all r e.active) owner path

theorem IsStack.resolveFrom_invoked (h : r.IsStack e.active)
    (hfound : r.locate path owner = .ok found) (hidle : ¬ e.isActive found = true) :
    r.resolveFrom setting e.active owner path e =
      found.invoke setting (r.resolveFrom setting (e.push found).active) e := by
  obtain ⟨n, hn, _⟩ := h.exists_spare (room_for_all r e.active) hfound hidle
  have hpush : r.invokableCount - (e.push found).active.length = n := by
    rw [Evaluation.push_active, List.length_append, List.length_singleton]
    omega
  rw [resolveFrom, resolveFrom, hn, hpush, resolveWithin_invoked hfound hidle]

theorem resolveWithin_alike (r : Registry) (setting : Setting) (spare : Nat) (owner : Handle)
    (path : Path) (h : e.Alike e') :
    Resolving.Same Evaluation.Alike (r.resolveWithin setting spare owner path e)
      (r.resolveWithin setting spare owner path e') := by
  induction spare using Nat.strongRecOn generalizing owner path e e' with
  | ind spare ih =>
    cases r.encounter owner path e with
    | missing absent =>
      rw [resolveWithin_missing absent, resolveWithin_missing absent]
      exact ⟨_, e, e', rfl, rfl, h⟩
    | refused present busy =>
      have hbusy := (h.isActive _).symm.trans busy
      rw [resolveWithin_refused present busy, resolveWithin_refused present hbusy, h.active]
      exact ⟨_, e, e', rfl, rfl, h⟩
    | @invoked found present idle =>
      cases spare with
      -- without room both report a cycle, whatever is in progress
      | zero =>
        simp only [resolveWithin, present, h.active]
        exact ⟨_, e, e', rfl, rfl, h⟩
      | succ spare =>
        have hidle : ¬ e'.isActive found = true := h.isActive found ▸ idle
        rw [resolveWithin_invoked present idle, resolveWithin_invoked present hidle,
          Located.invoke, Located.invoke]
        have hsame : Resolving.Same Evaluation.Alike
            (found.recipe.invoke setting (r.resolveWithin setting spare) (e.push found))
            (found.recipe.invoke setting (r.resolveWithin setting spare) (e'.push found)) := by
          apply Recipe.invoke_same Evaluation.indistinct_alike found.recipe (h.push found)
          intro owner' path' k k' _ hk
          exact ih spare (Nat.lt_succ_self spare) owner' path' hk
        obtain ⟨answer, n, n', hx, hy, hn⟩ := hsame
        rw [hx, hy]
        exact ⟨answer, n.pop, n'.pop, rfl, rfl, hn.pop⟩

theorem resolveFrom_alike (r : Registry) (setting : Setting) (active : List Located)
    (owner : Handle) (path : Path) (h : e.Alike e') :
    (r.resolveFrom setting active owner path e).1 =
        (r.resolveFrom setting active owner path e').1 ∧
      (r.resolveFrom setting active owner path e).2.Alike e := by
  obtain ⟨answer, n, n', hx, hy, hn⟩ := r.resolveWithin_alike setting _ owner path h
  have hactive := r.resolveWithin_active setting (r.invokableCount - active.length) owner path e
  rw [hx] at hactive
  rw [resolveFrom, hx, hy]
  exact ⟨rfl, hactive, hn.sound, h.sound⟩

end Stylebook.Registry
