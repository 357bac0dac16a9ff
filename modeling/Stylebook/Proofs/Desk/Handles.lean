import Stylebook.Proofs.Desk.Orders

namespace Stylebook

namespace Order

variable {orders : List Order}

theorem epoch_le_epochAfter {order : Order} (h : ∀ options, order ≠ .configure options)
    (epoch : Nat) : epoch ≤ order.epochAfter epoch := by
  cases order with
  | configure options => exact absurd rfl (h options)
  | reset => exact Nat.le_succ epoch
  | _ => exact Nat.le_refl epoch

theorem epoch_le_epochAfterAll (h : ∀ options, .configure options ∉ orders) (epoch : Nat) :
    epoch ≤ epochAfterAll epoch orders := by
  induction orders generalizing epoch with
  | nil => exact Nat.le_refl epoch
  | cons order rest ih =>
    have hfirst : ∀ options, order ≠ .configure options := by
      rintro options rfl
      exact h options List.mem_cons_self
    have hrest : ∀ options, .configure options ∉ rest := fun options hmem =>
      h options (List.mem_cons_of_mem _ hmem)
    exact Nat.le_trans (epoch_le_epochAfter hfirst epoch) (ih hrest _)

theorem epoch_lt_epochAfterAll (h : ∀ options, .configure options ∉ orders)
    (hreset : .reset ∈ orders) (epoch : Nat) : epoch < epochAfterAll epoch orders := by
  obtain ⟨before, after, rfl⟩ := List.append_of_mem hreset
  have hbefore : epoch ≤ epochAfterAll epoch before :=
    epoch_le_epochAfterAll (fun options hmem => h options (List.mem_append_left _ hmem)) epoch
  have hafter : epochAfterAll epoch before + 1 ≤
      epochAfterAll (epochAfterAll epoch before + 1) after := by
    apply epoch_le_epochAfterAll
    intro options hmem
    exact h options (List.mem_append_right _ (List.mem_cons_of_mem _ hmem))
  rw [epochAfterAll, List.foldl_append, List.foldl_cons]
  exact Nat.lt_of_le_of_lt hbefore hafter

end Order

namespace Desk

theorem scope?_of_epoch_eq {r : Registry} {handle : Handle} (h : handle.epoch = r.epoch) :
    r.scope? handle = r.scopeAt? handle.slot := by
  simp [Registry.scope?, h]

/-- A handle is dead while the epoch is another one; only configuring makes epochs agree again.
Fewer than 2^64 resets are meant. -/
theorem handles_die_with_their_epoch (options : Options) (before : List Order) {name : String}
    {handle : Handle}
    (hissued : ((Desk.new options).after before).registry.Issues (some name) handle
      ((Desk.new options).after before).registry) (orders : List Order) :
    let later := (((Desk.new options).after before).after orders).registry
    ((∀ order ∈ orders, order.clears = false) → later.IsHandleOf handle name) ∧
    ((∀ options, .configure options ∉ orders) → .reset ∈ orders → later.IsDead handle) ∧
    (Order.epochAfterAll handle.epoch orders ≠ handle.epoch → later.IsDead handle) ∧
    (Order.epochAfterAll handle.epoch orders = handle.epoch →
      later.scope? handle = later.scopeAt? handle.slot) := by
  intro later
  have hnow := reachable_new_after options before
  have hlater : later.Reachable := reachable_after hnow orders
  obtain ⟨hname, hroot, hepoch⟩ := hnow.handle_of_issues hissued
  have hafter : later.epoch = Order.epochAfterAll handle.epoch orders := by
    rw [hepoch]
    exact epoch_after _ orders
  have hdead : Order.epochAfterAll handle.epoch orders ≠ handle.epoch →
      later.IsDead handle := by
    intro hne
    apply hlater.isDead hroot
    rw [hafter]
    exact hne.symm
  refine ⟨?_, ?_, hdead, ?_⟩
  · intro hkeeps
    exact hlater.wellFormed.isHandleOf ((continues_after _ hkeeps).handles name handle hname)
  · intro hconfigure hreset
    have hlt := Order.epoch_lt_epochAfterAll hconfigure hreset handle.epoch
    exact hdead (Nat.ne_of_gt hlt)
  · intro heq
    exact scope?_of_epoch_eq (heq.symm.trans hafter.symm)

def defining (name : String) : Order := .change (some name) (.defineVariables ∅) none

def definedDesk : Desk := (Desk.new .default).after [defining "theme"]

theorem issues_firstTheme :
    definedDesk.registry.Issues (some "theme") Registry.firstTheme definedDesk.registry :=
  .named rfl

theorem theme_handle_dead_after_configuring_and_reset :
    definedDesk.registry.Issues (some "theme") Registry.firstTheme definedDesk.registry ∧
      (definedDesk.after [.configure .default, .reset, defining "theme"]).registry.IsDead
        Registry.firstTheme := by
  refine ⟨issues_firstTheme, ?_⟩
  obtain ⟨_, _, hdead, _⟩ := handles_die_with_their_epoch .default [defining "theme"]
    issues_firstTheme [.configure .default, .reset, defining "theme"]
  exact hdead (by decide)

def reconfiguredDesk : Desk := definedDesk.after [.configure .default, defining "base"]

/-- A desk that is only configured hands out the same handle for another namespace. -/
theorem theme_handle_denotes_base_after_configuring :
    definedDesk.registry.Issues (some "theme") Registry.firstTheme definedDesk.registry ∧
      reconfiguredDesk.registry.Denotes Registry.firstTheme "base" ∧
      ¬ reconfiguredDesk.registry.IsDead Registry.firstTheme := by
  refine ⟨issues_firstTheme, ⟨_, rfl, rfl⟩, ?_⟩
  intro hdead
  cases hdead.scope

end Desk

end Stylebook
