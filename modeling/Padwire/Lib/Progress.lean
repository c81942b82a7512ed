import Mathlib.Algebra.BigOperators.Group.List.Basic
import Mathlib.Algebra.GroupWithZero.Nat
import Padwire.Lib.Run

/-!
# Potentials and progress of a transition system

What a run can cost, and whether it can be brought to an end. A *potential* is a measure of the
states that each step lowers by at least what the step costs, so that it bounds the cost of a
whole run (`run_cost_le`); with cost one a step, it bounds the length of the run. If in every
state that is not final some step lowers the potential, then every state has a run that ends in
a final one (`exists_run_of_progress`).

Both rules are about the steps a set of actions allows, under an invariant, so that one system
can have different potentials for its different stages.
-/

namespace Padwire

variable {σ α : Type*} {step : σ → α → Option σ} {s s' : σ} {as bs : List α}

/-! ### Runs -/

@[simp]
theorem run_nil : run step s [] = some s := rfl

theorem run_cons (a : α) : run step s (a :: as) = (step s a).bind fun t => run step t as := rfl

theorem run_append : run step s (as ++ bs) = (run step s as).bind fun t => run step t bs := by
  induction as generalizing s with
  | nil => rfl
  | cons a as ih =>
    rw [List.cons_append, run_cons, run_cons, Option.bind_assoc]
    exact congrArg _ (funext fun t => ih)

/-! ### What a run costs -/

/-- `m` is a potential for the allowed actions: a step keeps the invariant and lowers `m` by at
least what it costs. -/
def Potential (step : σ → α → Option σ) (allowed : α → Prop) (Inv : σ → Prop) (cost : α → ℕ)
    (m : σ → ℕ) : Prop :=
  ∀ s a s', Inv s → allowed a → step s a = some s' → Inv s' ∧ cost a + m s' ≤ m s

/-- **Cost rule.** A run costs at most what it lowers the potential by. -/
theorem Potential.run_cost_le {allowed : α → Prop} {Inv : σ → Prop} {cost : α → ℕ} {m : σ → ℕ}
    (hm : Potential step allowed Inv cost m) (hs : Inv s) (hall : ∀ a ∈ as, allowed a)
    (hr : run step s as = some s') : Inv s' ∧ (as.map cost).sum + m s' ≤ m s := by
  induction as generalizing s with
  | nil =>
    obtain rfl : s = s' := Option.some.inj hr
    exact ⟨hs, by simp⟩
  | cons a as ih =>
    obtain ⟨t, ht, hr⟩ := Option.bind_eq_some_iff.mp hr
    obtain ⟨hinv, hle⟩ := hm s a t hs (hall a List.mem_cons_self) ht
    obtain ⟨hinv', hle'⟩ := ih hinv (fun b hb => hall b (List.mem_cons_of_mem _ hb)) hr
    rw [List.map_cons, List.sum_cons]
    exact ⟨hinv', by omega⟩

/-- A potential that each step lowers bounds the length of a run. -/
theorem Potential.length_le {allowed : α → Prop} {Inv : σ → Prop} {m : σ → ℕ}
    (hm : Potential step allowed Inv (fun _ => 1) m) (hs : Inv s) (hall : ∀ a ∈ as, allowed a)
    (hr : run step s as = some s') : Inv s' ∧ as.length + m s' ≤ m s := by
  simpa using hm.run_cost_le hs hall hr

/-- A potential that the steps of one kind lower bounds how many of them a run takes. -/
theorem Potential.countP_le {allowed : α → Prop} {Inv : σ → Prop} {p : α → Bool} {m : σ → ℕ}
    (hm : Potential step allowed Inv (fun a => (p a).toNat) m) (hs : Inv s)
    (hall : ∀ a ∈ as, allowed a) (hr : run step s as = some s') :
    Inv s' ∧ as.countP p + m s' ≤ m s := by
  have hsum : ∀ l : List α, (l.map fun a => (p a).toNat).sum = l.countP p := by
    intro l
    induction l with
    | nil => rfl
    | cons a l ih =>
      rw [List.map_cons, List.sum_cons, ih, List.countP_cons, Nat.add_comm]
      cases p a <;> rfl
  have hcost := hm.run_cost_le hs hall hr
  rwa [hsum] at hcost

/-! ### Runs under a check -/

/-- How many steps of a run are of the given kind. -/
def countSteps (step : σ → α → Option σ) (kind : σ → α → Bool) (s : σ) : List α → ℕ
  | [] => 0
  | a :: as => (kind s a).toNat + ((step s a).map fun t => countSteps step kind t as).getD 0

theorem countSteps_cons (kind : σ → α → Bool) {a : α} {t : σ} (h : step s a = some t) :
    countSteps step kind s (a :: as) = (kind s a).toNat + countSteps step kind t as := by
  rw [countSteps, h]
  rfl

/-- **Goal rule.** Let each checked step be one that was aimed for, or keep the invariant and lower
the potential, by at least one if the step is of the given kind. Then a run with more such steps
than its start has potential takes a step that was aimed for. -/
theorem exists_goal_of_countSteps {check kind : σ → α → Bool} {Goal : σ → σ → Prop}
    {Inv : σ → Prop} {m : σ → ℕ}
    (hstep : ∀ s a s', Inv s → check s a = true → step s a = some s' →
      Goal s s' ∨ Inv s' ∧ (kind s a).toNat + m s' ≤ m s)
    (hs : Inv s) (hr : runIf step check s as = some s') (hcount : m s < countSteps step kind s as) :
    ∃ bs b t t', bs ++ [b] <+: as ∧ runIf step check s bs = some t ∧ step t b = some t' ∧
      Goal t t' := by
  induction as generalizing s with
  | nil => exact absurd hcount (Nat.not_lt_zero _)
  | cons a as ih =>
    rw [runIf] at hr
    split_ifs at hr with hcheck
    obtain ⟨t, ht, hr⟩ := Option.bind_eq_some_iff.mp hr
    rcases hstep s a t hs hcheck ht with hgoal | ⟨hinv, hle⟩
    · exact ⟨[], a, s, t, ⟨as, rfl⟩, rfl, ht, hgoal⟩
    · rw [countSteps_cons kind ht] at hcount
      obtain ⟨bs, b, u, u', hbs, hu, hstep', hgoal⟩ := ih hinv hr (by omega)
      refine ⟨a :: bs, b, u, u', List.cons_prefix_cons.mpr ⟨rfl, hbs⟩, ?_, hstep', hgoal⟩
      rw [runIf, if_pos hcheck, ht]
      exact hu

/-! ### Bringing a run to an end -/

/-- **Progress rule.** If in every state that is not final some allowed step keeps the
invariant and lowers the potential, then some run of allowed steps ends in a final state. -/
theorem exists_run_of_progress {allowed : α → Prop} {Inv : σ → Prop} (Final : σ → Prop)
    (m : σ → ℕ)
    (hprog : ∀ s, Inv s → ¬ Final s →
      ∃ a t, allowed a ∧ step s a = some t ∧ Inv t ∧ m t < m s) (hs : Inv s) :
    ∃ as t, (∀ a ∈ as, allowed a) ∧ run step s as = some t ∧ Inv t ∧ Final t := by
  induction hn : m s using Nat.strongRecOn generalizing s with
  | _ n ih =>
    by_cases hfin : Final s
    · exact ⟨[], s, List.forall_mem_nil _, rfl, hs, hfin⟩
    · obtain ⟨a, t, ha, ht, hinv, hlt⟩ := hprog s hs hfin
      obtain ⟨as, u, hall, hr, hend⟩ := ih (m t) (hn ▸ hlt) hinv rfl
      refine ⟨a :: as, u, List.forall_mem_cons.mpr ⟨ha, hall⟩, ?_, hend⟩
      rw [run_cons, ht]
      exact hr

end Padwire
