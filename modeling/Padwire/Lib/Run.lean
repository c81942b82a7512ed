import Mathlib.Data.Option.Basic
import Mathlib.Tactic.SplitIfs

/-!
# Runs of an executable transition system

A transition system is a partial step function `step : σ → α → Option σ`: the action says which
thread moves and what its environment answers, and `none` means that the action is not enabled.

`Reach step init ok s` holds of the states that a run reaches when it starts in `init` and each
of its steps meets the condition `ok` on the state before the step and the action; with
`ok := fun _ _ => True` it is plain reachability. `Reach.invariant` is the induction rule.
`runIf` executes a list of actions and checks a condition along the way, and
`exists_reach_of_runIf` turns one evaluated run into a reachable state.
-/

namespace Padwire

variable {σ α : Type*} {step : σ → α → Option σ} {init : σ → Prop} {ok : σ → α → Prop}

/-- The states a run reaches from `init` when every step of it meets `ok`. -/
inductive Reach (step : σ → α → Option σ) (init : σ → Prop) (ok : σ → α → Prop) : σ → Prop
  | start {s : σ} : init s → Reach step init ok s
  | next {s s' : σ} {a : α} : Reach step init ok s → ok s a → step s a = some s' →
      Reach step init ok s'

/-- Plain reachability: any step that is enabled may be taken. -/
abbrev Reachable (step : σ → α → Option σ) (init : σ → Prop) : σ → Prop :=
  Reach step init fun _ _ => True

namespace Reach

/-- **Invariant rule.** What holds at the start and is kept by each step that meets the
condition holds of every state reached. -/
theorem invariant (Inv : σ → Prop) (hinit : ∀ s, init s → Inv s)
    (hstep : ∀ s a s', Inv s → ok s a → step s a = some s' → Inv s') {s : σ}
    (h : Reach step init ok s) : Inv s := by
  induction h with
  | start hs => exact hinit _ hs
  | next _ hok ha ih => exact hstep _ _ _ ih hok ha

/-- The invariant rule with an invariant that is already known. -/
theorem invariant_of {Known : σ → Prop} (Inv : σ → Prop)
    (hknown : ∀ s, Reach step init ok s → Known s) (hinit : ∀ s, init s → Inv s)
    (hstep : ∀ s a s', Known s → Inv s → ok s a → step s a = some s' → Inv s') {s : σ}
    (h : Reach step init ok s) : Inv s := by
  induction h with
  | start hs => exact hinit _ hs
  | next hr hok ha ih => exact hstep _ _ _ (hknown _ hr) ih hok ha

/-- Forgetting a condition keeps a state reachable. -/
theorem reachable {s : σ} (h : Reach step init ok s) : Reachable step init s := by
  induction h with
  | start hs => exact .start hs
  | next _ _ ha ih => exact .next ih trivial ha

end Reach

/-- Execute a list of actions, checking a condition before each; `none` as soon as one of them
fails the check or is not enabled. -/
def runIf (step : σ → α → Option σ) (check : σ → α → Bool) (s : σ) : List α → Option σ
  | [] => some s
  | a :: as => if check s a then (step s a).bind fun s' => runIf step check s' as else none

/-- Execute a list of actions. -/
def run (step : σ → α → Option σ) (s : σ) (as : List α) : Option σ :=
  runIf step (fun _ _ => true) s as

theorem Reach.of_runIf {check : σ → α → Bool} (hok : ∀ s a, check s a = true → ok s a)
    {s s' : σ} (h : Reach step init ok s) {as : List α} (hr : runIf step check s as = some s') :
    Reach step init ok s' := by
  induction as generalizing s with
  | nil => exact Option.some.inj hr ▸ h
  | cons a as ih =>
    rw [runIf] at hr
    split_ifs at hr with hc
    obtain ⟨t, ht, hr⟩ := Option.bind_eq_some_iff.mp hr
    exact ih (h.next (hok s a hc) ht) hr

/-- The state an evaluated run ends in is reached, under a condition checked along the way. -/
theorem exists_reach_of_runIf (init : σ → Prop) {check : σ → α → Bool}
    (hok : ∀ s a, check s a = true → ok s a) {s : σ} (hs : init s) {as : List α} {p : σ → Bool}
    (hp : (runIf step check s as).any p = true) : ∃ s', Reach step init ok s' ∧ p s' = true := by
  cases hr : runIf step check s as with
  | none => simp [hr] at hp
  | some s' =>
    rw [hr, Option.any_some] at hp
    exact ⟨s', Reach.of_runIf hok (.start hs) hr, hp⟩

/-- The state an evaluated run ends in is reachable. -/
theorem exists_reachable_of_run (init : σ → Prop) {s : σ} (hs : init s) {as : List α}
    {p : σ → Bool} (hp : (run step s as).any p = true) :
    ∃ s', Reachable step init s' ∧ p s' = true :=
  exists_reach_of_runIf init (fun _ _ _ => trivial) hs hp

end Padwire
