import Padwire.Lib.Checked

/-!
# Loops that end

`rounds body n s` runs a loop for `n` rounds from a state `s`; it is `none` if the loop is not done
by then. A loop whose rounds make a number smaller is done (`exists_rounds`), and more rounds than
it takes do not change what it comes to (`rounds_mono`). `loopWithin` is the loop with a bound on
its rounds, for code whose loops are known to end: that the bound is not reached is part of
its safety, since a loop that is not done by then counts as a panic.
-/

namespace Padwire

/-- What a round of a loop comes to: another round, from a new state, or the end of the loop. -/
inductive LoopRound (σ ρ : Type)
  | again (s : σ)
  | done (r : ρ)

namespace Checked

variable {ε σ ρ : Type} {body : σ → Checked ε (LoopRound σ ρ)}

/-- A loop, given up after `n` rounds. -/
def rounds (body : σ → Checked ε (LoopRound σ ρ)) : ℕ → σ → Option (Checked ε ρ)
  | 0, _ => none
  | n + 1, s =>
    match body s with
    | ok (.again s') => rounds body n s'
    | ok (.done r) => some (ok r)
    | err e => some (err e)
    | panic => some panic

/-- A loop that is done within a number of rounds. -/
def loopWithin (n : ℕ) (body : σ → Checked ε (LoopRound σ ρ)) (s : σ) : Checked ε ρ :=
  (rounds body n s).getD panic

/-- The loop is done after some number of rounds. -/
def Ends (body : σ → Checked ε (LoopRound σ ρ)) (s : σ) : Prop :=
  ∃ n, (rounds body n s).isSome = true

theorem rounds_again {s s' : σ} (h : body s = ok (.again s')) (n : ℕ) :
    rounds body (n + 1) s = rounds body n s' := by
  rw [rounds, h]

theorem rounds_done {s : σ} {r : ρ} (h : body s = ok (.done r)) (n : ℕ) :
    rounds body (n + 1) s = some (ok r) := by
  rw [rounds, h]

/-- A loop that is done stays done. -/
theorem rounds_mono {n m : ℕ} {s : σ} {x : Checked ε ρ} (h : rounds body n s = some x)
    (hle : n ≤ m) : rounds body m s = some x := by
  induction n generalizing m s with
  | zero => cases h
  | succ n ih =>
    obtain ⟨m, rfl⟩ : ∃ m₀, m = m₀ + 1 := ⟨m - 1, by omega⟩
    rw [rounds] at h ⊢
    cases hs : body s with
    | ok round =>
      rw [hs] at h
      cases round with
      | again s' => exact ih h (Nat.le_of_succ_le_succ hle)
      | done r => exact h
    | err e =>
      rw [hs] at h
      exact h
    | panic =>
      rw [hs] at h
      exact h

/-- A loop that is done within its bound. -/
theorem loopWithin_of_rounds {n m : ℕ} {s : σ} {x : Checked ε ρ} (h : rounds body n s = some x)
    (hle : n ≤ m) : loopWithin m body s = x := by
  rw [loopWithin, rounds_mono h hle, Option.getD_some]

/-- **A loop ends** if each further round makes a number smaller. -/
theorem exists_rounds (μ : σ → ℕ) (hμ : ∀ s s', body s = ok (.again s') → μ s' < μ s) {n : ℕ}
    {s : σ} (h : μ s < n) : ∃ x, rounds body n s = some x := by
  induction n generalizing s with
  | zero => exact absurd h (Nat.not_lt_zero _)
  | succ n ih =>
    rw [rounds]
    cases hs : body s with
    | ok round =>
      cases round with
      | again s' => exact ih (Nat.lt_of_lt_of_le (hμ s s' hs) (Nat.le_of_lt_succ h))
      | done r => exact ⟨_, rfl⟩
    | err e => exact ⟨_, rfl⟩
    | panic => exact ⟨_, rfl⟩

/-- With a bound above its measure, a loop comes to what it comes to after any number of rounds
that is enough. -/
theorem loopWithin_eq_iff (μ : σ → ℕ) (hμ : ∀ s s', body s = ok (.again s') → μ s' < μ s) {n : ℕ}
    {s : σ} (h : μ s < n) {x : Checked ε ρ} :
    loopWithin n body s = x ↔ ∃ m, rounds body m s = some x := by
  obtain ⟨y, hy⟩ := exists_rounds μ hμ h
  rw [loopWithin, hy, Option.getD_some]
  constructor
  · rintro rfl
    exact ⟨n, hy⟩
  · rintro ⟨m, hm⟩
    rcases Nat.le_total n m with hle | hle
    · exact Option.some.inj ((rounds_mono hy hle).symm.trans hm)
    · exact Option.some.inj (hy.symm.trans (rounds_mono hm hle))

theorem ends_of_measure (μ : σ → ℕ) (hμ : ∀ s s', body s = ok (.again s') → μ s' < μ s) (s : σ) :
    Ends body s := by
  obtain ⟨x, hx⟩ := exists_rounds μ hμ (Nat.lt_succ_self (μ s))
  exact ⟨_, Option.isSome_of_eq_some hx⟩

/-- A loop is safe if its rounds are, and if it is done within the bound. -/
theorem safe_loopWithin (μ : σ → ℕ) (hμ : ∀ s s', body s = ok (.again s') → μ s' < μ s)
    (hbody : ∀ s, (body s).Safe) {n : ℕ} {s : σ} (h : μ s < n) : (loopWithin n body s).Safe := by
  obtain ⟨x, hx⟩ := exists_rounds μ hμ h
  rw [loopWithin, hx, Option.getD_some]
  clear h
  induction n generalizing s with
  | zero => cases hx
  | succ n ih =>
    rw [rounds] at hx
    cases hs : body s with
    | ok round =>
      rw [hs] at hx
      cases round with
      | again s' => exact ih hx
      | done r =>
        obtain rfl := Option.some.inj hx
        exact safe_ok r
    | err e =>
      rw [hs] at hx
      obtain rfl := Option.some.inj hx
      exact safe_err e
    | panic => exact absurd hs (hbody s)

/-- What every round keeps holds of the value that a loop ends with. -/
theorem loopWithin_invariant (Inv : σ → Prop) (Post : ρ → Prop)
    (hagain : ∀ s s', Inv s → body s = ok (.again s') → Inv s')
    (hdone : ∀ s r, Inv s → body s = ok (.done r) → Post r) {n : ℕ} {s : σ} {r : ρ} (hs : Inv s)
    (h : loopWithin n body s = ok r) : Post r := by
  induction n generalizing s with
  | zero => cases h
  | succ n ih =>
    rw [loopWithin, rounds] at h
    cases hbody : body s with
    | ok round =>
      rw [hbody] at h
      cases round with
      | again s' => exact ih (hagain s s' hs hbody) h
      | done r' =>
        obtain rfl : r' = r := by injection h
        exact hdone s r' hs hbody
    | err e =>
      rw [hbody] at h
      cases h
    | panic =>
      rw [hbody] at h
      cases h

end Checked

end Padwire
