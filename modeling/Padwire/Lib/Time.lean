import Mathlib.Algebra.Order.Group.Nat
import Mathlib.Tactic.Common

/-!
# Instants and durations

Time as the standard library of the source has it, in nanoseconds: a `Duration` holds less than
`2 ^ 64` seconds and an `Instant` less than `2 ^ 63`, from some zero that the clock has passed.
Sums and products that do not fit panic there; they are `none` here.
-/

namespace Padwire

def NANOS_PER_SEC : ℕ := 1000000000

/-- A span of time. -/
structure Duration where
  nanos : ℕ
  lt : nanos < 2 ^ 64 * NANOS_PER_SEC
  deriving DecidableEq

/-- A reading of the monotonic clock. -/
structure Instant where
  nanos : ℕ
  lt : nanos < 2 ^ 63 * NANOS_PER_SEC
  deriving DecidableEq

namespace Duration

theorem secs_lt {n : ℕ} (h : n < 2 ^ 64) : n * NANOS_PER_SEC < 2 ^ 64 * NANOS_PER_SEC :=
  Nat.mul_lt_mul_of_pos_right h (by decide)

/-- The duration of a number of seconds. -/
def fromSecs (n : UInt64) : Duration :=
  ⟨n.toNat * NANOS_PER_SEC, secs_lt n.toNat_lt⟩

instance : Min Duration := ⟨fun d e => if d.nanos ≤ e.nanos then d else e⟩

@[simp]
theorem nanos_min (d e : Duration) : (min d e).nanos = min d.nanos e.nanos := by
  change (if d.nanos ≤ e.nanos then d else e).nanos = _
  split_ifs with h
  · exact (Nat.min_eq_left h).symm
  · exact (Nat.min_eq_right (Nat.le_of_not_le h)).symm

/-- `self * 2`. -/
def double (d : Duration) : Option Duration :=
  if h : d.nanos * 2 < 2 ^ 64 * NANOS_PER_SEC then some ⟨d.nanos * 2, h⟩ else none

/-- Doubling overflows when the seconds no longer fit 64 bits. -/
theorem double_eq_none_iff {d : Duration} :
    d.double = none ↔ 2 ^ 64 * NANOS_PER_SEC ≤ d.nanos * 2 := by
  rw [double]
  by_cases h : d.nanos * 2 < 2 ^ 64 * NANOS_PER_SEC
  · rw [dif_pos h]
    exact iff_of_false (Option.some_ne_none _) (Nat.not_le.mpr h)
  · rw [dif_neg h]
    exact iff_of_true rfl (Nat.not_lt.mp h)

/-- Twice a duration, where it is one. -/
theorem nanos_of_double {d e : Duration} (h : d.double = some e) : e.nanos = d.nanos * 2 := by
  rw [double] at h
  split_ifs at h
  exact Option.some.inj h ▸ rfl

end Duration

namespace Instant

theorem secs_lt (n : UInt32) : n.toNat * NANOS_PER_SEC < 2 ^ 63 * NANOS_PER_SEC :=
  Nat.mul_lt_mul_of_pos_right (Nat.lt_trans n.toNat_lt (by decide)) (by decide)

/-- The instant a number of seconds after the zero of the clock. -/
def ofSecs (n : UInt32) : Instant := ⟨n.toNat * NANOS_PER_SEC, secs_lt n⟩

/-- `self + duration`. -/
def add (t : Instant) (d : Duration) : Option Instant :=
  if h : t.nanos + d.nanos < 2 ^ 63 * NANOS_PER_SEC then some ⟨t.nanos + d.nanos, h⟩ else none

/-- An instant some time later, where there is one. -/
theorem nanos_of_add {t u : Instant} {d : Duration} (h : t.add d = some u) :
    u.nanos = t.nanos + d.nanos := by
  rw [add] at h
  split_ifs at h
  exact Option.some.inj h ▸ rfl

/-- Adding overflows when the seconds no longer fit a signed 64-bit number. -/
theorem add_eq_none_iff {t : Instant} {d : Duration} :
    t.add d = none ↔ 2 ^ 63 * NANOS_PER_SEC ≤ t.nanos + d.nanos := by
  rw [add]
  by_cases h : t.nanos + d.nanos < 2 ^ 63 * NANOS_PER_SEC
  · rw [dif_pos h]
    exact iff_of_false (Option.some_ne_none _) (Nat.not_le.mpr h)
  · rw [dif_neg h]
    exact iff_of_true rfl (Nat.not_lt.mp h)

end Instant

/-! ### Doubling up to a ceiling -/

/-- A quantity that starts at `lo` and is doubled `k` times, up to the ceiling `hi`. -/
def doubling (lo hi k : ℕ) : ℕ := min (lo * 2 ^ k) hi

/-- One more round doubles the value, up to the bound. -/
theorem doubling_succ (lo hi k : ℕ) : doubling lo hi (k + 1) = min (doubling lo hi k * 2) hi := by
  rw [doubling, doubling, Nat.pow_succ, ← Nat.mul_assoc]
  omega

theorem doubling_zero {lo hi : ℕ} (h : lo ≤ hi) : doubling lo hi 0 = lo := by
  rw [doubling, Nat.pow_zero, Nat.mul_one]
  exact Nat.min_eq_left h

/-- Doubling never passes the bound. -/
theorem doubling_le (lo hi k : ℕ) : doubling lo hi k ≤ hi :=
  Nat.min_le_right _ _

/-- One more doubling of at least the `k`-th value gives at least the next one. -/
theorem doubling_succ_le {lo hi k n : ℕ} (h : doubling lo hi k ≤ n) :
    doubling lo hi (k + 1) ≤ min (n * 2) hi := by
  rw [doubling_succ]
  omega

end Padwire
