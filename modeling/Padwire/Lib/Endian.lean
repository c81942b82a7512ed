import Mathlib.Data.List.Basic
import Mathlib.Tactic.Ring

/-!
# Fixed-width byte encodings of natural numbers

`leBytes n v` is the `n`-byte little-endian encoding of `v`, `leNat` its decoder, and
`beBytes`/`beNat` are the mirrored big-endian pair. The two laws of a fixed-width codec hold
in both byte orders: decoding an encoding gives back every value that fits
(`beNat_beBytes`), and encoding a decoding gives back every string of the right width
(`beBytes_beNat`), so the encoding is a bijection between `n`-byte strings and the numbers
below `256 ^ n`.
-/

namespace Padwire

/-- A byte string. -/
abbrev Bytes := List UInt8

/-! ### Little-endian -/

/-- The low `n` bytes of `v`, least significant first. -/
def leBytes : ℕ → ℕ → Bytes
  | 0, _ => []
  | n + 1, v => UInt8.ofNat (v % 256) :: leBytes n (v / 256)

/-- The number a byte string spells, least significant byte first. -/
def leNat : Bytes → ℕ
  | [] => 0
  | b :: bs => b.toNat + 256 * leNat bs

@[simp]
theorem length_leBytes (n v : ℕ) : (leBytes n v).length = n := by
  induction n generalizing v with
  | zero => rfl
  | succ n ih => simp [leBytes, ih]

theorem leNat_lt (bs : Bytes) : leNat bs < 256 ^ bs.length := by
  induction bs with
  | nil => simp [leNat]
  | cons b bs ih =>
    have hb : b.toNat < 256 := b.toNat_lt
    rw [leNat, List.length_cons, pow_succ]
    omega

/-- A number that fits reads back. -/
theorem leNat_leBytes {n v : ℕ} (h : v < 256 ^ n) : leNat (leBytes n v) = v := by
  induction n generalizing v with
  | zero =>
    have hv : v = 0 := by simpa using h
    rw [leBytes, leNat, hv]
  | succ n ih =>
    have hq : v / 256 < 256 ^ n := by
      rw [pow_succ] at h
      exact Nat.div_lt_of_lt_mul (by omega)
    have hb : (UInt8.ofNat (v % 256)).toNat = v % 256 :=
      UInt8.toNat_ofNat_of_lt' (Nat.mod_lt _ (by norm_num))
    rw [leBytes, leNat, ih hq, hb]
    omega

/-- Any bytes are those of the number they spell. -/
theorem leBytes_leNat (bs : Bytes) : leBytes bs.length (leNat bs) = bs := by
  induction bs with
  | nil => rfl
  | cons b bs ih =>
    have hb : b.toNat < 256 := b.toNat_lt
    have hlow : (b.toNat + 256 * leNat bs) % 256 = b.toNat := by omega
    have hhigh : (b.toNat + 256 * leNat bs) / 256 = leNat bs := by omega
    rw [List.length_cons, leNat, leBytes, hlow, hhigh, ih, UInt8.ofNat_toNat]

/-! ### Big-endian -/

/-- The low `n` bytes of `v`, most significant first. -/
def beBytes (n v : ℕ) : Bytes := (leBytes n v).reverse

/-- The number a byte string spells, most significant byte first. -/
def beNat (bs : Bytes) : ℕ := leNat bs.reverse

@[simp]
theorem length_beBytes (n v : ℕ) : (beBytes n v).length = n := by simp [beBytes]

theorem beNat_lt (bs : Bytes) : beNat bs < 256 ^ bs.length := by
  simpa [beNat] using leNat_lt bs.reverse

/-- A number that fits reads back. -/
theorem beNat_beBytes {n v : ℕ} (h : v < 256 ^ n) : beNat (beBytes n v) = v := by
  rw [beNat, beBytes, List.reverse_reverse, leNat_leBytes h]

/-- Any bytes are those of the number they spell. -/
theorem beBytes_beNat {n : ℕ} {bs : Bytes} (h : bs.length = n) :
    beBytes n (beNat bs) = bs := by
  subst h
  have hrev : leBytes bs.length (leNat bs.reverse) = bs.reverse := by
    simpa using leBytes_leNat bs.reverse
  rw [beBytes, beNat, hrev, List.reverse_reverse]

/-! ### Copying -/

/-- Copy `bs` over `buf` from `off` on. -/
def overwrite (buf : Bytes) (off : ℕ) (bs : Bytes) : Bytes :=
  buf.take off ++ bs ++ buf.drop (off + bs.length)

/-- Copying over a buffer keeps its length. -/
theorem length_overwrite {buf : Bytes} {off : ℕ} {bs : Bytes} (h : off + bs.length ≤ buf.length) :
    (overwrite buf off bs).length = buf.length := by
  simp only [overwrite, List.length_append, List.length_take, List.length_drop]
  omega

theorem overwrite_nil (buf : Bytes) (off : ℕ) : overwrite buf off [] = buf := by
  rw [overwrite, List.append_nil, List.length_nil, Nat.add_zero, List.take_append_drop]

/-- A copy that starts behind the first part leaves that part alone. -/
theorem overwrite_append (pre buf bs : Bytes) :
    overwrite (pre ++ buf) pre.length bs = pre ++ overwrite buf 0 bs := by
  rw [overwrite, overwrite, List.take_left, List.drop_append, List.drop_eq_nil_of_le (by omega)]
  simp

/-- What stands behind the copy is left alone. -/
theorem drop_overwrite {buf bs : Bytes} {off n : ℕ} (h : off + bs.length ≤ n)
    (hle : off + bs.length ≤ buf.length) : (overwrite buf off bs).drop n = buf.drop n := by
  have hlen : (buf.take off ++ bs).length = off + bs.length := by
    rw [List.length_append, List.length_take, Nat.min_eq_left (Nat.le_of_add_right_le hle)]
  rw [overwrite, List.drop_append, List.drop_eq_nil_of_le (hlen.trans_le h), List.nil_append, hlen,
    List.drop_drop, Nat.add_sub_cancel' h]

end Padwire
