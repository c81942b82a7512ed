import Padwire.Lib.Scan

/-!
# Numbers as they are written

The digits of a number in a radix of at most sixteen, with zeros in front of them up to a width, as
a format string such as `{:04x}` asks for. `parseUnsigned_padded` says that such a number is read
back, whatever the width, and `forall_mem_padded` what characters it is written with.
-/

namespace Padwire

/-- A number in the given radix, in lower case, with zeros in front of it up to the given width. -/
def padded (radix width n : ℕ) : List Char :=
  (Nat.toDigits radix n).leftpad width '0'

section Radix

variable {radix : ℕ} (hradix : 1 < radix) (hmax : radix ≤ 16)

include hmax in
theorem toDigit_digitChar {d : ℕ} (hd : d < radix) : toDigit radix d.digitChar = some d := by
  have hvalue : ∀ d < 16, (if d.digitChar.isDigit then some (d.digitChar.toNat - '0'.toNat)
      else if d.digitChar.isLower then some (d.digitChar.toNat - 'a'.toNat + 10)
      else if d.digitChar.isUpper then some (d.digitChar.toNat - 'A'.toNat + 10)
      else none) = some d := by decide
  rw [toDigit, hvalue d (hd.trans_le hmax), Option.filter_some, if_pos (decide_eq_true hd)]

/-- Reading digits, with a number read so far. -/
private def digitsFrom (radix n : ℕ) (cs : List Char) : Option ℕ :=
  cs.foldlM (fun n c => (toDigit radix c).map fun d => n * radix + d) n

include hradix hmax in
private theorem digitsFrom_toDigits (n : ℕ) :
    digitsFrom radix 0 (Nat.toDigits radix n) = some n := by
  induction n using Nat.strongRecOn with
  | _ n ih =>
    rw [Nat.toDigits_eq_if hradix]
    split_ifs with hlt
    · simp only [digitsFrom, List.foldlM_cons, List.foldlM_nil, toDigit_digitChar hmax hlt]
      simp
    · have hdiv : n / radix < n := Nat.div_lt_self (by omega) hradix
      have hmod : n % radix < radix := Nat.mod_lt n (by omega)
      have hhead := ih (n / radix) hdiv
      rw [digitsFrom] at hhead ⊢
      rw [List.foldlM_append, hhead]
      simp only [Option.bind_eq_bind, Option.bind_some, List.foldlM_cons, List.foldlM_nil,
        toDigit_digitChar hmax hmod, Option.map_some, Option.pure_def]
      rw [Nat.mul_comm, Nat.div_add_mod]

include hradix in
private theorem digitsFrom_zeros (k : ℕ) (cs : List Char) :
    digitsFrom radix 0 (List.replicate k '0' ++ cs) = digitsFrom radix 0 cs := by
  induction k with
  | zero => rfl
  | succ k ih =>
    have hzero : toDigit radix '0' = some 0 := (toDigit_eq_zero (by omega)).mpr rfl
    rw [List.replicate_succ, List.cons_append, digitsFrom, List.foldlM_cons, hzero]
    simpa [digitsFrom] using ih

include hradix hmax in
/-- The digits that a number is written with stand for it. -/
theorem ofDigits_padded (width n : ℕ) : ofDigits radix (padded radix width n) = some n := by
  have hread : digitsFrom radix 0 (padded radix width n) = some n := by
    rw [padded, List.leftpad, digitsFrom_zeros hradix, digitsFrom_toDigits hradix hmax]
  have hne : padded radix width n ≠ [] := by
    rw [padded, List.leftpad]
    exact List.append_ne_nil_of_right_ne_nil _ Nat.toDigits_ne_nil
  obtain ⟨c, cs, heq⟩ := List.exists_cons_of_ne_nil hne
  rw [heq] at hread ⊢
  exact hread

include hradix hmax in
/-- A number is written with the digits below sixteen. -/
theorem forall_mem_padded {p : Char → Prop} (h : ∀ d < 16, p d.digitChar) (width n : ℕ) :
    ∀ c ∈ padded radix width n, p c := by
  have hdigits : ∀ n, ∀ c ∈ Nat.toDigits radix n, p c := by
    intro n
    induction n using Nat.strongRecOn with
    | _ n ih =>
      rw [Nat.toDigits_eq_if hradix]
      split_ifs with hlt
      · exact List.forall_mem_singleton.mpr (h n (hlt.trans_le hmax))
      · have hdiv : n / radix < n := Nat.div_lt_self (by omega) hradix
        have hmod : n % radix < radix := Nat.mod_lt n (by omega)
        rw [List.forall_mem_append]
        exact ⟨ih _ hdiv, List.forall_mem_singleton.mpr (h _ (hmod.trans_le hmax))⟩
  rw [padded, List.leftpad, List.forall_mem_append]
  refine ⟨fun c hc => ?_, hdigits n⟩
  rw [List.eq_of_mem_replicate hc]
  exact h 0 (by omega)

include hradix hmax in
/-- **A number is read as it was written.** -/
theorem parseUnsigned_padded (width : ℕ) {n max : ℕ} (hn : n ≤ max) :
    parseUnsigned radix max (padded radix width n) = some n := by
  have hsign : '+' ∉ padded radix width n := fun hmem =>
    forall_mem_padded hradix hmax (p := (· ≠ '+')) (by decide) width n '+' hmem rfl
  rw [parseUnsigned_of_not_mem hsign, ofDigits_padded hradix hmax, Option.filter_some,
    if_pos (decide_eq_true hn)]

end Radix

end Padwire
