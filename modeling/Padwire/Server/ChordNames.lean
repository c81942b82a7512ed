import Mathlib.Data.Nat.Bitwise
import Padwire.Server.ChordText

/-!
# The chord as the probe prints it

`describe` (`usbfwd-server/src/chord.rs`) writes a button mask for `--chord-probe`: names where the
table has one, bit numbers where it does not. What it prints is meant to be passed back as a chord,
and `fromStr_describe` says that this gives the mask again. One token at a time this is a finite
check, since the button field has 64 bits; the rest is about lists of them.
-/

namespace Padwire

/-- How one bit of the button field is written. -/
def bitName (bit : ℕ) : String :=
  match BUTTONS.find? fun button => button.2.toNat == bit with
  | some button => button.1
  | none => "b" ++ toString bit

/-- The bits of the button field that are set in a mask. -/
def setBits (mask : UInt64) : List ℕ :=
  (List.range 64).filter fun bit => mask &&& (1 <<< UInt64.ofNat bit) ≠ 0

/-- Render a button mask. -/
def describe (mask : UInt64) : String :=
  if mask = 0 then "none" else "+".intercalate ((setBits mask).map bitName)

/-! ### One token -/

/-- A token as `from_str` has to find it: it is read as the given mask, and cutting and trimming
the text leave it as it is. -/
structure Reads (tok : List Char) (mask : UInt64) : Prop where
  parse : parseToken (toAsciiLowercase tok) = .ok mask
  trim : trim tok = tok
  nonempty : tok ≠ []
  separate : (tok.all fun c => !(c == '+' || c == ',')) = true

instance (tok : List Char) (mask : UInt64) : Decidable (Reads tok mask) :=
  decidable_of_iff
    (parseToken (toAsciiLowercase tok) = .ok mask ∧ Padwire.trim tok = tok ∧ tok ≠ [] ∧
      (tok.all fun c => !(c == '+' || c == ',')) = true)
    ⟨fun h => ⟨h.1, h.2.1, h.2.2.1, h.2.2.2⟩, fun h => ⟨h.parse, h.trim, h.nonempty, h.separate⟩⟩

/-- Each of the 64 bits is read back as itself. The button `b` is not taken for a bit number, since
no digits follow. -/
theorem reads_bitName {bit : ℕ} (h : bit < 64) :
    Reads (bitName bit).toList (1 <<< UInt64.ofNat bit) := by
  have hall : ((List.range 64).all fun bit =>
      decide (Reads (bitName bit).toList (1 <<< UInt64.ofNat bit))) = true := by
    decide +kernel
  exact of_decide_eq_true (List.all_eq_true.mp hall bit (List.mem_range.mpr h))

/-! ### The list of tokens -/

/-- Cutting what was joined gives the pieces back, if the separator is in none of them. -/
theorem splitOnP_intercalate {p : Char → Bool} {sep : Char} (hsep : p sep = true)
    {pieces : List (List Char)} (hne : pieces ≠ [])
    (h : ∀ piece ∈ pieces, ∀ c ∈ piece, p c = false) :
    ([sep].intercalate pieces).splitOnP p = pieces := by
  induction pieces with
  | nil => exact absurd rfl hne
  | cons piece pieces ih =>
    rw [List.forall_mem_cons] at h
    cases pieces with
    | nil => rw [List.intercalate_singleton, List.splitOnP_eq_singleton h.1]
    | cons next pieces =>
      rw [List.intercalate_cons_cons, List.append_assoc, List.singleton_append,
        List.splitOnP_append_cons_of_forall_mem h.1 sep hsep, ih (List.cons_ne_nil _ _) h.2]

theorem chordTokens_intercalate {toks : List String} (hne : toks ≠ [])
    (h : ∀ tok ∈ toks, ∃ mask, Reads tok.toList mask) :
    chordTokens ("+".intercalate toks) = toks.map String.toList := by
  have hsplit : ("+".intercalate toks).toList.splitOnP (fun c => c == '+' || c == ',') =
      toks.map String.toList := by
    rw [String.toList_intercalate]
    refine splitOnP_intercalate rfl (by simpa using hne) fun piece hpiece c hc => ?_
    obtain ⟨tok, htok, rfl⟩ := List.mem_map.mp hpiece
    obtain ⟨mask, hreads⟩ := h tok htok
    simpa using List.all_eq_true.mp hreads.separate c hc
  have htrim : (toks.map String.toList).map trim = toks.map String.toList := by
    rw [List.map_map]
    refine List.map_congr_left fun tok htok => ?_
    obtain ⟨mask, hreads⟩ := h tok htok
    exact hreads.trim
  rw [chordTokens, hsplit, htrim, List.filter_eq_self]
  intro piece hpiece
  obtain ⟨tok, htok, rfl⟩ := List.mem_map.mp hpiece
  obtain ⟨mask, hreads⟩ := h tok htok
  exact decide_eq_true hreads.nonempty

/-- The tokens of some bits are read one after the other. -/
theorem foldlM_bitName {bits : List ℕ} (h : ∀ bit ∈ bits, bit < 64) (start : UInt64) :
    ((bits.map bitName).map String.toList).foldlM
      (fun mask tok => (parseToken (toAsciiLowercase tok)).map (mask ||| ·)) start =
      .ok (bits.foldl (fun mask bit => mask ||| (1 <<< UInt64.ofNat bit)) start) := by
  induction bits generalizing start with
  | nil => rfl
  | cons bit bits ih =>
    rw [List.forall_mem_cons] at h
    rw [List.map_cons, List.map_cons, List.foldlM_cons, (reads_bitName h.1).parse]
    exact ih h.2 _

/-! ### The mask -/

theorem toNat_one_shiftLeft {bit : ℕ} (h : bit < 64) :
    ((1 : UInt64) <<< UInt64.ofNat bit).toNat = 2 ^ bit := by
  have hbit : (UInt64.ofNat bit).toNat = bit := UInt64.toNat_ofNat_of_lt' (by
    change bit < 2 ^ 64
    omega)
  rw [UInt64.toNat_shiftLeft, hbit, Nat.mod_eq_of_lt h, UInt64.toNat_one, Nat.one_shiftLeft,
    Nat.mod_eq_of_lt (Nat.pow_lt_pow_right (by decide) h)]

/-- A bit of a mask that was put together from bits. -/
theorem testBit_foldl_or {bits : List ℕ} (h : ∀ bit ∈ bits, bit < 64) (start : UInt64) (i : ℕ) :
    (bits.foldl (fun mask bit => mask ||| (1 <<< UInt64.ofNat bit)) start).toNat.testBit i =
      (start.toNat.testBit i || decide (i ∈ bits)) := by
  induction bits generalizing start with
  | nil => simp
  | cons bit bits ih =>
    rw [List.forall_mem_cons] at h
    have hmem : decide (i ∈ bit :: bits) = (decide (bit = i) || decide (i ∈ bits)) := by
      rw [← Bool.decide_or, decide_eq_decide, List.mem_cons, eq_comm]
    rw [List.foldl_cons, ih h.2, UInt64.toNat_or, Nat.testBit_or, toNat_one_shiftLeft h.1,
      Nat.testBit_two_pow, hmem, Bool.or_assoc]

/-- The bits that are set are below 64. -/
theorem mem_setBits {mask : UInt64} {bit : ℕ} :
    bit ∈ setBits mask ↔ mask.toNat.testBit bit = true := by
  rw [setBits, List.mem_filter, List.mem_range, decide_eq_true_eq]
  have hand (hbit : bit < 64) :
      mask &&& (1 <<< UInt64.ofNat bit) ≠ 0 ↔ mask.toNat.testBit bit = true := by
    rw [ne_eq, ← UInt64.toNat_inj, UInt64.toNat_and, toNat_one_shiftLeft hbit,
      Nat.and_two_pow, UInt64.toNat_zero]
    cases mask.toNat.testBit bit <;> simp
  constructor
  · rintro ⟨hbit, hset⟩
    exact (hand hbit).mp hset
  · intro hset
    have hbit : bit < 64 := by
      by_contra hge
      have hlt : mask.toNat < 2 ^ bit :=
        mask.toNat_lt.trans_le (Nat.pow_le_pow_right (by decide) (Nat.le_of_not_lt hge))
      rw [Nat.testBit_lt_two_pow hlt] at hset
      cases hset
    exact ⟨hbit, (hand hbit).mpr hset⟩

theorem lt_of_mem_setBits {mask : UInt64} {bit : ℕ} (h : bit ∈ setBits mask) : bit < 64 :=
  List.mem_range.mp (List.mem_filter.mp h).1

theorem foldl_setBits (mask : UInt64) :
    (setBits mask).foldl (fun mask bit => mask ||| (1 <<< UInt64.ofNat bit)) 0 = mask := by
  rw [← UInt64.toNat_inj]
  refine Nat.eq_of_testBit_eq fun i => ?_
  rw [testBit_foldl_or fun bit => lt_of_mem_setBits, UInt64.toNat_zero, Nat.zero_testBit,
    Bool.false_or]
  exact Bool.eq_iff_iff.mpr (decide_eq_true_iff.trans mem_setBits)

theorem setBits_ne_nil {mask : UInt64} (h : mask ≠ 0) : setBits mask ≠ [] := by
  intro hnil
  have hzero := foldl_setBits mask
  rw [hnil] at hzero
  exact h hzero.symm

/-- **What the probe prints is a chord**, and it is the one that was held. -/
theorem fromStr_describe (mask : UInt64) (h : mask ≠ 0) :
    Chord.fromStr (describe mask) = .ok ⟨mask⟩ := by
  have hnames : (setBits mask).map bitName ≠ [] := by simpa using setBits_ne_nil h
  have htoks : chordTokens (describe mask) = ((setBits mask).map bitName).map String.toList := by
    rw [describe, if_neg h]
    refine chordTokens_intercalate hnames fun tok htok => ?_
    obtain ⟨bit, hbit, rfl⟩ := List.mem_map.mp htok
    exact ⟨_, reads_bitName (lt_of_mem_setBits hbit)⟩
  rw [Chord.fromStr, htoks, foldlM_bitName fun bit => lt_of_mem_setBits, foldl_setBits]
  exact if_neg (by simpa using hnames)

theorem fromStr_describe_l4_b43 : describe 0xa0000000000 = "l4+b43" ∧
    Chord.fromStr "l4+b43" = .ok ⟨0xa0000000000⟩ := by
  have hdescribe : describe 0xa0000000000 = "l4+b43" := by decide +kernel
  exact ⟨hdescribe, hdescribe ▸ fromStr_describe 0xa0000000000 (by decide)⟩

end Padwire
