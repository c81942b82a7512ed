import Padwire.Lib.Text

/-!
# Strings from bytes that need not be UTF-8

`from_utf8_lossy` replaces what is not UTF-8: at each place the longest start of a well-formed
sequence that cannot go on becomes one replacement character, and so does a byte that starts none.
Well-formed text is left as it is (`fromUtf8Lossy_encodeUtf8`), and a character that is cut off at
the end of the bytes becomes one replacement character, however many of its bytes are there
(`fromUtf8Lossy_take`).
-/

namespace Padwire

/-- The UTF-8 bytes of a text. -/
def encodeUtf8 (cs : List Char) : Bytes := cs.flatMap String.utf8EncodeChar

/-- The character whose bytes come first. -/
def decodeChar? (bs : Bytes) : Option Char := bs.toByteArray.utf8DecodeChar? 0

def replacementChar : Char := Char.ofNat 0xfffd

/-- A second byte that can follow the first in a sequence of three or four. -/
def secondFits (first second : UInt8) : Bool :=
  if first = 0xe0 then 0xa0 ≤ second && second ≤ 0xbf
  else if first = 0xed then 0x80 ≤ second && second ≤ 0x9f
  else if first = 0xf0 then 0x90 ≤ second && second ≤ 0xbf
  else if first = 0xf4 then 0x80 ≤ second && second ≤ 0x8f
  else 0xe1 ≤ first && first ≤ 0xf3 && 0x80 ≤ second && second ≤ 0xbf

/-- How many bytes are replaced together, where no character can be decoded. -/
def invalidLength : Bytes → ℕ
  | first :: second :: rest =>
    if secondFits first second then
      if 0xf0 ≤ first && rest.head?.any fun third => 0x80 ≤ third && third ≤ 0xbf then 3 else 2
    else 1
  | _ => 1

/-- The text of at most `n` bytes. -/
def lossyTo : ℕ → Bytes → List Char
  | 0, _ => []
  | _ + 1, [] => []
  | n + 1, bs =>
    match decodeChar? bs with
    | some c => c :: lossyTo n (bs.drop c.utf8Size)
    | none => replacementChar :: lossyTo n (bs.drop (invalidLength bs))

/-- The text of some bytes, with what is not UTF-8 replaced. -/
def fromUtf8Lossy (bs : Bytes) : List Char := lossyTo bs.length bs

/-! ### One character -/

theorem decodeChar?_append (c : Char) (rest : Bytes) :
    decodeChar? (String.utf8EncodeChar c ++ rest) = some c := by
  rw [decodeChar?, List.toByteArray_append]
  exact ByteArray.utf8DecodeChar?_utf8EncodeChar_append

theorem eq_of_decodeChar? {bs : Bytes} {c : Char} (h : decodeChar? bs = some c) :
    ∃ rest, bs = String.utf8EncodeChar c ++ rest := by
  obtain ⟨b, hb⟩ := ByteArray.exists_of_utf8DecodeChar?_eq_some h
  refine ⟨b.data.toList, ?_⟩
  have hdata := congrArg (fun b : ByteArray => b.data.toList) hb
  simpa using hdata

/-- A character that is cut off is not decoded. -/
theorem decodeChar?_take {c : Char} {k : ℕ} (h : k < c.utf8Size) :
    decodeChar? ((String.utf8EncodeChar c).take k) = none := by
  rw [Option.eq_none_iff_forall_ne_some]
  intro c' hc'
  obtain ⟨rest, hrest⟩ := eq_of_decodeChar? hc'
  have hwhole : String.utf8EncodeChar c ++ [] =
      String.utf8EncodeChar c' ++ (rest ++ (String.utf8EncodeChar c).drop k) := by
    rw [← List.append_assoc, ← hrest, List.take_append_drop, List.append_nil]
  have hsame := decodeChar?_append c []
  rw [hwhole, decodeChar?_append, Option.some.injEq] at hsame
  have hlen := congrArg List.length hrest
  rw [hsame, List.length_append, List.length_take, String.length_utf8EncodeChar] at hlen
  omega

theorem invalidLength_pos (bs : Bytes) : 0 < invalidLength bs := by
  unfold invalidLength
  split
  · split_ifs <;> decide
  · decide

/-- `secondFits` as a statement about numbers. -/
theorem secondFits_iff {first second : UInt8} : secondFits first second = true ↔
    0xe0 ≤ first.toNat ∧ first.toNat ≤ 0xf4 ∧ 0x80 ≤ second.toNat ∧ second.toNat ≤ 0xbf ∧
      (first.toNat = 0xe0 → 0xa0 ≤ second.toNat) ∧ (first.toNat = 0xed → second.toNat ≤ 0x9f) ∧
      (first.toNat = 0xf0 → 0x90 ≤ second.toNat) ∧ (first.toNat = 0xf4 → second.toNat ≤ 0x8f) := by
  unfold secondFits
  simp only [← UInt8.toNat_inj, UInt8.le_iff_toNat_le, UInt8.reduceToNat]
  split_ifs <;> simp only [Bool.and_eq_true, decide_eq_true_eq] <;> omega

/-- The bytes of a character after its first are continuation bytes. -/
theorem le_of_continuation (n : ℕ) : (0x80 : UInt8) ≤ UInt8.ofNat (n % 64 + 128) ∧
    UInt8.ofNat (n % 64 + 128) ≤ (0xbf : UInt8) := by
  simp only [UInt8.le_iff_toNat_le, UInt8.toNat_ofNat', UInt8.reduceToNat]
  omega

/-- What begins a character of three or four bytes fits together. -/
theorem secondFits_of_utf8EncodeChar {c : Char} {first second : UInt8} {rest : Bytes}
    (h : String.utf8EncodeChar c = first :: second :: rest) (hrest : rest ≠ []) :
    secondFits first second = true ∧ (rest.length = 2 → 0xf0 ≤ first) ∧
      ∀ third ∈ rest, 0x80 ≤ third ∧ third ≤ 0xbf := by
  have hvalid : c.val.toNat < 0xd800 ∨ 0xdfff < c.val.toNat ∧ c.val.toNat < 0x110000 := c.valid
  unfold String.utf8EncodeChar at h
  dsimp only at h
  rw [secondFits_iff, UInt8.le_iff_toNat_le]
  split_ifs at h with h₁ h₂ h₃
  · cases h
  · cases h
    exact absurd rfl hrest
  · simp only [List.cons.injEq] at h
    obtain ⟨rfl, rfl, rfl⟩ := h
    simp only [UInt8.toNat_ofNat', UInt8.reduceToNat, List.forall_mem_singleton]
    refine ⟨by omega, nofun, le_of_continuation _⟩
  · simp only [List.cons.injEq] at h
    obtain ⟨rfl, rfl, rfl⟩ := h
    simp only [UInt8.toNat_ofNat', UInt8.reduceToNat, List.forall_mem_cons]
    exact ⟨by omega, fun _ => by omega, le_of_continuation _, le_of_continuation _, nofun⟩

/-- A character that is cut off is replaced as a whole. -/
theorem invalidLength_take {c : Char} {k : ℕ} (hpos : 0 < k) (h : k < c.utf8Size) :
    invalidLength ((String.utf8EncodeChar c).take k) = k := by
  have hlen := String.length_utf8EncodeChar c
  have hfour := c.utf8Size_le_four
  rcases hbytes : String.utf8EncodeChar c with _ | ⟨first, _ | ⟨second, rest⟩⟩
  · exact absurd hbytes String.utf8EncodeChar_ne_nil
  · rw [hbytes, List.length_singleton] at hlen
    omega
  rw [hbytes, List.length_cons, List.length_cons] at hlen
  obtain rfl | ⟨hk, hrest⟩ : k = 1 ∨ 2 ≤ k ∧ rest ≠ [] := by
    rcases rest with _ | ⟨third, rest⟩
    · rw [List.length_nil] at hlen
      omega
    · exact or_iff_not_imp_left.mpr fun _ => ⟨by omega, List.cons_ne_nil _ _⟩
  · rfl
  obtain ⟨hfits, hfirst, hthird⟩ := secondFits_of_utf8EncodeChar hbytes hrest
  obtain ⟨k, rfl⟩ : ∃ k₀, k = k₀ + 2 := ⟨k - 2, by omega⟩
  rw [List.take_succ_cons, List.take_succ_cons, invalidLength, if_pos hfits]
  rcases rest with _ | ⟨third, rest⟩
  · exact absurd rfl hrest
  rw [List.length_cons] at hlen
  rcases k with _ | k
  -- two bytes of the character, and then three
  · rw [List.take_zero, if_neg (by simp)]
  · have hthree : k = 0 ∧ rest.length = 1 := by omega
    obtain ⟨rfl, hone⟩ := hthree
    have hcont := hthird third List.mem_cons_self
    rw [List.take_succ_cons, if_pos]
    simp [hfirst (by rw [List.length_cons, hone]), hcont]

/-! ### Texts -/

/-- More rounds than bytes give the same text. -/
theorem lossyTo_eq {n m : ℕ} {bs : Bytes} (hn : bs.length ≤ n) (hm : bs.length ≤ m) :
    lossyTo n bs = lossyTo m bs := by
  induction n generalizing m bs with
  | zero =>
    obtain rfl := List.length_eq_zero_iff.mp (Nat.le_zero.mp hn)
    cases m <;> rfl
  | succ n ih =>
    cases bs with
    | nil => cases m <;> rfl
    | cons b bs =>
      obtain ⟨m, rfl⟩ : ∃ m₀, m = m₀ + 1 := ⟨m - 1, by rw [List.length_cons] at hm; omega⟩
      have hdrop : ∀ k, 0 < k → lossyTo n ((b :: bs).drop k) = lossyTo m ((b :: bs).drop k) := by
        intro k hk
        rw [List.length_cons] at hn hm
        refine ih ?_ ?_ <;> rw [List.length_drop, List.length_cons] <;> omega
      rw [lossyTo, lossyTo]
      cases decodeChar? (b :: bs) with
      | some c => exact congrArg (c :: ·) (hdrop _ c.utf8Size_pos)
      | none => exact congrArg (replacementChar :: ·) (hdrop _ (invalidLength_pos _))
      all_goals exact nofun

theorem fromUtf8Lossy_of_some {bs : Bytes} {c : Char} (h : decodeChar? bs = some c) :
    fromUtf8Lossy bs = c :: fromUtf8Lossy (bs.drop c.utf8Size) := by
  rw [fromUtf8Lossy, fromUtf8Lossy]
  cases bs with
  | nil =>
    obtain ⟨rest, hrest⟩ := eq_of_decodeChar? h
    exact absurd (List.append_eq_nil_iff.mp hrest.symm).1 String.utf8EncodeChar_ne_nil
  | cons b bs =>
    rw [List.length_cons, lossyTo, h]
    · refine congrArg (c :: ·) (lossyTo_eq ?_ le_rfl)
      have hpos := c.utf8Size_pos
      rw [List.length_drop, List.length_cons]
      omega
    · exact nofun

theorem fromUtf8Lossy_of_none {bs : Bytes} (hne : bs ≠ []) (h : decodeChar? bs = none) :
    fromUtf8Lossy bs = replacementChar :: fromUtf8Lossy (bs.drop (invalidLength bs)) := by
  rw [fromUtf8Lossy, fromUtf8Lossy]
  cases bs with
  | nil => exact absurd rfl hne
  | cons b bs =>
    rw [List.length_cons, lossyTo, h]
    · refine congrArg (replacementChar :: ·) (lossyTo_eq ?_ le_rfl)
      have hpos := invalidLength_pos (b :: bs)
      rw [List.length_drop, List.length_cons]
      omega
    · exact nofun

theorem fromUtf8Lossy_ne_nil {bs : Bytes} (h : bs ≠ []) : fromUtf8Lossy bs ≠ [] := by
  cases hc : decodeChar? bs with
  | some c =>
    rw [fromUtf8Lossy_of_some hc]
    exact List.cons_ne_nil _ _
  | none =>
    rw [fromUtf8Lossy_of_none h hc]
    exact List.cons_ne_nil _ _

/-- **Text that is UTF-8 is left as it is.** -/
theorem fromUtf8Lossy_append (cs : List Char) (rest : Bytes) :
    fromUtf8Lossy (encodeUtf8 cs ++ rest) = cs ++ fromUtf8Lossy rest := by
  induction cs with
  | nil => rfl
  | cons c cs ih =>
    rw [encodeUtf8, List.flatMap_cons, List.append_assoc,
      fromUtf8Lossy_of_some (decodeChar?_append c _),
      List.drop_left' (String.length_utf8EncodeChar c)]
    exact congrArg (c :: ·) ih

theorem fromUtf8Lossy_encodeUtf8 (cs : List Char) : fromUtf8Lossy (encodeUtf8 cs) = cs := by
  have happ := fromUtf8Lossy_append cs []
  have hnil : fromUtf8Lossy [] = [] := rfl
  rwa [List.append_nil, hnil, List.append_nil] at happ

/-- **A character that is cut off** at the end becomes one replacement character. -/
theorem fromUtf8Lossy_take {c : Char} {k : ℕ} (hpos : 0 < k) (h : k < c.utf8Size) :
    fromUtf8Lossy ((String.utf8EncodeChar c).take k) = [replacementChar] := by
  have hlen : ((String.utf8EncodeChar c).take k).length = k := by
    rw [List.length_take, String.length_utf8EncodeChar]
    omega
  have hne : (String.utf8EncodeChar c).take k ≠ [] := by
    rw [← List.length_pos_iff, hlen]
    exact hpos
  rw [fromUtf8Lossy_of_none hne (decodeChar?_take h), invalidLength_take hpos h,
    List.drop_of_length_le hlen.le]
  rfl

/-- Text is within `k` bytes, or there is a character where the first `k` bytes end. -/
theorem exists_cut (cs : List Char) (k : ℕ) :
    (encodeUtf8 cs).length ≤ k ∨ ∃ pre c rest, cs = pre ++ c :: rest ∧
      (encodeUtf8 pre).length ≤ k ∧ k < (encodeUtf8 pre).length + c.utf8Size := by
  induction cs generalizing k with
  | nil => exact .inl (Nat.zero_le k)
  | cons c cs ih =>
    by_cases hk : k < c.utf8Size
    · exact .inr ⟨[], c, cs, rfl, Nat.zero_le k, by rwa [encodeUtf8, List.flatMap_nil,
        List.length_nil, Nat.zero_add]⟩
    have hlen : ∀ cs, (encodeUtf8 (c :: cs)).length = c.utf8Size + (encodeUtf8 cs).length := by
      intro cs
      rw [encodeUtf8, List.flatMap_cons, List.length_append, String.length_utf8EncodeChar]
      rfl
    rcases ih (k - c.utf8Size) with hle | ⟨pre, d, rest, rfl, hle, hlt⟩
    · refine .inl ?_
      rw [hlen]
      omega
    · refine .inr ⟨c :: pre, d, rest, rfl, ?_⟩
      rw [hlen]
      omega

/-- **Text that is cut off** loses the characters from the cut on; the one that is cut becomes one
replacement character. -/
theorem fromUtf8Lossy_cut {pre rest : List Char} {c : Char} {k : ℕ}
    (hle : (encodeUtf8 pre).length ≤ k) (hlt : k < (encodeUtf8 pre).length + c.utf8Size) :
    fromUtf8Lossy ((encodeUtf8 (pre ++ c :: rest)).take k) =
      if (encodeUtf8 pre).length = k then pre else pre ++ [replacementChar] := by
  have hsplit : encodeUtf8 (pre ++ c :: rest) =
      encodeUtf8 pre ++ (String.utf8EncodeChar c ++ encodeUtf8 rest) := by
    rw [encodeUtf8, List.flatMap_append, List.flatMap_cons]
    rfl
  have hlen := String.length_utf8EncodeChar c
  rw [hsplit, List.take_append, List.take_of_length_le hle,
    List.take_append_of_le_length (by omega), fromUtf8Lossy_append]
  split_ifs with heq
  · rw [heq, Nat.sub_self, List.take_zero]
    exact List.append_nil pre
  · rw [fromUtf8Lossy_take (by omega) (by omega)]

/-! ### The bytes of a string -/

theorem asBytes_eq (s : String) : asBytes s = encodeUtf8 s.toList := by
  rw [asBytes, ← String.utf8Encode_toList, List.utf8Encode, List.data_toByteArray]
  rfl

end Padwire
