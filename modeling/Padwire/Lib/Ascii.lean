import Padwire.Lib.Lossy

/-!
# ASCII text

Text of ASCII characters has as many bytes as characters, and what holds of the bytes can be read
off the characters. Names and paths that a kernel prints are such text.
-/

namespace Padwire

/-- ASCII characters other than NUL. -/
def IsAscii (cs : List Char) : Prop :=
  ∀ c ∈ cs, 0 < c.toNat ∧ c.toNat < 0x80

instance (cs : List Char) : Decidable (IsAscii cs) :=
  List.decidableBAll _ cs

/-- The byte of an ASCII character. -/
def asciiByte (c : Char) : UInt8 := UInt8.ofNat c.toNat

theorem utf8EncodeChar_of_ascii {c : Char} (h : c.toNat < 0x80) :
    String.utf8EncodeChar c = [asciiByte c] := by
  have hval : c.val.toNat ≤ 0x7f := Nat.le_of_lt_succ h
  rw [String.utf8EncodeChar, if_pos hval]
  rfl

theorem asBytes_append (s t : String) : asBytes (s ++ t) = asBytes s ++ asBytes t := by
  rw [asBytes_eq, String.toList_append, encodeUtf8, List.flatMap_append, asBytes_eq, asBytes_eq]
  rfl

theorem isAscii_cons {c : Char} {cs : List Char} :
    IsAscii (c :: cs) ↔ (0 < c.toNat ∧ c.toNat < 0x80) ∧ IsAscii cs :=
  List.forall_mem_cons

theorem isAscii_append {cs ds : List Char} : IsAscii (cs ++ ds) ↔ IsAscii cs ∧ IsAscii ds :=
  List.forall_mem_append

namespace IsAscii

variable {s : String}

theorem encodeUtf8_eq {cs : List Char} (h : IsAscii cs) : encodeUtf8 cs = cs.map asciiByte := by
  induction cs with
  | nil => rfl
  | cons c cs ih =>
    obtain ⟨hc, hcs⟩ := isAscii_cons.mp h
    rw [List.map_cons, ← ih hcs, encodeUtf8, List.flatMap_cons, utf8EncodeChar_of_ascii hc.2]
    rfl

/-- The bytes of ASCII text are its characters. -/
theorem asBytes_eq (h : IsAscii s.toList) : asBytes s = s.toList.map asciiByte := by
  rw [Padwire.asBytes_eq, h.encodeUtf8_eq]

theorem length_asBytes (h : IsAscii s.toList) : (asBytes s).length = s.toList.length := by
  rw [h.asBytes_eq, List.length_map]

/-- What holds of the characters holds of the bytes. -/
theorem forall_mem_asBytes (h : IsAscii s.toList) {p : UInt8 → Prop}
    (hp : ∀ c ∈ s.toList, p (asciiByte c)) : ∀ b ∈ asBytes s, p b := by
  rw [h.asBytes_eq]
  exact List.forall_mem_map.mpr hp

/-- None of the bytes is NUL, and all are ASCII. -/
theorem bytes (h : IsAscii s.toList) : ∀ b ∈ asBytes s, b ≠ 0 ∧ b < 0x80 := by
  refine h.forall_mem_asBytes fun c hc => ?_
  obtain ⟨hpos, hlt⟩ := h c hc
  have hnat : (asciiByte c).toNat = c.toNat := UInt8.toNat_ofNat_of_lt' (hlt.trans (by decide))
  refine ⟨fun hzero => ?_, UInt8.lt_iff_toNat_lt.mpr (hnat ▸ hlt)⟩
  rw [hzero] at hnat
  exact absurd hnat (by simpa using hpos.ne)

end IsAscii

end Padwire
