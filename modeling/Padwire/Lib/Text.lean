import Padwire.Lib.Endian

/-!
# Strings as bytes

The UTF-8 bytes of a string as a list, and the partial way back.
-/

namespace Padwire

/-- The UTF-8 bytes of a string. -/
def asBytes (s : String) : Bytes :=
  s.toByteArray.data.toList

/-- The string with the given UTF-8 bytes, if they are valid UTF-8. -/
def fromUtf8 (bytes : Bytes) : Option String :=
  String.fromUTF8? ⟨bytes.toArray⟩

@[simp]
theorem fromUtf8_asBytes (s : String) : fromUtf8 (asBytes s) = some s := by
  have hvalid : (⟨(asBytes s).toArray⟩ : ByteArray).IsValidUTF8 := s.isValidUTF8
  rw [fromUtf8, String.fromUTF8?, dif_pos hvalid]
  rfl

/-- Text that was read from bytes is written as the same bytes. -/
theorem asBytes_of_fromUtf8 {bytes : Bytes} {s : String} (h : fromUtf8 bytes = some s) :
    asBytes s = bytes := by
  rw [fromUtf8, String.fromUTF8?] at h
  split_ifs at h
  cases h
  rfl

/-- Texts with the same bytes are the same. -/
theorem asBytes_injective {s t : String} (h : asBytes s = asBytes t) : s = t := by
  have hs := fromUtf8_asBytes s
  rw [h, fromUtf8_asBytes] at hs
  exact (Option.some.inj hs).symm

/-- The character of an ASCII byte. -/
private def asciiChar (b : UInt8) : Char :=
  Char.ofNat b.toNat

private theorem utf8EncodeChar_asciiChar {b : UInt8} (h : b < 0x80) :
    String.utf8EncodeChar (asciiChar b) = [b] := by
  have hlt : b.toNat < 0x80 := by simpa [UInt8.lt_iff_toNat_lt] using h
  have hval : (asciiChar b).val.toNat = b.toNat := by
    have hvalid : b.toNat.isValidChar := .inl (by omega)
    rw [asciiChar, Char.ofNat, dif_pos hvalid]
    rfl
  simp only [String.utf8EncodeChar, hval]
  rw [if_pos (by omega), UInt8.ofNat_toNat]

/-- ASCII bytes are valid UTF-8. -/
theorem exists_fromUtf8_of_ascii (bytes : Bytes) (h : ∀ b ∈ bytes, b < 0x80) :
    ∃ s, fromUtf8 bytes = some s := by
  have hencode : bytes.flatMap (fun b => String.utf8EncodeChar (asciiChar b)) = bytes := by
    induction bytes with
    | nil => rfl
    | cons b bytes ih =>
      rw [List.flatMap_cons, utf8EncodeChar_asciiChar (h b List.mem_cons_self),
        ih fun b' hb' => h b' (List.mem_cons_of_mem b hb')]
      rfl
  have hvalid : (⟨bytes.toArray⟩ : ByteArray).IsValidUTF8 := by
    refine ⟨bytes.map asciiChar, ?_⟩
    rw [List.utf8Encode, List.flatMap_map, hencode]
    ext1
    simp
  exact ⟨_, by rw [fromUtf8, String.fromUTF8?, dif_pos hvalid]⟩

end Padwire
