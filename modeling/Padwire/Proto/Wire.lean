import Padwire.Lib.Parse
import Padwire.Lib.Text

/-!
# Big-endian cursor helpers

The integer accessors of the USB/IP wire format (`usbip-proto/src/wire.rs`). A `Reader` is a
parser over the bytes the cursor has not passed yet; a writer is modelled by the bytes it
appends. Each accessor comes with one acceptance law against its writer:
`Reader.u32` reads `v` from `buf` exactly when `buf` starts with `Writer.u32 v`. A text field is
padded with NULs and cuts what does not fit: `fieldText_textField` says what comes back of it.
-/

namespace Padwire

/-- Errors of the wire format. -/
inductive ProtoError
  | truncated (need available : ℕ)
  | badVersion (version : UInt16)
  | badCommand (command : UInt32)
  | tooLarge (field : String) (value max : ℤ)
  | utf8
  deriving DecidableEq, Repr

/-- 20-byte `usbip_header_basic` + 28-byte command block. -/
def SIZE_CMD_HEADER : ℕ := 48

/-- `struct usbip_iso_packet_descriptor`. -/
def SIZE_ISO_DESC : ℕ := 16

/-! ### Writing -/

namespace Writer

/-- The bytes `u8` appends. -/
def u8 (v : UInt8) : Bytes := [v]

/-- The bytes `u16` appends: `to_be_bytes`. -/
def u16 (v : UInt16) : Bytes := beBytes 2 v.toNat

/-- The bytes `u32` appends: `to_be_bytes`. -/
def u32 (v : UInt32) : Bytes := beBytes 4 v.toNat

/-- The bytes `i32` appends: the two's complement pattern, big-endian. -/
def i32 (v : Int32) : Bytes := u32 v.toUInt32

/-- The bytes `zeros` appends. -/
def zeros (n : ℕ) : Bytes := List.replicate n 0

/-- A string in a fixed-width NUL-padded field, truncated if it does not fit. -/
def textField (s : String) (n : ℕ) : Bytes :=
  let taken := min (asBytes s).length (n - 1)
  (asBytes s).take taken ++ zeros (n - taken)

@[simp]
theorem length_u8 (v : UInt8) : (u8 v).length = 1 := rfl

@[simp]
theorem length_u16 (v : UInt16) : (u16 v).length = 2 := length_beBytes _ _

@[simp]
theorem length_u32 (v : UInt32) : (u32 v).length = 4 := length_beBytes _ _

@[simp]
theorem length_i32 (v : Int32) : (i32 v).length = 4 := length_u32 _

@[simp]
theorem length_zeros (n : ℕ) : (zeros n).length = n := List.length_replicate

@[simp]
theorem length_textField (s : String) (n : ℕ) : (textField s n).length = n := by
  simp only [textField, List.length_append, List.length_take, length_zeros]
  omega

end Writer

/-! ### Reading -/

/-- A cursor over a byte slice. -/
abbrev Reader := Parse ProtoError

namespace Reader

/-- The next `n` bytes, or `Truncated`. -/
def bytes (n : ℕ) : Reader Bytes := Parse.take n fun remaining => .truncated n remaining

/-- Pass over `n` bytes. -/
def skip (n : ℕ) : Reader Unit := do
  let _ ← bytes n
  pure ()

def u8 : Reader UInt8 := do
  let b ← bytes 1
  pure (b.headD 0)

def u16 : Reader UInt16 := do
  let b ← bytes 2
  pure (UInt16.ofNat (beNat b))

def u32 : Reader UInt32 := do
  let b ← bytes 4
  pure (UInt32.ofNat (beNat b))

def i32 : Reader Int32 := do
  let v ← u32
  pure v.toInt32

/-- A fixed-size array, as the list of its bytes. -/
def array (n : ℕ) : Reader { b : Bytes // b.length = n } := do
  let b ← bytes n
  if h : b.length = n then pure ⟨b, h⟩ else throw (.truncated n b.length)

/-- The text of a NUL-padded field: the bytes before the first NUL, which have to be UTF-8. -/
def fieldText (b : Bytes) : Option String := fromUtf8 (b.takeWhile (· ≠ 0))

/-- A fixed-width NUL-padded text field. -/
def textField (n : ℕ) : Reader String := do
  let b ← bytes n
  match fieldText b with
  | some s => pure s
  | none => throw .utf8

@[simp]
theorem accepts_bytes {n : ℕ} {buf bs rest : Bytes} :
    Parse.Accepts (bytes n) buf bs rest ↔ bs.length = n ∧ buf = bs ++ rest :=
  Parse.accepts_take

@[simp]
theorem accepts_skip {n : ℕ} {buf rest : Bytes} {u : Unit} :
    Parse.Accepts (skip n) buf u rest ↔ ∃ bs : Bytes, bs.length = n ∧ buf = bs ++ rest := by
  simp only [skip, Parse.accepts_bind, accepts_bytes, Parse.accepts_pure]
  constructor
  · rintro ⟨bs, mid, h, -, rfl⟩
    exact ⟨bs, h⟩
  · rintro ⟨bs, h⟩
    exact ⟨bs, rest, h, trivial, rfl⟩

private theorem toNat_ofNat_beNat {bs : Bytes} (h : bs.length = 4) :
    (UInt32.ofNat (beNat bs)).toNat = beNat bs := by
  have hlt : beNat bs < 256 ^ 4 := h ▸ beNat_lt bs
  exact UInt32.toNat_ofNat_of_lt' (by simpa [UInt32.size] using hlt)

/-- `u8` reads exactly what `Writer.u8` wrote. -/
@[simp]
theorem accepts_u8 {v : UInt8} {buf rest : Bytes} :
    Parse.Accepts u8 buf v rest ↔ buf = Writer.u8 v ++ rest := by
  simp only [u8, Parse.accepts_bind, accepts_bytes, Parse.accepts_pure, Writer.u8]
  constructor
  · rintro ⟨bs, mid, ⟨hlen, rfl⟩, rfl, rfl⟩
    obtain ⟨b, rfl⟩ := List.length_eq_one_iff.mp hlen
    rfl
  · rintro rfl
    exact ⟨[v], rest, ⟨rfl, rfl⟩, rfl, rfl⟩

/-- `u16` reads exactly what `Writer.u16` wrote. -/
@[simp]
theorem accepts_u16 {v : UInt16} {buf rest : Bytes} :
    Parse.Accepts u16 buf v rest ↔ buf = Writer.u16 v ++ rest := by
  simp only [u16, Parse.accepts_bind, accepts_bytes, Parse.accepts_pure, Writer.u16]
  constructor
  · rintro ⟨bs, mid, ⟨hlen, rfl⟩, rfl, rfl⟩
    have hlt : beNat bs < 256 ^ 2 := hlen ▸ beNat_lt bs
    rw [UInt16.toNat_ofNat_of_lt' (by simpa [UInt16.size] using hlt), beBytes_beNat hlen]
  · rintro rfl
    have hv : v.toNat < 256 ^ 2 := v.toNat_lt
    exact ⟨_, rest, ⟨length_beBytes _ _, rfl⟩, by rw [beNat_beBytes hv, UInt16.ofNat_toNat], rfl⟩

/-- `u32` reads exactly what `Writer.u32` wrote. -/
@[simp]
theorem accepts_u32 {v : UInt32} {buf rest : Bytes} :
    Parse.Accepts u32 buf v rest ↔ buf = Writer.u32 v ++ rest := by
  simp only [u32, Parse.accepts_bind, accepts_bytes, Parse.accepts_pure, Writer.u32]
  constructor
  · rintro ⟨bs, mid, ⟨hlen, rfl⟩, rfl, rfl⟩
    rw [toNat_ofNat_beNat hlen, beBytes_beNat hlen]
  · rintro rfl
    have hv : v.toNat < 256 ^ 4 := v.toNat_lt
    exact ⟨_, rest, ⟨length_beBytes _ _, rfl⟩, by rw [beNat_beBytes hv, UInt32.ofNat_toNat], rfl⟩

/-- `i32` reads exactly what `Writer.i32` wrote. -/
@[simp]
theorem accepts_i32 {v : Int32} {buf rest : Bytes} :
    Parse.Accepts i32 buf v rest ↔ buf = Writer.i32 v ++ rest := by
  simp only [i32, Parse.accepts_bind, accepts_u32, Parse.accepts_pure, Writer.i32]
  constructor
  · rintro ⟨w, mid, rfl, rfl, rfl⟩
    rw [UInt32.toUInt32_toInt32]
  · rintro rfl
    exact ⟨_, rest, rfl, (Int32.toInt32_toUInt32 v).symm, rfl⟩

@[simp]
theorem accepts_array {n : ℕ} {a : { b : Bytes // b.length = n }} {buf rest : Bytes} :
    Parse.Accepts (array n) buf a rest ↔ buf = a.1 ++ rest := by
  simp only [array, Parse.accepts_bind, accepts_bytes]
  constructor
  · rintro ⟨bs, mid, ⟨hlen, rfl⟩, h⟩
    rw [dif_pos hlen, Parse.accepts_pure] at h
    obtain ⟨rfl, rfl⟩ := h
    rfl
  · rintro rfl
    refine ⟨a.1, rest, ⟨a.2, rfl⟩, ?_⟩
    rw [dif_pos a.2, Parse.accepts_pure]
    exact ⟨rfl, rfl⟩

@[simp]
theorem accepts_textField {n : ℕ} {s : String} {buf rest : Bytes} :
    Parse.Accepts (textField n) buf s rest ↔
      ∃ bs : Bytes, bs.length = n ∧ buf = bs ++ rest ∧ fieldText bs = some s := by
  simp only [textField, Parse.accepts_bind, accepts_bytes]
  constructor
  · rintro ⟨bs, mid, ⟨hlen, rfl⟩, h⟩
    cases ht : fieldText bs with
    | none =>
      rw [ht] at h
      exact absurd h Parse.not_accepts_throw
    | some t =>
      rw [ht, Parse.accepts_pure] at h
      obtain ⟨rfl, rfl⟩ := h
      exact ⟨bs, hlen, rfl, ht⟩
  · rintro ⟨bs, hlen, rfl, ht⟩
    refine ⟨bs, rest, ⟨hlen, rfl⟩, ?_⟩
    rw [ht, Parse.accepts_pure]
    exact ⟨rfl, rfl⟩

/-- What a text field keeps of a string without NUL: its first `n - 1` bytes. -/
theorem fieldText_textField {s : String} {n : ℕ} (hnul : (0 : UInt8) ∉ asBytes s) :
    fieldText (Writer.textField s n) = fromUtf8 ((asBytes s).take (n - 1)) := by
  have htake : (asBytes s).take (min (asBytes s).length (n - 1)) = (asBytes s).take (n - 1) := by
    rw [← List.take_take, List.take_of_length_le (by rw [List.length_take]; omega)]
  have hkeep : ∀ b ∈ (asBytes s).take (n - 1), decide (b ≠ 0) = true := by
    intro b hb
    rw [decide_eq_true_eq]
    rintro rfl
    exact hnul (List.mem_of_mem_take hb)
  have hpad : (Writer.zeros (n - min (asBytes s).length (n - 1))).takeWhile (· ≠ 0) = [] := by
    rw [Writer.zeros, List.takeWhile_replicate]
    simp
  rw [fieldText, Writer.textField, htake, List.takeWhile_append_of_pos hkeep, hpad,
    List.append_nil]

/-- A string that fits its field comes back whole. -/
theorem fieldText_of_fits {s : String} {n : ℕ} (hlen : (asBytes s).length < n)
    (hnul : (0 : UInt8) ∉ asBytes s) : fieldText (Writer.textField s n) = some s := by
  rw [fieldText_textField hnul, List.take_of_length_le (by omega), fromUtf8_asBytes]

end Reader

end Padwire
