import Padwire.Proto.Wire

/-!
# The URB-carrying half of USB/IP

`USBIP_CMD_*` and `USBIP_RET_*` headers (`usbip-proto/src/pdu.rs`): a 20-byte basic header and
a 28-byte command block, 48 bytes in total, then any payload.

A `USBIP_RET_SUBMIT` does not say whether a payload follows it, since the kernel's stub zeroes
the direction on every reply; `RetSubmit.payloadLen` therefore takes the direction of the
submit being answered.

`Header.accepts_decode` characterises the decoder: it accepts a buffer exactly when the buffer
starts with the header's basic part, whose command number is the one of the header's body, and
with a command block that spells the body (`Body.Spells`). Only the padding of the two unlink
bodies and of `RET_SUBMIT` is free.
-/

namespace Padwire

def USBIP_CMD_SUBMIT : UInt32 := 0x0001
def USBIP_CMD_UNLINK : UInt32 := 0x0002
def USBIP_RET_SUBMIT : UInt32 := 0x0003
def USBIP_RET_UNLINK : UInt32 := 0x0004

inductive Direction
  | out
  | in
  deriving DecidableEq, Repr

def DIR_IN : UInt32 := 1

/-- Anything that is not `DIR_IN` reads as OUT. -/
def Direction.fromRaw (v : UInt32) : Direction := if v = DIR_IN then .in else .out

def Direction.isIn (d : Direction) : Bool := d = .in

structure BasicHeader where
  command : UInt32
  seqnum : UInt32
  devid : UInt32
  direction : UInt32
  ep : UInt32
  deriving DecidableEq, Repr

def BasicHeader.dir (b : BasicHeader) : Direction := .fromRaw b.direction

/-- The 8-byte SETUP packet of a control transfer. -/
abbrev Setup := { b : Bytes // b.length = 8 }

/-- `[0; 8]`, what a transfer that is not a control transfer carries. -/
def Setup.zero : Setup := ⟨Writer.zeros 8, Writer.length_zeros 8⟩

structure CmdSubmit where
  transferFlags : UInt32
  transferBufferLength : Int32
  startFrame : Int32
  /-- Signed on purpose: both `0` and `0xffffffff` mean "not isochronous". -/
  numberOfPackets : Int32
  interval : Int32
  setup : Setup
  deriving DecidableEq, Repr

namespace CmdSubmit

def isIso (c : CmdSubmit) : Bool := 0 < c.numberOfPackets.toInt

def isoCount (c : CmdSubmit) : ℕ := if c.isIso then c.numberOfPackets.toInt.toNat else 0

/-- Bytes of transfer data that follow the header. Only OUT submits carry data. -/
def payloadLen (c : CmdSubmit) (dir : Direction) : ℕ :=
  if dir.isIn then 0 else c.transferBufferLength.toInt.toNat

end CmdSubmit

structure RetSubmit where
  /-- Negative Linux errno, or 0. -/
  status : Int32 := 0
  actualLength : Int32 := 0
  startFrame : Int32 := 0
  numberOfPackets : Int32 := 0
  errorCount : Int32 := 0
  deriving DecidableEq, Repr

/-- Bytes of payload that follow the reply to a submit of direction `dir`. -/
def RetSubmit.payloadLen (r : RetSubmit) (dir : Direction) : ℕ :=
  if dir.isIn then r.actualLength.toInt.toNat else 0

structure CmdUnlink where
  /-- The `seqnum` of the submit being cancelled. -/
  unlinkSeqnum : UInt32
  deriving DecidableEq, Repr

structure RetUnlink where
  /-- `-ECONNRESET` if the URB was still in flight, 0 if it had already completed. -/
  status : Int32
  deriving DecidableEq, Repr

inductive Body
  | cmdSubmit (c : CmdSubmit)
  | retSubmit (r : RetSubmit)
  | cmdUnlink (u : CmdUnlink)
  | retUnlink (u : RetUnlink)
  deriving DecidableEq, Repr

structure Header where
  base : BasicHeader
  body : Body
  deriving DecidableEq, Repr

/-! ### Building replies -/

/-- A `USBIP_RET_SUBMIT` for `seqnum`; the routing fields are zeroed to match `stub_tx.c`. -/
def Header.retSubmit (seqnum : UInt32) (r : RetSubmit) : Header where
  base := { command := USBIP_RET_SUBMIT, seqnum, devid := 0, direction := 0, ep := 0 }
  body := .retSubmit r

def Header.retUnlink (seqnum : UInt32) (status : Int32) : Header where
  base := { command := USBIP_RET_UNLINK, seqnum, devid := 0, direction := 0, ep := 0 }
  body := .retUnlink { status }

/-! ### Encoding -/

def BasicHeader.encode (b : BasicHeader) : Bytes :=
  Writer.u32 b.command ++ Writer.u32 b.seqnum ++ Writer.u32 b.devid ++
    Writer.u32 b.direction ++ Writer.u32 b.ep

def Body.encode : Body → Bytes
  | .cmdSubmit c =>
    Writer.u32 c.transferFlags ++ Writer.i32 c.transferBufferLength ++ Writer.i32 c.startFrame ++
      Writer.i32 c.numberOfPackets ++ Writer.i32 c.interval ++ c.setup.1
  | .retSubmit r =>
    Writer.i32 r.status ++ Writer.i32 r.actualLength ++ Writer.i32 r.startFrame ++
      Writer.i32 r.numberOfPackets ++ Writer.i32 r.errorCount ++ Writer.zeros 8
  | .cmdUnlink u => Writer.u32 u.unlinkSeqnum ++ Writer.zeros 24
  | .retUnlink u => Writer.i32 u.status ++ Writer.zeros 24

def Header.encode (h : Header) : Bytes := h.base.encode ++ h.body.encode

@[simp]
theorem BasicHeader.length_encode (b : BasicHeader) : b.encode.length = 20 := by
  simp [BasicHeader.encode]

@[simp]
theorem Body.length_encode (b : Body) : b.encode.length = 28 := by
  cases b with
  | cmdSubmit c => simp [Body.encode, c.setup.2]
  | retSubmit r => simp [Body.encode]
  | cmdUnlink u => simp [Body.encode]
  | retUnlink u => simp [Body.encode]

/-- Every header is 48 bytes, the `debug_assert` of `encode`. -/
@[simp]
theorem Header.length_encode (h : Header) : h.encode.length = SIZE_CMD_HEADER := by
  simp [Header.encode, SIZE_CMD_HEADER]

/-! ### Decoding -/

def BasicHeader.decode : Reader BasicHeader := do
  let command ← Reader.u32
  let seqnum ← Reader.u32
  let devid ← Reader.u32
  let direction ← Reader.u32
  let ep ← Reader.u32
  pure { command, seqnum, devid, direction, ep }

/-- The command block that follows a basic header with this command number. -/
def Body.decode (command : UInt32) : Reader Body :=
  if command = USBIP_CMD_SUBMIT then do
    let transferFlags ← Reader.u32
    let transferBufferLength ← Reader.i32
    let startFrame ← Reader.i32
    let numberOfPackets ← Reader.i32
    let interval ← Reader.i32
    let setup ← Reader.array 8
    pure (.cmdSubmit
      { transferFlags, transferBufferLength, startFrame, numberOfPackets, interval, setup })
  else if command = USBIP_RET_SUBMIT then do
    let status ← Reader.i32
    let actualLength ← Reader.i32
    let startFrame ← Reader.i32
    let numberOfPackets ← Reader.i32
    let errorCount ← Reader.i32
    Reader.skip 8
    pure (.retSubmit { status, actualLength, startFrame, numberOfPackets, errorCount })
  else if command = USBIP_CMD_UNLINK then do
    let unlinkSeqnum ← Reader.u32
    Reader.skip 24
    pure (.cmdUnlink { unlinkSeqnum })
  else if command = USBIP_RET_UNLINK then do
    let status ← Reader.i32
    Reader.skip 24
    pure (.retUnlink { status })
  else throw (.badCommand command)

def Header.decode : Reader Header := do
  let base ← BasicHeader.decode
  let body ← Body.decode base.command
  pure { base, body }

/-- The command number of a body. -/
def Body.command : Body → UInt32
  | .cmdSubmit _ => USBIP_CMD_SUBMIT
  | .retSubmit _ => USBIP_RET_SUBMIT
  | .cmdUnlink _ => USBIP_CMD_UNLINK
  | .retUnlink _ => USBIP_RET_UNLINK

/-- The 28-byte blocks that decode to a body: its encoding, up to the padding that the
decoder skips. -/
def Body.Spells : Body → Bytes → Prop
  | .cmdSubmit c, bs => bs = (Body.cmdSubmit c).encode
  | .retSubmit r, bs => ∃ pad : Bytes, pad.length = 8 ∧
      bs = Writer.i32 r.status ++ Writer.i32 r.actualLength ++ Writer.i32 r.startFrame ++
        Writer.i32 r.numberOfPackets ++ Writer.i32 r.errorCount ++ pad
  | .cmdUnlink u, bs => ∃ pad : Bytes, pad.length = 24 ∧ bs = Writer.u32 u.unlinkSeqnum ++ pad
  | .retUnlink u, bs => ∃ pad : Bytes, pad.length = 24 ∧ bs = Writer.i32 u.status ++ pad

theorem Body.spells_encode (b : Body) : b.Spells b.encode := by
  cases b with
  | cmdSubmit c => rfl
  | retSubmit r => exact ⟨Writer.zeros 8, Writer.length_zeros 8, rfl⟩
  | cmdUnlink u => exact ⟨Writer.zeros 24, Writer.length_zeros 24, rfl⟩
  | retUnlink u => exact ⟨Writer.zeros 24, Writer.length_zeros 24, rfl⟩

theorem Body.Spells.length {b : Body} {bs : Bytes} (h : b.Spells bs) : bs.length = 28 := by
  cases b with
  | cmdSubmit c => rw [show bs = _ from h, Body.length_encode]
  | retSubmit r => obtain ⟨pad, hpad, rfl⟩ := h; simp [hpad]
  | cmdUnlink u => obtain ⟨pad, hpad, rfl⟩ := h; simp [hpad]
  | retUnlink u => obtain ⟨pad, hpad, rfl⟩ := h; simp [hpad]

@[simp]
theorem BasicHeader.accepts_decode {b : BasicHeader} {buf rest : Bytes} :
    Parse.Accepts BasicHeader.decode buf b rest ↔ buf = b.encode ++ rest := by
  simp only [BasicHeader.decode, Parse.accepts_bind, Reader.accepts_u32, Parse.accepts_pure,
    BasicHeader.encode]
  constructor
  · rintro ⟨v₁, m₁, rfl, v₂, m₂, rfl, v₃, m₃, rfl, v₄, m₄, rfl, v₅, m₅, rfl, rfl, rfl⟩
    simp
  · rintro rfl
    exact ⟨b.command, _, by simp, b.seqnum, _, rfl, b.devid, _, rfl, b.direction, _, rfl,
      b.ep, _, rfl, rfl, rfl⟩

/-- The body decoder accepts exactly the blocks that spell a body of this command number. -/
theorem Body.accepts_decode {command : UInt32} {b : Body} {buf rest : Bytes} :
    Parse.Accepts (Body.decode command) buf b rest ↔
      command = b.command ∧ ∃ bs, b.Spells bs ∧ buf = bs ++ rest := by
  constructor
  · intro h
    rw [Body.decode] at h
    split_ifs at h with h₁ h₂ h₃ h₄
    · simp only [Parse.accepts_bind, Reader.accepts_u32, Reader.accepts_i32,
        Reader.accepts_array, Parse.accepts_pure] at h
      obtain ⟨v₁, m₁, rfl, v₂, m₂, rfl, v₃, m₃, rfl, v₄, m₄, rfl, v₅, m₅, rfl, v₆, m₆, rfl,
        rfl, rfl⟩ := h
      exact ⟨h₁, _, rfl, by simp [Body.encode]⟩
    · simp only [Parse.accepts_bind, Reader.accepts_i32, Reader.accepts_skip,
        Parse.accepts_pure] at h
      obtain ⟨v₁, m₁, rfl, v₂, m₂, rfl, v₃, m₃, rfl, v₄, m₄, rfl, v₅, m₅, rfl, -, m₆,
        ⟨pad, hpad, rfl⟩, rfl, rfl⟩ := h
      exact ⟨h₂, _, ⟨pad, hpad, rfl⟩, by simp⟩
    · simp only [Parse.accepts_bind, Reader.accepts_u32, Reader.accepts_skip,
        Parse.accepts_pure] at h
      obtain ⟨v₁, m₁, rfl, -, m₂, ⟨pad, hpad, rfl⟩, rfl, rfl⟩ := h
      exact ⟨h₃, _, ⟨pad, hpad, rfl⟩, by simp⟩
    · simp only [Parse.accepts_bind, Reader.accepts_i32, Reader.accepts_skip,
        Parse.accepts_pure] at h
      obtain ⟨v₁, m₁, rfl, -, m₂, ⟨pad, hpad, rfl⟩, rfl, rfl⟩ := h
      exact ⟨h₄, _, ⟨pad, hpad, rfl⟩, by simp⟩
    · exact absurd h Parse.not_accepts_throw
  · rintro ⟨rfl, bs, hs, rfl⟩
    cases b with
    | cmdSubmit c =>
      obtain rfl : bs = _ := hs
      simp only [Body.decode, Body.command, if_true, Parse.accepts_bind, Reader.accepts_u32,
        Reader.accepts_i32, Reader.accepts_array, Parse.accepts_pure, Body.encode]
      exact ⟨c.transferFlags, _, by simp, c.transferBufferLength, _, rfl, c.startFrame, _, rfl,
        c.numberOfPackets, _, rfl, c.interval, _, rfl, c.setup, _, rfl, rfl, rfl⟩
    | retSubmit r =>
      obtain ⟨pad, hpad, rfl⟩ := hs
      rw [Body.decode, Body.command, if_neg (by decide), if_pos rfl]
      simp only [Parse.accepts_bind, Reader.accepts_i32, Reader.accepts_skip,
        Parse.accepts_pure]
      exact ⟨r.status, _, by simp, r.actualLength, _, rfl, r.startFrame, _, rfl,
        r.numberOfPackets, _, rfl, r.errorCount, _, rfl, (), _, ⟨pad, hpad, rfl⟩, rfl, rfl⟩
    | cmdUnlink u =>
      obtain ⟨pad, hpad, rfl⟩ := hs
      rw [Body.decode, Body.command, if_neg (by decide), if_neg (by decide), if_pos rfl]
      simp only [Parse.accepts_bind, Reader.accepts_u32, Reader.accepts_skip,
        Parse.accepts_pure]
      exact ⟨u.unlinkSeqnum, _, by simp, (), _, ⟨pad, hpad, rfl⟩, rfl, rfl⟩
    | retUnlink u =>
      obtain ⟨pad, hpad, rfl⟩ := hs
      rw [Body.decode, Body.command, if_neg (by decide), if_neg (by decide),
        if_neg (by decide), if_pos rfl]
      simp only [Parse.accepts_bind, Reader.accepts_i32, Reader.accepts_skip,
        Parse.accepts_pure]
      exact ⟨u.status, _, by simp, (), _, ⟨pad, hpad, rfl⟩, rfl, rfl⟩

/-- The header decoder accepts exactly the basic header followed by a block that spells the
body, when the command number is the body's. -/
theorem Header.accepts_decode {h : Header} {buf rest : Bytes} :
    Parse.Accepts Header.decode buf h rest ↔
      h.base.command = h.body.command ∧
        ∃ bs, h.body.Spells bs ∧ buf = h.base.encode ++ bs ++ rest := by
  simp only [Header.decode, Parse.accepts_bind, BasicHeader.accepts_decode,
    Body.accepts_decode, Parse.accepts_pure]
  constructor
  · rintro ⟨base, m₁, rfl, body, m₂, ⟨hc, bs, hs, rfl⟩, rfl, rfl⟩
    exact ⟨hc, bs, hs, by simp⟩
  · rintro ⟨hc, bs, hs, rfl⟩
    exact ⟨h.base, _, by simp, h.body, _, ⟨hc, bs, hs, rfl⟩, rfl, rfl⟩

/-- Decoding reads every consistent header back from its encoding. -/
theorem Header.accepts_decode_encode {h : Header} (hc : h.base.command = h.body.command)
    (rest : Bytes) : Parse.Accepts Header.decode (h.encode ++ rest) h rest :=
  Header.accepts_decode.mpr ⟨hc, _, h.body.spells_encode, rfl⟩

/-! ### Isochronous packet descriptors -/

structure IsoPacketDescriptor where
  offset : UInt32
  length : UInt32
  actualLength : UInt32
  status : UInt32
  deriving DecidableEq, Repr

namespace IsoPacketDescriptor

def encode (d : IsoPacketDescriptor) : Bytes :=
  Writer.u32 d.offset ++ Writer.u32 d.length ++ Writer.u32 d.actualLength ++ Writer.u32 d.status

def decode : Reader IsoPacketDescriptor := do
  let offset ← Reader.u32
  let length ← Reader.u32
  let actualLength ← Reader.u32
  let status ← Reader.u32
  pure { offset, length, actualLength, status }

@[simp]
theorem length_encode (d : IsoPacketDescriptor) : d.encode.length = SIZE_ISO_DESC := by
  simp [encode, SIZE_ISO_DESC]

@[simp]
theorem accepts_decode {d : IsoPacketDescriptor} {buf rest : Bytes} :
    Parse.Accepts decode buf d rest ↔ buf = d.encode ++ rest := by
  simp only [decode, Parse.accepts_bind, Reader.accepts_u32, Parse.accepts_pure, encode]
  constructor
  · rintro ⟨v₁, m₁, rfl, v₂, m₂, rfl, v₃, m₃, rfl, v₄, m₄, rfl, rfl, rfl⟩
    simp
  · rintro rfl
    exact ⟨d.offset, _, by simp, d.length, _, rfl, d.actualLength, _, rfl, d.status, _, rfl,
      rfl, rfl⟩

end IsoPacketDescriptor

end Padwire
