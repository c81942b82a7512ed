import Padwire.Proto.Pdu

/-!
# Framing

The layer that turns a byte stream into whole PDUs (`usbip-proto/src/io.rs`): how many bytes to
read next is decided from the header alone.

A stream is the list of bytes the peer has sent and this side has not consumed; `read_exact`
is `readExact`. `Pdu.ClientSends max` singles out the PDUs a client may send to a server that
takes transfers of at most `max` bytes, and `accepts_readPdu` says that `readPdu` accepts
exactly their spellings. The two halves of the framing contract follow: what a client sends
comes back in order with nothing left over or missing, and nothing else is ever accepted.
-/

namespace Padwire

/-- What `std::io::Error` carries on the paths modelled here. -/
inductive IoError
  | unexpectedEof
  | connectionReset
  /-- `InvalidData` around a `ProtoError`. -/
  | proto (e : ProtoError)
  /-- `InvalidData`: "expected a USBIP_CMD_* message, got command {}". -/
  | expectedCmd (command : UInt32)
  /-- `InvalidData`: "expected USBIP_RET_SUBMIT". -/
  | expectedRetSubmit
  /-- `InvalidData`: "reply for unknown seqnum {}". -/
  | unknownSeqnum (seqnum : UInt32)
  /-- `InvalidData`: "expected reply 0x{}, got 0x{}". -/
  | unexpectedReply (expected got : UInt16)
  /-- `Other`: "peer refused the request (status {})". -/
  | refused (status : UInt32)
  /-- Any other operating-system error. -/
  | os (errno : Int32)
  deriving DecidableEq, Repr

/-- Read exactly `n` bytes, or fail as `read_exact` does at the end of the stream. -/
def readExact (n : ℕ) : Parse IoError Bytes := Parse.take n fun _ => .unexpectedEof

/-- Decode a buffer that has already been read; bytes the decoder leaves are dropped. -/
def decodeBuf {α : Type} (r : Reader α) (buf : Bytes) : Parse IoError α :=
  match r.run buf with
  | .ok (a, _) => pure a
  | .error e => throw (.proto e)

@[simp]
theorem accepts_readExact {n : ℕ} {buf bs rest : Bytes} :
    Parse.Accepts (readExact n) buf bs rest ↔ bs.length = n ∧ buf = bs ++ rest :=
  Parse.accepts_take

@[simp]
theorem accepts_decodeBuf {α : Type} {r : Reader α} {b buf rest : Bytes} {a : α} :
    Parse.Accepts (decodeBuf r b) buf a rest ↔
      (∃ left, Parse.Accepts r b a left) ∧ rest = buf := by
  rw [decodeBuf]
  unfold Parse.Accepts
  cases hr : r.run b with
  | error e =>
    refine iff_of_false Parse.not_accepts_throw ?_
    rintro ⟨⟨left, hl⟩, -⟩
    cases hl
  | ok x =>
    have hp : Parse.Accepts (pure x.1 : Parse IoError α) buf a rest ↔ a = x.1 ∧ rest = buf :=
      Parse.accepts_pure
    refine hp.trans ⟨?_, ?_⟩
    · rintro ⟨rfl, rfl⟩
      exact ⟨⟨x.2, rfl⟩, rfl⟩
    · rintro ⟨⟨left, hl⟩, rfl⟩
      exact ⟨by rw [Except.ok.inj hl], rfl⟩

/-! ### Command PDUs -/

/-- A complete `USBIP_CMD_*` message: header plus whatever trailed it. -/
structure Pdu where
  header : Header
  data : Bytes
  iso : List IsoPacketDescriptor
  deriving DecidableEq, Repr

/-- A submit that needs more isochronous packets than this is refused before allocating. -/
def MAX_ISO_PACKETS : ℕ := 1024

/-- How many data bytes and isochronous descriptors follow a header. -/
def frameLens (maxTransfer : ℕ) (header : Header) : Except IoError (ℕ × ℕ) :=
  match header.body with
  | .cmdSubmit c =>
    if c.transferBufferLength.toInt < 0 ∨ maxTransfer < c.transferBufferLength.toInt.toNat then
      .error (.proto (.tooLarge "transfer_buffer_length" c.transferBufferLength.toInt maxTransfer))
    else if MAX_ISO_PACKETS < c.isoCount then
      .error (.proto (.tooLarge "number_of_packets" c.numberOfPackets.toInt MAX_ISO_PACKETS))
    else .ok (c.payloadLen header.base.dir, c.isoCount)
  | .cmdUnlink _ => .ok (0, 0)
  | _ => .error (.expectedCmd header.base.command)

/-- Read one command PDU. `maxTransfer` bounds `transfer_buffer_length` before anything is
allocated. -/
def readPdu (maxTransfer : ℕ) : Parse IoError Pdu := do
  let hbuf ← readExact SIZE_CMD_HEADER
  let header ← decodeBuf Header.decode hbuf
  let (dataLen, isoN) ← (frameLens maxTransfer header : Except IoError (ℕ × ℕ))
  let data ← readExact dataLen
  if 0 < isoN then
    let ibuf ← readExact (isoN * SIZE_ISO_DESC)
    let iso ← decodeBuf (Parse.repeat isoN IsoPacketDescriptor.decode) ibuf
    pure { header, data, iso }
  else
    pure { header, data, iso := [] }

/-- A PDU a client may send to a server that takes at most `maxTransfer` bytes: a CMD_SUBMIT
header with its data and isochronous descriptors, or a CMD_UNLINK header. -/
def Pdu.ClientSends (maxTransfer : ℕ) (p : Pdu) : Prop :=
  match p.header.body with
  | .cmdSubmit c =>
    p.header.base.command = USBIP_CMD_SUBMIT ∧
      0 ≤ c.transferBufferLength.toInt ∧ c.transferBufferLength.toInt ≤ maxTransfer ∧
      c.numberOfPackets.toInt ≤ MAX_ISO_PACKETS ∧
      p.data.length = c.payloadLen p.header.base.dir ∧ p.iso.length = c.isoCount
  | .cmdUnlink _ => p.header.base.command = USBIP_CMD_UNLINK ∧ p.data = [] ∧ p.iso = []
  | _ => False

/-- The bytes of a PDU on the wire. -/
def Pdu.encode (p : Pdu) : Bytes :=
  p.header.encode ++ p.data ++ p.iso.flatMap IsoPacketDescriptor.encode

/-- The byte strings that read as a PDU: its encoding, up to the padding a decoder skips. -/
def Pdu.Spells (p : Pdu) (bs : Bytes) : Prop :=
  ∃ hb, p.header.body.Spells hb ∧
    bs = p.header.base.encode ++ hb ++ p.data ++ p.iso.flatMap IsoPacketDescriptor.encode

theorem Pdu.spells_encode (p : Pdu) : p.Spells p.encode :=
  ⟨_, p.header.body.spells_encode, rfl⟩

private theorem length_flatMap_encode (iso : List IsoPacketDescriptor) :
    (iso.flatMap IsoPacketDescriptor.encode).length = iso.length * SIZE_ISO_DESC := by
  induction iso with
  | nil => simp
  | cons d iso ih => simp [ih, Nat.add_mul, Nat.add_comm]

/-- A PDU takes `48 + data + 16 * iso` bytes, whatever its padding. -/
theorem Pdu.Spells.length {p : Pdu} {bs : Bytes} (h : p.Spells bs) :
    bs.length = 48 + p.data.length + 16 * p.iso.length := by
  obtain ⟨hb, hs, rfl⟩ := h
  simp only [List.length_append, BasicHeader.length_encode, hs.length, length_flatMap_encode,
    SIZE_ISO_DESC]
  omega

/-- The isochronous descriptors in a buffer of `n * 16` bytes. -/
private theorem accepts_iso {n : ℕ} {b left : Bytes} {iso : List IsoPacketDescriptor}
    (hb : b.length = n * SIZE_ISO_DESC) :
    Parse.Accepts (Parse.repeat n IsoPacketDescriptor.decode) b iso left ↔
      iso.length = n ∧ b = iso.flatMap IsoPacketDescriptor.encode ∧ left = [] := by
  constructor
  · intro h
    obtain ⟨hlen, bss, hall, rfl⟩ := Parse.exists_of_accepts_repeat
      (fun d bs => bs = IsoPacketDescriptor.encode d)
      (fun buf d rest hd => ⟨_, rfl, IsoPacketDescriptor.accepts_decode.mp hd⟩) h
    have hbss : bss.flatten = iso.flatMap IsoPacketDescriptor.encode := by
      clear h hb hlen
      induction hall with
      | nil => rfl
      | cons hd _ ih => simp [hd, ih]
    rw [hbss, List.length_append, length_flatMap_encode, hlen] at hb
    have hleft : left = [] := List.eq_nil_of_length_eq_zero (by omega)
    exact ⟨hlen, by rw [hbss, hleft, List.append_nil], hleft⟩
  · rintro ⟨rfl, rfl, rfl⟩
    simpa using Parse.accepts_repeat (fun _ => True)
      (fun d rest _ => IsoPacketDescriptor.accepts_decode.mpr rfl) iso (fun _ _ => trivial) []

/-- The lengths `readPdu` goes by are the ones a client's PDU has, and are found for no other
header. -/
private theorem frameLens_eq_ok {maxTransfer : ℕ} {header : Header} {data : Bytes}
    {iso : List IsoPacketDescriptor} (hc : header.base.command = header.body.command) :
    frameLens maxTransfer header = .ok (data.length, iso.length) ↔
      Pdu.ClientSends maxTransfer { header, data, iso } := by
  unfold frameLens Pdu.ClientSends
  cases hbody : header.body with
  | cmdSubmit c =>
    -- a negative packet count reads as zero and is within every limit
    have hiso : c.isoCount ≤ MAX_ISO_PACKETS ↔ c.numberOfPackets.toInt ≤ MAX_ISO_PACKETS := by
      unfold CmdSubmit.isoCount CmdSubmit.isIso
      split_ifs with h <;> rw [decide_eq_true_eq] at h <;> omega
    rw [hbody] at hc
    dsimp only
    split_ifs with h₁ h₂
    · rw [false_iff]
      omega
    · rw [false_iff]
      omega
    · rw [Except.ok.injEq, Prod.mk.injEq, ← hiso]
      constructor
      · rintro ⟨hd, hi⟩
        exact ⟨hc, by omega, by omega, by omega, hd.symm, hi.symm⟩
      · rintro ⟨-, -, -, -, hd, hi⟩
        exact ⟨hd.symm, hi.symm⟩
  | cmdUnlink u =>
    rw [hbody] at hc
    simp [eq_comm, show header.base.command = USBIP_CMD_UNLINK from hc]
  | retSubmit r => simp
  | retUnlink r => simp

/-- **Acceptance.** `readPdu` accepts exactly the spellings of the PDUs a client may send. -/
theorem accepts_readPdu {maxTransfer : ℕ} {p : Pdu} {buf rest : Bytes} :
    Parse.Accepts (readPdu maxTransfer) buf p rest ↔
      p.ClientSends maxTransfer ∧ ∃ bs, p.Spells bs ∧ buf = bs ++ rest := by
  simp only [readPdu, Parse.accepts_bind, accepts_readExact, accepts_decodeBuf,
    Header.accepts_decode, Parse.accepts_lift]
  constructor
  · rintro ⟨hbuf, m₁, ⟨hlen, rfl⟩, header, m₂, ⟨⟨left, hc, hb, hs, rfl⟩, rfl⟩, lens, m₃,
      ⟨hlens, rfl⟩, data, m₄, ⟨hdata, rfl⟩, h⟩
    -- the header fills its 48 bytes, so decoding leaves nothing of them
    have hleft : left = [] := by
      refine List.eq_nil_of_length_eq_zero ?_
      simp only [List.length_append, BasicHeader.length_encode, hs.length, SIZE_CMD_HEADER] at hlen
      omega
    split_ifs at h with hiso
    · simp only [Parse.accepts_bind, accepts_readExact, accepts_decodeBuf,
        Parse.accepts_pure] at h
      obtain ⟨ibuf, m₅, ⟨hilen, rfl⟩, iso, m₆, ⟨⟨left', hi⟩, rfl⟩, rfl, rfl⟩ := h
      obtain ⟨hn, rfl, -⟩ := (accepts_iso hilen).mp hi
      refine ⟨(frameLens_eq_ok hc).mp ?_, _, ⟨hb, hs, rfl⟩, by simp [hleft]⟩
      rw [hlens, hdata, hn]
    · obtain ⟨rfl, rfl⟩ := Parse.accepts_pure.mp h
      refine ⟨(frameLens_eq_ok hc).mp ?_, _, ⟨hb, hs, rfl⟩, by simp [hleft]⟩
      rw [hlens, hdata, List.length_nil, ← Nat.eq_zero_of_not_pos hiso]
  · rintro ⟨hp, bs, ⟨hb, hs, rfl⟩, rfl⟩
    have hc : p.header.base.command = p.header.body.command := by
      unfold Pdu.ClientSends at hp
      split at hp
      · rename_i heq; rw [heq]; exact hp.1
      · rename_i heq; rw [heq]; exact hp.1
      · exact hp.elim
    refine ⟨p.header.base.encode ++ hb, _, ⟨by simp [hs.length, SIZE_CMD_HEADER], ?_⟩,
      p.header, _, ⟨⟨[], hc, hb, hs, by simp⟩, rfl⟩, (p.data.length, p.iso.length), _,
      ⟨(frameLens_eq_ok hc).mpr hp, rfl⟩, p.data,
      p.iso.flatMap IsoPacketDescriptor.encode ++ rest, ⟨rfl, rfl⟩, ?_⟩
    · simp
    · split_ifs with hiso
      · simp only [Parse.accepts_bind, accepts_readExact, accepts_decodeBuf,
          Parse.accepts_pure]
        have hi := length_flatMap_encode p.iso
        exact ⟨_, rest, ⟨hi, rfl⟩, p.iso, _, ⟨⟨[], (accepts_iso hi).mpr ⟨rfl, rfl, rfl⟩⟩, rfl⟩,
          rfl, rfl⟩
      · have hnil : p.iso = [] := List.eq_nil_of_length_eq_zero (by omega)
        rw [Parse.accepts_pure, ← hnil]
        exact ⟨rfl, by simp [hnil]⟩

/-- What `readPdu` accepts has the shape of a client's PDU. -/
theorem clientSends_of_readPdu {maxTransfer : ℕ} {p : Pdu} {buf rest : Bytes}
    (h : Parse.Accepts (readPdu maxTransfer) buf p rest) : p.ClientSends maxTransfer :=
  (accepts_readPdu.mp h).1

/-- A client's PDU is a CMD_SUBMIT or a CMD_UNLINK. -/
theorem Pdu.ClientSends.body_eq {maxTransfer : ℕ} {p : Pdu} (h : p.ClientSends maxTransfer) :
    (∃ c, p.header.body = .cmdSubmit c) ∨ ∃ u, p.header.body = .cmdUnlink u := by
  unfold Pdu.ClientSends at h
  cases hb : p.header.body with
  | cmdSubmit c => exact .inl ⟨c, rfl⟩
  | cmdUnlink u => exact .inr ⟨u, rfl⟩
  | retSubmit r => rw [hb] at h; exact h.elim
  | retUnlink u => rw [hb] at h; exact h.elim

/-- **The framing contract.** Reading back the concatenation of any client PDUs returns
exactly those PDUs and leaves exactly what follows them. Conversely, whatever one `readPdu`
accepts is a client's PDU, spelled by exactly the `48 + data + 16 * iso` bytes it consumed, and
its body is a CMD_SUBMIT or a CMD_UNLINK. -/
theorem readPdu_framing (maxTransfer : ℕ) :
    (∀ (ps : List Pdu) (rest : Bytes), (∀ p ∈ ps, p.ClientSends maxTransfer) →
      (Parse.repeat ps.length (readPdu maxTransfer)).run (ps.flatMap Pdu.encode ++ rest) =
        .ok (ps, rest)) ∧
    (∀ (buf : Bytes) (p : Pdu) (rest : Bytes),
      (readPdu maxTransfer).run buf = .ok (p, rest) →
        p.ClientSends maxTransfer ∧
        ((∃ c, p.header.body = .cmdSubmit c) ∨ ∃ u, p.header.body = .cmdUnlink u) ∧
        ∃ bs, p.Spells bs ∧ buf = bs ++ rest ∧
          bs.length = 48 + p.data.length + 16 * p.iso.length) := by
  refine ⟨fun ps rest hps => ?_, fun buf p rest h => ?_⟩
  · exact Parse.accepts_repeat (fun p => p.ClientSends maxTransfer)
      (fun p rest hp => accepts_readPdu.mpr ⟨hp, _, p.spells_encode, rfl⟩) ps hps rest
  · obtain ⟨hp, bs, hs, rfl⟩ := accepts_readPdu.mp h
    exact ⟨hp, hp.body_eq, bs, hs, rfl, hs.length⟩

/-- A CMD_SUBMIT that asks for `len` bytes from an endpoint. -/
def Pdu.submitIn (seqnum ep : UInt32) (len : Int32) : Pdu where
  header :=
    { base := { command := USBIP_CMD_SUBMIT, seqnum, devid := 0, direction := DIR_IN, ep }
      body := .cmdSubmit
        { transferFlags := 0
          transferBufferLength := len
          startFrame := 0
          numberOfPackets := 0
          interval := 0
          setup := .zero } }
  data := []
  iso := []

/-- A CMD_UNLINK that names `target`. -/
def Pdu.unlink (seqnum target : UInt32) : Pdu where
  header :=
    { base := { command := USBIP_CMD_UNLINK, seqnum, devid := 0, direction := 0, ep := 0 }
      body := .cmdUnlink { unlinkSeqnum := target } }
  data := []
  iso := []

/-- A submit and an unlink back to back stay in frame, whatever follows them. -/
theorem readPdu_framing_back_to_back :
    (∀ p ∈ [Pdu.submitIn 1 1 64, Pdu.unlink 2 1], p.ClientSends 64) ∧
      (Parse.repeat 2 (readPdu 64)).run
          ([Pdu.submitIn 1 1 64, Pdu.unlink 2 1].flatMap Pdu.encode ++ [0xff]) =
        .ok ([Pdu.submitIn 1 1 64, Pdu.unlink 2 1], [0xff]) := by
  have hsends : ∀ p ∈ [Pdu.submitIn 1 1 64, Pdu.unlink 2 1], p.ClientSends 64 := by
    intro p hp
    rcases List.mem_pair.mp hp with rfl | rfl
    · exact ⟨rfl, by decide, by decide, by decide, rfl, rfl⟩
    · exact ⟨rfl, rfl, rfl⟩
  exact ⟨hsends, (readPdu_framing 64).1 _ [0xff] hsends⟩

/-! ### Reply PDUs -/

/-- The buffer `write_ret_submit` writes: header and payload in one piece. -/
def writeRetSubmit (seqnum : UInt32) (ret : RetSubmit) (data : Bytes) : Bytes :=
  (Header.retSubmit seqnum ret).encode ++ data

/-- The buffer `write_ret_unlink` writes. -/
def writeRetUnlink (seqnum : UInt32) (status : Int32) : Bytes :=
  (Header.retUnlink seqnum status).encode

/-- How many payload bytes follow a `USBIP_RET_SUBMIT` header, for a caller that knows the
direction of each submit. -/
def retSubmitLen (dirFor : UInt32 → Option Direction) (maxTransfer : ℕ) (header : Header) :
    Except IoError ℕ :=
  match header.body with
  | .retSubmit ret =>
    match dirFor header.base.seqnum with
    | none => .error (.unknownSeqnum header.base.seqnum)
    | some dir =>
      if maxTransfer < ret.payloadLen dir then
        .error (.proto (.tooLarge "actual_length" (ret.payloadLen dir) maxTransfer))
      else .ok (ret.payloadLen dir)
  | _ => .error .expectedRetSubmit

/-- Read a header and the payload whose length is decided from it. -/
def readFramed (len : Header → Except IoError ℕ) : Parse IoError (Header × Bytes) := do
  let hbuf ← readExact SIZE_CMD_HEADER
  let header ← decodeBuf Header.decode hbuf
  let n ← (len header : Except IoError ℕ)
  let data ← readExact n
  pure (header, data)

/-- Read a `USBIP_RET_SUBMIT` reply. The caller supplies the direction of the original submit
because the reply header does not carry it. -/
def readRetSubmit (dirFor : UInt32 → Option Direction) (maxTransfer : ℕ) :
    Parse IoError (Header × Bytes) :=
  readFramed (retSubmitLen dirFor maxTransfer)

/-- What follows any reply header: a `USBIP_RET_UNLINK` is the header alone, everything else is
read as a `USBIP_RET_SUBMIT`. -/
def replyLen (dirFor : UInt32 → Option Direction) (maxTransfer : ℕ) (header : Header) :
    Except IoError ℕ :=
  match header.body with
  | .retUnlink _ => .ok 0
  | _ => retSubmitLen dirFor maxTransfer header

/-- The importer's side of the connection: read one reply of either kind. -/
def readReply (dirFor : UInt32 → Option Direction) (maxTransfer : ℕ) :
    Parse IoError (Header × Bytes) :=
  readFramed (replyLen dirFor maxTransfer)

/-- A header and a payload of the length decided from it are read back from their bytes. -/
theorem accepts_readFramed {len : Header → Except IoError ℕ} {header : Header} {data : Bytes}
    (hc : header.base.command = header.body.command) (hlen : len header = .ok data.length)
    (rest : Bytes) :
    Parse.Accepts (readFramed len) (header.encode ++ data ++ rest) (header, data) rest := by
  simp only [readFramed, Parse.accepts_bind, accepts_readExact, accepts_decodeBuf,
    Parse.accepts_lift, Parse.accepts_pure]
  have hdec := Header.accepts_decode_encode hc []
  rw [List.append_nil] at hdec
  exact ⟨header.encode, data ++ rest, ⟨header.length_encode, by simp⟩, header, _,
    ⟨⟨[], hdec⟩, rfl⟩, data.length, _, ⟨hlen, rfl⟩, data, rest, ⟨rfl, rfl⟩, rfl, rfl⟩

end Padwire
