import Padwire.Lib.Checked
import Padwire.Server.Session

/-!
# The buffers of a transfer

`submit` fills a buffer for the kernel and `reap` cuts the reply out of it, and both index slices
by lengths that come from elsewhere: `transfer_buffer_length` and the `wLength` of the setup
packet from the client, `actual_length` from the kernel (`usb-backend/src/usbfs.rs`). In
`Backend/Usbfs` these are total operations on lists. Here every index is checked and an index out
of range is a panic; a buffer goes to the kernel as a pointer and a length of 32 bits.

`submitChecked_spec` and `reapChecked_eq` say that no index is out of range and that the
results are those of `Backend/Usbfs`.
-/

namespace Padwire

/-- What `SUBMITURB` is given. `buffer` is the allocation its pointer points to. -/
structure UsbdevfsUrb where
  typ : UrbType
  endpoint : UInt8
  flags : UInt32
  bufferLength : Int32
  buffer : Bytes
  deriving DecidableEq, Repr

/-- The part of the allocation that the kernel is told of. -/
def UsbdevfsUrb.handed (urb : UsbdevfsUrb) : Bytes :=
  urb.buffer.take urb.bufferLength.toInt.toNat

namespace UsbfsDevice

/-- A fresh buffer, with the setup packet of a control transfer at its head. -/
def putSetup (req : UrbRequest) (urbType : UrbType) : Checked SubmitError Bytes :=
  let total := (payloadLayout req urbType).2 + (payloadLayout req urbType).1
  let buffer := List.replicate (max total 1) 0
  if urbType = .control then Checked.copyFromSlice buffer 0 SETUP_LEN req.setup.1
  else .ok buffer

/-- The client's data goes behind the setup packet. -/
def putData (req : UrbRequest) (urbType : UrbType) (buffer : Bytes) : Checked SubmitError Bytes :=
  let (payloadLen, dataOffset) := payloadLayout req urbType
  if ¬ req.dir.isIn ∧ req.data ≠ [] then do
    let n := min req.data.length payloadLen
    let src ← Checked.slice req.data 0 n
    Checked.copyFromSlice buffer dataOffset (dataOffset + n) src
  else .ok buffer

/-- The buffer of a submit, filled step by step. -/
def fillBuffer (req : UrbRequest) (urbType : UrbType) : Checked SubmitError Bytes := do
  let buffer ← putSetup req urbType
  putData req urbType buffer

variable (d : UsbfsDevice)

/-- The argument of `SUBMITURB` for a request. -/
def usbdevfsUrb (req : UrbRequest) (epAddr : UInt8) (urbType : UrbType) (buffer : Bytes) :
    UsbdevfsUrb where
  typ := urbType
  endpoint := epAddr
  flags := d.usbfsFlags req urbType
  -- the `as c_int` wraps
  bufferLength := Int32.ofNat ((payloadLayout req urbType).2 + (payloadLayout req urbType).1)
  buffer

/-- `submit`, with the argument of `SUBMITURB` and the allocation that is registered if the kernel
accepts it. `special` is the answer to the ioctl of a special request, if one is made. -/
def submitChecked (req : UrbRequest) (special : Ioctl) (kernel : UsbdevfsUrb → Ioctl)
    (st : DevState) : Checked SubmitError (UsbdevfsUrb × PendingUrb) :=
  match d.urbTypeFor req.ep req.dir with
  | .error e => .err e
  | .ok (epAddr, urbType) =>
    match (if urbType = .control then tweakSpecialRequest req special else none) with
    | some e => .err e
    | none =>
      if d.maxTransfer < (payloadLayout req urbType).1 then .err (.urb (-EINVAL))
      else do
        let buffer ← fillBuffer req urbType
        if req.seqnum ∈ st.pending then .err (.urb (-EBUSY))
        else
          let urb := d.usbdevfsUrb req epAddr urbType buffer
          match kernel urb with
          | .err e => .err (submitErrno e)
          | .ok => pure (urb, { d.pendingUrb req epAddr urbType with buffer })

end UsbfsDevice

/-- An allocation with what the kernel has left in its buffer. -/
def PendingUrb.withBuffer (p : PendingUrb) (contents : Bytes) : PendingUrb :=
  { p with buffer := contents }

/-- The completion `reap` builds from an allocation as the kernel left it. -/
def reapChecked (pending : PendingUrb) (unlinked : Bool) (status actualLength : Int32) :
    Checked IoError UrbCompletion := do
  let actual := actualLength.toInt.toNat
  let data ← if pending.dir.isIn then
      let off := pending.dataOffset
      let avail := pending.buffer.length - off
      let n := min (min actual pending.maxReply) avail
      Checked.slice pending.buffer off (off + n)
    else pure []
  pure
    { seqnum := pending.seqnum
      status
      actualLength := if pending.dir.isIn then data.length else actual
      data
      unlinked
      origin := pending.origin }

/-- A request the reader can build. -/
structure UrbRequest.FromReader (req : UrbRequest) : Prop where
  /-- `transfer_buffer_length` is an `i32`. -/
  bound : req.bufferLength < 0x80000000
  ofIn : req.dir = .in → req.data = []
  ofOut : req.dir = .out → req.data.length = req.bufferLength

/-- What the reader makes of a CMD_SUBMIT it has read. -/
theorem fromReader_urbRequest {maxTransfer : ℕ} {input rest : Bytes} {pdu : Pdu} {c : CmdSubmit}
    (hread : (readPdu maxTransfer).run input = .ok (pdu, rest))
    (hbody : pdu.header.body = .cmdSubmit c) : (urbRequest pdu c).FromReader := by
  have hsends := clientSends_of_readPdu hread
  rw [Pdu.ClientSends, hbody] at hsends
  obtain ⟨-, -, -, -, hdata, -⟩ := hsends
  have hlt := c.transferBufferLength.toInt_lt
  refine ⟨?_, fun hin => ?_, fun hout => ?_⟩
  · show c.transferBufferLength.toInt.toNat < 0x80000000
    omega
  · have hdir : pdu.header.base.dir = .in := hin
    rw [CmdSubmit.payloadLen, hdir] at hdata
    exact List.eq_nil_of_length_eq_zero hdata
  · have hdir : pdu.header.base.dir = .out := hout
    rw [CmdSubmit.payloadLen, hdir] at hdata
    exact hdata

/-! ### Filling the buffer -/

/-- Bytes padded with zeros to a length. -/
def zeroPad (n : ℕ) (bs : Bytes) : Bytes :=
  bs ++ List.replicate (n - bs.length) 0

/-- Of a longer padding only the first part counts. -/
theorem take_zeroPad {n m : ℕ} {bs : Bytes} (h : bs.length ≤ n) (hm : n ≤ m) :
    (zeroPad m bs).take n = zeroPad n bs := by
  rw [zeroPad, zeroPad, List.take_append, List.take_of_length_le h, List.take_replicate,
    Nat.min_eq_left (Nat.sub_le_sub_right hm _)]

/-- A copy at the start of zeros pads what is copied. -/
theorem overwrite_replicate (n : ℕ) (bs : Bytes) :
    overwrite (List.replicate n 0) 0 bs = zeroPad n bs := by
  rw [overwrite, zeroPad, List.take_zero, List.nil_append, Nat.zero_add, List.drop_replicate]

namespace UsbfsDevice

/-- The zeros of a fresh buffer, with the setup packet of a control transfer in front. -/
def headed (req : UrbRequest) (urbType : UrbType) : Bytes :=
  let (payloadLen, dataOffset) := payloadLayout req urbType
  let buffer := List.replicate (max (dataOffset + payloadLen) 1) 0
  if urbType = .control then overwrite buffer 0 req.setup.1 else buffer

variable (req : UrbRequest) (urbType : UrbType)

theorem length_headed : (headed req urbType).length =
    max ((payloadLayout req urbType).2 + (payloadLayout req urbType).1) 1 := by
  rw [headed]
  split_ifs with hctl
  · rw [length_overwrite, List.length_replicate]
    rw [List.length_replicate, payloadLayout, if_pos hctl, req.setup.2, SETUP_LEN]
    omega
  · rw [List.length_replicate]

theorem submitBuffer_eq_headed : submitBuffer req urbType =
    if ¬ req.dir.isIn ∧ req.data ≠ [] then
      overwrite (headed req urbType) (payloadLayout req urbType).2
        (req.data.take (payloadLayout req urbType).1)
    else headed req urbType :=
  rfl

theorem putSetup_eq : putSetup req urbType = .ok (headed req urbType) := by
  rw [putSetup, headed]
  dsimp only
  split_ifs with hctl
  · have hsetup : SETUP_LEN = 0 + req.setup.1.length := by rw [req.setup.2, SETUP_LEN]
    rw [hsetup, Checked.copyFromSlice_of_le]
    · rfl
    · rw [List.length_replicate, payloadLayout, if_pos hctl, req.setup.2, SETUP_LEN]
      omega
  · rfl

/-- **Filling the buffer.** Every slice is in range, whatever the request, and the result is the
buffer of `Backend/Usbfs`. -/
theorem fillBuffer_eq : fillBuffer req urbType = .ok (submitBuffer req urbType) := by
  have hlen := length_headed req urbType
  rw [fillBuffer, putSetup_eq, Checked.ok_bind, putData, submitBuffer_eq_headed]
  dsimp only
  split_ifs with hdata
  · set payloadLen := (payloadLayout req urbType).1
    set dataOffset := (payloadLayout req urbType).2
    have hn : min req.data.length payloadLen ≤ req.data.length := Nat.min_le_left _ _
    have htake : req.data.take (min req.data.length payloadLen) = req.data.take payloadLen := by
      rw [Nat.min_comm, ← List.take_take, List.take_length]
    have hsrc : min req.data.length payloadLen = (req.data.take payloadLen).length := by
      rw [List.length_take, Nat.min_comm]
    rw [Checked.slice_of_le ⟨Nat.zero_le _, hn⟩, Checked.ok_bind, List.drop_zero, htake, hsrc,
      Checked.copyFromSlice_of_le]
    · rfl
    · rw [hlen, ← hsrc]
      omega
  · rfl

theorem length_submitBuffer : (submitBuffer req urbType).length =
    max ((payloadLayout req urbType).2 + (payloadLayout req urbType).1) 1 := by
  have hlen := length_headed req urbType
  rw [submitBuffer_eq_headed]
  split_ifs with hdata
  · rw [length_overwrite, hlen]
    rw [hlen, List.length_take]
    omega
  · exact hlen

variable {req} {urbType}

/-- The zeros of a fresh buffer behind what is put in front of them. -/
theorem headed_of_control (h : urbType = .control) : headed req urbType =
    req.setup.1 ++ List.replicate (payloadLayout req urbType).1 0 := by
  rw [headed]
  dsimp only
  rw [if_pos h, overwrite_replicate, zeroPad, req.setup.2, payloadLayout, if_pos h, SETUP_LEN]
  dsimp only
  rw [Nat.max_eq_left (by omega), Nat.add_sub_cancel_left]

theorem headed_of_ne_control (h : urbType ≠ .control) :
    headed req urbType = List.replicate (max (payloadLayout req urbType).1 1) 0 := by
  rw [headed]
  dsimp only
  rw [if_neg h, payloadLayout, if_neg h, Nat.zero_add]

/-- The client's data is all there, behind whatever is in front of it. -/
theorem submitBuffer_of_headed (hreq : req.FromReader) {head : Bytes} {n : ℕ}
    (hhead : headed req urbType = head ++ List.replicate n 0)
    (hoff : (payloadLayout req urbType).2 = head.length)
    (hfit : req.data.length ≤ (payloadLayout req urbType).1) :
    submitBuffer req urbType = head ++ zeroPad n req.data := by
  rw [submitBuffer_eq_headed, hhead, hoff, List.take_of_length_le hfit]
  split_ifs with hdata
  · rw [overwrite_append, overwrite_replicate]
  · have hnil : req.data = [] := by
      by_contra hne
      refine hne (hreq.ofIn ?_)
      simpa [Direction.isIn, hne] using hdata
    rw [hnil, zeroPad, List.nil_append, List.length_nil, Nat.sub_zero]

/-- There is room for what the client asks for or sends. -/
theorem bufferLength_le_payloadLen : req.bufferLength ≤ (payloadLayout req urbType).1 := by
  rw [payloadLayout]
  split_ifs
  · exact Nat.le_max_left _ _
  · exact Nat.le_refl _

theorem data_length_le (hreq : req.FromReader) : req.data.length ≤ req.bufferLength := by
  cases hdir : req.dir with
  | out => exact (hreq.ofOut hdir).le
  | «in» =>
    rw [hreq.ofIn hdir]
    exact Nat.zero_le _

/-- The setup packet and the data, as far as the lengths of the request reach. -/
def payload (req : UrbRequest) (urbType : UrbType) : Bytes :=
  if urbType = .control then
    req.setup.1 ++ zeroPad (max req.bufferLength (req.setup.le16 6).toNat) req.data
  else zeroPad req.bufferLength req.data

/-- The buffer starts with the payload. The byte that a transfer without any is given is not part
of it. -/
theorem take_submitBuffer (hreq : req.FromReader) : (submitBuffer req urbType).take
    ((payloadLayout req urbType).2 + (payloadLayout req urbType).1) = payload req urbType := by
  have hfit : req.data.length ≤ (payloadLayout req urbType).1 :=
    (data_length_le hreq).trans bufferLength_le_payloadLen
  rw [payload]
  split_ifs with hctl
  · have hbuf := submitBuffer_of_headed hreq (headed_of_control hctl)
      (by rw [payloadLayout, if_pos hctl, req.setup.2, SETUP_LEN]) hfit
    have hlen : (submitBuffer req urbType).length ≤
        (payloadLayout req urbType).2 + (payloadLayout req urbType).1 := by
      rw [length_submitBuffer, payloadLayout, if_pos hctl, SETUP_LEN]
      omega
    rw [List.take_of_length_le hlen, hbuf, payloadLayout, if_pos hctl]
  · have hhead : headed req urbType =
        [] ++ List.replicate (max (payloadLayout req urbType).1 1) 0 :=
      headed_of_ne_control hctl
    have hbuf := submitBuffer_of_headed hreq hhead
      (by rw [payloadLayout, if_neg hctl, List.length_nil]) hfit
    rw [payloadLayout, if_neg hctl] at hbuf hfit ⊢
    rw [hbuf, List.nil_append, Nat.zero_add, take_zeroPad hfit (Nat.le_max_left _ _)]

/-! ### Submitting -/

/-- usbfs refuses a buffer whose length is negative. -/
def RefusesNegative (kernel : UsbdevfsUrb → Ioctl) : Prop :=
  ∀ urb, kernel urb = .ok → 0 ≤ urb.bufferLength.toInt

/-- A length that the cast leaves non-negative is passed on as it is. -/
theorem toNat_toInt_ofNat {n : ℕ} (hn : n < 0xffffffff) (h : 0 ≤ (Int32.ofNat n).toInt) :
    (Int32.ofNat n).toInt.toNat = n := by
  rw [Int32.toInt_ofNat', Int.bmod, Int32.size] at *
  omega

/-- What is handed over with a URB that the kernel takes. -/
theorem handed_usbdevfsUrb (d : UsbfsDevice) {epAddr : UInt8} (hreq : req.FromReader)
    (h : 0 ≤ (d.usbdevfsUrb req epAddr urbType (submitBuffer req urbType)).bufferLength.toInt) :
    (d.usbdevfsUrb req epAddr urbType (submitBuffer req urbType)).handed =
      payload req urbType := by
  have hbound : (payloadLayout req urbType).2 + (payloadLayout req urbType).1 < 0xffffffff := by
    have hlen := hreq.bound
    have hw := (req.setup.le16 6).toNat_lt
    rw [payloadLayout]
    split_ifs
    · rw [SETUP_LEN]
      omega
    · omega
  rw [UsbdevfsUrb.handed]
  dsimp only [usbdevfsUrb] at h ⊢
  rw [toNat_toInt_ofNat hbound h, take_submitBuffer hreq]

/-- A request that is not special whatever the answer. -/
theorem tweakSpecialRequest_eq_none {special : Ioctl} (h : tweakSpecialRequest req special = none)
    (answer : Ioctl) : tweakSpecialRequest req answer = none := by
  unfold tweakSpecialRequest at h ⊢
  split at h
  · rfl
  · cases h
  · split at h
    · cases h
    · split_ifs at h

/-- **Submit.** No slice is out of range. A refusal is one of `submit`, and an accepted request
gets the buffer and is registered as `submit` registers it. -/
theorem submitChecked_spec (d : UsbfsDevice) (req : UrbRequest) (special : Ioctl)
    (kernel : UsbdevfsUrb → Ioctl) (st : DevState) :
    (∃ e answer, d.submitChecked req special kernel st = .err e ∧
      d.submit req answer st = (.error e, st)) ∨
    ∃ epAddr urbType,
      kernel (d.usbdevfsUrb req epAddr urbType (submitBuffer req urbType)) = .ok ∧
      d.submitChecked req special kernel st =
        .ok (d.usbdevfsUrb req epAddr urbType (submitBuffer req urbType),
          d.pendingUrb req epAddr urbType) ∧
      d.submit req .ok st = (.ok (), st.accept (d.pendingUrb req epAddr urbType)) := by
  rw [submitChecked]
  cases htype : d.urbTypeFor req.ep req.dir with
  | error e => exact .inl ⟨e, .ok, rfl, by rw [submit, htype]⟩
  | ok t =>
    obtain ⟨epAddr, urbType⟩ := t
    dsimp only
    cases hspecial : if urbType = .control then tweakSpecialRequest req special else none with
    | some e =>
      refine .inl ⟨e, special, rfl, ?_⟩
      rw [submit, htype]
      dsimp only
      rw [hspecial]
    | none =>
      have hplain : ∀ answer,
          (if urbType = .control then tweakSpecialRequest req answer else none) = none := by
        intro answer
        split_ifs at hspecial ⊢ with hctl
        · exact tweakSpecialRequest_eq_none hspecial answer
        · rfl
      dsimp only
      rw [fillBuffer_eq, Checked.ok_bind]
      split_ifs with hlen hlive
      · exact .inl ⟨_, .ok, rfl, by simp only [submit, htype, hplain, if_pos hlen]⟩
      · exact .inl ⟨_, .ok, rfl, by
          simp only [submit, htype, hplain, if_neg hlen, if_pos hlive]⟩
      · cases hk : kernel (d.usbdevfsUrb req epAddr urbType (submitBuffer req urbType)) with
        | err e =>
          refine .inl ⟨submitErrno e, .err e, rfl, ?_⟩
          simp only [submit, htype, hplain, if_neg hlen, if_neg hlive]
        | ok =>
          refine .inr ⟨epAddr, urbType, hk, rfl, ?_⟩
          simp only [submit, htype, hplain, if_neg hlen, if_neg hlive]

end UsbfsDevice

/-! ### Reaping -/

/-- **Reap.** The slice is in range if the payload starts within the buffer. -/
theorem reapChecked_eq {pending : PendingUrb} (h : pending.dataOffset ≤ pending.buffer.length)
    (unlinked : Bool) (status actualLength : Int32) :
    reapChecked pending unlinked status actualLength =
      .ok (DevState.completion { urb := pending, unlinked }
        { seqnum := pending.seqnum, status, actualLength, written := [] }) := by
  rw [reapChecked, DevState.completion]
  dsimp only
  rw [List.take_nil, overwrite_nil]
  split_ifs
  · set n := min (min actualLength.toInt.toNat pending.maxReply)
      (pending.buffer.length - pending.dataOffset)
    have hle : pending.dataOffset ≤ pending.dataOffset + n ∧
        pending.dataOffset + n ≤ pending.buffer.length := by omega
    rw [Checked.slice_of_le hle, Checked.ok_bind, List.drop_take, Nat.add_sub_cancel_left]
    rfl
  · rfl

/-- What `Backend/Usbfs` reports is what `reap` makes of the buffer that the kernel has written
into. -/
theorem reapChecked_overwrite {e : Entry} (h : e.urb.dataOffset ≤ e.urb.buffer.length)
    (k : DevState.KernelUrb) :
    reapChecked (e.urb.withBuffer (overwrite e.urb.buffer e.urb.dataOffset
        (k.written.take (e.urb.buffer.length - e.urb.dataOffset))))
      e.unlinked k.status k.actualLength = .ok (DevState.completion e k) := by
  set avail := e.urb.buffer.length - e.urb.dataOffset
  have hlen : (overwrite e.urb.buffer e.urb.dataOffset (k.written.take avail)).length =
      e.urb.buffer.length := by
    refine length_overwrite ?_
    rw [List.length_take]
    omega
  rw [reapChecked_eq (hlen.symm ▸ h)]
  simp only [DevState.completion, PendingUrb.withBuffer, List.take_nil, overwrite_nil, hlen]
  rfl

/-- An IN payload is cut to what was asked for, and by nothing else. -/
theorem reapChecked_in {p : PendingUrb} (hin : p.dir = .in)
    (hroom : p.dataOffset + p.maxReply ≤ p.buffer.length) (unlinked : Bool)
    (status actualLength : Int32) :
    ∃ c, reapChecked p unlinked status actualLength = .ok c ∧
      c.data = (p.buffer.drop p.dataOffset).take
        (min actualLength.toInt.toNat p.maxReply) ∧
      c.data.length = min actualLength.toInt.toNat p.maxReply ∧
      c.actualLength = c.data.length := by
  have hoff : p.dataOffset ≤ p.buffer.length := by omega
  have havail : min (min actualLength.toInt.toNat p.maxReply)
      (p.buffer.length - p.dataOffset) =
        min actualLength.toInt.toNat p.maxReply := by omega
  refine ⟨_, reapChecked_eq hoff unlinked status actualLength, ?_, ?_, ?_⟩
  · simp only [DevState.completion, Direction.isIn, hin, decide_true, if_true, List.take_nil,
      overwrite_nil, havail]
  · simp only [DevState.completion, Direction.isIn, hin, decide_true, if_true, List.take_nil,
      overwrite_nil, havail, List.length_take, List.length_drop]
  · simp only [DevState.completion, Direction.isIn, hin, decide_true, if_true]

/-! ### A whole transfer -/

/-- **A transfer.** For every request the reader can build, no slice of `submit` is out of range.
If the kernel takes the URB, it is handed the payload and nothing else; and whatever it reports and
leaves in the buffer, no slice of `reap` is out of range, and an IN completion has exactly the
bytes that were written behind the setup packet, up to the length that was asked for. -/
theorem transfer_buffers (d : UsbfsDevice) (req : UrbRequest) (special : Ioctl)
    (kernel : UsbdevfsUrb → Ioctl) (st : DevState) (hreq : req.FromReader)
    (hkernel : UsbfsDevice.RefusesNegative kernel) :
    (d.submitChecked req special kernel st).Safe ∧
      ∀ urb p, d.submitChecked req special kernel st = .ok (urb, p) →
        urb.handed = UsbfsDevice.payload req urb.typ ∧
        ∀ contents unlinked status actualLength, contents.length = p.buffer.length →
          (reapChecked (p.withBuffer contents) unlinked status actualLength).Safe ∧
          (req.dir = .in → ∃ c,
            reapChecked (p.withBuffer contents) unlinked status actualLength = .ok c ∧
              c.data = (contents.drop (if urb.typ = .control then SETUP_LEN else 0)).take
                (min actualLength.toInt.toNat req.bufferLength) ∧
              c.data.length = min actualLength.toInt.toNat req.bufferLength ∧
              c.actualLength = c.data.length) := by
  rcases d.submitChecked_spec req special kernel st with
    ⟨e, answer, hrefused, -⟩ | ⟨epAddr, urbType, hk, haccepted, -⟩
  · rw [hrefused]
    exact ⟨Checked.safe_err e, fun urb p h => nomatch h⟩
  · rw [haccepted]
    refine ⟨Checked.safe_ok _, fun urb p h => ?_⟩
    obtain ⟨rfl, rfl⟩ := Prod.mk.inj (Checked.ok.inj h)
    refine ⟨UsbfsDevice.handed_usbdevfsUrb d hreq (hkernel _ hk), ?_⟩
    intro contents unlinked status actualLength hcontents
    have hoffset : (d.pendingUrb req epAddr urbType).dataOffset =
        if urbType = .control then SETUP_LEN else 0 := by
      dsimp only [UsbfsDevice.pendingUrb, UsbfsDevice.payloadLayout]
      split_ifs <;> rfl
    have hlen : contents.length = max ((UsbfsDevice.payloadLayout req urbType).2 +
        (UsbfsDevice.payloadLayout req urbType).1) 1 :=
      hcontents.trans (UsbfsDevice.length_submitBuffer req urbType)
    have hroom : (d.pendingUrb req epAddr urbType).dataOffset + req.bufferLength ≤
        contents.length := by
      have hle : req.bufferLength ≤ (UsbfsDevice.payloadLayout req urbType).1 :=
        UsbfsDevice.bufferLength_le_payloadLen
      rw [hlen]
      dsimp only [UsbfsDevice.pendingUrb]
      omega
    refine ⟨?_, fun hin => ?_⟩
    · rw [reapChecked_eq (Nat.le_trans (Nat.le_add_right _ _) hroom)]
      exact Checked.safe_ok _
    · obtain ⟨c, hc, hdata, hrest⟩ := reapChecked_in
        (p := (d.pendingUrb req epAddr urbType).withBuffer contents) hin hroom unlinked status
        actualLength
      refine ⟨c, hc, ?_, hrest⟩
      rw [hdata]
      dsimp only [PendingUrb.withBuffer, UsbfsDevice.usbdevfsUrb]
      rw [hoffset]
      rfl

/-- A request for the first 18 bytes of a descriptor, whose setup packet asks for 64. -/
def getDescriptor : UrbRequest where
  seqnum := 1
  ep := 0
  dir := .in
  transferFlags := 0
  setup := ⟨[0x80, 0x06, 0x00, 0x22, 0x00, 0x00, 0x40, 0x00], rfl⟩
  bufferLength := 18
  data := []
  origin := .client

/-- A kernel that takes every buffer whose length is not negative. -/
def takesNonneg (urb : UsbdevfsUrb) : Ioctl :=
  if urb.bufferLength.toInt < 0 then .err EINVAL else .ok

/-- The kernel gets a buffer of 72 bytes, and of the 64 that it reports the client gets 18. -/
theorem transfer_buffers_getDescriptor :
    getDescriptor.FromReader ∧ UsbfsDevice.RefusesNegative takesNonneg ∧
      ∃ urb p, gamepad.submitChecked getDescriptor .ok takesNonneg .fresh = .ok (urb, p) ∧
        urb.handed = UsbfsDevice.payload getDescriptor urb.typ ∧
        ∃ c, reapChecked (p.withBuffer (List.replicate 72 0xff)) false 0 64 = .ok c ∧
          c.data.length = 18 := by
  have hreq : getDescriptor.FromReader := ⟨by decide, fun _ => rfl, fun h => nomatch h⟩
  have hkernel : UsbfsDevice.RefusesNegative takesNonneg := by
    intro urb h
    rw [takesNonneg] at h
    split_ifs at h with hneg
    exact Int.not_lt.mp hneg
  have htransfer := (transfer_buffers gamepad getDescriptor .ok takesNonneg .fresh hreq hkernel).2
  obtain ⟨urb, p, hsubmit, hlen⟩ : ∃ urb p,
      gamepad.submitChecked getDescriptor .ok takesNonneg .fresh = .ok (urb, p) ∧
        p.buffer.length = 72 :=
    ⟨_, _, rfl, by decide⟩
  obtain ⟨hhanded, hreap⟩ := htransfer urb p hsubmit
  obtain ⟨c, hc, -, hdata, -⟩ :=
    (hreap (List.replicate 72 0xff) false 0 64 (by rw [hlen]; rfl)).2 rfl
  exact ⟨hreq, hkernel, urb, p, hsubmit, hhanded, c, hc, hdata⟩

end Padwire
