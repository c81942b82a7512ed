import Padwire.Proto.Device
import Padwire.Proto.Io

/-!
# The handshake

The connection-setup half of USB/IP (`usbip-proto/src/op.rs`, and the readers for it in
`io.rs`): a client asks for the list of devices and then for one of them by its bus id.

`readDevlistReply_framing` is the round trip of a device list: whatever the mix of interface
counts, the reader takes the records of the reply and nothing of what follows.
-/

namespace Padwire

/-- Protocol revision 1.1.1. -/
def USBIP_VERSION : UInt16 := 0x0111

/-- `OP_REQ_*` / `OP_REP_*` common header. -/
def SIZE_OP_HEADER : ℕ := 8

def OP_REQ_DEVLIST : UInt16 := 0x8005

def OP_REP_DEVLIST : UInt16 := 0x0005

def OP_REQ_IMPORT : UInt16 := 0x8003

def OP_REP_IMPORT : UInt16 := 0x0003

def ST_OK : UInt32 := 0x00

def ST_NA : UInt32 := 0x01

structure OpHeader where
  version : UInt16
  code : UInt16
  status : UInt32
  deriving DecidableEq, Repr

namespace OpHeader

def new (code : UInt16) (status : UInt32) : OpHeader :=
  { version := USBIP_VERSION, code, status }

def encode (h : OpHeader) : Bytes :=
  Writer.u16 h.version ++ (Writer.u16 h.code ++ Writer.u32 h.status)

def decode : Reader OpHeader := do
  let version ← Reader.u16
  let code ← Reader.u16
  let status ← Reader.u32
  pure { version, code, status }

/-- Reject a peer speaking a different revision. -/
def checkVersion (h : OpHeader) : Except ProtoError Unit :=
  if h.version = USBIP_VERSION then .ok () else .error (.badVersion h.version)

@[simp]
theorem length_encode (h : OpHeader) : h.encode.length = SIZE_OP_HEADER := by
  simp [encode, SIZE_OP_HEADER]

theorem accepts_decode (h : OpHeader) (rest : Bytes) :
    Parse.Accepts decode (h.encode ++ rest) h rest := by
  simp only [decode, Parse.accepts_bind, Reader.accepts_u16, Reader.accepts_u32,
    Parse.accepts_pure, encode, List.append_assoc]
  exact ⟨_, _, rfl, _, _, rfl, _, _, rfl, rfl, rfl⟩

end OpHeader

/-! ### Messages -/

/-- `OP_REQ_IMPORT`: a single NUL-padded bus id. -/
def encodeImportRequest (busid : String) : Bytes :=
  (OpHeader.new OP_REQ_IMPORT 0).encode ++ Writer.textField busid BUSID_LEN

/-- `OP_REQ_DEVLIST` has no body beyond the header. -/
def encodeDevlistRequest : Bytes :=
  (OpHeader.new OP_REQ_DEVLIST 0).encode

/-- `OP_REP_DEVLIST`: header, device count, then each device with its interfaces. -/
def encodeDevlistReply (devs : List UsbDevice) : Bytes :=
  (OpHeader.new OP_REP_DEVLIST ST_OK).encode ++
    (Writer.u32 (UInt32.ofNat devs.length) ++ devs.flatMap (·.encode true))

/-- `OP_REP_IMPORT`: header plus, on success, the device record without interfaces. -/
def encodeImportReply : Option UsbDevice → Bytes
  | some d => (OpHeader.new OP_REP_IMPORT ST_OK).encode ++ d.encode false
  | none => (OpHeader.new OP_REP_IMPORT ST_NA).encode

/-! ### Readers -/

/-- What a server may be asked on a new connection. -/
inductive OpRequest
  | devList
  | importDevice (busid : String)
  deriving DecidableEq, Repr

def readOpHeader : Parse IoError OpHeader := do
  let buf ← readExact SIZE_OP_HEADER
  decodeBuf OpHeader.decode buf

/-- A `ProtoError` on its way into an `io::Error`. -/
def orProto {α : Type} : Except ProtoError α → Except IoError α :=
  Except.mapError .proto

/-- Read an `OP_REQ_*` and its body; `none` for a well-formed request that is not implemented. -/
def readOpRequest : Parse IoError (Option OpRequest) := do
  let h ← readOpHeader
  let () ← (orProto h.checkVersion : Except IoError Unit)
  if h.code = OP_REQ_DEVLIST then pure (some .devList)
  else if h.code = OP_REQ_IMPORT then
    let buf ← readExact BUSID_LEN
    let busid ← decodeBuf (Reader.textField BUSID_LEN) buf
    pure (some (.importDevice busid))
  else pure none

/-- More devices than any real exporter has. -/
def MAX_DEVLIST : ℕ := 1024

def expectReply (h : OpHeader) (code : UInt16) : Except IoError Unit :=
  match orProto h.checkVersion with
  | .error e => .error e
  | .ok () =>
    if h.code ≠ code then .error (.unexpectedReply code h.code)
    else if h.status ≠ ST_OK then .error (.refused h.status)
    else .ok ()

/-- One record of a device list: the fixed part first, its last byte says how much follows. -/
def readListedDevice : Parse IoError UsbDevice := do
  let buf ← readExact SIZE_USB_DEVICE
  let ifs := (buf.getD (SIZE_USB_DEVICE - 1) 0).toNat
  let tail ← readExact (ifs * SIZE_USB_INTERFACE)
  decodeBuf (UsbDevice.decode true) (buf ++ tail)

/-- Read an `OP_REP_DEVLIST`. -/
def readDevlistReply : Parse IoError (List UsbDevice) := do
  let h ← readOpHeader
  let () ← (expectReply h OP_REP_DEVLIST : Except IoError Unit)
  let count ← readExact 4
  let n := beNat count
  if MAX_DEVLIST < n then throw (.proto (.tooLarge "devlist count" n MAX_DEVLIST))
  else Parse.repeat n readListedDevice

/-- Read an `OP_REP_IMPORT`. A refusal is an error. -/
def readImportReply : Parse IoError UsbDevice := do
  let h ← readOpHeader
  let () ← (expectReply h OP_REP_IMPORT : Except IoError Unit)
  let buf ← readExact SIZE_USB_DEVICE
  decodeBuf (UsbDevice.decode false) buf

/-! ### Round trips -/

theorem accepts_readOpHeader (h : OpHeader) (rest : Bytes) :
    Parse.Accepts readOpHeader (h.encode ++ rest) h rest := by
  simp only [readOpHeader, Parse.accepts_bind, accepts_readExact, accepts_decodeBuf]
  have hdec := h.accepts_decode []
  rw [List.append_nil] at hdec
  exact ⟨h.encode, rest, ⟨h.length_encode, rfl⟩, ⟨[], hdec⟩, rfl⟩

/-- A record in a device list is read to what arrives of it, and what follows it is left. -/
theorem accepts_readListedDevice {d d' : UsbDevice} (h : d.Received d') (rest : Bytes) :
    Parse.Accepts readListedDevice (d.encode true ++ rest) d' rest := by
  have hdec := UsbDevice.accepts_decode_encode h []
  rw [List.append_nil] at hdec
  simp only [readListedDevice, Parse.accepts_bind, accepts_readExact, accepts_decodeBuf]
  refine ⟨d.encodeFixed, d.listed.flatMap UsbInterface.encode ++ rest,
    ⟨d.length_encodeFixed, ?_⟩, d.listed.flatMap UsbInterface.encode, rest, ⟨?_, rfl⟩,
    ⟨[], hdec⟩, rfl⟩
  · rw [UsbDevice.encode, if_pos rfl, List.append_assoc]
  · rw [UsbDevice.length_flatMap_encode, UsbDevice.length_listed, d.last_encodeFixed]

/-- A device list is read to what arrives of each device. -/
theorem accepts_readDevlistReply {devs devs' : List UsbDevice} (hlen : devs.length ≤ MAX_DEVLIST)
    (h : List.Forall₂ UsbDevice.Received devs devs') (rest : Bytes) :
    Parse.Accepts readDevlistReply (encodeDevlistReply devs ++ rest) devs' rest := by
  have hcount : beNat (Writer.u32 (UInt32.ofNat devs.length)) = devs.length := by
    have hlt : devs.length < 2 ^ 32 := by rw [MAX_DEVLIST] at hlen; omega
    rw [Writer.u32, UInt32.toNat_ofNat_of_lt' (by simpa [UInt32.size] using hlt),
      beNat_beBytes (by omega)]
  have hall := Parse.accepts_repeat_forall₂ UsbDevice.Received
    (fun d d' rest hd => accepts_readListedDevice hd rest) h rest
  simp only [readDevlistReply, Parse.accepts_bind, Parse.accepts_lift, accepts_readExact,
    encodeDevlistReply, List.append_assoc]
  refine ⟨_, _, accepts_readOpHeader _ _, (), _, ⟨rfl, rfl⟩,
    Writer.u32 (UInt32.ofNat devs.length), _, ⟨Writer.length_u32 _, rfl⟩, ?_⟩
  rw [hcount, if_neg (by omega)]
  exact hall

/-- A list on its own is read to its end. -/
theorem run_encodeDevlistReply {devs devs' : List UsbDevice} (hlen : devs.length ≤ MAX_DEVLIST)
    (h : List.Forall₂ UsbDevice.Received devs devs') :
    readDevlistReply.run (encodeDevlistReply devs) = .ok (devs', []) := by
  have hread := accepts_readDevlistReply hlen h []
  rw [List.append_nil] at hread
  exact hread

/-- An import request is read to what arrives of the bus id. -/
theorem accepts_readOpRequest {busid busid' : String} (rest : Bytes)
    (h : Reader.fieldText (Writer.textField busid BUSID_LEN) = some busid') :
    Parse.Accepts readOpRequest (encodeImportRequest busid ++ rest)
      (some (.importDevice busid')) rest := by
  simp only [readOpRequest, Parse.accepts_bind, Parse.accepts_lift, encodeImportRequest,
    List.append_assoc]
  refine ⟨_, _, accepts_readOpHeader _ _, (), _, ⟨rfl, rfl⟩, ?_⟩
  rw [if_neg (by decide), if_pos (by decide)]
  simp only [Parse.accepts_bind, accepts_readExact, accepts_decodeBuf, Reader.accepts_textField,
    Parse.accepts_pure]
  exact ⟨_, _, ⟨Writer.length_textField _ _, rfl⟩, busid', rest,
    ⟨⟨[], _, Writer.length_textField _ _, by rw [List.append_nil], h⟩, rfl⟩, rfl, rfl⟩

/-- A device list request is read as such. -/
theorem accepts_readOpRequest_devlist (rest : Bytes) :
    Parse.Accepts readOpRequest (encodeDevlistRequest ++ rest) (some .devList) rest := by
  simp only [readOpRequest, Parse.accepts_bind, Parse.accepts_lift, encodeDevlistRequest]
  refine ⟨_, _, accepts_readOpHeader _ _, (), _, ⟨rfl, rfl⟩, ?_⟩
  rw [if_pos (by decide)]
  exact Parse.accepts_pure.mpr ⟨rfl, rfl⟩

theorem exists_encode_of_accepts_readOpHeader {buf rest : Bytes} {h : OpHeader}
    (hread : Parse.Accepts readOpHeader buf h rest) : buf = h.encode ++ rest := by
  simp only [readOpHeader, Parse.accepts_bind, accepts_readExact, accepts_decodeBuf,
    OpHeader.decode, Reader.accepts_u16, Reader.accepts_u32, Parse.accepts_pure] at hread
  obtain ⟨bs, mid, ⟨hlen, rfl⟩, ⟨left, version, _, rfl, code, _, rfl, status, _, rfl, rfl, rfl⟩,
    rfl⟩ := hread
  have hleft : left = [] := by
    simp only [List.length_append, Writer.length_u16, Writer.length_u32, SIZE_OP_HEADER] at hlen
    exact List.length_eq_zero_iff.mp (by omega)
  rw [hleft, List.append_nil]
  rfl

/-- An import request as it may arrive: any status, and any bytes in its field that stand for the
bus id. -/
def SpellsImportRequest (busid : String) (bs : Bytes) : Prop :=
  ∃ status field, field.length = BUSID_LEN ∧ Reader.fieldText field = some busid ∧
    bs = (⟨USBIP_VERSION, OP_REQ_IMPORT, status⟩ : OpHeader).encode ++ field

/-- The server takes these bytes for an import request, and no others. -/
theorem accepts_readOpRequest_import_iff {buf rest : Bytes} {busid : String} :
    Parse.Accepts readOpRequest buf (some (.importDevice busid)) rest ↔
      ∃ bs, SpellsImportRequest busid bs ∧ buf = bs ++ rest := by
  simp only [readOpRequest, Parse.accepts_bind, Parse.accepts_lift]
  constructor
  · rintro ⟨⟨version, code, status⟩, mid, hheader, _, _, ⟨hversion, rfl⟩, h⟩
    obtain rfl := exists_encode_of_accepts_readOpHeader hheader
    have hversion : version = USBIP_VERSION := by
      by_contra hne
      rw [OpHeader.checkVersion, if_neg hne] at hversion
      cases hversion
    dsimp only at h
    split_ifs at h with hdevlist himport
    · cases (Parse.accepts_pure.mp h).1
    · simp only [Parse.accepts_bind, accepts_readExact, accepts_decodeBuf,
        Reader.accepts_textField, Parse.accepts_pure] at h
      obtain ⟨field, mid', ⟨hlen, rfl⟩, busid', _, ⟨⟨left, bs, hbs, hsplit, htext⟩, rfl⟩, hreq,
        rfl⟩ := h
      cases hreq
      have hleft : left = [] := by
        have hlens := congrArg List.length hsplit
        rw [List.length_append] at hlens
        exact List.length_eq_zero_iff.mp (by omega)
      rw [hleft, List.append_nil] at hsplit
      subst hsplit
      refine ⟨_, ⟨status, field, hlen, htext, rfl⟩, ?_⟩
      rw [hversion, himport, List.append_assoc]
    · cases (Parse.accepts_pure.mp h).1
  · rintro ⟨_, ⟨status, field, hlen, htext, rfl⟩, rfl⟩
    rw [List.append_assoc]
    refine ⟨_, _, accepts_readOpHeader _ _, (), _, ⟨rfl, rfl⟩, ?_⟩
    have hne : OP_REQ_IMPORT ≠ OP_REQ_DEVLIST := by decide
    dsimp only
    rw [if_neg hne, if_pos rfl]
    simp only [Parse.accepts_bind, accepts_readExact, accepts_decodeBuf, Reader.accepts_textField,
      Parse.accepts_pure]
    exact ⟨field, rest, ⟨hlen, rfl⟩, busid, rest,
      ⟨⟨[], field, hlen, (List.append_nil _).symm, htext⟩, rfl⟩, rfl, rfl⟩

/-- A client sees the device it has imported, without its interfaces. -/
theorem accepts_readImportReply {d d' : UsbDevice} (h : d.Received d') (rest : Bytes) :
    Parse.Accepts readImportReply (encodeImportReply (some d) ++ rest)
      { d' with interfaces := [] } rest := by
  have hdec := UsbDevice.accepts_decodeFixed h []
  rw [List.append_nil] at hdec
  have hencode : d.encode false = d.encodeFixed := by
    rw [UsbDevice.encode, if_neg Bool.false_ne_true, List.append_nil]
  simp only [readImportReply, Parse.accepts_bind, Parse.accepts_lift, accepts_readExact,
    accepts_decodeBuf, encodeImportReply, hencode, List.append_assoc]
  refine ⟨_, _, accepts_readOpHeader _ _, (), _, ⟨rfl, rfl⟩, d.encodeFixed, rest,
    ⟨d.length_encodeFixed, rfl⟩, ⟨[], ?_⟩, rfl⟩
  simp only [UsbDevice.decode, Parse.accepts_bind]
  exact ⟨_, _, hdec, Parse.accepts_pure.mpr ⟨rfl, rfl⟩⟩

/-- A client sees a refusal as an error. -/
theorem readImportReply_refused (rest : Bytes) :
    readImportReply.run (encodeImportReply none ++ rest) = .error (.refused ST_NA) := by
  have hheader := accepts_readOpHeader (OpHeader.new OP_REP_IMPORT ST_NA) rest
  rw [readImportReply, encodeImportReply, hheader.run_bind]
  rfl

theorem run_encodeImportReply_none :
    readImportReply.run (encodeImportReply none) = .error (.refused ST_NA) := by
  have hrefused := readImportReply_refused []
  rwa [List.append_nil] at hrefused

/-- **Framing of device lists.** A list of at most `MAX_DEVLIST` devices, with any mix of
interface counts, comes back as it was sent, and the reader leaves exactly the bytes that follow
the reply. -/
theorem readDevlistReply_framing (devs : List UsbDevice) (hlen : devs.length ≤ MAX_DEVLIST)
    (hfits : ∀ d ∈ devs, d.Fits) (trailing : Bytes) :
    readDevlistReply.run (encodeDevlistReply devs ++ trailing) = .ok (devs, trailing) := by
  have hreceived : List.Forall₂ UsbDevice.Received devs devs :=
    List.forall₂_same.mpr fun d hd => (hfits d hd).received
  exact accepts_readDevlistReply hlen hreceived trailing

/-- A device with two interfaces, and one with none. -/
def puck : UsbDevice where
  path := "/sys/bus/usb/devices/1-2"
  busid := "1-2"
  busnum := 1
  devnum := 7
  speed := 3
  idVendor := 0x28de
  idProduct := 0x1304
  bcdDevice := 0x0100
  bDeviceClass := 0
  bDeviceSubClass := 0
  bDeviceProtocol := 0
  bConfigurationValue := 1
  bNumConfigurations := 1
  bNumInterfaces := 2
  interfaces := [⟨3, 1, 2⟩, ⟨3, 0, 0⟩]

theorem readDevlistReply_framing_mixed :
    readDevlistReply.run (encodeDevlistReply
        [puck, { puck with busid := "1-3", bNumInterfaces := 0, interfaces := [] }] ++ [1, 2, 3]) =
      .ok ([puck, { puck with busid := "1-3", bNumInterfaces := 0, interfaces := [] }],
        [1, 2, 3]) := by
  refine readDevlistReply_framing _ (by decide) ?_ [1, 2, 3]
  simp only [List.mem_cons, List.not_mem_nil, or_false]
  rintro d (rfl | rfl)
  · exact ⟨by decide +kernel, by decide +kernel, by decide +kernel, by decide +kernel, rfl⟩
  · exact ⟨by decide +kernel, by decide +kernel, by decide +kernel, by decide +kernel, rfl⟩

end Padwire
