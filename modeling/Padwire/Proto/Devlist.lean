import Padwire.Lib.Except
import Padwire.Proto.Op

/-!
# Two decoders for one device list

A device list is decoded in two ways. `read_devlist_reply` (`usbip-proto/src/io.rs`) takes it off a
stream record by record: it reads the fixed part of a record, learns from the last byte of it how
much is to follow, and only then decodes the record. `decode_devlist_reply_body` (`op.rs`) goes
through a buffer with one cursor.

`UsbDevice.Spells` says which byte strings are a record of a device list, whatever is in the
padding and behind the NUL of a text field. Both decoders accept exactly these, and so agree on
every input.
-/

namespace Padwire

/-- The cursor half of `decode_devlist_reply_body`. -/
def devlistReplyBody : Reader (List UsbDevice) := do
  let n ← Reader.u32
  -- the count is up to the peer
  if 1024 < n.toNat then throw (.tooLarge "devlist count" n.toNat 1024)
  else Parse.repeat n.toNat (UsbDevice.decode true)

/-- What is left of the buffer does not matter. -/
def decodeDevlistReplyBody (b : Bytes) : Except ProtoError (List UsbDevice) :=
  (devlistReplyBody.run b).map Prod.fst

/-! ### The records of a device list -/

/-- An interface on the wire, with any padding. -/
def UsbInterface.Spells (i : UsbInterface) (bs : Bytes) : Prop :=
  ∃ pad, bs = [i.cls, i.subclass, i.protocol, pad]

/-- An interface is read from exactly the bytes that spell it. -/
theorem UsbInterface.accepts_decode_iff (buf : Bytes) (i : UsbInterface) (rest : Bytes) :
    Parse.Accepts decode buf i rest ↔ ∃ bs, i.Spells bs ∧ buf = bs ++ rest := by
  simp only [decode, Parse.accepts_bind, Reader.accepts_u8, Reader.accepts_skip,
    Parse.accepts_pure]
  constructor
  · rintro ⟨cls, _, rfl, subclass, _, rfl, protocol, _, rfl, _, _, ⟨pad, hpad, rfl⟩, rfl, rfl⟩
    obtain ⟨p, rfl⟩ := List.length_eq_one_iff.mp hpad
    exact ⟨_, ⟨p, rfl⟩, rfl⟩
  · rintro ⟨_, ⟨p, rfl⟩, rfl⟩
    exact ⟨_, _, rfl, _, _, rfl, _, _, rfl, (), rest, ⟨[p], rfl, rfl⟩, rfl, rfl⟩

theorem UsbInterface.Spells.length_eq {i : UsbInterface} {bs : Bytes} (h : i.Spells bs) :
    bs.length = SIZE_USB_INTERFACE := by
  obtain ⟨pad, rfl⟩ := h
  rfl

theorem UsbInterface.length_flatten {is : List UsbInterface} {bss : List Bytes}
    (h : List.Forall₂ UsbInterface.Spells is bss) :
    bss.flatten.length = is.length * SIZE_USB_INTERFACE := by
  induction h with
  | nil => rfl
  | cons hspells _ ih =>
    rw [List.flatten_cons, List.length_append, hspells.length_eq, ih, List.length_cons,
      Nat.succ_mul, Nat.add_comm]

namespace UsbDevice

/-- What follows the text fields in the fixed part, up to the number of interfaces. -/
def numbers (d : UsbDevice) : Bytes :=
  Writer.u32 d.busnum ++ (Writer.u32 d.devnum ++ (Writer.u32 d.speed ++
    (Writer.u16 d.idVendor ++ (Writer.u16 d.idProduct ++ (Writer.u16 d.bcdDevice ++
    (Writer.u8 d.bDeviceClass ++ (Writer.u8 d.bDeviceSubClass ++ (Writer.u8 d.bDeviceProtocol ++
    (Writer.u8 d.bConfigurationValue ++ Writer.u8 d.bNumConfigurations)))))))))

/-- The fixed part of a record, with any spelling of its two strings. -/
structure SpellsFixed (d : UsbDevice) (bs : Bytes) : Prop where
  fields : ∃ path busid : Bytes, path.length = PATH_LEN ∧ Reader.fieldText path = some d.path ∧
    busid.length = BUSID_LEN ∧ Reader.fieldText busid = some d.busid ∧
    bs = path ++ (busid ++ (d.numbers ++ Writer.u8 d.bNumInterfaces))

theorem SpellsFixed.length_eq {d : UsbDevice} {bs : Bytes} (h : d.SpellsFixed bs) :
    bs.length = SIZE_USB_DEVICE := by
  obtain ⟨path, busid, hpath, -, hbusid, -, rfl⟩ := h.fields
  simp [hpath, hbusid, numbers, PATH_LEN, BUSID_LEN, SIZE_USB_DEVICE]

/-- The number of interfaces is the last byte. -/
theorem SpellsFixed.last_eq {d : UsbDevice} {bs : Bytes} (h : d.SpellsFixed bs) :
    bs.getD (SIZE_USB_DEVICE - 1) 0 = d.bNumInterfaces := by
  obtain ⟨path, busid, hpath, -, hbusid, -, rfl⟩ := h.fields
  have hlen : (path ++ (busid ++ d.numbers)).length = SIZE_USB_DEVICE - 1 := by
    simp [hpath, hbusid, numbers, PATH_LEN, BUSID_LEN, SIZE_USB_DEVICE]
  rw [← List.append_assoc busid, ← List.append_assoc path, ← hlen, List.getD_eq_getElem?_getD,
    List.getElem?_append_right (le_refl _), Nat.sub_self]
  rfl

/-- The fixed part of a record is read from exactly the bytes that spell it. -/
theorem accepts_decodeFixed_iff (buf : Bytes) (d : UsbDevice) (rest : Bytes) :
    Parse.Accepts decodeFixed buf d rest ↔
      d.interfaces = [] ∧ ∃ bs, d.SpellsFixed bs ∧ buf = bs ++ rest := by
  simp only [decodeFixed, Parse.accepts_bind, Reader.accepts_textField, Reader.accepts_u32,
    Reader.accepts_u16, Reader.accepts_u8, Parse.accepts_pure]
  constructor
  · rintro ⟨_, _, ⟨path, hpathLen, rfl, hpath⟩, _, _, ⟨busid, hbusidLen, rfl, hbusid⟩, _, _, rfl,
      _, _, rfl, _, _, rfl, _, _, rfl, _, _, rfl, _, _, rfl, _, _, rfl, _, _, rfl, _, _, rfl,
      _, _, rfl, _, _, rfl, _, _, rfl, rfl, rfl⟩
    exact ⟨rfl, _, ⟨path, busid, hpathLen, hpath, hbusidLen, hbusid, rfl⟩,
      by simp only [numbers, List.append_assoc]⟩
  · rintro ⟨hnone, bs, ⟨path, busid, hpathLen, hpath, hbusidLen, hbusid, rfl⟩, rfl⟩
    simp only [numbers, List.append_assoc]
    refine ⟨_, _, ⟨path, hpathLen, rfl, hpath⟩, _, _, ⟨busid, hbusidLen, rfl, hbusid⟩,
      _, _, rfl, _, _, rfl, _, _, rfl, _, _, rfl, _, _, rfl, _, _, rfl, _, _, rfl, _, _, rfl,
      _, _, rfl, _, _, rfl, _, _, rfl, _, _, rfl, ?_, rfl⟩
    rw [← hnone]

/-- A record of a device list: the fixed part, and as many interfaces as it says. -/
def Spells (d : UsbDevice) (bs : Bytes) : Prop :=
  d.interfaces.length = d.bNumInterfaces.toNat ∧ ∃ fixed ifs, d.SpellsFixed fixed ∧
    List.Forall₂ UsbInterface.Spells d.interfaces ifs ∧ bs = fixed ++ ifs.flatten

theorem SpellsFixed.of_interfaces {d : UsbDevice} {bs : Bytes} (h : d.SpellsFixed bs)
    (interfaces : List UsbInterface) : SpellsFixed { d with interfaces } bs :=
  ⟨h.fields⟩

/-- The cursor accepts exactly the records. -/
theorem accepts_decode_iff (buf : Bytes) (d : UsbDevice) (rest : Bytes) :
    Parse.Accepts (decode true) buf d rest ↔ ∃ bs, d.Spells bs ∧ buf = bs ++ rest := by
  simp only [decode, if_true, Parse.accepts_bind, accepts_decodeFixed_iff,
    Parse.accepts_repeat_iff UsbInterface.Spells UsbInterface.accepts_decode_iff,
    Parse.accepts_pure]
  constructor
  · rintro ⟨d, _, ⟨-, fixed, hfixed, rfl⟩, is, _, ⟨hlen, ifs, hifs, rfl⟩, rfl, rfl⟩
    exact ⟨_, ⟨hlen, fixed, ifs, hfixed.of_interfaces is, hifs, rfl⟩,
      (List.append_assoc _ _ _).symm⟩
  · rintro ⟨_, ⟨hlen, fixed, ifs, hfixed, hifs, rfl⟩, rfl⟩
    exact ⟨{ d with interfaces := [] }, _,
      ⟨rfl, fixed, hfixed.of_interfaces [], List.append_assoc _ _ _⟩, d.interfaces, rest,
      ⟨hlen, ifs, hifs, rfl⟩, rfl, rfl⟩

end UsbDevice

/-- The stream reader accepts exactly the records too. -/
theorem accepts_readListedDevice_iff (buf : Bytes) (d : UsbDevice) (rest : Bytes) :
    Parse.Accepts readListedDevice buf d rest ↔ ∃ bs, d.Spells bs ∧ buf = bs ++ rest := by
  simp only [readListedDevice, Parse.accepts_bind, accepts_readExact, accepts_decodeBuf,
    UsbDevice.accepts_decode_iff]
  constructor
  · rintro ⟨fixed, _, ⟨hfixedLen, rfl⟩, tail, _, ⟨htail, rfl⟩,
      ⟨left, _, ⟨hlen, fixed', ifs, hfixed, hifs, rfl⟩, hbuf⟩, rfl⟩
    -- the fixed part of the record is what was read first, and the interfaces are the rest
    rw [List.append_assoc] at hbuf
    obtain ⟨rfl, rfl⟩ := List.append_inj hbuf (hfixedLen.trans hfixed.length_eq.symm)
    have hnil : left = [] := by
      rw [hfixed.last_eq, ← hlen, List.length_append, UsbInterface.length_flatten hifs] at htail
      exact List.eq_nil_of_length_eq_zero (by omega)
    subst hnil
    exact ⟨_, ⟨hlen, fixed, ifs, hfixed, hifs, rfl⟩, by simp⟩
  · rintro ⟨_, ⟨hlen, fixed, ifs, hfixed, hifs, rfl⟩, rfl⟩
    refine ⟨fixed, _, ⟨hfixed.length_eq, List.append_assoc _ _ _⟩, ifs.flatten, rest, ⟨?_, rfl⟩,
      ⟨[], _, ⟨hlen, fixed, ifs, hfixed, hifs, rfl⟩, (List.append_nil _).symm⟩, rfl⟩
    rw [hfixed.last_eq, ← hlen, UsbInterface.length_flatten hifs]

/-! ### The whole list -/

/-- A device list behind its header: the count, and that many records. -/
def SpellsDevlist (ds : List UsbDevice) (bs : Bytes) : Prop :=
  ∃ n : UInt32, n.toNat ≤ MAX_DEVLIST ∧ ds.length = n.toNat ∧ ∃ records,
    List.Forall₂ UsbDevice.Spells ds records ∧ bs = Writer.u32 n ++ records.flatten

/-- **The list is read from exactly the bytes that spell it**, records with their interfaces. -/
theorem accepts_devlistReplyBody_iff (b : Bytes) (ds : List UsbDevice) (rest : Bytes) :
    Parse.Accepts devlistReplyBody b ds rest ↔ ∃ bs, SpellsDevlist ds bs ∧ b = bs ++ rest := by
  simp only [devlistReplyBody, Parse.accepts_bind, Reader.accepts_u32]
  constructor
  · rintro ⟨n, mid, rfl, h⟩
    split_ifs at h with hmax
    · exact absurd h Parse.not_accepts_throw
    · obtain ⟨hlen, records, hrecords, rfl⟩ :=
        (Parse.accepts_repeat_iff _ UsbDevice.accepts_decode_iff).mp h
      exact ⟨_, ⟨n, Nat.le_of_not_lt hmax, hlen, records, hrecords, rfl⟩,
        (List.append_assoc _ _ _).symm⟩
  · rintro ⟨_, ⟨n, hmax, hlen, records, hrecords, rfl⟩, rfl⟩
    have hcount : ¬1024 < n.toNat := Nat.not_lt_of_le hmax
    refine ⟨n, _, List.append_assoc _ _ _, ?_⟩
    rw [if_neg hcount]
    exact (Parse.accepts_repeat_iff _ UsbDevice.accepts_decode_iff).mpr
      ⟨hlen, records, hrecords, rfl⟩

theorem beNat_u32 (n : UInt32) : beNat (Writer.u32 n) = n.toNat := by
  rw [Writer.u32, beNat_beBytes n.toNat_lt]

/-- Any four bytes are a number. -/
theorem exists_u32_of_length {bs : Bytes} (h : bs.length = 4) : ∃ n, bs = Writer.u32 n := by
  have hread : Parse.Accepts Reader.u32 (bs ++ []) (UInt32.ofNat (beNat bs)) [] := by
    simp only [Reader.u32, Parse.accepts_bind, Reader.accepts_bytes, Parse.accepts_pure]
    exact ⟨bs, [], ⟨h, rfl⟩, rfl, rfl⟩
  rw [Reader.accepts_u32, List.append_nil, List.append_nil] at hread
  exact ⟨_, hread⟩

/-- So is the reply, behind its header. -/
theorem accepts_readDevlistReply_iff (b : Bytes) (ds : List UsbDevice) (rest : Bytes) :
    Parse.Accepts readDevlistReply ((OpHeader.new OP_REP_DEVLIST ST_OK).encode ++ b) ds rest ↔
      ∃ bs, SpellsDevlist ds bs ∧ b = bs ++ rest := by
  simp only [readDevlistReply, Parse.accepts_bind, Parse.accepts_lift, accepts_readExact]
  constructor
  · rintro ⟨header, mid, hheader, _, _, ⟨-, rfl⟩, count, mid', ⟨hcount, rfl⟩, h⟩
    have hread := accepts_readOpHeader (OpHeader.new OP_REP_DEVLIST ST_OK) b
    obtain ⟨rfl, rfl⟩ := Prod.mk.inj (Except.ok.inj (hread.symm.trans hheader))
    obtain ⟨n, rfl⟩ := exists_u32_of_length hcount
    rw [beNat_u32] at h
    split_ifs at h with hmax
    · exact absurd h Parse.not_accepts_throw
    · obtain ⟨hlen, records, hrecords, rfl⟩ :=
        (Parse.accepts_repeat_iff _ accepts_readListedDevice_iff).mp h
      exact ⟨_, ⟨n, Nat.le_of_not_lt hmax, hlen, records, hrecords, rfl⟩,
        (List.append_assoc _ _ _).symm⟩
  · rintro ⟨_, ⟨n, hmax, hlen, records, hrecords, rfl⟩, rfl⟩
    refine ⟨_, _, accepts_readOpHeader _ _, (), _, ⟨rfl, rfl⟩, Writer.u32 n, _,
      ⟨Writer.length_u32 n, List.append_assoc _ _ _⟩, ?_⟩
    rw [beNat_u32, if_neg (Nat.not_lt_of_le hmax)]
    exact (Parse.accepts_repeat_iff _ accepts_readListedDevice_iff).mpr
      ⟨hlen, records, hrecords, rfl⟩

/-- **The two decoders agree.** Behind the header of a good reply, the stream reader succeeds with a
list exactly if the buffer decoder does. -/
theorem readDevlistReply_iff_decodeDevlistReplyBody (b : Bytes) (ds : List UsbDevice) :
    (∃ rest, readDevlistReply.run ((OpHeader.new OP_REP_DEVLIST ST_OK).encode ++ b) =
        .ok (ds, rest)) ↔
      decodeDevlistReplyBody b = .ok ds := by
  rw [decodeDevlistReplyBody, map_eq_ok]
  constructor
  · rintro ⟨rest, h⟩
    have hspells := (accepts_readDevlistReply_iff b ds rest).mp h
    exact ⟨(ds, rest), (accepts_devlistReplyBody_iff b ds rest).mpr hspells, rfl⟩
  · rintro ⟨⟨_, rest⟩, h, rfl⟩
    have hspells := (accepts_devlistReplyBody_iff b _ rest).mp h
    exact ⟨rest, (accepts_readDevlistReply_iff b _ rest).mpr hspells⟩

end Padwire
