import Padwire.Proto.Wire

/-!
# Device records

`struct usbip_usb_device` and `struct usbip_usb_interface` as they appear in `OP_REP_DEVLIST` and
`OP_REP_IMPORT` (`usbip-proto/src/device.rs`). A record has a fixed part of 312 bytes; in a device
list it is followed by one entry for each interface, and how many there are is the last byte of
the fixed part.

Two strings of the record are text fields and may lose something on the way. `UsbDevice.Received`
says what a device looks like on the other side, and `accepts_decode_encode` that this is what
is decoded, with every other byte accounted for.
-/

namespace Padwire

/-- `struct usbip_usb_device`. -/
def SIZE_USB_DEVICE : ℕ := 312

/-- `struct usbip_usb_interface`. -/
def SIZE_USB_INTERFACE : ℕ := 4

def BUSID_LEN : ℕ := 32

def PATH_LEN : ℕ := 256

structure UsbInterface where
  cls : UInt8
  subclass : UInt8
  protocol : UInt8
  deriving DecidableEq, Repr, Inhabited

structure UsbDevice where
  /-- Informational sysfs path. -/
  path : String
  /-- The key a client passes back in `OP_REQ_IMPORT`. -/
  busid : String
  busnum : UInt32
  devnum : UInt32
  speed : UInt32
  idVendor : UInt16
  idProduct : UInt16
  bcdDevice : UInt16
  bDeviceClass : UInt8
  bDeviceSubClass : UInt8
  bDeviceProtocol : UInt8
  bConfigurationValue : UInt8
  bNumConfigurations : UInt8
  bNumInterfaces : UInt8
  /-- Only present in `OP_REP_DEVLIST`. -/
  interfaces : List UsbInterface
  deriving DecidableEq, Repr, Inhabited

namespace UsbInterface

/-- An interface on the wire, with one byte of padding. -/
def encode (i : UsbInterface) : Bytes :=
  Writer.u8 i.cls ++ (Writer.u8 i.subclass ++ (Writer.u8 i.protocol ++ Writer.u8 0))

def decode : Reader UsbInterface := do
  let cls ← Reader.u8
  let subclass ← Reader.u8
  let protocol ← Reader.u8
  Reader.skip 1
  pure { cls, subclass, protocol }

@[simp]
theorem length_encode (i : UsbInterface) : i.encode.length = SIZE_USB_INTERFACE := rfl

theorem accepts_decode (i : UsbInterface) (rest : Bytes) :
    Parse.Accepts decode (i.encode ++ rest) i rest := by
  simp only [decode, Parse.accepts_bind, Reader.accepts_u8, Reader.accepts_skip,
    Parse.accepts_pure, encode, List.append_assoc]
  exact ⟨_, _, rfl, _, _, rfl, _, _, rfl, (), rest, ⟨Writer.u8 0, rfl, rfl⟩, rfl, rfl⟩

end UsbInterface

namespace UsbDevice

/-- The fixed record of 312 bytes. -/
def encodeFixed (d : UsbDevice) : Bytes :=
  Writer.textField d.path PATH_LEN ++ (Writer.textField d.busid BUSID_LEN ++
    (Writer.u32 d.busnum ++ (Writer.u32 d.devnum ++ (Writer.u32 d.speed ++
    (Writer.u16 d.idVendor ++ (Writer.u16 d.idProduct ++ (Writer.u16 d.bcdDevice ++
    (Writer.u8 d.bDeviceClass ++ (Writer.u8 d.bDeviceSubClass ++ (Writer.u8 d.bDeviceProtocol ++
    (Writer.u8 d.bConfigurationValue ++ (Writer.u8 d.bNumConfigurations ++
    Writer.u8 d.bNumInterfaces))))))))))))

/-- The interfaces that follow it: as many as the record says, the missing ones zero. -/
def listed (d : UsbDevice) : List UsbInterface :=
  (List.range d.bNumInterfaces.toNat).map fun i => d.interfaces.getD i ⟨0, 0, 0⟩

def encode (d : UsbDevice) (withInterfaces : Bool) : Bytes :=
  d.encodeFixed ++ if withInterfaces then d.listed.flatMap UsbInterface.encode else []

/-- The fixed record, without interfaces. -/
def decodeFixed : Reader UsbDevice := do
  let path ← Reader.textField PATH_LEN
  let busid ← Reader.textField BUSID_LEN
  let busnum ← Reader.u32
  let devnum ← Reader.u32
  let speed ← Reader.u32
  let idVendor ← Reader.u16
  let idProduct ← Reader.u16
  let bcdDevice ← Reader.u16
  let bDeviceClass ← Reader.u8
  let bDeviceSubClass ← Reader.u8
  let bDeviceProtocol ← Reader.u8
  let bConfigurationValue ← Reader.u8
  let bNumConfigurations ← Reader.u8
  let bNumInterfaces ← Reader.u8
  pure { path, busid, busnum, devnum, speed, idVendor, idProduct, bcdDevice, bDeviceClass,
         bDeviceSubClass, bDeviceProtocol, bConfigurationValue, bNumConfigurations,
         bNumInterfaces, interfaces := [] }

def decode (withInterfaces : Bool) : Reader UsbDevice := do
  let d ← decodeFixed
  if withInterfaces then
    let interfaces ← Parse.repeat d.bNumInterfaces.toNat UsbInterface.decode
    pure { d with interfaces }
  else pure d

/-! ### What arrives -/

/-- What the other side of the wire sees of a device: the two text fields may lose something, and
there are as many interfaces as the record says. -/
structure Received (d d' : UsbDevice) : Prop where
  path : Reader.fieldText (Writer.textField d.path PATH_LEN) = some d'.path
  busid : Reader.fieldText (Writer.textField d.busid BUSID_LEN) = some d'.busid
  rest : d' = { d with path := d'.path, busid := d'.busid, interfaces := d.listed }

@[simp]
theorem length_encodeFixed (d : UsbDevice) : d.encodeFixed.length = SIZE_USB_DEVICE := by
  simp [encodeFixed, PATH_LEN, BUSID_LEN, SIZE_USB_DEVICE]

/-- `b_num_interfaces` is the last byte of the fixed record. -/
theorem last_encodeFixed (d : UsbDevice) :
    d.encodeFixed.getD (SIZE_USB_DEVICE - 1) 0 = d.bNumInterfaces := by
  have hsplit : ∃ l : Bytes, l.length = SIZE_USB_DEVICE - 1 ∧
      d.encodeFixed = l ++ [d.bNumInterfaces] := by
    refine ⟨d.encodeFixed.dropLast, by simp, ?_⟩
    have hne : d.encodeFixed ≠ [] := fun h => by
      have := congrArg List.length h
      simp [SIZE_USB_DEVICE] at this
    have hlast : d.encodeFixed.getLast hne = d.bNumInterfaces := by
      simp [encodeFixed, Writer.u8]
    rw [← hlast, List.dropLast_append_getLast]
  obtain ⟨l, hlen, hl⟩ := hsplit
  rw [hl, ← hlen]
  simp

theorem length_flatMap_encode (is : List UsbInterface) :
    (is.flatMap UsbInterface.encode).length = is.length * SIZE_USB_INTERFACE := by
  induction is with
  | nil => simp
  | cons i is ih => simp [ih, Nat.add_mul, Nat.add_comm]

@[simp]
theorem length_listed (d : UsbDevice) : d.listed.length = d.bNumInterfaces.toNat := by
  simp [listed]

theorem accepts_decodeFixed {d d' : UsbDevice} (h : Received d d') (rest : Bytes) :
    Parse.Accepts decodeFixed (d.encodeFixed ++ rest) { d' with interfaces := [] } rest := by
  rw [h.rest]
  simp only [decodeFixed, Parse.accepts_bind, Reader.accepts_textField, Reader.accepts_u32,
    Reader.accepts_u16, Reader.accepts_u8, Parse.accepts_pure, encodeFixed, List.append_assoc]
  exact ⟨_, _, ⟨_, Writer.length_textField _ _, rfl, h.path⟩,
    _, _, ⟨_, Writer.length_textField _ _, rfl, h.busid⟩, _, _, rfl, _, _, rfl, _, _, rfl,
    _, _, rfl, _, _, rfl, _, _, rfl, _, _, rfl, _, _, rfl, _, _, rfl, _, _, rfl, _, _, rfl,
    _, _, rfl, rfl, rfl⟩

/-- **A record is decoded to what arrives of it**, and what follows it is left. -/
theorem accepts_decode_encode {d d' : UsbDevice} (h : Received d d') (rest : Bytes) :
    Parse.Accepts (decode true) (d.encode true ++ rest) d' rest := by
  have hifs : Parse.Accepts (Parse.repeat d.bNumInterfaces.toNat UsbInterface.decode)
      (d.listed.flatMap UsbInterface.encode ++ rest) d.listed rest := by
    have hall := Parse.accepts_repeat (fun _ => True)
      (fun i rest _ => UsbInterface.accepts_decode i rest) d.listed (fun _ _ => trivial) rest
    rwa [length_listed] at hall
  simp only [decode, Parse.accepts_bind, encode, if_true, List.append_assoc]
  refine ⟨_, _, accepts_decodeFixed h _, d.listed, rest, ?_, ?_⟩
  · rw [h.rest]
    exact hifs
  · rw [Parse.accepts_pure]
    refine ⟨?_, rfl⟩
    rw [h.rest]

/-- A device whose strings fit their fields and have no NUL, with as many interfaces as it says. -/
structure Fits (d : UsbDevice) : Prop where
  path : (asBytes d.path).length < PATH_LEN
  pathNul : (0 : UInt8) ∉ asBytes d.path
  busid : (asBytes d.busid).length < BUSID_LEN
  busidNul : (0 : UInt8) ∉ asBytes d.busid
  interfaces : d.interfaces.length = d.bNumInterfaces.toNat

/-- If there are as many interfaces as the record says, they are listed as they are. -/
theorem listed_eq {d : UsbDevice} (h : d.interfaces.length = d.bNumInterfaces.toNat) :
    d.listed = d.interfaces := by
  apply List.ext_getElem
  · rw [length_listed, h]
  · intro i h₁ h₂
    simp [listed, List.getElem?_eq_getElem h₂]

/-- A device whose strings fit arrives with the interfaces that are listed. -/
theorem received_of_fits {d : UsbDevice} (hpath : (asBytes d.path).length < PATH_LEN)
    (hpathNul : (0 : UInt8) ∉ asBytes d.path) (hbusid : (asBytes d.busid).length < BUSID_LEN)
    (hbusidNul : (0 : UInt8) ∉ asBytes d.busid) : Received d { d with interfaces := d.listed } where
  path := Reader.fieldText_of_fits hpath hpathNul
  busid := Reader.fieldText_of_fits hbusid hbusidNul
  rest := rfl

/-- Such a device arrives as it is. -/
theorem Fits.received {d : UsbDevice} (h : d.Fits) : Received d d where
  path := Reader.fieldText_of_fits h.path h.pathNul
  busid := Reader.fieldText_of_fits h.busid h.busidNul
  rest := by rw [listed_eq h.interfaces]

end UsbDevice

end Padwire
