import Padwire.Backend.Filter
import Padwire.Lib.Text

/-!
# Finding devices and naming them

The part of `usb-backend/src/enumerate.rs` that the allow-list rests on. sysfs lists every device
under its bus id, such as `1-2.3`; a scan reads the entries one by one, so the model takes what
one entry gives and leaves the order of the reads to its callers.
-/

namespace Padwire

/-- A bus id that may become part of a sysfs path. -/
def isValidBusid (busid : String) : Bool :=
  let bytes := asBytes busid
  !bytes.isEmpty && bytes.length ≤ 63 &&
    bytes.all (fun b => (0x30 ≤ b && b ≤ 0x39) || (0x41 ≤ b && b ≤ 0x5a) ||
      (0x61 ≤ b && b ≤ 0x7a) || b == 0x2d || b == 0x2e || b == 0x3a) &&
    !bytes.tails.any (List.isPrefixOf [0x2e, 0x2e])

/-- `1-2:1.0` is an interface and `usb1` is a root hub; neither can be imported. -/
def isDeviceEntry (name : String) : Bool :=
  !(asBytes name).contains 0x3a && !(asBytes "usb").isPrefixOf (asBytes name)

/-- A device on the bus, as far as the allow-list and the way to open it are concerned. -/
structure BusDevice where
  devnum : UInt32
  vid : UInt16
  pid : UInt16
  deriving DecidableEq, Repr

/-- The devices on the bus, each under its bus id. -/
abbrev Bus := List (String × BusDevice)

/-- The device under a bus id. -/
def Bus.at? (bus : Bus) (busid : String) : Option BusDevice :=
  (bus.find? fun e => e.1 = busid).map (·.2)

/-- What a scan keeps of a device. -/
structure ScannedDevice where
  busid : String
  vid : UInt16
  pid : UInt16
  deriving DecidableEq, Repr

/-- `summary_from_sysfs`, as far as the allow-list sees it: the vendor and product id are those
of the device whose descriptors were read. The reads may fail (`readable`). -/
def summaryFromSysfs (bus : Bus) (busid : String) (readable : Bool) : Option ScannedDevice :=
  if !isValidBusid busid || !readable then none
  else (bus.at? busid).map fun d => ⟨busid, d.vid, d.pid⟩

/-- One entry of `list_all`: what the entry adds to the devices found so far. -/
def listEntry (bus : Bus) (found : List ScannedDevice) (name : String) (readable : Bool) :
    List ScannedDevice :=
  if !isDeviceEntry name then found
  else found ++ (summaryFromSysfs bus name readable).toList

/-- The exportable devices among those found. -/
def exportable (filter : DeviceFilter) (found : List ScannedDevice) : List ScannedDevice :=
  found.filter fun d => filter.matches d.vid d.pid

end Padwire
