import Padwire.Backend.Sysfs
import Padwire.Server.Handle
import Padwire.Server.Handshake

/-!
# What a client sees of the bus

A request for the device list takes the exporter through sysfs (`enumerate::list`), the records
(`to_usbip`) and the wire, and the client back from the wire to records. `client_reads_bus` is
about the whole way: one record for each device that sysfs describes and the allow-list admits, in
the order of the numbers, with the path, the numbers and the descriptors as sysfs has them.

Two things get lost. A bus id of more than 31 bytes is cut, and a configuration that uses all 256
interface numbers is listed with none.
-/

namespace Padwire

namespace Sysfs

variable {s : Sysfs} {busid name : String} {dev : SysfsDevice} {filter : DeviceFilter}

/-! ### Paths -/

theorem isAscii_nodePath (busnum devnum : UInt32) : IsAscii (nodePath busnum devnum).toList := by
  have hdigits : ∀ n : UInt32, IsAscii (padded 10 3 n.toNat) :=
    forall_mem_decimal (p := fun c => 0 < c.toNat ∧ c.toNat < 0x80) (by decide) 3
  rw [toList_nodePath, isAscii_append, isAscii_cons, isAscii_append, isAscii_cons]
  exact ⟨by decide, by decide, hdigits busnum, by decide, hdigits devnum⟩

/-- The path of a node fits its field. -/
theorem length_nodePath_le (busnum devnum : UInt32) :
    (asBytes (nodePath busnum devnum)).length ≤ 34 := by
  have hdir : USB_DEV_DIR.toList.length = 12 := by decide
  have hbusnum := length_decimal_le (show 3 ≤ 10 by decide) busnum
  have hdevnum := length_decimal_le (show 3 ≤ 10 by decide) devnum
  rw [(isAscii_nodePath busnum devnum).length_asBytes, toList_nodePath]
  simp only [List.length_append, List.length_cons, hdir]
  omega

/-- A bus id has at most 63 bytes, which is more than its field takes. -/
theorem length_le_of_isValidBusid (h : isValidBusid busid = true) :
    (asBytes busid).length ≤ 63 := by
  simp only [isValidBusid, Bool.and_eq_true, decide_eq_true_eq] at h
  exact h.1.1.2

/-- The path of a summary is ASCII and fits its field. -/
theorem path_fits (s : Sysfs) (busid : String) (busnum devnum : UInt32) :
    (∀ b ∈ asBytes ((s.sysPath busid).getD (nodePath busnum devnum)), b ≠ 0 ∧ b < 0x80) ∧
    (asBytes ((s.sysPath busid).getD (nodePath busnum devnum))).length < PATH_LEN := by
  rw [sysPath]
  split_ifs with h
  · have hvalid := (Bool.and_eq_true_iff.mp h).1
    have hdir : (∀ b ∈ asBytes (SYSFS_USB_DEVICES ++ "/"), b ≠ 0 ∧ b < 0x80) ∧
        (asBytes (SYSFS_USB_DEVICES ++ "/")).length = 21 := by decide +kernel
    have hlength := length_le_of_isValidBusid hvalid
    rw [Option.getD_some, asBytes_append, List.forall_mem_append, List.length_append, hdir.2]
    refine ⟨⟨hdir.1, ascii_of_isValidBusid hvalid⟩, ?_⟩
    rw [PATH_LEN]
    omega
  · exact ⟨(isAscii_nodePath busnum devnum).bytes,
      (length_nodePath_le busnum devnum).trans_lt (by decide)⟩

theorem nul_not_mem_of_ascii {bytes : Bytes} (h : ∀ b ∈ bytes, b ≠ 0 ∧ b < 0x80) :
    (0 : UInt8) ∉ bytes :=
  fun h0 => (h 0 h0).1 rfl

/-! ### Records -/

/-- A client's record of a device that sysfs describes under a name. -/
structure Shows (s : Sysfs) (name : String) (dev : SysfsDevice) (l : UsbDevice) : Prop where
  described : s.Describes name dev
  /-- It keeps the first 31 bytes of the bus id. -/
  busid : asBytes l.busid = (asBytes name).take (BUSID_LEN - 1)
  /-- The rest is as sysfs has it. -/
  record : l = { (s.summary name dev).toUsbip with
    busid := l.busid, interfaces := l.interfaces }
  /-- It lists the interfaces unless all numbers are in use. -/
  interfaces : (∃ n, ∀ a ∈ dev.config.altSettings, a.interfaceNumber ≠ n) →
    l.Advertises dev.config

/-- A device that sysfs describes is received as a record that shows what sysfs has. -/
theorem exists_shows (h : s.Describes name dev) :
    ∃ l, (s.summary name dev).toUsbip.Received l ∧ s.Shows name dev l := by
  obtain ⟨hpath, hfits⟩ := s.path_fits name dev.busnum dev.devnum
  have hoffered : (s.summary name dev).toUsbip.Offered := ⟨h.valid, hpath⟩
  obtain ⟨l, hl, hbusid⟩ := hoffered.exists_received
  have hsame : l.path = (s.summary name dev).toUsbip.path :=
    Option.some.inj (hl.path.symm.trans
      (Reader.fieldText_of_fits hfits (nul_not_mem_of_ascii hpath)))
  refine ⟨l, hl, h, hbusid, ?_, fun hspare => ?_⟩
  · rw [hl.rest, hsame]
  · have hrecord := ((s.summary name dev).advertises_record_iff dev.config).mpr hspare
    have hlisted : l.interfaces = ((s.summary name dev).record dev.config).interfaces := by
      rw [hl.rest]
      exact UsbDevice.listed_eq hrecord.count.symm
    have hcount : l.bNumInterfaces = ((s.summary name dev).record dev.config).bNumInterfaces := by
      rw [hl.rest]
      rfl
    exact ⟨by rw [hcount, hlisted, hrecord.count], by rw [hlisted]; exact hrecord.lists⟩

/-- The order of the devices in a reply. -/
def NotAfter (l l' : UsbDevice) : Prop :=
  l.busnum < l'.busnum ∨ l.busnum = l'.busnum ∧ l.devnum ≤ l'.devnum

/-- The numbers in a record are those of the device. -/
theorem Shows.numbers {l : UsbDevice} (h : s.Shows name dev l) :
    (l.busnum, l.devnum) = (dev.busnum, dev.devnum) := by
  rw [h.record]
  rfl

/-- What arrives of a list. -/
theorem exists_received {devs : List DeviceSummary}
    (hdevs : ∀ d ∈ devs, ∃ dev, s.Describes d.busid dev ∧ d = s.summary d.busid dev) :
    ∃ listed, List.Forall₂ UsbDevice.Received (devs.map DeviceSummary.toUsbip) listed ∧
      List.Forall₂ (fun name l => ∃ dev, s.Shows name dev l) (devs.map DeviceSummary.busid) listed ∧
      listed.map (fun l => (l.busnum, l.devnum)) = devs.map fun d => (d.busnum, d.devnum) := by
  induction devs with
  | nil => exact ⟨[], .nil, .nil, rfl⟩
  | cons d devs ih =>
    rw [List.forall_mem_cons] at hdevs
    obtain ⟨⟨dev, hdev, hsummary⟩, hrest⟩ := hdevs
    obtain ⟨l, hreceived, hshown⟩ := exists_shows hdev
    rw [← hsummary] at hreceived
    have hnumbers : (l.busnum, l.devnum) = (d.busnum, d.devnum) := by
      rw [hshown.numbers, hsummary]
      rfl
    obtain ⟨listed, hall, hshows, hkeys⟩ := ih hrest
    exact ⟨l :: listed, .cons hreceived hall, .cons ⟨dev, hshown⟩ hshows, by
      rw [List.map_cons, List.map_cons, hnumbers, hkeys]⟩

open scoped Classical in
/-- **What a client reads is what is plugged in and allowed.** The exporter has a list unless some
device sent descriptors on which the parser panics. A client that asks for it reads one record for
each entry of sysfs that names a device which the filter admits, in the order of their numbers. -/
theorem client_reads_bus (s : Sysfs) (filter : DeviceFilter) {entries : List (Option String)}
    (hread : s.readDir = .ok entries) (more : Bytes) :
    ((∃ devs, s.list filter = .ok devs) ↔ ∀ name ∈ entries.reduceOption, s.Parses name) ∧
    ∀ (devs : List DeviceSummary) (x : Exporter), s.list filter = .ok devs → x.list = some devs →
      devs.length ≤ MAX_DEVLIST →
        ∃ out listed names, x.handle (encodeDevlistRequest ++ more) = (out, .closed) ∧
          readDevlistReply.run out = .ok (listed, []) ∧
          names.Perm (entries.reduceOption.filter fun name => s.Exportable filter name) ∧
          List.Forall₂ (fun name l => ∃ dev, s.Shows name dev l) names listed ∧
          listed.Pairwise NotAfter := by
  refine ⟨exists_list_iff hread filter, fun devs x hlist hx hlen => ?_⟩
  obtain ⟨hordered, hnames, hdevs⟩ := list_spec hread hlist
  obtain ⟨listed, hreceived, hshown, hkeys⟩ := exists_received hdevs
  have hsorted : listed.Pairwise NotAfter := by
    have hmapped : (devs.map fun d => (d.busnum, d.devnum)).Pairwise fun n n' =>
        n.1 < n'.1 ∨ n.1 = n'.1 ∧ n.2 ≤ n'.2 := List.pairwise_map.mpr hordered
    rw [← hkeys, List.pairwise_map] at hmapped
    exact hmapped
  exact ⟨_, listed, _, x.handle_devlist hx more,
    run_encodeDevlistReply (by rwa [List.length_map]) hreceived, hnames, hshown, hsorted⟩

/-! ### A bus with a hub, a controller and a keyboard -/

/-- The files of the controller. -/
def controllerFile (attr : String) : Option Bytes :=
  if attr = "descriptors" then some (bareDevice 2 (by decide)).bytes
  else if attr = "busnum" then some (asBytes "1\n")
  else if attr = "devnum" then some (asBytes "7\n")
  else if attr = "bConfigurationValue" then some (asBytes "1\n")
  else if attr = "speed" then some (asBytes "480\n")
  else none

/-- A root hub, a controller with an interface, and a keyboard that is unplugged when its
descriptors are read. -/
def deskBus : Sysfs where
  readDir := .ok [some "usb1", some "1-2", some "1-2:1.0", none, some "1-3"]
  file busid attr := if busid = "1-2" then controllerFile attr else none
  present busid := busid = "1-2"

/-- The controller as sysfs describes it. -/
def deskController : SysfsDevice where
  descriptors := (bareDevice 2 (by decide)).tree
  config := (bareConfig 2 (by decide)).tree
  busnum := 1
  devnum := 7

/-- The controller on the desk is one that sysfs describes. -/
theorem describes_deskController : deskBus.Describes "1-2" deskController where
  valid := by decide +kernel
  descriptors := ⟨_, rfl, parse_bareDevice 2 (by decide)⟩
  numbers := by decide +kernel
  config := by decide +kernel

theorem file_deskBus {name attr : String} {bytes : Bytes}
    (h : deskBus.file name attr = some bytes) : name = "1-2" := by
  by_contra hne
  have hnone : deskBus.file name attr = none := if_neg hne
  rw [hnone] at h
  cases h

theorem parses_deskBus (name : String) : deskBus.Parses name := by
  intro _ _ blob hblob
  obtain rfl := file_deskBus hblob
  obtain rfl := Option.some.inj hblob
  rw [parse_bareDevice]
  exact Checked.safe_ok _

/-- It is the only entry of the directory that is exported. -/
theorem exportable_deskBus (name : String) :
    deskBus.Exportable .default name ↔ name = "1-2" := by
  constructor
  · rintro ⟨-, dev, hdev, -⟩
    obtain ⟨_, hblob, -⟩ := hdev.descriptors
    exact file_deskBus hblob
  · rintro rfl
    exact ⟨by decide +kernel, deskController, describes_deskController, by decide +kernel⟩

open scoped Classical in
theorem filter_exportable_deskBus (entries : List String) :
    (entries.filter fun name => deskBus.Exportable .default name) =
      entries.filter fun name => name = "1-2" :=
  List.filter_congr fun name _ => by simp [exportable_deskBus]

theorem client_reads_bus_desk : ∃ (devs : List DeviceSummary) (x : Exporter) (out : Bytes)
    (listed : List UsbDevice),
    deskBus.list .default = .ok devs ∧ x.list = some devs ∧
    x.handle (encodeDevlistRequest ++ [1, 2]) = (out, .closed) ∧
    readDevlistReply.run out = .ok (listed, []) ∧
    listed.map UsbDevice.busid = ["1-2"] := by
  obtain ⟨hreturns, hreads⟩ := client_reads_bus deskBus .default rfl [1, 2]
  obtain ⟨devs, hlist⟩ := hreturns.mpr fun name _ => parses_deskBus name
  have hlen : devs.length ≤ MAX_DEVLIST := by
    have hone := (list_spec rfl hlist).2.1.length_eq
    rw [filter_exportable_deskBus, List.length_map] at hone
    exact hone.le.trans (by decide)
  let x : Exporter := { Exporter.puckExporter with list := some devs }
  obtain ⟨out, listed, names, hout, hlisted, hperm, hshown, -⟩ := hreads devs x hlist rfl hlen
  refine ⟨devs, x, out, listed, hlist, rfl, hout, hlisted, ?_⟩
  have hone : names = ["1-2"] := by
    rw [filter_exportable_deskBus] at hperm
    exact List.perm_singleton.mp hperm
  rw [hone] at hshown
  obtain ⟨l, listed', ⟨dev, hl⟩, hrest, rfl⟩ := List.forall₂_cons_left_iff.mp hshown
  obtain rfl := List.forall₂_nil_left_iff.mp hrest
  have hbusid : l.busid = "1-2" := by
    apply asBytes_injective
    rw [hl.busid]
    decide +kernel
  rw [List.map_singleton, hbusid]

end Sysfs

end Padwire
