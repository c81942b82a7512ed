import Padwire.Backend.Layout
import Padwire.Proto.Device
import Mathlib.Data.List.Sort

/-!
# What a device advertises

The interfaces of a configuration as `OP_REP_DEVLIST` lists them: `primary_alt_settings`
(`usb-backend/src/descriptors.rs`), `InterfaceSummary::list_from` and `DeviceSummary::to_usbip`
(`usb-backend/src/lib.rs`). There is one interface for each `bInterfaceNumber`, and their number
goes into a byte. A byte counts up to 255, and there may be 256 of them.
-/

namespace Padwire

/-! ### The interfaces of a configuration -/

/-- Drop what is equal to what follows it. -/
def dedup : List UInt8 → List UInt8
  | [] => []
  | [a] => [a]
  | a :: b :: l => if a = b then dedup (b :: l) else a :: dedup (b :: l)

namespace ConfigDescriptor

/-- Distinct `bInterfaceNumber`s, ascending. -/
def interfaceNumbers (cfg : ConfigDescriptor) : List UInt8 :=
  dedup ((cfg.altSettings.map AltSetting.interfaceNumber).insertionSort (· ≤ ·))

/-- Alternate setting 0 of an interface, or its first one if it has none. -/
def primary (cfg : ConfigDescriptor) (n : UInt8) : Option AltSetting :=
  (cfg.altSettings.find? fun a => a.interfaceNumber == n && a.alternateSetting == 0).or
    (cfg.altSettings.find? fun a => a.interfaceNumber == n)

def primaryAltSettings (cfg : ConfigDescriptor) : List AltSetting :=
  cfg.interfaceNumbers.filterMap cfg.primary

end ConfigDescriptor

/-- An interface as `OP_REP_DEVLIST` advertises it. -/
structure InterfaceSummary where
  number : UInt8
  cls : UInt8
  subClass : UInt8
  protocol : UInt8
  deriving DecidableEq, Repr

def InterfaceSummary.listFrom (config : ConfigDescriptor) : List InterfaceSummary :=
  config.primaryAltSettings.map fun a => ⟨a.interfaceNumber, a.cls, a.subClass, a.protocol⟩

inductive Speed
  | unknown
  | low
  | full
  | high
  | wireless
  | super
  | superPlus
  deriving DecidableEq, Repr

def Speed.toUInt32 : Speed → UInt32
  | .unknown => 0
  | .low => 1
  | .full => 2
  | .high => 3
  | .wireless => 4
  | .super => 5
  | .superPlus => 6

/-- Everything a client needs to see about a device before it imports it. -/
structure DeviceSummary where
  busnum : UInt32
  devnum : UInt32
  busid : String
  sysPath : String
  nodePath : String
  speed : Speed
  device : DeviceDescriptor
  configValue : UInt8
  interfaces : List InterfaceSummary
  deriving DecidableEq, Repr

def DeviceSummary.toUsbip (s : DeviceSummary) : UsbDevice where
  path := s.sysPath
  busid := s.busid
  busnum := s.busnum
  devnum := s.devnum
  speed := s.speed.toUInt32
  idVendor := s.device.idVendor
  idProduct := s.device.idProduct
  bcdDevice := s.device.bcdDevice
  bDeviceClass := s.device.bDeviceClass
  bDeviceSubClass := s.device.bDeviceSubClass
  bDeviceProtocol := s.device.bDeviceProtocol
  bConfigurationValue := s.configValue
  bNumConfigurations := s.device.bNumConfigurations
  -- the length is cast to a byte
  bNumInterfaces := UInt8.ofNat s.interfaces.length
  interfaces := s.interfaces.map fun i => ⟨i.cls, i.subClass, i.protocol⟩

/-! ### One interface for each number -/

theorem mem_dedup {l : List UInt8} {n : UInt8} : n ∈ dedup l ↔ n ∈ l := by
  fun_induction dedup l with
  | case1 => rfl
  | case2 a => rfl
  | case3 a l ih =>
    rw [ih]
    simp
  | case4 a b l hne ih => rw [List.mem_cons, ih, List.mem_cons (a := n) (b := a)]

/-- A sorted list without repetitions is strictly ascending. -/
theorem pairwise_dedup {l : List UInt8} (h : l.Pairwise (· ≤ ·)) : (dedup l).Pairwise (· < ·) := by
  fun_induction dedup l with
  | case1 => exact .nil
  | case2 a => exact List.pairwise_singleton _ a
  | case3 a l ih => exact ih h.of_cons
  | case4 a b l hne ih =>
    refine List.pairwise_cons.mpr ⟨fun n hn => ?_, ih h.of_cons⟩
    have hab : a < b := UInt8.lt_of_le_of_ne (List.rel_of_pairwise_cons h List.mem_cons_self) hne
    rcases List.mem_cons.mp (mem_dedup.mp hn) with rfl | hn
    · exact hab
    · exact UInt8.lt_of_lt_of_le hab (List.rel_of_pairwise_cons h.of_cons hn)

namespace ConfigDescriptor

variable (cfg : ConfigDescriptor)

/-- The interface numbers are those of the alternate settings. -/
theorem mem_interfaceNumbers {n : UInt8} :
    n ∈ cfg.interfaceNumbers ↔ ∃ a ∈ cfg.altSettings, a.interfaceNumber = n := by
  rw [interfaceNumbers, mem_dedup, List.mem_insertionSort, List.mem_map]

/-- They are in ascending order, and none is twice among them. -/
theorem pairwise_interfaceNumbers : cfg.interfaceNumbers.Pairwise (· < ·) := by
  have htotal : Std.Total (α := UInt8) (· ≤ ·) := ⟨UInt8.le_total⟩
  have htrans : IsTrans UInt8 (· ≤ ·) := ⟨fun _ _ _ => UInt8.le_trans⟩
  exact pairwise_dedup (List.pairwise_insertionSort _ _)

/-- What `primary` finds: an alternate setting of the interface, number 0 if there is one. -/
theorem primary_spec {n : UInt8} {a : AltSetting} (h : cfg.primary n = some a) :
    a ∈ cfg.altSettings ∧ a.interfaceNumber = n ∧
      ∀ b ∈ cfg.altSettings, b.interfaceNumber = n → b.alternateSetting = 0 →
        a.alternateSetting = 0 := by
  rcases Option.or_eq_some_iff.mp h with hzero | ⟨hnone, hfirst⟩
  · have hfound := List.find?_some hzero
    rw [Bool.and_eq_true, beq_iff_eq, beq_iff_eq] at hfound
    exact ⟨List.mem_of_find?_eq_some hzero, hfound.1, fun _ _ _ _ => hfound.2⟩
  · refine ⟨List.mem_of_find?_eq_some hfirst, by simpa using List.find?_some hfirst,
      fun b hb hn halt => ?_⟩
    have hnot := List.find?_eq_none.mp hnone b hb
    simp [hn, halt] at hnot

/-- Every interface number has a primary alternate setting. -/
theorem exists_primary {n : UInt8} (hn : n ∈ cfg.interfaceNumbers) :
    ∃ a, cfg.primary n = some a := by
  obtain ⟨b, hb, hbn⟩ := cfg.mem_interfaceNumbers.mp hn
  cases hp : cfg.primary n with
  | some a => exact ⟨a, rfl⟩
  | none =>
    have hnot := List.find?_eq_none.mp (Option.or_eq_none_iff.mp hp).2 b hb
    simp [hbn] at hnot

/-- The primary alternate settings are those of the interface numbers, in order. -/
theorem map_primaryAltSettings :
    cfg.primaryAltSettings.map AltSetting.interfaceNumber = cfg.interfaceNumbers := by
  have hall : ∀ l : List UInt8, (∀ n ∈ l, n ∈ cfg.interfaceNumbers) →
      (l.filterMap cfg.primary).map AltSetting.interfaceNumber = l := by
    intro l
    induction l with
    | nil => exact fun _ => rfl
    | cons n l ih =>
      intro hl
      rw [List.forall_mem_cons] at hl
      obtain ⟨a, ha⟩ := cfg.exists_primary hl.1
      rw [List.filterMap_cons_some ha, List.map_cons, ih hl.2, (cfg.primary_spec ha).2.1]
  exact hall _ fun _ hn => hn

theorem nodup_interfaceNumbers : (cfg.interfaceNumbers.map UInt8.toNat).Nodup := by
  refine List.Nodup.map (fun _ _ => UInt8.toNat_inj.mp) ?_
  exact cfg.pairwise_interfaceNumbers.imp fun h => UInt8.ne_of_lt h

theorem length_primaryAltSettings :
    cfg.primaryAltSettings.length = (cfg.interfaceNumbers.map UInt8.toNat).length := by
  rw [List.length_map, ← cfg.map_primaryAltSettings, List.length_map]

/-- There are at most 256 of them, one more than the field can count. -/
theorem length_primaryAltSettings_le : cfg.primaryAltSettings.length ≤ 256 := by
  have hsub : cfg.interfaceNumbers.map UInt8.toNat ⊆ List.range 256 := by
    intro k hk
    obtain ⟨n, -, rfl⟩ := List.mem_map.mp hk
    exact List.mem_range.mpr n.toNat_lt
  have hle := (List.subperm_of_subset cfg.nodup_interfaceNumbers hsub).length_le
  rwa [← length_primaryAltSettings, List.length_range] at hle

/-- There are fewer than 256 interfaces if some number is not used. -/
theorem length_primaryAltSettings_lt_iff :
    cfg.primaryAltSettings.length < 256 ↔ ∃ n, ∀ a ∈ cfg.altSettings, a.interfaceNumber ≠ n := by
  rw [length_primaryAltSettings]
  constructor
  · intro hlt
    by_contra hall
    push Not at hall
    have hsub : List.range 256 ⊆ cfg.interfaceNumbers.map UInt8.toNat := by
      intro k hk
      rw [List.mem_range] at hk
      refine List.mem_map.mpr ⟨UInt8.ofNat k, cfg.mem_interfaceNumbers.mpr (hall _), ?_⟩
      exact UInt8.toNat_ofNat_of_lt' hk
    have hle := (List.subperm_of_subset List.nodup_range hsub).length_le
    rw [List.length_range] at hle
    omega
  · rintro ⟨n, hn⟩
    have hsub : cfg.interfaceNumbers.map UInt8.toNat ⊆ (List.range 256).erase n.toNat := by
      intro k hk
      obtain ⟨m, hm, rfl⟩ := List.mem_map.mp hk
      obtain ⟨a, ha, ham⟩ := cfg.mem_interfaceNumbers.mp hm
      have hne : m.toNat ≠ n.toNat := fun h => hn a ha (ham.trans (UInt8.toNat_inj.mp h))
      exact (List.mem_erase_of_ne hne).mpr (List.mem_range.mpr m.toNat_lt)
    have hle := (List.subperm_of_subset cfg.nodup_interfaceNumbers hsub).length_le
    rw [List.length_erase_of_mem (List.mem_range.mpr n.toNat_lt), List.length_range] at hle
    omega

end ConfigDescriptor

/-- One alternate setting for each interface of a configuration, ascending, and number 0 of those
that have it. -/
structure OnePerInterface (cfg : ConfigDescriptor) (alts : List AltSetting) : Prop where
  ascending : (alts.map AltSetting.interfaceNumber).Pairwise (· < ·)
  complete : ∀ n, n ∈ alts.map AltSetting.interfaceNumber ↔
    ∃ a ∈ cfg.altSettings, a.interfaceNumber = n
  primary : ∀ a ∈ alts, a ∈ cfg.altSettings ∧
    ∀ b ∈ cfg.altSettings, b.interfaceNumber = a.interfaceNumber → b.alternateSetting = 0 →
      a.alternateSetting = 0

/-- The primary alternate settings are one for each interface, in order. -/
theorem onePerInterface_primaryAltSettings (cfg : ConfigDescriptor) :
    OnePerInterface cfg cfg.primaryAltSettings where
  ascending := by
    rw [cfg.map_primaryAltSettings]
    exact cfg.pairwise_interfaceNumbers
  complete n := by
    rw [cfg.map_primaryAltSettings]
    exact cfg.mem_interfaceNumbers
  primary a ha := by
    obtain ⟨n, -, hn⟩ := List.mem_filterMap.mp ha
    obtain ⟨hmem, rfl, hzero⟩ := cfg.primary_spec hn
    exact ⟨hmem, hzero⟩

/-- The record of a device lists the interfaces of a configuration, and says how many there are. -/
structure UsbDevice.Advertises (d : UsbDevice) (cfg : ConfigDescriptor) : Prop where
  count : d.bNumInterfaces.toNat = d.interfaces.length
  lists : ∃ alts, OnePerInterface cfg alts ∧
    d.interfaces = alts.map fun a => ⟨a.cls, a.subClass, a.protocol⟩

/-- The record that `to_usbip` makes of a device with the given configuration. -/
def DeviceSummary.record (s : DeviceSummary) (cfg : ConfigDescriptor) : UsbDevice :=
  { s with interfaces := InterfaceSummary.listFrom cfg }.toUsbip

/-- The record lists the primary alternate settings. -/
theorem DeviceSummary.interfaces_record (s : DeviceSummary) (cfg : ConfigDescriptor) :
    (s.record cfg).interfaces =
      cfg.primaryAltSettings.map fun a => ⟨a.cls, a.subClass, a.protocol⟩ := by
  rw [record, toUsbip, InterfaceSummary.listFrom, List.map_map]
  rfl

/-- The count is that of the list, as far as one byte goes. -/
theorem DeviceSummary.toNat_bNumInterfaces (s : DeviceSummary) (cfg : ConfigDescriptor) :
    (s.record cfg).bNumInterfaces.toNat = cfg.primaryAltSettings.length % 256 := by
  rw [record, toUsbip, InterfaceSummary.listFrom, List.length_map]
  exact UInt8.toNat_ofNat'

/-- **The record agrees with the list behind it** unless every interface number is in use. -/
theorem DeviceSummary.advertises_record_iff (s : DeviceSummary) (cfg : ConfigDescriptor) :
    (s.record cfg).Advertises cfg ↔ ∃ n, ∀ a ∈ cfg.altSettings, a.interfaceNumber ≠ n := by
  rw [← cfg.length_primaryAltSettings_lt_iff]
  constructor
  · intro h
    have hcount := h.count
    rw [toNat_bNumInterfaces, interfaces_record, List.length_map] at hcount
    omega
  · intro hlt
    refine ⟨?_, cfg.primaryAltSettings, onePerInterface_primaryAltSettings cfg,
      s.interfaces_record cfg⟩
    rw [toNat_bNumInterfaces, interfaces_record, List.length_map, Nat.mod_eq_of_lt hlt]

/-- **A record counts its interfaces** if and only if some interface number is not used. -/
theorem advertises_of_parse_iff (blob : Bytes) (ds : Descriptors) (cfg : ConfigDescriptor)
    (s : DeviceSummary) : Descriptors.parse blob = .ok ds → cfg ∈ ds.configs →
      ((s.record cfg).Advertises cfg ↔ ∃ n, ∀ a ∈ cfg.altSettings, a.interfaceNumber ≠ n) := by
  intro _ _
  exact s.advertises_record_iff cfg

/-! ### All the interfaces there can be -/

/-- An interface without endpoints. -/
def bareInterface (n : ℕ) : Descriptors.AltLayout where
  interfaceNumber := UInt8.ofNat n
  alternateSetting := 0
  bNumEndpoints := 0
  cls := 3
  subClass := 0
  protocol := 0
  iInterface := 0
  extra := []
  fits := Nat.zero_le _
  foreign := []
  endpoints := []

theorem length_bareInterfaces (ns : List ℕ) :
    (((ns.map bareInterface).flatMap Descriptors.AltLayout.raws).flatMap
      Descriptors.RawDescriptor.bytes).length = 9 * ns.length := by
  induction ns with
  | nil => rfl
  | cons n ns ih =>
    have hone : ((bareInterface n).raws.flatMap Descriptors.RawDescriptor.bytes).length = 9 := rfl
    rw [List.map_cons, List.flatMap_cons, List.flatMap_append, List.length_append, hone, ih,
      List.length_cons]
    omega

/-- A configuration with an interface for each of the first `n` numbers. -/
def bareConfig (n : ℕ) (hn : 9 + 9 * n ≤ 65535) : Descriptors.ConfigLayout where
  configurationValue := 1
  numInterfaces := UInt8.ofNat n
  tail := [0, 0x80, 50]
  three_le := le_refl 3
  tail_fits := by decide
  foreign := []
  alts := (List.range n).map bareInterface
  fits := by
    rw [List.map_nil, List.nil_append, length_bareInterfaces, List.length_range]
    exact hn

/-- A device with one such configuration. -/
def bareDevice (n : ℕ) (hn : 9 + 9 * n ≤ 65535) : Descriptors.BlobLayout where
  device := ⟨0x200, 0, 0, 0, 64, 0x28de, 0x1205, 0x100, 1⟩
  iManufacturer := 0
  iProduct := 0
  iSerialNumber := 0
  configs := [bareConfig n hn]

theorem parse_bareDevice (n : ℕ) (hn : 9 + 9 * n ≤ 65535) :
    Descriptors.parse (bareDevice n hn).bytes = .ok (bareDevice n hn).tree := by
  rw [Descriptors.parse_device, Descriptors.BlobLayout.bytes, Descriptors.configsFrom_flatMap,
    Checked.ok_bind]
  rfl

theorem altSettings_bareConfig (n : ℕ) (hn : 9 + 9 * n ≤ 65535) :
    (bareConfig n hn).tree.altSettings =
      (List.range n).map fun i => (bareInterface i).tree := by
  rw [Descriptors.ConfigLayout.tree, bareConfig, List.map_map]
  rfl

theorem advertises_of_parse_iff_bareDevice : ∃ blob ds cfg,
    Descriptors.parse blob = .ok ds ∧ cfg ∈ ds.configs ∧
      ∀ s : DeviceSummary, (s.record cfg).Advertises cfg := by
  have hn : 9 + 9 * 2 ≤ 65535 := by decide
  refine ⟨_, _, (bareConfig 2 hn).tree, parse_bareDevice 2 hn, List.mem_cons_self, fun s => ?_⟩
  refine (advertises_of_parse_iff _ _ _ s (parse_bareDevice 2 hn) List.mem_cons_self).mpr ?_
  refine ⟨7, ?_⟩
  rw [altSettings_bareConfig]
  decide

/-- With all 256 interface numbers in use, the record says 0 and 256 interfaces follow. -/
theorem count_wraps : ∃ blob ds cfg, Descriptors.parse blob = .ok ds ∧ cfg ∈ ds.configs ∧
    ∀ s : DeviceSummary, (s.record cfg).bNumInterfaces = 0 ∧
      (s.record cfg).interfaces.length = 256 ∧ ¬(s.record cfg).Advertises cfg := by
  have hn : 9 + 9 * 256 ≤ 65535 := by decide
  refine ⟨_, _, (bareConfig 256 hn).tree, parse_bareDevice 256 hn, List.mem_cons_self, fun s => ?_⟩
  have hnot : ¬∃ n, ∀ a ∈ (bareConfig 256 hn).tree.altSettings, a.interfaceNumber ≠ n := by
    rw [altSettings_bareConfig]
    rintro ⟨n, hall⟩
    refine hall _ (List.mem_map_of_mem (List.mem_range.mpr n.toNat_lt)) ?_
    exact UInt8.ofNat_toNat
  have hlength : (bareConfig 256 hn).tree.primaryAltSettings.length = 256 := by
    have hle := (bareConfig 256 hn).tree.length_primaryAltSettings_le
    have hge := mt (bareConfig 256 hn).tree.length_primaryAltSettings_lt_iff.mp hnot
    omega
  refine ⟨?_, ?_, mt (s.advertises_record_iff _).mp hnot⟩
  · rw [← UInt8.toNat_inj, s.toNat_bNumInterfaces, hlength]
    rfl
  · rw [s.interfaces_record, List.length_map, hlength]

end Padwire
