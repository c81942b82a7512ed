import Padwire.Server.Endpoints
import Padwire.Server.Listing

/-!
# The device behind a bus id

`SysfsDevices::open` goes from the bus id to the numbers, from these to the node, and asks the node
for what the listing took from sysfs (`open_busid`, `open_node` and `build` in
`usb-backend/src/usbfs.rs`). The bus id of the opened device is looked up once more, by its numbers.
`SingleDevice` has its device from a descriptor that another process opened, and no sysfs to list.

`imported_as_listed` says when a client that imports what it read in the list reads the same record
again: the node may know better than sysfs how fast the device is, and where sysfs has no say in
which configuration is in effect, the device has. `adopted_is_importable` is about the exporter of
a single device, where what the list offers is all there is to import.
-/

namespace Padwire

def DEFAULT_MAX_TRANSFER : ℕ := 1 <<< 20

/-- The errors of opening a device. -/
inductive OpenError
  /-- What the kernel says. -/
  | os
  /-- "no such device: {}" -/
  | noDevice (busid : String)
  /-- "this exporter only offers {}" -/
  | onlyOffers (busid : String)
  /-- "{} is not a /dev/bus/usb/BBB/DDD path" -/
  | notNode (path : String)
  /-- "opening {} for read/write: {e} (install packaging/99-usbfwd.rules, or run as root)" -/
  | opening (path : String)
  /-- "device reports active configuration {}, which it did not describe" -/
  | undescribed (value : UInt8)
  | descriptors (e : DescriptorError)
  deriving DecidableEq, Repr

/-- `enum usb_device_speed`. -/
def Speed.fromRaw (v : UInt32) : Speed :=
  if v = 1 then .low
  else if v = 2 then .full
  else if v = 3 then .high
  else if v = 4 then .wireless
  else if v = 5 then .super
  else if v = 6 then .superPlus
  else .unknown

/-- What an open node answers. -/
structure UsbNode where
  /-- What is read from it, up to the end. -/
  contents : Option Bytes
  /-- `USBDEVFS_GET_SPEED`. -/
  getSpeed : Option UInt32
  /-- `GET_CONFIGURATION`, which goes to the device. -/
  getConfiguration : Option UInt8
  /-- `USBDEVFS_GET_CAPABILITIES`. -/
  getCapabilities : Option UInt32

/-- The buffer of `read_descriptor_blob` has 65536 bytes. -/
def UsbNode.readDescriptorBlob (node : UsbNode) : Option Bytes :=
  node.contents.map (·.take 65536)

/-- A `UsbfsDevice` with what it was opened with. -/
structure OpenDevice where
  summary : DeviceSummary
  descriptors : Descriptors
  device : UsbfsDevice

def OpenDevice.withMaxTransfer (dev : OpenDevice) (n : ℕ) : OpenDevice :=
  { dev with device := { dev.device with maxTransfer := n } }

namespace Sysfs

variable (s : Sysfs)

/-- Which configuration is in effect. sysfs knows; elsewhere the device is asked, and failing both
it is the first. -/
def activeConfig (node : UsbNode) (busid : String) (desc : Descriptors) : UInt8 :=
  (((s.sysfsConfigValue busid).filter fun v => (desc.config v).isSome).or
    ((node.getConfiguration.filter fun v => (desc.config v).isSome).or
      (desc.configs.head?.map ConfigDescriptor.configurationValue))).getD 1

/-- The bus id of a device that sysfs does not know. -/
def plainBusid (busnum devnum : UInt32) : String :=
  String.ofList (padded 10 0 busnum.toNat ++ '-' :: padded 10 0 devnum.toNat)

def build (node : UsbNode) (busnum devnum : UInt32) : Checked OpenError OpenDevice := do
  let blob ← .ofOption .os node.readDescriptorBlob
  let descriptors ← (Descriptors.parse blob).mapErr .descriptors
  let busid := (s.busidFor busnum devnum).getD (plainBusid busnum devnum)
  let configValue := s.activeConfig node busid descriptors
  let config ← .ofOption (.undescribed configValue) (descriptors.config configValue)
  pure {
    summary := {
      busnum, devnum, busid
      sysPath := (s.sysPath busid).getD (nodePath busnum devnum)
      nodePath := nodePath busnum devnum
      speed := ((node.getSpeed.map Speed.fromRaw).or (s.sysfsSpeed busid)).getD .unknown
      device := descriptors.device
      configValue
      interfaces := InterfaceSummary.listFrom config }
    descriptors
    device := .ofConfig config (node.getCapabilities.getD 0) DEFAULT_MAX_TRANSFER }

/-- Open a node by its path, on a machine with the given nodes. -/
def openNode (nodes : String → Option UsbNode) (path : String) : Checked OpenError OpenDevice :=
  match splitNodePath path with
  | none => .err (.notNode path)
  | some (busnum, devnum) => do
    let node ← .ofOption (.opening path) (nodes path)
    s.build node busnum devnum

/-- Resolve a bus id and open its device. -/
def openBusid (nodes : String → Option UsbNode) (busid : String) :
    Checked OpenError OpenDevice := do
  let numbers ← .ofOption (.noDevice busid) (s.numbersForBusid busid)
  s.openNode nodes (nodePath numbers.1 numbers.2)

/-- The numbers of an open descriptor, by the link that the kernel has for it. -/
def numbersForFd (link : Option String) : Option (UInt32 × UInt32) :=
  link.bind splitNodePath

/-- Adopt a descriptor that was opened elsewhere. It is duplicated, which may fail. -/
def fromBorrowedFd (dup : Option UsbNode) (link : Option String) :
    Checked OpenError OpenDevice := do
  let node ← .ofOption .os dup
  let numbers := (numbersForFd link).getD (0, 0)
  s.build node numbers.1 numbers.2

end Sysfs

/-! ### Where exportable devices come from -/

/-- A `DeviceSource`. -/
structure Source where
  list : Checked EnumError (List DeviceSummary)
  «open» : String → Checked OpenError OpenDevice

/-- `SysfsDevices`: list the bus, and open nodes. -/
def SysfsDevices.source (s : Sysfs) (nodes : String → Option UsbNode) (filter : DeviceFilter)
    (maxTransfer : ℕ) : Source where
  list := s.list filter
  «open» busid := do
    let dev ← s.openBusid nodes busid
    pure (dev.withMaxTransfer maxTransfer)

/-- `SingleDevice`: exactly one device, which is open already. -/
def SingleDevice.source (dev : OpenDevice) : Source where
  list := .ok [dev.summary]
  «open» busid :=
    if busid = dev.summary.busid then .ok dev else .err (.onlyOffers dev.summary.busid)

/-- An exporter with this source. A panic ends the connection as an error does. -/
def Source.exporter (src : Source) (acquire : String → Bool) (claimAll : Bool) : Exporter where
  list := src.list.ok?
  acquire
  «open» busid := (src.open busid).ok?.map OpenDevice.summary
  claimAll

/-- What the source lists and opens is on offer while no session has it. -/
theorem Source.exports {src : Source} {acquire : String → Bool} {busid : String}
    {devs : List DeviceSummary} {dev : OpenDevice} (hlist : src.list = .ok devs)
    (hoffered : ∃ d ∈ devs, d.busid = busid) (hfree : acquire busid = true)
    (hopen : src.open busid = .ok dev) :
    (src.exporter acquire true).Exports busid dev.summary where
  listed := ⟨devs, Checked.ok?_eq_some.mpr hlist, hoffered⟩
  free := hfree
  opens := congrArg (fun c => c.ok?.map OpenDevice.summary) hopen
  claimed := rfl

/-! ### Back from the numbers to the bus id -/

namespace Sysfs

variable {s : Sysfs} {busid name : String} {busnum devnum : UInt32} {dev : SysfsDevice}
  {node : UsbNode} {nodes : String → Option UsbNode} {filter : DeviceFilter}

theorem numbersForBusid_eq_some : s.numbersForBusid busid = some (busnum, devnum) ↔
    (s.sysfsAttr busid "busnum").bind parseU32 = some busnum ∧
      (s.sysfsAttr busid "devnum").bind parseU32 = some devnum := by
  rw [numbersForBusid]
  cases (s.sysfsAttr busid "busnum").bind parseU32 <;>
    cases (s.sysfsAttr busid "devnum").bind parseU32 <;> simp

/-- An entry that no other has the numbers of is found by its numbers. -/
theorem busidAmong_eq_some {names : List String} (hmem : name ∈ names)
    (hentry : isDeviceEntry name = true) (hnumbers : s.numbersForBusid name = some (busnum, devnum))
    (hunique : ∀ other ∈ names, (asBytes other).contains 0x3a = false →
      s.numbersForBusid other = some (busnum, devnum) → other = name) :
    s.busidAmong busnum devnum (names.map some) = some name := by
  induction names with
  | nil => cases hmem
  | cons other names ih =>
    rw [List.forall_mem_cons] at hunique
    have hrest : name ≠ other → s.busidAmong busnum devnum (names.map some) = some name :=
      fun hne => ih (List.mem_of_ne_of_mem hne hmem) hunique.2
    rw [List.map_cons, busidAmong]
    split_ifs with hcolon hfound
    · refine hrest fun heq => ?_
      rw [heq, isDeviceEntry, hcolon] at hentry
      exact absurd hentry Bool.false_ne_true
    · rw [hunique.1 (by simpa using hcolon) (numbersForBusid_eq_some.mpr hfound)]
    · refine hrest fun heq => hfound ?_
      rw [← heq]
      exact numbersForBusid_eq_some.mp hnumbers

/-! ### What the node knows better -/

/-- sysfs and the node agree on the speed, and sysfs or the device on the configuration. -/
structure Agrees (s : Sysfs) (node : UsbNode) (name : String) (dev : SysfsDevice) : Prop where
  speed : ∀ v, node.getSpeed = some v → Speed.fromRaw v = (s.sysfsSpeed name).getD .unknown
  config : (∃ v, s.sysfsConfigValue name = some v ∧ (dev.descriptors.config v).isSome) ∨
    ∀ v, node.getConfiguration = some v → (dev.descriptors.config v).isSome →
      v = dev.config.configurationValue

theorem activeConfig_eq_iff {desc : Descriptors} {config : ConfigDescriptor}
    (h : s.inEffect name desc = some config) :
    s.activeConfig node name desc = config.configurationValue ↔
      (∃ v, s.sysfsConfigValue name = some v ∧ (desc.config v).isSome) ∨
      ∀ v, node.getConfiguration = some v → (desc.config v).isSome →
        v = config.configurationValue := by
  rw [activeConfig]
  cases hsysfs : (s.sysfsConfigValue name).filter fun v => (desc.config v).isSome with
  | some v =>
    obtain ⟨hvalue, hdescribed⟩ := Option.filter_eq_some_iff.mp hsysfs
    rw [inEffect, hvalue, Option.bind_some, Option.or_of_isSome hdescribed] at h
    exact iff_of_true (Descriptors.config_value h).symm (.inl ⟨v, hvalue, hdescribed⟩)
  | none =>
    have hnot : ¬ ∃ v, s.sysfsConfigValue name = some v ∧ (desc.config v).isSome := by
      rintro ⟨v, hvalue, hdescribed⟩
      exact Option.filter_eq_none_iff.mp hsysfs v hvalue hdescribed
    have hhead : desc.configs.head? = some config := by
      rw [← h, inEffect]
      cases hvalue : s.sysfsConfigValue name with
      | none => rfl
      | some v =>
        have hnone : desc.config v = none := by
          rw [← Option.not_isSome_iff_eq_none]
          exact fun hdescribed => hnot ⟨v, hvalue, hdescribed⟩
        rw [Option.bind_some, hnone, Option.none_or]
    rw [or_iff_right hnot, Option.none_or, hhead, Option.map_some]
    cases hdevice : node.getConfiguration.filter fun v => (desc.config v).isSome with
    | some v =>
      obtain ⟨hvalue, hdescribed⟩ := Option.filter_eq_some_iff.mp hdevice
      rw [hvalue]
      refine ⟨fun heq v' hv' _ => Option.some.inj hv' ▸ heq, fun hall => hall v rfl hdescribed⟩
    | none =>
      refine iff_of_true rfl fun v hvalue hdescribed => ?_
      exact absurd hdescribed (Option.filter_eq_none_iff.mp hdevice v hvalue)

/-- A device with a configuration has one in effect. -/
theorem exists_activeConfig (s : Sysfs) (node : UsbNode) (name : String) {desc : Descriptors}
    {first : ConfigDescriptor} (h : desc.configs.head? = some first) :
    ∃ active, desc.config (s.activeConfig node name desc) = some active := by
  rw [← Option.isSome_iff_exists, activeConfig]
  generalize hfound : ((s.sysfsConfigValue name).filter fun v => (desc.config v).isSome).or
    ((node.getConfiguration.filter fun v => (desc.config v).isSome).or
      (desc.configs.head?.map ConfigDescriptor.configurationValue)) = found
  cases found with
  | none =>
    rw [Option.or_eq_none_iff, Option.or_eq_none_iff, h] at hfound
    exact absurd hfound.2.2 (Option.some_ne_none _)
  | some v =>
    rw [Option.getD_some]
    rcases Option.or_eq_some_iff.mp hfound with hsysfs | ⟨-, hfound⟩
    · exact (Option.filter_eq_some_iff.mp hsysfs).2
    · rcases Option.or_eq_some_iff.mp hfound with hdevice | ⟨-, hhead⟩
      · exact (Option.filter_eq_some_iff.mp hdevice).2
      · rw [h] at hhead
        rw [← Option.some.inj hhead, Descriptors.config_head h]
        rfl

theorem exists_head_of_inEffect {desc : Descriptors} {config : ConfigDescriptor}
    (h : s.inEffect name desc = some config) : ∃ first, desc.configs.head? = some first := by
  cases hhead : desc.configs.head? with
  | some first => exact ⟨first, rfl⟩
  | none =>
    rw [inEffect, hhead, Option.or_none] at h
    obtain ⟨v, -, hv⟩ := Option.bind_eq_some_iff.mp h
    rw [Descriptors.config_of_head_none hhead v] at hv
    cases hv

/-- The names of the bus and the node of a device, while nobody plugs or unplugs anything. -/
structure Settled (s : Sysfs) (nodes : String → Option UsbNode) (names : List String)
    (name : String) (dev : SysfsDevice) (node : UsbNode) : Prop where
  readDir : s.readDir = .ok (names.map some)
  mem : name ∈ names
  entry : isDeviceEntry name = true
  described : s.Describes name dev
  /-- No other device has its numbers. -/
  unique : ∀ other ∈ names, (asBytes other).contains 0x3a = false →
    s.numbersForBusid other = some (dev.busnum, dev.devnum) → other = name
  opens : nodes (nodePath dev.busnum dev.devnum) = some node
  /-- The kernel has the same descriptors in both places. -/
  contents : node.contents = s.file name "descriptors"
  fits : ∀ bytes, node.contents = some bytes → bytes.length ≤ 65536

/-- The device under a bus id, as it is opened with the given configuration. -/
def opened (s : Sysfs) (node : UsbNode) (name : String) (dev : SysfsDevice)
    (active : ConfigDescriptor) : DeviceSummary :=
  { s.summary name dev with
    speed := ((node.getSpeed.map Speed.fromRaw).or (s.sysfsSpeed name)).getD .unknown
    configValue := active.configurationValue
    interfaces := InterfaceSummary.listFrom active }

theorem Settled.busidFor_eq {names : List String} (h : Settled s nodes names name dev node) :
    s.busidFor dev.busnum dev.devnum = some name := by
  rw [busidFor, h.readDir]
  exact busidAmong_eq_some h.mem h.entry h.described.numbers h.unique

/-- What is made of a node whose descriptors can be parsed. -/
theorem build_eq {blob : Bytes} {desc : Descriptors} {active : ConfigDescriptor}
    (hread : node.readDescriptorBlob = some blob) (hparse : Descriptors.parse blob = .ok desc)
    (hbusid : (s.busidFor busnum devnum).getD (plainBusid busnum devnum) = busid)
    (hactive : desc.config (s.activeConfig node busid desc) = some active) :
    s.build node busnum devnum = .ok {
      summary := {
        busnum, devnum, busid
        sysPath := (s.sysPath busid).getD (nodePath busnum devnum)
        nodePath := nodePath busnum devnum
        speed := ((node.getSpeed.map Speed.fromRaw).or (s.sysfsSpeed busid)).getD .unknown
        device := desc.device
        configValue := s.activeConfig node busid desc
        interfaces := InterfaceSummary.listFrom active }
      descriptors := desc
      device := .ofConfig active (node.getCapabilities.getD 0) DEFAULT_MAX_TRANSFER } := by
  rw [build, hread, Checked.ofOption_some, Checked.ok_bind, hparse, Checked.mapErr_ok,
    Checked.ok_bind, hbusid]
  simp only [hactive, Checked.ofOption_some, Checked.ok_bind, Checked.pure_eq]

/-- **The device that is opened** is the one that sysfs describes. -/
theorem Settled.openBusid_eq {names : List String} (h : Settled s nodes names name dev node) :
    ∃ active,
      dev.descriptors.config (s.activeConfig node name dev.descriptors) = some active ∧
      s.openBusid nodes name = .ok {
        summary := s.opened node name dev active
        descriptors := dev.descriptors
        device := .ofConfig active (node.getCapabilities.getD 0) DEFAULT_MAX_TRANSFER } := by
  obtain ⟨first, hfirst⟩ := exists_head_of_inEffect h.described.config
  obtain ⟨active, hactive⟩ := exists_activeConfig s node name hfirst
  obtain ⟨blob, hblob, hparse⟩ := h.described.descriptors
  have hread : node.readDescriptorBlob = some blob := by
    have hcontents := h.contents.trans hblob
    rw [UsbNode.readDescriptorBlob, hcontents, Option.map_some,
      List.take_of_length_le (h.fits blob hcontents)]
  have hbusid : (s.busidFor dev.busnum dev.devnum).getD (plainBusid dev.busnum dev.devnum) =
      name := by rw [h.busidFor_eq, Option.getD_some]
  refine ⟨active, hactive, ?_⟩
  rw [openBusid, h.described.numbers, Checked.ofOption_some, Checked.ok_bind, openNode,
    splitNodePath_nodePath]
  dsimp only
  rw [h.opens, Checked.ofOption_some, Checked.ok_bind, build_eq hread hparse hbusid hactive,
    ← Descriptors.config_value hactive]
  rfl

theorem exists_shown_of_mem {names : List String} {listed : List UsbDevice}
    (h : List.Forall₂ (fun name l => ∃ dev, s.Shows name dev l) names listed)
    (hmem : name ∈ names) : ∃ l ∈ listed, ∃ dev, s.Shows name dev l := by
  induction h with
  | nil => cases hmem
  | @cons other l names listed hl hrest ih =>
    rcases List.mem_cons.mp hmem with rfl | hmem
    · exact ⟨l, List.mem_cons_self, hl⟩
    · obtain ⟨l', hl', hshown⟩ := ih hmem
      exact ⟨l', List.mem_cons_of_mem l hl', hshown⟩

theorem Speed.toUInt32_injective {a b : Speed} (h : a.toUInt32 = b.toUInt32) : a = b := by
  cases a <;> cases b <;> first | rfl | cases h

open scoped Classical in
/-- A device at rest is on the list, and in the record that a client reads of it. -/
theorem Settled.exists_listed {names : List String} (h : Settled s nodes names name dev node)
    (hadmits : filter.admits (s.summary name dev) = true)
    (hparses : ∀ other ∈ names, s.Parses other) (hlen : names.length ≤ MAX_DEVLIST)
    (hshort : (asBytes name).length < BUSID_LEN) :
    ∃ devs listed, s.list filter = .ok devs ∧ (∃ d ∈ devs, d.busid = name) ∧
      readDevlistReply.run (encodeDevlistReply (devs.map DeviceSummary.toUsbip)) =
        .ok (listed, []) ∧
      ∃ l ∈ listed, l.busid = name ∧ s.Shows name dev l := by
  have hnames : (names.map some).reduceOption = names :=
    (show (names.map some).filterMap id = names from List.filterMap_map.trans List.filterMap_some)
  obtain ⟨devs, hlist⟩ := (exists_list_iff h.readDir filter).mpr (by rwa [hnames])
  obtain ⟨-, hperm, hdevs⟩ := list_spec h.readDir hlist
  obtain ⟨listed, hreceived, hshown, -⟩ := exists_received hdevs
  rw [hnames] at hperm
  have hmem : name ∈ devs.map DeviceSummary.busid :=
    hperm.mem_iff.mpr (List.mem_filter.mpr
      ⟨h.mem, decide_eq_true ⟨h.entry, dev, h.described, hadmits⟩⟩)
  have hcount : devs.length ≤ MAX_DEVLIST := by
    have hle := hperm.length_eq.le.trans (List.length_filter_le _ names)
    rw [List.length_map] at hle
    exact hle.trans hlen
  have hread := run_encodeDevlistReply (by rwa [List.length_map]) hreceived
  obtain ⟨l, hl, dev', hdev'⟩ := exists_shown_of_mem hshown hmem
  obtain rfl := h.described.unique hdev'.described
  have hbusid : l.busid = name := by
    apply asBytes_injective
    rw [hdev'.busid, List.take_of_length_le (Nat.le_sub_one_of_lt hshort)]
  exact ⟨devs, listed, hlist, List.mem_map.mp hmem, hread, l, hl, hbusid, hdev'⟩

/-- The configuration in effect is the first with its value. -/
theorem config_of_inEffect {desc : Descriptors} {config : ConfigDescriptor}
    (h : s.inEffect name desc = some config) :
    desc.config config.configurationValue = some config := by
  have hfound := (config_inEffect s name desc).trans h
  rwa [← Descriptors.config_value hfound] at hfound

/-- The record of the opened device is that of the listed one exactly if the two agree. -/
theorem record_opened_eq_iff {active : ConfigDescriptor}
    (hdev : s.inEffect name dev.descriptors = some dev.config)
    (hactive : dev.descriptors.config (s.activeConfig node name dev.descriptors) = some active) :
    { (s.opened node name dev active).toUsbip with interfaces := [] } =
        { (s.summary name dev).toUsbip with interfaces := [] } ↔
      s.Agrees node name dev := by
  have hvalue := Descriptors.config_value hactive
  have hconfig : s.activeConfig node name dev.descriptors = dev.config.configurationValue ↔ _ :=
    activeConfig_eq_iff hdev
  rw [← hvalue] at hconfig
  have hspeed : ((node.getSpeed.map Speed.fromRaw).or (s.sysfsSpeed name)).getD .unknown =
      (s.sysfsSpeed name).getD .unknown ↔
        ∀ v, node.getSpeed = some v → Speed.fromRaw v = (s.sysfsSpeed name).getD .unknown := by
    cases node.getSpeed with
    | none => simp
    | some v => simp
  constructor
  · intro heq
    have hraw := congrArg UsbDevice.speed heq
    exact ⟨hspeed.mp (Speed.toUInt32_injective hraw),
      hconfig.mp (congrArg UsbDevice.bConfigurationValue heq)⟩
  · rintro ⟨hsame, hagree⟩
    have hinEffect := config_of_inEffect hdev
    rw [← hconfig.mpr hagree, hvalue, hactive] at hinEffect
    rw [Option.some.inj hinEffect, opened, hspeed.mpr hsame]
    rfl

/-- **A client imports what it read in the list.** Let a device be at rest, admitted by the filter,
and free. The client reads a record for it in the list, asks for it by the bus id in the record,
and gets the device with a record that differs in nothing, exactly if the node and sysfs agree. -/
theorem imported_as_listed {names : List String} (h : Settled s nodes names name dev node)
    (hadmits : filter.admits (s.summary name dev) = true)
    (hparses : ∀ other ∈ names, s.Parses other) (hlen : names.length ≤ MAX_DEVLIST)
    (hshort : (asBytes name).length < BUSID_LEN) {acquire : String → Bool}
    (hfree : acquire name = true) (maxTransfer : ℕ) (more after : Bytes) :
    let x := (SysfsDevices.source s nodes filter maxTransfer).exporter acquire true
    ∃ out listed, x.handle (encodeDevlistRequest ++ more) = (out, .closed) ∧
      readDevlistReply.run out = .ok (listed, []) ∧
      ∃ l ∈ listed, l.busid = name ∧ ∃ reply opened r,
        x.handle (encodeImportRequest l.busid ++ more) = (reply, .serving opened more) ∧
        readImportReply.run (reply ++ after) = .ok (r, after) ∧
        (r = { l with interfaces := [] } ↔ s.Agrees node name dev) := by
  intro x
  obtain ⟨devs, listed, hlist, hoffered, hread, l, hl, hbusid, hshown⟩ :=
    h.exists_listed hadmits hparses hlen hshort
  obtain ⟨active, hactive, hopen⟩ := h.openBusid_eq
  have hdevs : x.list = some devs := Checked.ok?_eq_some.mpr hlist
  have hsource : (SysfsDevices.source s nodes filter maxTransfer).open name =
      s.openBusid nodes name >>= fun dev => pure (dev.withMaxTransfer maxTransfer) := rfl
  rw [hopen, Checked.ok_bind, Checked.pure_eq] at hsource
  have hexports : x.Exports name (s.opened node name dev active) :=
    Source.exports hlist hoffered hfree hsource
  have hnul := nul_not_mem_of_ascii (ascii_of_isValidBusid h.described.valid)
  obtain ⟨hpath, hfits⟩ := s.path_fits name dev.busnum dev.devnum
  have hreceived : (s.opened node name dev active).toUsbip.Received _ :=
    UsbDevice.received_of_fits hfits (nul_not_mem_of_ascii hpath) hshort hnul
  have himport := (x.handle_import hshort hnul more).trans (hexports.importDevice_eq more)
  refine ⟨_, listed, x.handle_devlist hdevs more, hread, l, hl, hbusid, _,
    s.opened node name dev active, _, hbusid ▸ himport, accepts_readImportReply hreceived after, ?_⟩
  have hlisted : { l with interfaces := [] } =
      { (s.summary name dev).toUsbip with interfaces := [] } := by
    rw [hshown.record, hbusid]
    rfl
  rw [hlisted, ← record_opened_eq_iff h.described.config hactive]

/-! ### A controller at rest -/

/-- The bus of `deskBus` while all of its entries can be read. -/
def restBus : Sysfs :=
  { deskBus with readDir := .ok (["usb1", "1-2", "1-2:1.0", "1-3"].map some) }

/-- The node of the controller, which knows its speed. -/
def restNode : UsbNode where
  contents := controllerFile "descriptors"
  getSpeed := some 3
  getConfiguration := none
  getCapabilities := some 0

def restNodes (path : String) : Option UsbNode :=
  if path = "/dev/bus/usb/001/007" then some restNode else none

theorem settled_restBus : Settled restBus restNodes ["usb1", "1-2", "1-2:1.0", "1-3"] "1-2"
    deskController restNode where
  readDir := rfl
  mem := by decide
  entry := by decide +kernel
  described := ⟨describes_deskController.valid, describes_deskController.descriptors,
    describes_deskController.numbers, describes_deskController.config⟩
  unique := by decide +kernel
  opens := if_pos (by decide +kernel)
  contents := rfl
  fits := by
    rintro _ ⟨⟩
    decide +kernel

theorem agrees_restBus : restBus.Agrees restNode "1-2" deskController where
  speed := by
    rintro _ ⟨⟩
    decide +kernel
  config := .inl ⟨1, by decide +kernel, by decide +kernel⟩

/-- An exporter on this machine, with no other session. -/
def restExporter : Exporter :=
  (SysfsDevices.source restBus restNodes .default 4096).exporter Exporter.puckExporter.acquire true

theorem imported_as_listed_desk : ∃ (l : UsbDevice) (reply : Bytes) (opened : DeviceSummary),
    restExporter.handle (encodeImportRequest l.busid ++ [1, 2]) =
      (reply, .serving opened [1, 2]) ∧
    l.busid = "1-2" ∧
    readImportReply.run (reply ++ [3]) = .ok ({ l with interfaces := [] }, [3]) := by
  obtain ⟨out, listed, -, -, l, -, hbusid, reply, opened, r, himport, hread, hsame⟩ :=
    imported_as_listed settled_restBus
      (show DeviceFilter.default.admits (restBus.summary "1-2" deskController) = true by
        decide +kernel)
      (fun other _ => parses_deskBus other) (by decide) (by decide +kernel)
      (show Exporter.puckExporter.acquire "1-2" = true from rfl) 4096 [1, 2] [3]
  rw [hsame.mpr agrees_restBus] at hread
  exact ⟨l, reply, opened, himport, hbusid, hread⟩

/-! ### A single device -/

theorem isValidBusid_of_sysfsAttr {attr : String} {text : List Char}
    (h : s.sysfsAttr busid attr = some text) : isValidBusid busid = true := by
  rw [sysfsAttr] at h
  split_ifs at h with hvalid
  simpa using hvalid

/-- What is found by its numbers has a valid name. -/
theorem isValidBusid_of_busidAmong {entries : List (Option String)}
    (h : s.busidAmong busnum devnum entries = some busid) : isValidBusid busid = true := by
  induction entries with
  | nil => cases h
  | cons entry entries ih =>
    cases entry with
    | none => cases h
    | some name =>
      rw [busidAmong] at h
      split_ifs at h with hcolon hfound
      · exact ih h
      · obtain ⟨text, htext, -⟩ := Option.bind_eq_some_iff.mp hfound.1
        exact Option.some.inj h ▸ isValidBusid_of_sysfsAttr htext
      · exact ih h

theorem plainBusid_fits (busnum devnum : UInt32) :
    (∀ b ∈ asBytes (plainBusid busnum devnum), b ≠ 0 ∧ b < 0x80) ∧
    (asBytes (plainBusid busnum devnum)).length < BUSID_LEN := by
  have hdigits : ∀ n : UInt32, IsAscii (padded 10 0 n.toNat) :=
    forall_mem_decimal (p := fun c => 0 < c.toNat ∧ c.toNat < 0x80) (by decide) 0
  have hascii : IsAscii (plainBusid busnum devnum).toList := by
    rw [plainBusid, String.toList_ofList, isAscii_append, isAscii_cons]
    exact ⟨hdigits busnum, by decide, hdigits devnum⟩
  have hbusnum := length_decimal_le (show 0 ≤ 10 by decide) busnum
  have hdevnum := length_decimal_le (show 0 ≤ 10 by decide) devnum
  refine ⟨hascii.bytes, ?_⟩
  rw [hascii.length_asBytes, plainBusid, String.toList_ofList, List.length_append,
    List.length_cons, BUSID_LEN]
  omega

/-- The bus id and the path of a device that `build` returns. -/
theorem build_eq_ok {dev : OpenDevice} (h : s.build node busnum devnum = .ok dev) :
    dev.summary.busid = (s.busidFor busnum devnum).getD (plainBusid busnum devnum) ∧
    dev.summary.sysPath = (s.sysPath dev.summary.busid).getD (nodePath busnum devnum) := by
  rw [build] at h
  obtain ⟨blob, -, h⟩ := Checked.bind_eq_ok.mp h
  obtain ⟨desc, -, h⟩ := Checked.bind_eq_ok.mp h
  obtain ⟨config, -, h⟩ := Checked.bind_eq_ok.mp h
  cases h
  exact ⟨rfl, rfl⟩

/-- The record of a device that is built fits, if sysfs has a short name for it or none. -/
theorem received_of_build {dev : OpenDevice} (h : s.build node busnum devnum = .ok dev)
    (hshort : ∀ busid, s.busidFor busnum devnum = some busid →
      (asBytes busid).length < BUSID_LEN) :
    ((asBytes dev.summary.busid).length < BUSID_LEN ∧ (0 : UInt8) ∉ asBytes dev.summary.busid) ∧
    dev.summary.toUsbip.Received
      { dev.summary.toUsbip with interfaces := dev.summary.toUsbip.listed } := by
  obtain ⟨hbusid, hpath⟩ := build_eq_ok h
  have hfits : (∀ b ∈ asBytes dev.summary.busid, b ≠ 0 ∧ b < 0x80) ∧
      (asBytes dev.summary.busid).length < BUSID_LEN := by
    cases hfound : s.busidFor busnum devnum with
    | none =>
      rw [hbusid, hfound]
      exact plainBusid_fits busnum devnum
    | some found =>
      rw [hbusid, hfound, Option.getD_some]
      refine ⟨ascii_of_isValidBusid ?_, hshort found hfound⟩
      rw [busidFor] at hfound
      split at hfound
      · exact isValidBusid_of_busidAmong hfound
      · cases hfound
  obtain ⟨hascii, hlength⟩ := s.path_fits dev.summary.busid busnum devnum
  rw [← hpath] at hascii hlength
  have hnul := nul_not_mem_of_ascii hfits.1
  exact ⟨⟨hfits.2, hnul⟩, UsbDevice.received_of_fits hlength (nul_not_mem_of_ascii hascii)
    hfits.2 hnul⟩

/-- **What a single device offers can be imported.** Let a descriptor be adopted, whatever sysfs
and the kernel say about it. A client that asks for the list reads one record, asks for the device
by the bus id in it, and gets it with the same record; every other bus id is refused. -/
theorem adopted_is_importable {dup : Option UsbNode} {link : Option String} {dev : OpenDevice}
    (h : s.fromBorrowedFd dup link = .ok dev)
    (hshort : ∀ busid, s.busidFor ((numbersForFd link).getD (0, 0)).1
      ((numbersForFd link).getD (0, 0)).2 = some busid → (asBytes busid).length < BUSID_LEN)
    {acquire : String → Bool} (hfree : acquire dev.summary.busid = true) (more after : Bytes) :
    let x := (SingleDevice.source dev).exporter acquire true
    (∃ out l reply, x.handle (encodeDevlistRequest ++ more) = (out, .closed) ∧
      readDevlistReply.run out = .ok ([l], []) ∧
      x.handle (encodeImportRequest l.busid ++ more) = (reply, .serving dev.summary more) ∧
      readImportReply.run (reply ++ after) = .ok ({ l with interfaces := [] }, after)) ∧
    ∀ busid, (asBytes busid).length < BUSID_LEN → (0 : UInt8) ∉ asBytes busid →
      busid ≠ dev.summary.busid → ∃ reply,
        x.handle (encodeImportRequest busid ++ more) = (reply, .closed) ∧
        readImportReply.run reply = .error (.refused ST_NA) := by
  intro x
  obtain ⟨node, -, hbuild⟩ := Checked.bind_eq_ok.mp h
  obtain ⟨⟨hlength, hnul⟩, hreceived⟩ := received_of_build hbuild hshort
  have hlist : x.list = some [dev.summary] := rfl
  have hexports : x.Exports dev.summary.busid dev.summary :=
    Source.exports (show (SingleDevice.source dev).list = .ok [dev.summary] from rfl)
      ⟨dev.summary, List.mem_singleton_self _, rfl⟩ hfree (if_pos rfl)
  have himport := (x.handle_import hlength hnul more).trans (hexports.importDevice_eq more)
  refine ⟨⟨_, { dev.summary.toUsbip with interfaces := dev.summary.toUsbip.listed }, _,
    x.handle_devlist hlist more, ?_, himport, accepts_readImportReply hreceived after⟩,
    fun busid hshort' hnul' hne => ?_⟩
  · exact run_encodeDevlistReply (show [dev.summary.toUsbip].length ≤ MAX_DEVLIST from
      show 1 ≤ MAX_DEVLIST by decide) (.cons hreceived .nil)
  · have hno : ∀ dev', ¬ x.Exports busid dev' := by
      intro dev' hdev'
      have hnone : (SingleDevice.source dev).open busid = .err (.onlyOffers dev.summary.busid) :=
        if_neg hne
      have hopens := hdev'.opens
      rw [show x.open busid = none from congrArg (fun c => c.ok?.map OpenDevice.summary) hnone]
        at hopens
      cases hopens
    exact ⟨_, (x.handle_import hshort' hnul' more).trans
      (Exporter.importDevice_of_not_exports hlist hno more), run_encodeImportReply_none⟩

/-- A tablet, where sysfs cannot be read. -/
def tabletSysfs : Sysfs where
  readDir := .error .other
  file _ _ := none
  present _ := false

theorem exists_adopted : ∃ dev,
    tabletSysfs.fromBorrowedFd (some restNode) (some "/dev/bus/usb/001/007") = .ok dev ∧
      dev.summary.busid = "1-7" := by
  have hnumbers : (numbersForFd (some "/dev/bus/usb/001/007")).getD (0, 0) = (1, 7) := by
    decide +kernel
  have hread : restNode.readDescriptorBlob = some (bareDevice 2 (by decide)).bytes := by
    decide +kernel
  have hbusid : (tabletSysfs.busidFor 1 7).getD (plainBusid 1 7) = "1-7" := by decide +kernel
  have hactive : (bareDevice 2 (by decide)).tree.config
      (tabletSysfs.activeConfig restNode "1-7" (bareDevice 2 (by decide)).tree) =
        some (bareConfig 2 (by decide)).tree := by decide +kernel
  have hadopted : tabletSysfs.fromBorrowedFd (some restNode) (some "/dev/bus/usb/001/007") =
      tabletSysfs.build restNode 1 7 := by
    rw [fromBorrowedFd, Checked.ofOption_some, Checked.ok_bind, hnumbers]
  exact ⟨_, hadopted.trans (build_eq hread (parse_bareDevice 2 (by decide)) hbusid hactive), rfl⟩

theorem adopted_is_importable_tablet : ∃ (dev : OpenDevice) (out reply : Bytes) (l : UsbDevice),
    tabletSysfs.fromBorrowedFd (some restNode) (some "/dev/bus/usb/001/007") = .ok dev ∧
    dev.summary.busid = "1-7" ∧
    ((SingleDevice.source dev).exporter Exporter.puckExporter.acquire true).handle
      (encodeDevlistRequest ++ [1, 2]) = (out, .closed) ∧
    readDevlistReply.run out = .ok ([l], []) ∧
    ((SingleDevice.source dev).exporter Exporter.puckExporter.acquire true).handle
      (encodeImportRequest l.busid ++ [1, 2]) = (reply, .serving dev.summary [1, 2]) ∧
    readImportReply.run (reply ++ [3]) = .ok ({ l with interfaces := [] }, [3]) := by
  obtain ⟨dev, hdev, hbusid⟩ := exists_adopted
  have hnone : ∀ busid, tabletSysfs.busidFor
      ((numbersForFd (some "/dev/bus/usb/001/007")).getD (0, 0)).1
      ((numbersForFd (some "/dev/bus/usb/001/007")).getD (0, 0)).2 = some busid →
        (asBytes busid).length < BUSID_LEN := by
    intro busid h
    cases h
  obtain ⟨⟨out, l, reply, hlist, hread, himport, hback⟩, -⟩ :=
    adopted_is_importable hdev hnone
      (show Exporter.puckExporter.acquire dev.summary.busid = true from rfl) [1, 2] [3]
  exact ⟨dev, out, reply, l, hdev, hbusid, hlist, hread, himport, hback⟩

end Sysfs

end Padwire
