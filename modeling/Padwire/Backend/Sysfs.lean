import Padwire.Backend.Enumerate
import Padwire.Backend.Summary
import Padwire.Lib.Ascii
import Padwire.Lib.Numeral

/-!
# The bus as sysfs describes it

`usb-backend/src/enumerate.rs` whole, where `Padwire.Backend.Enumerate` keeps what the allow-list
needs: from the files under `/sys/bus/usb/devices` to the summaries of the devices that a server
exports, and from the numbers of a device to its node and back.

What a look at sysfs finds is a parameter (`Sysfs`): the entries of the directory, and for each
file its bytes, if it can be read. A device may be unplugged at any time, so any of the reads may
fail while others succeed. The descriptors are what the device sent, and parsing them may panic.

`summaryFromSysfs_eq_ok_iff` says when sysfs describes a device and as what, and `list_spec` that
the list has all of them that the filter admits, in the order of their numbers, and no others.
-/

namespace Padwire

def USB_DEV_DIR : String := "/dev/bus/usb"

def SYSFS_USB_DEVICES : String := "/sys/bus/usb/devices"

/-- The errors of a listing. -/
inductive EnumError
  /-- What the file system says. -/
  | os
  /-- "/sys/bus/usb/devices is missing; is this a Linux host with usbcore loaded?" -/
  | noSysfs
  /-- "{busid:?} is not a usable sysfs bus id" -/
  | badBusid (busid : String)
  /-- "{busid} has no busnum/devnum in sysfs" -/
  | noNumbers (busid : String)
  /-- "active configuration {} is not among the device's descriptors" -/
  | noConfig (value : UInt8)
  | descriptors (e : DescriptorError)
  deriving DecidableEq, Repr

/-! ### Numbers, speeds and nodes -/

/-- The text of a decimal `u32`. -/
def parseU32 (text : List Char) : Option UInt32 :=
  (parseUnsigned 10 0xffffffff text).map UInt32.ofNat

/-- The text of a decimal `u8`. -/
def parseU8 (text : List Char) : Option UInt8 :=
  (parseUnsigned 10 0xff text).map UInt8.ofNat

/-- The sysfs `speed` attribute is a bit rate in Mbit/s. -/
def Speed.fromSysfs (text : List Char) : Speed :=
  let rate := String.ofList (trim text)
  if rate = "1.5" then .low
  else if rate = "12" then .full
  else if rate = "480" then .high
  else if rate = "5000" then .super
  else if rate = "10000" ∨ rate = "20000" then .superPlus
  else .unknown

/-- `/dev/bus/usb/BBB/DDD`. -/
def nodePath (busnum devnum : UInt32) : String :=
  USB_DEV_DIR ++ String.ofList
    ('/' :: (padded 10 3 busnum.toNat ++ '/' :: padded 10 3 devnum.toNat))

/-- The names that a path goes through. -/
def pathComponents (path : String) : List (List Char) :=
  (path.toList.splitOn '/').filter fun c => c ≠ [] ∧ c ≠ ['.']

/-- `file_name`, of a path with the given components. -/
def fileName (components : List (List Char)) : Option (List Char) :=
  components.getLast?.filter (· ≠ ['.', '.'])

/-- Recover the numbers from a `/dev/bus/usb/BBB/DDD` path. -/
def splitNodePath (path : String) : Option (UInt32 × UInt32) := do
  let components := pathComponents path
  let devnum ← (fileName components).bind parseU32
  let busnum ← (fileName components.dropLast).bind parseU32
  pure (busnum, devnum)

/-! ### The files of sysfs -/

/-- Why the directory cannot be read. -/
inductive ReadDirError
  | notFound
  | other
  deriving DecidableEq, Repr

/-- What a look at sysfs finds. -/
structure Sysfs where
  /-- The names in `/sys/bus/usb/devices`; an entry may fail. -/
  readDir : Except ReadDirError (List (Option String))
  /-- The bytes of a file, by the name of its directory and its own. -/
  file : String → String → Option Bytes
  /-- Whether there is a directory of this name. -/
  present : String → Bool

/-- The descriptors of the configuration with the given value. -/
def Descriptors.config (desc : Descriptors) (value : UInt8) : Option ConfigDescriptor :=
  desc.configs.find? fun c => c.configurationValue == value

/-- The order of the list: by bus number, and by device number on each bus. -/
def DeviceSummary.NotAfter (d d' : DeviceSummary) : Prop :=
  d.busnum < d'.busnum ∨ d.busnum = d'.busnum ∧ d.devnum ≤ d'.devnum

instance : DecidableRel DeviceSummary.NotAfter :=
  fun _ _ => inferInstanceAs (Decidable (_ ∨ _))

/-- The filter on a listed device: it matches the vendor and product id. -/
def DeviceFilter.admits (filter : DeviceFilter) (d : DeviceSummary) : Bool :=
  filter.matches d.device.idVendor d.device.idProduct

namespace Sysfs

variable (s : Sysfs)

def sysfsAttr (busid attr : String) : Option (List Char) :=
  if !isValidBusid busid then none
  else ((s.file busid attr).bind fromUtf8).map fun text => trim text.toList

def sysfsConfigValue (busid : String) : Option UInt8 :=
  (s.sysfsAttr busid "bConfigurationValue").bind parseU8

def sysfsSpeed (busid : String) : Option Speed :=
  (s.sysfsAttr busid "speed").map Speed.fromSysfs

def numbersForBusid (busid : String) : Option (UInt32 × UInt32) := do
  let busnum ← (s.sysfsAttr busid "busnum").bind parseU32
  let devnum ← (s.sysfsAttr busid "devnum").bind parseU32
  pure (busnum, devnum)

/-- The entry with the given numbers. An entry that fails ends the search. -/
def busidAmong (busnum devnum : UInt32) : List (Option String) → Option String
  | [] => none
  | none :: _ => none
  | some name :: entries =>
    -- an interface, not a device
    if (asBytes name).contains 0x3a then busidAmong busnum devnum entries
    else if (s.sysfsAttr name "busnum").bind parseU32 = some busnum ∧
        (s.sysfsAttr name "devnum").bind parseU32 = some devnum then some name
    else busidAmong busnum devnum entries

def busidFor (busnum devnum : UInt32) : Option String :=
  match s.readDir with
  | .ok entries => s.busidAmong busnum devnum entries
  | .error _ => none

def sysPath (busid : String) : Option String :=
  if isValidBusid busid && s.present busid then some (SYSFS_USB_DEVICES ++ "/" ++ busid) else none

/-! ### Summaries -/

/-- A summary from descriptors that are already parsed. -/
def summarize (desc : Descriptors) (configValue : UInt8) (busnum devnum : UInt32)
    (busid : String) : Checked EnumError DeviceSummary := do
  let config ← .ofOption (.noConfig configValue) (desc.config configValue)
  let node := nodePath busnum devnum
  pure { busnum, devnum, busid
         sysPath := (s.sysPath busid).getD node
         nodePath := node
         speed := .unknown
         device := desc.device
         configValue
         interfaces := InterfaceSummary.listFrom config }

/-- Describe one device by sysfs alone. -/
def summaryFromSysfs (busid : String) : Checked EnumError DeviceSummary :=
  if !isValidBusid busid then .err (.badBusid busid)
  else do
    let blob ← .ofOption .os (s.file busid "descriptors")
    let desc ← (Descriptors.parse blob).mapErr .descriptors
    let numbers ← .ofOption (.noNumbers busid) (s.numbersForBusid busid)
    let configValue :=
      (((s.sysfsConfigValue busid).filter fun v => (desc.config v).isSome).or
        (desc.configs.head?.map ConfigDescriptor.configurationValue)).getD 1
    let d ← s.summarize desc configValue numbers.1 numbers.2 busid
    pure { d with speed := (s.sysfsSpeed busid).getD .unknown }

/-- One round of `list_all`. A device that is unplugged during the scan is no error. -/
def listEntry (out : List DeviceSummary) (name : String) :
    Checked EnumError (List DeviceSummary) :=
  if !isDeviceEntry name then pure out
  else do
    let d ← (s.summaryFromSysfs name).attempt
    pure (out ++ d.toList)

/-- Every device that sysfs knows about, in the order of their numbers. -/
def listAll : Checked EnumError (List DeviceSummary) :=
  match s.readDir with
  | .error .notFound => .err .noSysfs
  | .error .other => .err .os
  | .ok entries => do
    let out ← entries.reduceOption.foldlM s.listEntry []
    pure (out.insertionSort DeviceSummary.NotAfter)

/-- The exportable devices: everything that the allow-list admits. -/
def list (filter : DeviceFilter) : Checked EnumError (List DeviceSummary) := do
  let devs ← s.listAll
  pure (devs.filter filter.admits)

end Sysfs

/-! ### Paths of nodes -/

theorem parseU32_padded (width : ℕ) (n : UInt32) : parseU32 (padded 10 width n.toNat) = some n := by
  rw [parseU32, parseUnsigned_padded (by decide) (by decide) width (Nat.le_of_lt_succ n.toNat_lt),
    Option.map_some, UInt32.ofNat_toNat]

theorem forall_mem_decimal {p : Char → Prop} (h : ∀ d < 16, p d.digitChar) (width : ℕ)
    (n : UInt32) : ∀ c ∈ padded 10 width n.toNat, p c :=
  forall_mem_padded (by decide) (by decide) h width n.toNat

theorem not_mem_decimal {c : Char} (h : ∀ d < 16, d.digitChar ≠ c) (width : ℕ) (n : UInt32) :
    c ∉ padded 10 width n.toNat :=
  fun hmem => forall_mem_decimal (p := (· ≠ c)) h width n c hmem rfl

/-- A `u32` has at most ten digits. -/
theorem length_decimal_le {width : ℕ} (hwidth : width ≤ 10) (n : UInt32) :
    (padded 10 width n.toNat).length ≤ 10 := by
  rw [padded, List.length_leftpad, Nat.max_le]
  refine ⟨hwidth, (Nat.length_toDigits_le_iff (by decide) (by decide)).mpr ?_⟩
  exact n.toNat_lt.trans (by decide)

theorem toList_nodePath (busnum devnum : UInt32) : (nodePath busnum devnum).toList =
    USB_DEV_DIR.toList ++
      '/' :: (padded 10 3 busnum.toNat ++ '/' :: padded 10 3 devnum.toNat) := by
  rw [nodePath, String.toList_append, String.toList_ofList]

theorem pathComponents_nodePath (busnum devnum : UInt32) :
    pathComponents (nodePath busnum devnum) =
      ["dev".toList, "bus".toList, "usb".toList, padded 10 3 busnum.toNat,
        padded 10 3 devnum.toNat] := by
  have hslash : ∀ n : UInt32, '/' ∉ padded 10 3 n.toNat := not_mem_decimal (by decide) 3
  have hname : ∀ n : UInt32, padded 10 3 n.toNat ≠ [] ∧ padded 10 3 n.toNat ≠ ['.'] := by
    refine fun n => ⟨List.append_ne_nil_of_right_ne_nil _ Nat.toDigits_ne_nil, fun heq => ?_⟩
    exact not_mem_decimal (c := '.') (by decide) 3 n (heq ▸ List.mem_singleton_self _)
  have hdir : (USB_DEV_DIR.toList.splitOn '/').filter (fun c => c ≠ [] ∧ c ≠ ['.']) =
      ["dev".toList, "bus".toList, "usb".toList] := by decide
  have hnumbers : [padded 10 3 busnum.toNat, padded 10 3 devnum.toNat].filter
      (fun c => c ≠ [] ∧ c ≠ ['.']) = [padded 10 3 busnum.toNat, padded 10 3 devnum.toNat] := by
    rw [List.filter_eq_self, List.forall_mem_cons, List.forall_mem_singleton]
    exact ⟨decide_eq_true (hname busnum), decide_eq_true (hname devnum)⟩
  rw [pathComponents, toList_nodePath, List.splitOn_append_cons_self,
    List.splitOn_append_cons_self_of_not_mem (hslash busnum),
    List.splitOn_eq_singleton (hslash devnum), List.filter_append, hdir, hnumbers]
  rfl

theorem fileName_decimal (before : List (List Char)) (n : UInt32) :
    (fileName (before ++ [padded 10 3 n.toNat])).bind parseU32 = some n := by
  have hname : padded 10 3 n.toNat ≠ ['.', '.'] := by
    intro heq
    exact not_mem_decimal (c := '.') (by decide) 3 n (heq ▸ List.mem_cons_self)
  rw [fileName, List.getLast?_concat, Option.filter_some, if_pos (decide_eq_true hname),
    Option.bind_some, parseU32_padded]

/-- **The numbers of a device come back from the path of its node.** -/
theorem splitNodePath_nodePath (busnum devnum : UInt32) :
    splitNodePath (nodePath busnum devnum) = some (busnum, devnum) := by
  have hdevnum := fileName_decimal
    ["dev".toList, "bus".toList, "usb".toList, padded 10 3 busnum.toNat] devnum
  have hbusnum := fileName_decimal ["dev".toList, "bus".toList, "usb".toList] busnum
  rw [splitNodePath, pathComponents_nodePath]
  simp only [List.dropLast, List.cons_append, List.nil_append] at hdevnum hbusnum ⊢
  rw [hdevnum, hbusnum]
  rfl

/-! ### When sysfs describes a device -/

/-- What sysfs says of a device. -/
structure SysfsDevice where
  descriptors : Descriptors
  /-- The configuration in effect. -/
  config : ConfigDescriptor
  busnum : UInt32
  devnum : UInt32

namespace Sysfs

variable (s : Sysfs)

/-- The configuration in effect: the one that sysfs gives the value of, and where it gives none
that the device has described, the first. -/
def inEffect (busid : String) (desc : Descriptors) : Option ConfigDescriptor :=
  ((s.sysfsConfigValue busid).bind desc.config).or desc.configs.head?

/-- sysfs describes a device under a bus id. -/
structure Describes (busid : String) (dev : SysfsDevice) : Prop where
  valid : isValidBusid busid = true
  descriptors : ∃ blob, s.file busid "descriptors" = some blob ∧
    Descriptors.parse blob = .ok dev.descriptors
  numbers : s.numbersForBusid busid = some (dev.busnum, dev.devnum)
  config : s.inEffect busid dev.descriptors = some dev.config

/-- The summary of a device that sysfs describes. -/
def summary (busid : String) (dev : SysfsDevice) : DeviceSummary where
  busnum := dev.busnum
  devnum := dev.devnum
  busid
  sysPath := (s.sysPath busid).getD (nodePath dev.busnum dev.devnum)
  nodePath := nodePath dev.busnum dev.devnum
  speed := (s.sysfsSpeed busid).getD .unknown
  device := dev.descriptors.device
  configValue := dev.config.configurationValue
  interfaces := InterfaceSummary.listFrom dev.config

end Sysfs

theorem Descriptors.config_value {desc : Descriptors} {value : UInt8} {config : ConfigDescriptor}
    (h : desc.config value = some config) : config.configurationValue = value := by
  rw [Descriptors.config] at h
  simpa using List.find?_some h

theorem Descriptors.config_of_head_none {desc : Descriptors} (h : desc.configs.head? = none)
    (value : UInt8) : desc.config value = none := by
  rw [Descriptors.config, List.head?_eq_none_iff.mp h]
  rfl

/-- The first configuration is the first with its value. -/
theorem Descriptors.config_head {desc : Descriptors} {config : ConfigDescriptor}
    (h : desc.configs.head? = some config) :
    desc.config config.configurationValue = some config := by
  obtain ⟨configs, heq⟩ := List.head?_eq_some_iff.mp h
  rw [Descriptors.config, heq]
  exact List.find?_cons_of_pos (beq_self_eq_true _)

namespace Sysfs

variable {s : Sysfs} {busid name : String} {desc : Descriptors} {dev : SysfsDevice}
  {d : DeviceSummary} {filter : DeviceFilter}

/-- sysfs describes one device under a bus id. -/
theorem Describes.unique {dev' : SysfsDevice} (h : s.Describes busid dev)
    (h' : s.Describes busid dev') : dev = dev' := by
  obtain ⟨descriptors, config, busnum, devnum⟩ := dev
  obtain ⟨descriptors', config', busnum', devnum'⟩ := dev'
  obtain ⟨-, ⟨blob, hblob, hparse⟩, hnumbers, hconfig⟩ := h
  obtain ⟨-, ⟨blob', hblob', hparse'⟩, hnumbers', hconfig'⟩ := h'
  dsimp only at *
  obtain rfl := Option.some.inj (hblob.symm.trans hblob')
  obtain rfl := Checked.ok.inj (hparse.symm.trans hparse')
  obtain rfl := Option.some.inj (hconfig.symm.trans hconfig')
  obtain ⟨rfl, rfl⟩ := Prod.mk.inj (Option.some.inj (hnumbers.symm.trans hnumbers'))
  rfl

/-- The value that `summary_from_sysfs` and `active_config` settle on, when the device itself is not
asked. -/
theorem config_inEffect (s : Sysfs) (busid : String) (desc : Descriptors) :
    desc.config ((((s.sysfsConfigValue busid).filter fun v => (desc.config v).isSome).or
      (desc.configs.head?.map ConfigDescriptor.configurationValue)).getD 1) =
        s.inEffect busid desc := by
  have hfirst : desc.config ((desc.configs.head?.map ConfigDescriptor.configurationValue).getD 1) =
      desc.configs.head? := by
    cases hhead : desc.configs.head? with
    | some config => exact Descriptors.config_head hhead
    | none => exact Descriptors.config_of_head_none hhead _
  rw [inEffect]
  cases hvalue : s.sysfsConfigValue busid with
  | none => exact hfirst
  | some v =>
    cases hconfig : desc.config v with
    | none =>
      rw [Option.filter_some, hconfig, Option.bind_some, hconfig]
      exact hfirst
    | some config =>
      rw [Option.filter_some, hconfig, Option.bind_some, hconfig]
      exact hconfig

/-- **When a summary comes back, and which.** -/
theorem summaryFromSysfs_eq_ok_iff : s.summaryFromSysfs busid = .ok d ↔
    ∃ dev, s.Describes busid dev ∧ d = s.summary busid dev := by
  rw [summaryFromSysfs]
  constructor
  · intro h
    split_ifs at h with hvalid
    obtain ⟨blob, hblob, h⟩ := Checked.bind_eq_ok.mp h
    obtain ⟨desc, hdesc, h⟩ := Checked.bind_eq_ok.mp h
    obtain ⟨⟨busnum, devnum⟩, hnumbers, h⟩ := Checked.bind_eq_ok.mp h
    obtain ⟨d', hd', h⟩ := Checked.bind_eq_ok.mp h
    obtain ⟨config, hconfig, hd'⟩ := Checked.bind_eq_ok.mp hd'
    rw [Checked.ofOption_eq_ok] at hblob hnumbers hconfig
    have hvalue := Descriptors.config_value hconfig
    rw [config_inEffect] at hconfig
    cases hd'
    cases h
    refine ⟨⟨desc, config, busnum, devnum⟩, ⟨by simpa using hvalid,
      ⟨blob, hblob, Checked.mapErr_eq_ok.mp hdesc⟩, hnumbers, hconfig⟩, ?_⟩
    rw [summary, hvalue]
  · rintro ⟨dev, ⟨hvalid, ⟨blob, hblob, hparse⟩, hnumbers, hconfig⟩, rfl⟩
    have hfound := (config_inEffect s busid dev.descriptors).trans hconfig
    rw [if_neg (by simpa using hvalid), hblob, hnumbers, Checked.ofOption_some, Checked.ok_bind,
      hparse, Checked.mapErr_ok, Checked.ok_bind, Checked.ofOption_some, Checked.ok_bind]
    simp only [summarize, hfound, Checked.ofOption_some, Checked.ok_bind, Checked.pure_eq]
    rw [summary, Descriptors.config_value hfound]

/-- It panics exactly where parsing the descriptors does. -/
theorem safe_summaryFromSysfs_iff : (s.summaryFromSysfs busid).Safe ↔
    (isValidBusid busid = true → ∀ blob, s.file busid "descriptors" = some blob →
      (Descriptors.parse blob).Safe) := by
  rw [summaryFromSysfs]
  by_cases hvalid : isValidBusid busid = true
  · rw [if_neg (by simpa using hvalid)]
    cases hblob : s.file busid "descriptors" with
    | none =>
      refine iff_of_true (Checked.safe_err _) fun _ blob h => ?_
      exact absurd h.symm (Option.some_ne_none blob)
    | some blob =>
      rw [Checked.ofOption_some, Checked.ok_bind, Checked.safe_bind_iff, Checked.safe_mapErr_iff]
      · exact ⟨fun h _ _ hsome => Option.some.inj hsome ▸ h, fun h => h hvalid blob rfl⟩
      · -- nothing after the descriptors can panic
        refine fun desc => Checked.safe_bind (Checked.safe_ofOption _ _) fun numbers _ => ?_
        refine Checked.safe_bind ?_ fun d _ => Checked.safe_ok _
        exact Checked.safe_bind (Checked.safe_ofOption _ _) fun config _ => Checked.safe_ok _
  · rw [if_pos (by simpa using hvalid)]
    exact iff_of_true (Checked.safe_err _) fun h => absurd h hvalid

/-! ### The list -/

/-- What an entry of the directory adds to the list. -/
def entrySummary (s : Sysfs) (name : String) : Option DeviceSummary :=
  if isDeviceEntry name then (s.summaryFromSysfs name).ok? else none

/-- An entry that names a device which the filter admits. -/
def Exportable (s : Sysfs) (filter : DeviceFilter) (name : String) : Prop :=
  isDeviceEntry name = true ∧ ∃ dev, s.Describes name dev ∧
    filter.admits (s.summary name dev) = true

/-- The descriptors of an entry do not make the parser panic. -/
def Parses (s : Sysfs) (name : String) : Prop :=
  isDeviceEntry name = true → isValidBusid name = true →
    ∀ blob, s.file name "descriptors" = some blob → (Descriptors.parse blob).Safe

theorem entrySummary_eq_some_iff : s.entrySummary name = some d ↔
    isDeviceEntry name = true ∧ ∃ dev, s.Describes name dev ∧ d = s.summary name dev := by
  rw [entrySummary]
  split_ifs with hentry
  · rw [Checked.ok?_eq_some, summaryFromSysfs_eq_ok_iff]
    exact (and_iff_right hentry).symm
  · exact iff_of_false id fun h => hentry h.1

theorem listEntry_eq_ok {out out' : List DeviceSummary} : s.listEntry out name = .ok out' ↔
    s.Parses name ∧ out' = out ++ (s.entrySummary name).toList := by
  rw [listEntry, Parses, entrySummary]
  by_cases hentry : isDeviceEntry name = true
  · rw [if_neg (by simpa using hentry), if_pos hentry, Checked.bind_eq_ok]
    simp only [Checked.attempt_eq_ok, safe_summaryFromSysfs_iff, Checked.pure_eq,
      Checked.ok.injEq]
    constructor
    · rintro ⟨_, ⟨hsafe, rfl⟩, rfl⟩
      exact ⟨fun _ => hsafe, rfl⟩
    · rintro ⟨hsafe, rfl⟩
      exact ⟨_, ⟨hsafe hentry, rfl⟩, rfl⟩
  · rw [if_pos (by simpa using hentry), if_neg hentry, Checked.pure_eq, Checked.ok.injEq,
      Option.toList_none, List.append_nil, eq_comm]
    exact (and_iff_right fun h => absurd h hentry).symm

theorem filterMap_entrySummary_cons (s : Sysfs) (name : String) (names : List String) :
    (name :: names).filterMap s.entrySummary =
      (s.entrySummary name).toList ++ names.filterMap s.entrySummary := by
  rw [List.filterMap_cons]
  cases s.entrySummary name <;> rfl

theorem foldlM_listEntry_eq_ok {names : List String} {out out' : List DeviceSummary} :
    names.foldlM s.listEntry out = .ok out' ↔
      (∀ name ∈ names, s.Parses name) ∧ out' = out ++ names.filterMap s.entrySummary := by
  induction names generalizing out with
  | nil =>
    rw [List.foldlM_nil, Checked.pure_eq, Checked.ok.injEq, List.filterMap_nil, List.append_nil,
      eq_comm]
    exact (and_iff_right (List.forall_mem_nil _)).symm
  | cons name names ih =>
    rw [List.foldlM_cons, Checked.bind_eq_ok, List.forall_mem_cons, filterMap_entrySummary_cons]
    constructor
    · rintro ⟨mid, hmid, hrest⟩
      obtain ⟨hname, rfl⟩ := listEntry_eq_ok.mp hmid
      obtain ⟨hnames, rfl⟩ := ih.mp hrest
      exact ⟨⟨hname, hnames⟩, List.append_assoc _ _ _⟩
    · rintro ⟨⟨hname, hnames⟩, rfl⟩
      exact ⟨_, listEntry_eq_ok.mpr ⟨hname, rfl⟩, ih.mpr ⟨hnames, (List.append_assoc _ _ _).symm⟩⟩

theorem listAll_eq_ok {entries : List (Option String)} (hread : s.readDir = .ok entries)
    {devs : List DeviceSummary} : s.listAll = .ok devs ↔
      (∀ name ∈ entries.reduceOption, s.Parses name) ∧
        devs = (entries.reduceOption.filterMap s.entrySummary).insertionSort
          DeviceSummary.NotAfter := by
  rw [listAll, hread]
  dsimp only
  simp only [Checked.bind_eq_ok, foldlM_listEntry_eq_ok, Checked.pure_eq, Checked.ok.injEq,
    List.nil_append]
  constructor
  · rintro ⟨_, ⟨hnames, rfl⟩, rfl⟩
    exact ⟨hnames, rfl⟩
  · rintro ⟨hnames, rfl⟩
    exact ⟨_, ⟨hnames, rfl⟩, rfl⟩

/-- The listing comes back unless some device sent descriptors on which the parser panics, whether
the filter admits that device or not. -/
theorem exists_list_iff {entries : List (Option String)} (hread : s.readDir = .ok entries)
    (filter : DeviceFilter) : (∃ devs, s.list filter = .ok devs) ↔
      ∀ name ∈ entries.reduceOption, s.Parses name := by
  simp only [list, Checked.bind_eq_ok, listAll_eq_ok hread]
  constructor
  · rintro ⟨_, _, ⟨hnames, -⟩, -⟩
    exact hnames
  · exact fun hnames => ⟨_, _, ⟨hnames, rfl⟩, rfl⟩

theorem pairwise_insertionSort_notAfter (devs : List DeviceSummary) :
    (devs.insertionSort DeviceSummary.NotAfter).Pairwise DeviceSummary.NotAfter := by
  have htotal : Std.Total DeviceSummary.NotAfter := by
    refine ⟨fun d d' => ?_⟩
    simp only [DeviceSummary.NotAfter, UInt32.lt_iff_toNat_lt, UInt32.le_iff_toNat_le,
      ← UInt32.toNat_inj]
    omega
  have htrans : IsTrans DeviceSummary DeviceSummary.NotAfter := by
    refine ⟨fun d d' d'' => ?_⟩
    simp only [DeviceSummary.NotAfter, UInt32.lt_iff_toNat_lt, UInt32.le_iff_toNat_le,
      ← UInt32.toNat_inj]
    omega
  exact List.pairwise_insertionSort _ _

/-- The exportable entries by what they add. -/
theorem exportable_iff : s.Exportable filter name ↔ ∃ d, s.entrySummary name = some d ∧
    filter.admits d = true := by
  simp only [entrySummary_eq_some_iff]
  constructor
  · rintro ⟨hentry, dev, hdev, hmatches⟩
    exact ⟨_, ⟨hentry, dev, hdev, rfl⟩, hmatches⟩
  · rintro ⟨_, ⟨hentry, dev, hdev, rfl⟩, hmatches⟩
    exact ⟨hentry, dev, hdev, hmatches⟩

open scoped Classical in
/-- The bus ids of what the entries add, where the filter admits it. -/
theorem map_busid_entries (s : Sysfs) (filter : DeviceFilter) (names : List String) :
    ((names.filterMap s.entrySummary).filter filter.admits).map DeviceSummary.busid =
      names.filter fun name => s.Exportable filter name := by
  induction names with
  | nil => rfl
  | cons name names ih =>
    cases hentry : s.entrySummary name with
    | none =>
      have hnot : ¬ s.Exportable filter name := by simp [exportable_iff, hentry]
      rw [List.filterMap_cons_none hentry, ih, List.filter_cons_of_neg (by simpa using hnot)]
    | some d =>
      have hiff : s.Exportable filter name ↔ filter.admits d = true := by
        simp [exportable_iff, hentry]
      obtain ⟨-, dev, -, rfl⟩ := entrySummary_eq_some_iff.mp hentry
      rw [List.filterMap_cons_some hentry]
      by_cases hmatches : s.Exportable filter name
      · rw [List.filter_cons_of_pos (hiff.mp hmatches), List.map_cons, ih,
          List.filter_cons_of_pos (by simpa using hmatches)]
        rfl
      · rw [List.filter_cons_of_neg (mt hiff.mpr hmatches), ih,
          List.filter_cons_of_neg (by simpa using hmatches)]

open scoped Classical in
/-- **What the list has.** It is in the order of the numbers, its bus ids are those of the entries
that name devices which the filter admits, and each of its summaries is what sysfs says of the
device. -/
theorem list_spec {entries : List (Option String)} (hread : s.readDir = .ok entries)
    {devs : List DeviceSummary} (hlist : s.list filter = .ok devs) :
    devs.Pairwise DeviceSummary.NotAfter ∧
    (devs.map DeviceSummary.busid).Perm
      (entries.reduceOption.filter fun name => s.Exportable filter name) ∧
    ∀ d ∈ devs, ∃ dev, s.Describes d.busid dev ∧ d = s.summary d.busid dev := by
  obtain ⟨_, hall, hdevs⟩ := Checked.bind_eq_ok.mp hlist
  obtain ⟨-, rfl⟩ := (listAll_eq_ok hread).mp hall
  cases hdevs
  refine ⟨(pairwise_insertionSort_notAfter _).filter _, ?_, fun d hd => ?_⟩
  · rw [← map_busid_entries]
    exact ((List.perm_insertionSort _ _).filter _).map _
  · have hmem := (List.mem_insertionSort _).mp (List.mem_filter.mp hd).1
    obtain ⟨name, -, hname⟩ := List.mem_filterMap.mp hmem
    obtain ⟨-, dev, hdev, rfl⟩ := entrySummary_eq_some_iff.mp hname
    exact ⟨dev, hdev, rfl⟩

/-! ### The scan that the allow-list rests on -/

/-- The bus has the devices that sysfs describes. -/
def OnBus (s : Sysfs) (bus : Bus) : Prop :=
  ∀ name dev, s.Describes name dev → bus.at? name = some
    ⟨dev.devnum, dev.descriptors.device.idVendor, dev.descriptors.device.idProduct⟩

/-- The part of a summary that the allow-list looks at. -/
def scanned (d : DeviceSummary) : ScannedDevice :=
  ⟨d.busid, d.device.idVendor, d.device.idProduct⟩

theorem toList_entrySummary {bus : Bus} (hbus : s.OnBus bus) (found : List ScannedDevice)
    (name : String) : Padwire.listEntry bus found name (s.entrySummary name).isSome =
      found ++ ((s.entrySummary name).map scanned).toList := by
  rw [Padwire.listEntry, Padwire.summaryFromSysfs]
  cases hentry : s.entrySummary name with
  | none => simp
  | some d =>
    obtain ⟨hdevice, dev, hdev, rfl⟩ := entrySummary_eq_some_iff.mp hentry
    simp [hdevice, hdev.valid, hbus name dev hdev, scanned, summary]

theorem foldl_listEntry {bus : Bus} (hbus : s.OnBus bus) (names : List String)
    (found : List ScannedDevice) :
    names.foldl (fun found name =>
      Padwire.listEntry bus found name (s.entrySummary name).isSome) found =
        found ++ (names.filterMap s.entrySummary).map scanned := by
  induction names generalizing found with
  | nil => exact (List.append_nil found).symm
  | cons name names ih =>
    rw [List.foldl_cons, ih, toList_entrySummary hbus, filterMap_entrySummary_cons,
      List.map_append, Option.toList_map, List.append_assoc]

/-- **The scan is the list** without its order: entry by entry it finds what the list has, and of
that it exports what the filter admits. -/
theorem scan_refines_list {bus : Bus} (hbus : s.OnBus bus) {entries : List (Option String)}
    (hread : s.readDir = .ok entries) {devs : List DeviceSummary}
    (hlist : s.list filter = .ok devs) :
    (exportable filter (entries.reduceOption.foldl (fun found name =>
      Padwire.listEntry bus found name (s.entrySummary name).isSome) [])).Perm
        (devs.map scanned) := by
  obtain ⟨_, hall, hdevs⟩ := Checked.bind_eq_ok.mp hlist
  obtain ⟨-, rfl⟩ := (listAll_eq_ok hread).mp hall
  cases hdevs
  rw [foldl_listEntry hbus, List.nil_append, exportable, List.filter_map]
  exact (((List.perm_insertionSort _ _).filter _).map _).symm

end Sysfs

end Padwire
