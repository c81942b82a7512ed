import Padwire.Lib.Checked

/-!
# The raw descriptor blob

`descriptors::parse` (`usb-backend/src/descriptors.rs`) reads an 18-byte device descriptor and the
configuration descriptors that follow it. Two walks go over bytes that the device chose, each
by the `bLength` of the descriptor it stands on: the outer one from configuration to
configuration, by `wTotalLength`, and the inner one through the descriptors of a configuration.

Every access is checked here (`Checked`), and both walks are well founded: what they stand on has
at least two bytes. The accesses of the inner walk are all in range, and so are those of the outer
one; the three at the head of `parse_config` are not, because `wTotalLength` is compared with the
length of the descriptor only afterwards. `parse_safe_iff` says exactly when they are.
-/

namespace Padwire

def DT_DEVICE : UInt8 := 0x01

def DT_CONFIG : UInt8 := 0x02

def DT_INTERFACE : UInt8 := 0x04

def DT_ENDPOINT : UInt8 := 0x05

def DEVICE_DESC_LEN : ℕ := 18

structure DeviceDescriptor where
  bcdUsb : UInt16
  bDeviceClass : UInt8
  bDeviceSubClass : UInt8
  bDeviceProtocol : UInt8
  bMaxPacketSize0 : UInt8
  idVendor : UInt16
  idProduct : UInt16
  bcdDevice : UInt16
  bNumConfigurations : UInt8
  deriving DecidableEq, Repr

structure EndpointDescriptor where
  /-- `bEndpointAddress`, including the IN bit. -/
  address : UInt8
  attributes : UInt8
  maxPacketSize : UInt16
  interval : UInt8
  deriving DecidableEq, Repr

structure AltSetting where
  interfaceNumber : UInt8
  alternateSetting : UInt8
  cls : UInt8
  subClass : UInt8
  protocol : UInt8
  endpoints : List EndpointDescriptor
  deriving DecidableEq, Repr

structure ConfigDescriptor where
  configurationValue : UInt8
  numInterfaces : UInt8
  altSettings : List AltSetting
  deriving DecidableEq, Repr

structure Descriptors where
  device : DeviceDescriptor
  configs : List ConfigDescriptor
  deriving DecidableEq, Repr

/-- The `InvalidData` errors of `parse`. -/
inductive DescriptorError
  /-- "descriptor blob is {} bytes, need at least 18" -/
  | tooShort (len : ℕ)
  /-- "blob does not start with a device descriptor (bDescriptorType = {})" -/
  | notDevice (dtype : UInt8)
  /-- "configuration descriptor shorter than 9 bytes" -/
  | shortConfig
  /-- "endpoint descriptor outside any interface" -/
  | orphanEndpoint
  deriving DecidableEq, Repr

namespace Descriptors

/-- Little-endian `u16` at an offset. -/
def u16le (b : Bytes) (off : ℕ) : Checked DescriptorError UInt16 := do
  let lo ← .get b off
  let hi ← .get b (off + 1)
  pure (UInt16.ofNat (leNat [lo, hi]))

/-! ### One configuration -/

/-- An endpoint belongs to the alternate setting that was read last. -/
def pushEndpoint (ep : EndpointDescriptor) : List AltSetting → Option (List AltSetting)
  | [] => none
  | [a] => some [{ a with endpoints := a.endpoints ++ [ep] }]
  | a :: b :: alts => (pushEndpoint ep (b :: alts)).map (a :: ·)

/-- What `parse_config` does with the descriptor at `pos`. HID, class-specific and vendor
descriptors are passed over. -/
def configEntry (buf : Bytes) (cfg : ConfigDescriptor) (pos len : ℕ) (dtype : UInt8) :
    Checked DescriptorError ConfigDescriptor :=
  if dtype = DT_INTERFACE ∧ 9 ≤ len then do
    let interfaceNumber ← .get buf (pos + 2)
    let alternateSetting ← .get buf (pos + 3)
    let cls ← .get buf (pos + 5)
    let subClass ← .get buf (pos + 6)
    let protocol ← .get buf (pos + 7)
    pure { cfg with altSettings := cfg.altSettings ++
      [{ interfaceNumber, alternateSetting, cls, subClass, protocol, endpoints := [] }] }
  else if dtype = DT_ENDPOINT ∧ 7 ≤ len then do
    let address ← .get buf (pos + 2)
    let attributes ← .get buf (pos + 3)
    let maxPacketSize ← u16le buf (pos + 4)
    let interval ← .get buf (pos + 6)
    match pushEndpoint { address, attributes, maxPacketSize, interval } cfg.altSettings with
    | some altSettings => pure { cfg with altSettings }
    | none => .err .orphanEndpoint
  else pure cfg

/-- The walk of `parse_config` from `pos` on. -/
def configFrom (buf : Bytes) (cfg : ConfigDescriptor) (pos : ℕ) :
    Checked DescriptorError ConfigDescriptor :=
  if _hpos : pos + 2 ≤ buf.length then do
    let len ← .get buf pos
    let dtype ← .get buf (pos + 1)
    if _hlen : len.toNat < 2 ∨ buf.length < pos + len.toNat then pure cfg
    else
      let cfg ← configEntry buf cfg pos len.toNat dtype
      configFrom buf cfg (pos + len.toNat)
  else pure cfg
termination_by buf.length - pos
decreasing_by omega

def parseConfig (buf : Bytes) : Checked DescriptorError ConfigDescriptor := do
  let numInterfaces ← .get buf 4
  let configurationValue ← .get buf 5
  let pos ← .get buf 0
  configFrom buf { configurationValue, numInterfaces, altSettings := [] } pos.toNat

/-! ### The whole blob -/

/-- The walk of `parse` from `pos` on. -/
def configsFrom (blob : Bytes) (configs : List ConfigDescriptor) (pos : ℕ) :
    Checked DescriptorError (List ConfigDescriptor) :=
  if _hpos : pos + 2 ≤ blob.length then do
    let len ← .get blob pos
    let dtype ← .get blob (pos + 1)
    if _hlen : len.toNat < 2 ∨ blob.length < pos + len.toNat then pure configs
    -- should not happen at the top level: skipped
    else if dtype ≠ DT_CONFIG then configsFrom blob configs (pos + len.toNat)
    else if len.toNat < 9 then .err .shortConfig
    else
      let total ← u16le blob (pos + 2)
      let buf ← .slice blob pos (min (pos + total.toNat) blob.length)
      let cfg ← parseConfig buf
      if _htotal : total.toNat < len.toNat then pure (configs ++ [cfg])
      else configsFrom blob (configs ++ [cfg]) (pos + total.toNat)
  else pure configs
termination_by blob.length - pos
decreasing_by all_goals omega

/-- The fields of the device descriptor. -/
def deviceFrom (blob : Bytes) : Checked DescriptorError DeviceDescriptor := do
  let bcdUsb ← u16le blob 2
  let bDeviceClass ← .get blob 4
  let bDeviceSubClass ← .get blob 5
  let bDeviceProtocol ← .get blob 6
  let bMaxPacketSize0 ← .get blob 7
  let idVendor ← u16le blob 8
  let idProduct ← u16le blob 10
  let bcdDevice ← u16le blob 12
  let bNumConfigurations ← .get blob 17
  pure { bcdUsb, bDeviceClass, bDeviceSubClass, bDeviceProtocol, bMaxPacketSize0, idVendor,
         idProduct, bcdDevice, bNumConfigurations }

/-- Parse a device descriptor followed by zero or more configuration descriptors. -/
def parse (blob : Bytes) : Checked DescriptorError Descriptors :=
  if blob.length < DEVICE_DESC_LEN then .err (.tooShort blob.length)
  else do
    let dtype ← .get blob 1
    if dtype ≠ DT_DEVICE then .err (.notDevice dtype)
    else
      let device ← deviceFrom blob
      let first ← .get blob 0
      let configs ← configsFrom blob [] (max first.toNat DEVICE_DESC_LEN)
      pure { device, configs }

/-! ### The descriptors a walk finds -/

/-- A descriptor: where it is, its `bLength` and its type. -/
structure Entry where
  pos : ℕ
  len : ℕ
  dtype : UInt8
  deriving DecidableEq, Repr

/-- The descriptors that a walk by `bLength` finds from `pos` on. -/
def entries (buf : Bytes) (pos : ℕ) : List Entry :=
  if _hpos : pos + 2 ≤ buf.length then
    let len := (buf.getD pos 0).toNat
    if _hlen : len < 2 ∨ buf.length < pos + len then []
    else ⟨pos, len, buf.getD (pos + 1) 0⟩ :: entries buf (pos + len)
  else []
termination_by buf.length - pos
decreasing_by omega

def Entry.isInterface (e : Entry) : Bool := e.dtype = DT_INTERFACE && 9 ≤ e.len

def Entry.isEndpoint (e : Entry) : Bool := e.dtype = DT_ENDPOINT && 7 ≤ e.len

/-- An endpoint comes before the first interface. -/
def hasOrphan : List Entry → Bool
  | [] => false
  | e :: es => if e.isInterface then false else if e.isEndpoint then true else hasOrphan es

/-- There is a descriptor at `pos`, within the buffer. -/
def Stands (buf : Bytes) (pos : ℕ) : Prop :=
  pos + 2 ≤ buf.length ∧ 2 ≤ (buf.getD pos 0).toNat ∧ pos + (buf.getD pos 0).toNat ≤ buf.length

instance (buf : Bytes) (pos : ℕ) : Decidable (Stands buf pos) :=
  inferInstanceAs (Decidable (_ ∧ _))

theorem entries_eq (buf : Bytes) (pos : ℕ) :
    entries buf pos = if Stands buf pos then
      ⟨pos, (buf.getD pos 0).toNat, buf.getD (pos + 1) 0⟩ ::
        entries buf (pos + (buf.getD pos 0).toNat)
    else [] := by
  rw [entries]
  by_cases hpos : pos + 2 ≤ buf.length
  · rw [dif_pos hpos]
    dsimp only
    by_cases hlen : (buf.getD pos 0).toNat < 2 ∨ buf.length < pos + (buf.getD pos 0).toNat
    · rw [dif_pos hlen, if_neg (by unfold Stands; omega)]
    · rw [dif_neg hlen, if_pos (by unfold Stands; omega)]
  · rw [dif_neg hpos, if_neg fun h => hpos h.1]

theorem configFrom_step (buf : Bytes) (cfg : ConfigDescriptor) (pos : ℕ) :
    configFrom buf cfg pos = if Stands buf pos then do
      let cfg ← configEntry buf cfg pos (buf.getD pos 0).toNat (buf.getD (pos + 1) 0)
      configFrom buf cfg (pos + (buf.getD pos 0).toNat)
    else .ok cfg := by
  rw [configFrom]
  by_cases hpos : pos + 2 ≤ buf.length
  · rw [dif_pos hpos, Checked.get_of_lt 0 (by omega), Checked.ok_bind,
      Checked.get_of_lt 0 (by omega), Checked.ok_bind]
    by_cases hlen : (buf.getD pos 0).toNat < 2 ∨ buf.length < pos + (buf.getD pos 0).toNat
    · rw [dif_pos hlen, if_neg (by unfold Stands; omega)]
      rfl
    · rw [dif_neg hlen, if_pos (by unfold Stands; omega)]
  · rw [dif_neg hpos, if_neg fun h => hpos h.1]
    rfl

/-- The descriptors found are within the buffer. -/
theorem mem_entries {buf : Bytes} {pos : ℕ} {e : Entry} (h : e ∈ entries buf pos) :
    2 ≤ e.len ∧ e.pos + e.len ≤ buf.length := by
  induction hn : buf.length - pos using Nat.strong_induction_on generalizing pos with
  | _ n ih =>
    rw [entries_eq] at h
    split_ifs at h with hstands
    · obtain ⟨hpos, hlen, hfits⟩ := hstands
      rcases List.mem_cons.mp h with rfl | h
      · exact ⟨hlen, hfits⟩
      · exact ih _ (by omega) h rfl
    · cases h

/-- `parse_config` handles the descriptors of its walk in order. -/
theorem configFrom_eq (buf : Bytes) (cfg : ConfigDescriptor) (pos : ℕ) :
    configFrom buf cfg pos =
      (entries buf pos).foldlM (fun cfg e => configEntry buf cfg e.pos e.len e.dtype) cfg := by
  induction hn : buf.length - pos using Nat.strong_induction_on generalizing pos cfg with
  | _ n ih =>
    rw [configFrom_step, entries_eq]
    split_ifs with hstands
    · obtain ⟨hpos, hlen, hfits⟩ := hstands
      rw [List.foldlM_cons]
      congr 1
      funext cfg'
      exact ih _ (by omega) cfg' _ rfl
    · rfl

/-! ### One configuration -/

theorem u16le_of_lt {b : Bytes} {off : ℕ} (h : off + 1 < b.length) :
    u16le b off = .ok (UInt16.ofNat (leNat [b.getD off 0, b.getD (off + 1) 0])) := by
  simp only [u16le, Checked.get_of_lt 0 h, Checked.get_of_lt 0 (show off < b.length by omega),
    Checked.ok_bind, Checked.pure_eq]

theorem exists_pushEndpoint (ep : EndpointDescriptor) (a : AltSetting) (alts : List AltSetting) :
    ∃ alts', pushEndpoint ep (a :: alts) = some alts' ∧ alts' ≠ [] := by
  induction alts generalizing a with
  | nil => exact ⟨_, rfl, by simp⟩
  | cons b alts ih =>
    obtain ⟨alts', halts', -⟩ := ih b
    exact ⟨a :: alts', by rw [pushEndpoint, halts']; rfl, by simp⟩

/-- What the configuration is after a descriptor that lies within the buffer: an interface is
added, an endpoint is added to the last interface if there is one, and others change nothing. -/
theorem configEntry_cases {buf : Bytes} (cfg : ConfigDescriptor) {e : Entry}
    (h : e.pos + e.len ≤ buf.length) :
    (∃ cfg', configEntry buf cfg e.pos e.len e.dtype = .ok cfg' ∧
      (cfg'.altSettings = [] ↔ cfg.altSettings = [] ∧ ¬ e.isInterface = true) ∧
      (cfg.altSettings = [] → e.isEndpoint = true → e.isInterface = true)) ∨
    configEntry buf cfg e.pos e.len e.dtype = .err .orphanEndpoint ∧ cfg.altSettings = [] ∧
      e.isInterface = false ∧ e.isEndpoint = true := by
  unfold configEntry
  by_cases hif : e.dtype = DT_INTERFACE ∧ 9 ≤ e.len
  · left
    rw [if_pos hif]
    simp only [Checked.get_of_lt 0 (show e.pos + 2 < buf.length by omega),
      Checked.get_of_lt 0 (show e.pos + 3 < buf.length by omega),
      Checked.get_of_lt 0 (show e.pos + 5 < buf.length by omega),
      Checked.get_of_lt 0 (show e.pos + 6 < buf.length by omega),
      Checked.get_of_lt 0 (show e.pos + 7 < buf.length by omega), Checked.ok_bind,
      Checked.pure_eq]
    refine ⟨_, rfl, ?_, ?_⟩
    · simp [Entry.isInterface, hif]
    · simp [Entry.isInterface, hif]
  · rw [if_neg hif]
    have hnot : e.isInterface = false := by simpa [Entry.isInterface] using hif
    by_cases hep : e.dtype = DT_ENDPOINT ∧ 7 ≤ e.len
    · have hyes : e.isEndpoint = true := by simpa [Entry.isEndpoint] using hep
      rw [if_pos hep]
      simp only [Checked.get_of_lt 0 (show e.pos + 2 < buf.length by omega),
        Checked.get_of_lt 0 (show e.pos + 3 < buf.length by omega),
        u16le_of_lt (show e.pos + 4 + 1 < buf.length by omega),
        Checked.get_of_lt 0 (show e.pos + 6 < buf.length by omega), Checked.ok_bind,
        Checked.pure_eq]
      cases halts : cfg.altSettings with
      | nil => exact .inr ⟨rfl, rfl, hnot, hyes⟩
      | cons a alts =>
        left
        obtain ⟨alts', halts', hne⟩ := exists_pushEndpoint
          ⟨buf.getD (e.pos + 2) 0, buf.getD (e.pos + 3) 0,
            UInt16.ofNat (leNat [buf.getD (e.pos + 4) 0, buf.getD (e.pos + 4 + 1) 0]),
            buf.getD (e.pos + 6) 0⟩ a alts
        rw [halts']
        exact ⟨_, rfl, by simp [hne], by simp⟩
    · left
      have hno : e.isEndpoint = false := by simpa [Entry.isEndpoint] using hep
      rw [if_neg hep]
      exact ⟨cfg, rfl, by simp [hnot], by simp [hno]⟩

/-- The inner walk never leaves the buffer. -/
theorem safe_configFrom (buf : Bytes) (cfg : ConfigDescriptor) (pos : ℕ) :
    (configFrom buf cfg pos).Safe := by
  rw [configFrom_eq]
  refine Checked.safe_foldlM (fun cfg e he => ?_) cfg
  rcases configEntry_cases cfg (mem_entries he).2 with ⟨cfg', hcfg', -⟩ | ⟨herr, -⟩
  · rw [hcfg']
    exact Checked.safe_ok _
  · rw [herr]
    exact Checked.safe_err _

/-- Once there is an interface, every descriptor finds its place. -/
private theorem exists_foldlM_of_ne {buf : Bytes} {es : List Entry}
    (hes : ∀ e ∈ es, e.pos + e.len ≤ buf.length) (cfg : ConfigDescriptor)
    (hne : cfg.altSettings ≠ []) : ∃ cfg',
      es.foldlM (fun cfg e => configEntry buf cfg e.pos e.len e.dtype) cfg = .ok cfg' := by
  induction es generalizing cfg with
  | nil => exact ⟨cfg, rfl⟩
  | cons e es ih =>
    rw [List.foldlM_cons]
    rcases configEntry_cases cfg (hes e List.mem_cons_self) with
      ⟨cfg', hcfg', hempty, -⟩ | ⟨-, hempty, -⟩
    · rw [hcfg']
      exact ih (fun e' he' => hes e' (List.mem_cons_of_mem e he')) cfg'
        fun h => hne (hempty.mp h).1
    · exact absurd hempty hne

private theorem exists_foldlM_iff {buf : Bytes} {es : List Entry}
    (hes : ∀ e ∈ es, e.pos + e.len ≤ buf.length) (cfg : ConfigDescriptor)
    (hempty : cfg.altSettings = []) :
    (∃ cfg', es.foldlM (fun cfg e => configEntry buf cfg e.pos e.len e.dtype) cfg = .ok cfg') ↔
      hasOrphan es = false := by
  induction es generalizing cfg with
  | nil => exact ⟨fun _ => rfl, fun _ => ⟨cfg, rfl⟩⟩
  | cons e es ih =>
    have htail : ∀ e' ∈ es, e'.pos + e'.len ≤ buf.length :=
      fun e' he' => hes e' (List.mem_cons_of_mem e he')
    rw [List.foldlM_cons, hasOrphan]
    rcases configEntry_cases cfg (hes e List.mem_cons_self) with
      ⟨cfg', hcfg', halts, hep⟩ | ⟨herr, -, hif, hep⟩
    · rw [hcfg', Checked.ok_bind]
      by_cases hif : e.isInterface = true
      · rw [if_pos hif]
        exact iff_of_true (exists_foldlM_of_ne htail cfg' fun h => (halts.mp h).2 hif) rfl
      · have hnot : ¬ e.isEndpoint = true := fun h => hif (hep hempty h)
        rw [if_neg hif, if_neg hnot]
        exact ih htail cfg' (halts.mpr ⟨hempty, hif⟩)
    · rw [herr, Checked.err_bind, hif, hep]
      exact iff_of_false (by rintro ⟨cfg', h⟩; cases h) (by simp)

/-- The inner walk ends with a configuration unless it meets an endpoint before the first
interface. -/
theorem exists_configFrom_iff {cfg : ConfigDescriptor} (hcfg : cfg.altSettings = [])
    (buf : Bytes) (pos : ℕ) :
    (∃ cfg', configFrom buf cfg pos = .ok cfg') ↔ hasOrphan (entries buf pos) = false := by
  rw [configFrom_eq]
  exact exists_foldlM_iff (fun e he => (mem_entries he).2) cfg hcfg

/-- The three accesses at the head of `parse_config` need six bytes; nothing else can fail. -/
theorem safe_parseConfig_iff (buf : Bytes) : (parseConfig buf).Safe ↔ 6 ≤ buf.length := by
  by_cases h : 6 ≤ buf.length
  · refine iff_of_true ?_ h
    simp only [parseConfig, Checked.get_of_lt 0 (show 4 < buf.length by omega),
      Checked.get_of_lt 0 (show 5 < buf.length by omega),
      Checked.get_of_lt 0 (show 0 < buf.length by omega), Checked.ok_bind]
    exact safe_configFrom _ _ _
  · refine iff_of_false ?_ h
    rw [parseConfig]
    by_cases h4 : 4 < buf.length
    · rw [Checked.get_of_lt 0 h4, Checked.ok_bind, Checked.get_of_le (show buf.length ≤ 5 by omega),
        Checked.panic_bind]
      exact Checked.not_safe_panic
    · rw [Checked.get_of_le (show buf.length ≤ 4 by omega), Checked.panic_bind]
      exact Checked.not_safe_panic

theorem exists_parseConfig_iff {buf : Bytes} (h : 6 ≤ buf.length) :
    (∃ cfg, parseConfig buf = .ok cfg) ↔
      hasOrphan (entries buf (buf.getD 0 0).toNat) = false := by
  simp only [parseConfig, Checked.get_of_lt 0 (show 4 < buf.length by omega),
    Checked.get_of_lt 0 (show 5 < buf.length by omega),
    Checked.get_of_lt 0 (show 0 < buf.length by omega), Checked.ok_bind]
  exact exists_configFrom_iff rfl _ _

/-! ### The configurations that `parse` comes to -/

/-- `wTotalLength` of the configuration descriptor at `pos`. -/
def wTotalLength (blob : Bytes) (pos : ℕ) : ℕ :=
  (UInt16.ofNat (leNat [blob.getD (pos + 2) 0, blob.getD (pos + 2 + 1) 0])).toNat

/-- The bytes of the configuration at `pos`, as far as they are there. -/
def configBytes (blob : Bytes) (pos : ℕ) : Bytes :=
  (blob.take (min (pos + wTotalLength blob pos) blob.length)).drop pos

/-- The walk goes on behind the configuration at `pos`: it is no shorter than its own descriptor,
and no endpoint in it comes before its first interface. -/
def goesOn (blob : Bytes) (pos : ℕ) : Bool :=
  (blob.getD pos 0).toNat ≤ wTotalLength blob pos &&
    !hasOrphan (entries (configBytes blob pos) ((configBytes blob pos).getD 0 0).toNat)

/-- Where the configuration descriptors are that the walk of `parse` comes to from `pos` on. -/
def reachedConfigs (blob : Bytes) (pos : ℕ) : List ℕ :=
  if _hstands : Stands blob pos then
    if blob.getD (pos + 1) 0 ≠ DT_CONFIG then
      reachedConfigs blob (pos + (blob.getD pos 0).toNat)
    else if (blob.getD pos 0).toNat < 9 then []
    else if _hgoes : goesOn blob pos = true then
      pos :: reachedConfigs blob (pos + wTotalLength blob pos)
    else [pos]
  else []
termination_by blob.length - pos
decreasing_by
  · have := _hstands.1
    have := _hstands.2.1
    omega
  · have := _hstands.1
    have := _hstands.2.1
    simp only [goesOn, Bool.and_eq_true, decide_eq_true_eq] at _hgoes
    omega

/-- One turn of the outer walk. The only accesses that can be out of range are those of
`parse_config`. -/
theorem configsFrom_step (blob : Bytes) (configs : List ConfigDescriptor) (pos : ℕ) :
    configsFrom blob configs pos = if Stands blob pos then
      if blob.getD (pos + 1) 0 ≠ DT_CONFIG then
        configsFrom blob configs (pos + (blob.getD pos 0).toNat)
      else if (blob.getD pos 0).toNat < 9 then .err .shortConfig
      else do
        let cfg ← parseConfig (configBytes blob pos)
        if wTotalLength blob pos < (blob.getD pos 0).toNat then .ok (configs ++ [cfg])
        else configsFrom blob (configs ++ [cfg]) (pos + wTotalLength blob pos)
    else .ok configs := by
  rw [configsFrom]
  by_cases hpos : pos + 2 ≤ blob.length
  · rw [dif_pos hpos, Checked.get_of_lt 0 (by omega), Checked.ok_bind,
      Checked.get_of_lt 0 (by omega), Checked.ok_bind]
    by_cases hlen : (blob.getD pos 0).toNat < 2 ∨ blob.length < pos + (blob.getD pos 0).toNat
    · have hnot : ¬ Stands blob pos := by unfold Stands; omega
      rw [dif_pos hlen, if_neg hnot]
      rfl
    · have hstands : Stands blob pos := by unfold Stands; omega
      rw [dif_neg hlen, if_pos hstands]
      by_cases htype : blob.getD (pos + 1) 0 ≠ DT_CONFIG
      · rw [if_pos htype, if_pos htype]
      rw [if_neg htype, if_neg htype]
      by_cases hshort : (blob.getD pos 0).toNat < 9
      · rw [if_pos hshort, if_pos hshort]
      rw [if_neg hshort, if_neg hshort, u16le_of_lt (by omega), Checked.ok_bind,
        Checked.slice_of_le (by omega), Checked.ok_bind]
      rfl
  · rw [dif_neg hpos, if_neg fun h => hpos h.1]
    rfl

/-- A configuration descriptor of nine bytes or more is followed by what it says, cut at the end
of the blob: six bytes are there exactly if it says so. -/
theorem six_le_length_configBytes {blob : Bytes} {pos : ℕ} (hstands : Stands blob pos)
    (hlen : ¬ (blob.getD pos 0).toNat < 9) :
    6 ≤ (configBytes blob pos).length ↔ 6 ≤ wTotalLength blob pos := by
  have hfits := hstands.2.2
  rw [configBytes, List.length_drop, List.length_take]
  omega

/-- **The outer walk** stays in range exactly if each configuration descriptor it comes to says
that it is at least six bytes long. -/
theorem safe_configsFrom_iff (blob : Bytes) (configs : List ConfigDescriptor) (pos : ℕ) :
    (configsFrom blob configs pos).Safe ↔
      ∀ p ∈ reachedConfigs blob pos, 6 ≤ wTotalLength blob p := by
  induction hn : blob.length - pos using Nat.strong_induction_on generalizing pos configs with
  | _ n ih =>
    rw [configsFrom_step, reachedConfigs]
    by_cases hstands : Stands blob pos
    swap
    · rw [if_neg hstands, dif_neg hstands]
      exact iff_of_true (Checked.safe_ok _) (by simp)
    rw [if_pos hstands, dif_pos hstands]
    obtain ⟨hpos, hlen, hfits⟩ := id hstands
    by_cases htype : blob.getD (pos + 1) 0 ≠ DT_CONFIG
    · rw [if_pos htype, if_pos htype]
      exact ih _ (by omega) configs _ rfl
    rw [if_neg htype, if_neg htype]
    by_cases hshort : (blob.getD pos 0).toNat < 9
    · rw [if_pos hshort, if_pos hshort]
      exact iff_of_true (Checked.safe_err _) (by simp)
    rw [if_neg hshort, if_neg hshort]
    by_cases hgoes : goesOn blob pos = true
    · -- the configuration is parsed, and the walk goes on behind it
      rw [dif_pos hgoes]
      simp only [goesOn, Bool.and_eq_true, decide_eq_true_eq, Bool.not_eq_true'] at hgoes
      have hsix : 6 ≤ wTotalLength blob pos := by omega
      obtain ⟨cfg, hcfg⟩ :=
        (exists_parseConfig_iff ((six_le_length_configBytes hstands hshort).mpr hsix)).mpr hgoes.2
      rw [hcfg, Checked.ok_bind, if_neg (by omega), ih _ (by omega) _ _ rfl]
      simp [hsix]
    · -- it is the last one, whatever comes of it
      rw [dif_neg hgoes, List.forall_mem_singleton, ← six_le_length_configBytes hstands hshort,
        ← safe_parseConfig_iff]
      have hstop : ¬ (blob.getD pos 0).toNat ≤ wTotalLength blob pos ∨
          hasOrphan (entries (configBytes blob pos) ((configBytes blob pos).getD 0 0).toNat) =
            true := by
        rw [goesOn, Bool.and_eq_true, decide_eq_true_eq, Bool.not_eq_true', not_and_or] at hgoes
        exact hgoes.imp_right Bool.eq_true_of_not_eq_false
      cases hcfg : parseConfig (configBytes blob pos) with
      | ok cfg =>
        have hsix : 6 ≤ (configBytes blob pos).length :=
          (safe_parseConfig_iff _).mp (hcfg ▸ Checked.safe_ok cfg)
        have hno := (exists_parseConfig_iff hsix).mp ⟨cfg, hcfg⟩
        rw [hno] at hstop
        rw [Checked.ok_bind, if_pos (Nat.lt_of_not_le (hstop.resolve_right (by decide)))]
        exact iff_of_true (Checked.safe_ok _) (Checked.safe_ok _)
      | err e => exact iff_of_true (Checked.safe_err _) (Checked.safe_err _)
      | panic => exact iff_of_false Checked.not_safe_panic Checked.not_safe_panic

theorem exists_deviceFrom {blob : Bytes} (h : 18 ≤ blob.length) :
    ∃ device, deviceFrom blob = .ok device := by
  simp only [deviceFrom, u16le_of_lt (show 2 + 1 < blob.length by omega),
    u16le_of_lt (show 8 + 1 < blob.length by omega),
    u16le_of_lt (show 10 + 1 < blob.length by omega),
    u16le_of_lt (show 12 + 1 < blob.length by omega),
    Checked.get_of_lt 0 (show 4 < blob.length by omega),
    Checked.get_of_lt 0 (show 5 < blob.length by omega),
    Checked.get_of_lt 0 (show 6 < blob.length by omega),
    Checked.get_of_lt 0 (show 7 < blob.length by omega),
    Checked.get_of_lt 0 (show 17 < blob.length by omega), Checked.ok_bind, Checked.pure_eq]
  exact ⟨_, rfl⟩

/-- **When `parse` is total.** It returns a value or an error, with every index and slice in
range, exactly on the blobs that are refused at once and on those in which every configuration
descriptor that the walk comes to gives a `wTotalLength` of at least 6. -/
theorem parse_safe_iff (blob : Bytes) :
    (parse blob).Safe ↔ (DEVICE_DESC_LEN ≤ blob.length → blob.getD 1 0 = DT_DEVICE →
      ∀ p ∈ reachedConfigs blob (max (blob.getD 0 0).toNat DEVICE_DESC_LEN),
        6 ≤ wTotalLength blob p) := by
  unfold parse
  by_cases hlen : blob.length < DEVICE_DESC_LEN
  · rw [if_pos hlen]
    exact iff_of_true (Checked.safe_err _) fun h => absurd h (by omega)
  · have h18 : 18 ≤ blob.length := by simpa [DEVICE_DESC_LEN] using hlen
    rw [if_neg hlen, Checked.get_of_lt 0 (by omega), Checked.ok_bind]
    by_cases htype : blob.getD 1 0 = DT_DEVICE
    · obtain ⟨device, hdevice⟩ := exists_deviceFrom h18
      rw [if_neg (by simpa using htype), hdevice, Checked.ok_bind, Checked.get_of_lt 0 (by omega),
        Checked.ok_bind, ← safe_configsFrom_iff blob []]
      have hrest : ∀ x : Checked DescriptorError (List ConfigDescriptor),
          (x >>= fun configs => pure (Descriptors.mk device configs)).Safe ↔ x.Safe := by
        intro x
        cases x with
        | ok configs => exact iff_of_true (Checked.safe_ok _) (Checked.safe_ok _)
        | err e => exact iff_of_true (Checked.safe_err _) (Checked.safe_err _)
        | panic => exact iff_of_false Checked.not_safe_panic Checked.not_safe_panic
      rw [hrest]
      exact ⟨fun h _ _ => h, fun h => h (by omega) htype⟩
    · rw [if_pos htype]
      exact iff_of_true (Checked.safe_err _) fun _ h => absurd h htype

/-- A device descriptor, and a configuration descriptor that says it is 0 bytes long. -/
def emptyConfig : Bytes :=
  [18, 1, 0, 2, 0, 0, 0, 64, 1, 0, 2, 0, 0, 1, 0, 0, 0, 1, 9, 2, 0, 0, 1, 1, 0, 0x80, 50]

/-- `parse` panics on it. -/
theorem exists_parse_panic : ¬ ∀ blob, (parse blob).Safe := by
  intro hall
  have hpanic : parse emptyConfig = .panic := by decide +kernel
  exact hall emptyConfig hpanic

end Descriptors

end Padwire
