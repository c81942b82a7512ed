import Padwire.Backend.Descriptors

/-!
# The layout of a descriptor blob

What a device sends: its device descriptor, and each configuration with its alternate settings,
their endpoints, and foreign descriptors (HID, class-specific, vendor) anywhere in between. Each
descriptor may be longer than its standard fields. The types here carry the bounds that a length
byte and `wTotalLength` put on them, so that every one of their values can be written out.

A configuration is read descriptor by descriptor: `configFrom_flatMap` says that the inner walk
enters each of them in turn, whatever stands before and behind it. `parse_layout` says that
`parse` gives back the tree that was laid out.
-/

namespace Padwire

namespace Descriptors

/-! ### Descriptors in a row -/

/-- A descriptor. -/
structure RawDescriptor where
  dtype : UInt8
  body : Bytes
  fits : body.length ≤ 253

namespace RawDescriptor

/-- `bLength`, which counts itself and the type. -/
def len (d : RawDescriptor) : ℕ := d.body.length + 2

def bytes (d : RawDescriptor) : Bytes := UInt8.ofNat d.len :: d.dtype :: d.body

@[simp]
theorem length_bytes (d : RawDescriptor) : d.bytes.length = d.len := rfl

theorem toNat_len (d : RawDescriptor) : (UInt8.ofNat d.len).toNat = d.len := by
  have hfits := d.fits
  rw [UInt8.toNat_ofNat_of_lt']
  simp only [len, UInt8.size]
  omega

/-- What `parse_config` does with a descriptor. -/
def enter (cfg : ConfigDescriptor) (d : RawDescriptor) : Checked DescriptorError ConfigDescriptor :=
  configEntry d.bytes cfg 0 d.len d.dtype

end RawDescriptor

theorem u16le_append {pre mid post : Bytes} {i : ℕ} (h : i + 1 < mid.length) :
    u16le (pre ++ (mid ++ post)) (pre.length + i) = u16le mid i := by
  rw [u16le, u16le, Checked.get_append (by omega), Nat.add_assoc, Checked.get_append h]

/-- What comes of a descriptor does not depend on where it stands. -/
theorem configEntry_append (pre post : Bytes) (d : RawDescriptor) (cfg : ConfigDescriptor) :
    configEntry (pre ++ (d.bytes ++ post)) cfg pre.length d.len d.dtype = d.enter cfg := by
  have hlen : d.bytes.length = d.len := d.length_bytes
  rw [RawDescriptor.enter, configEntry, configEntry]
  split_ifs with hif hep
  · rw [Checked.get_append (by omega), Checked.get_append (by omega),
      Checked.get_append (by omega), Checked.get_append (by omega), Checked.get_append (by omega)]
  · rw [Checked.get_append (by omega), Checked.get_append (by omega), u16le_append (by omega),
      Checked.get_append (by omega)]
  · rfl

theorem getD_append {pre post : Bytes} {i : ℕ} :
    (pre ++ post).getD (pre.length + i) 0 = post.getD i 0 := by
  rw [List.getD_eq_getElem?_getD, List.getD_eq_getElem?_getD,
    List.getElem?_append_right (Nat.le_add_right _ _), Nat.add_sub_cancel_left]

/-- **The inner walk** over descriptors in a row enters each in turn. -/
theorem configFrom_flatMap (pre : Bytes) (ds : List RawDescriptor) (cfg : ConfigDescriptor) :
    configFrom (pre ++ ds.flatMap RawDescriptor.bytes) cfg pre.length =
      ds.foldlM RawDescriptor.enter cfg := by
  induction ds generalizing pre cfg with
  | nil =>
    rw [configFrom_step, if_neg]
    · rfl
    · rintro ⟨hpos, -⟩
      simp at hpos
  | cons d ds ih =>
    have hlen : ((pre ++ (d.bytes ++ ds.flatMap RawDescriptor.bytes)).getD pre.length 0).toNat =
        d.len := by
      rw [← Nat.add_zero pre.length, getD_append]
      exact d.toNat_len
    have htype : (pre ++ (d.bytes ++ ds.flatMap RawDescriptor.bytes)).getD (pre.length + 1) 0 =
        d.dtype := getD_append
    have hstands : Stands (pre ++ (d.bytes ++ ds.flatMap RawDescriptor.bytes)) pre.length := by
      rw [Stands, hlen]
      simp only [List.length_append, RawDescriptor.length_bytes]
      have htwo : 2 ≤ d.len := by simp only [RawDescriptor.len]; omega
      omega
    have hnext : pre.length + d.len = (pre ++ d.bytes).length := by simp
    rw [List.flatMap_cons, configFrom_step, if_pos hstands, hlen, htype, configEntry_append,
      List.foldlM_cons, hnext]
    congr 1
    funext cfg'
    rw [← List.append_assoc]
    exact ih (pre ++ d.bytes) cfg'

/-! ### What a configuration is made of -/

/-- A descriptor that is none of the parser's business. -/
structure Foreign where
  dtype : UInt8
  body : Bytes
  fits : body.length ≤ 253
  not_interface : dtype ≠ DT_INTERFACE
  not_endpoint : dtype ≠ DT_ENDPOINT

def Foreign.raw (f : Foreign) : RawDescriptor := ⟨f.dtype, f.body, f.fits⟩

/-- An endpoint descriptor of at least seven bytes, and the foreign descriptors behind it. -/
structure EndpointLayout where
  endpoint : EndpointDescriptor
  extra : Bytes
  fits : extra.length ≤ 248
  foreign : List Foreign

def EndpointLayout.raw (e : EndpointLayout) : RawDescriptor where
  dtype := DT_ENDPOINT
  body := [e.endpoint.address, e.endpoint.attributes] ++ leBytes 2 e.endpoint.maxPacketSize.toNat ++
    [e.endpoint.interval] ++ e.extra
  fits := by
    have hfits := e.fits
    simp only [List.length_append, List.length_cons, List.length_nil, length_leBytes]
    omega

def EndpointLayout.raws (e : EndpointLayout) : List RawDescriptor :=
  e.raw :: e.foreign.map Foreign.raw

/-- An interface descriptor of at least nine bytes, the foreign descriptors behind it, and its
endpoints. -/
structure AltLayout where
  interfaceNumber : UInt8
  alternateSetting : UInt8
  bNumEndpoints : UInt8
  cls : UInt8
  subClass : UInt8
  protocol : UInt8
  iInterface : UInt8
  extra : Bytes
  fits : extra.length ≤ 246
  foreign : List Foreign
  endpoints : List EndpointLayout

def AltLayout.raw (a : AltLayout) : RawDescriptor where
  dtype := DT_INTERFACE
  body := [a.interfaceNumber, a.alternateSetting, a.bNumEndpoints, a.cls, a.subClass, a.protocol,
    a.iInterface] ++ a.extra
  fits := by
    have hfits := a.fits
    simp only [List.length_append, List.length_cons, List.length_nil]
    omega

def AltLayout.raws (a : AltLayout) : List RawDescriptor :=
  a.raw :: (a.foreign.map Foreign.raw ++ a.endpoints.flatMap EndpointLayout.raws)

/-- The alternate setting that was laid out. -/
def AltLayout.tree (a : AltLayout) : AltSetting where
  interfaceNumber := a.interfaceNumber
  alternateSetting := a.alternateSetting
  cls := a.cls
  subClass := a.subClass
  protocol := a.protocol
  endpoints := a.endpoints.map EndpointLayout.endpoint

/-! ### Reading a configuration -/

/-- A descriptor of another kind is passed over. -/
theorem enter_foreign (f : Foreign) (cfg : ConfigDescriptor) : f.raw.enter cfg = .ok cfg := by
  rw [RawDescriptor.enter, configEntry, if_neg fun h => f.not_interface h.1,
    if_neg fun h => f.not_endpoint h.1]
  rfl

/-- So is any number of them. -/
theorem foldlM_foreign (fs : List Foreign) (cfg : ConfigDescriptor) :
    (fs.map Foreign.raw).foldlM RawDescriptor.enter cfg = .ok cfg := by
  induction fs with
  | nil => rfl
  | cons f fs ih => rw [List.map_cons, List.foldlM_cons, enter_foreign, Checked.ok_bind, ih]

/-- An interface descriptor opens an alternate setting. -/
theorem enter_interface (a : AltLayout) (cfg : ConfigDescriptor) :
    a.raw.enter cfg = .ok { cfg with
      altSettings := cfg.altSettings ++ [{ a.tree with endpoints := [] }] } := by
  have hlen : 9 ≤ a.raw.len := by
    simp only [RawDescriptor.len, AltLayout.raw, List.length_append, List.length_cons,
      List.length_nil]
    omega
  rw [RawDescriptor.enter, configEntry, if_pos ⟨rfl, hlen⟩]
  rfl

/-- An endpoint goes to the alternate setting that was opened last. -/
theorem pushEndpoint_append (ep : EndpointDescriptor) (alts : List AltSetting) (a : AltSetting) :
    pushEndpoint ep (alts ++ [a]) =
      some (alts ++ [{ a with endpoints := a.endpoints ++ [ep] }]) := by
  induction alts with
  | nil => rfl
  | cons b alts ih =>
    cases alts with
    | nil => rfl
    | cons c alts =>
      rw [List.cons_append, List.cons_append, pushEndpoint, ← List.cons_append, ih]
      rfl

/-- An endpoint descriptor is entered there. -/
theorem enter_endpoint (e : EndpointLayout) {cfg : ConfigDescriptor} {alts : List AltSetting}
    {a : AltSetting} (hcfg : cfg.altSettings = alts ++ [a]) :
    e.raw.enter cfg = .ok { cfg with
      altSettings := alts ++ [{ a with endpoints := a.endpoints ++ [e.endpoint] }] } := by
  have hlen : 7 ≤ e.raw.len := by
    simp only [RawDescriptor.len, EndpointLayout.raw, List.length_append, List.length_cons,
      List.length_nil, length_leBytes]
    omega
  have haddress : .get e.raw.bytes (0 + 2) = Checked.ok (ε := DescriptorError) e.endpoint.address :=
    rfl
  have hattributes : .get e.raw.bytes (0 + 3) =
      Checked.ok (ε := DescriptorError) e.endpoint.attributes := rfl
  have hsize : u16le e.raw.bytes (0 + 4) = .ok e.endpoint.maxPacketSize := by
    have hread : u16le e.raw.bytes (0 + 4) =
        .ok (UInt16.ofNat (leNat (leBytes 2 e.endpoint.maxPacketSize.toNat))) := rfl
    rw [hread, leNat_leBytes e.endpoint.maxPacketSize.toNat_lt, UInt16.ofNat_toNat]
  have hinterval : .get e.raw.bytes (0 + 6) =
      Checked.ok (ε := DescriptorError) e.endpoint.interval := rfl
  have hpush : pushEndpoint ⟨e.endpoint.address, e.endpoint.attributes, e.endpoint.maxPacketSize,
      e.endpoint.interval⟩ cfg.altSettings =
      some (alts ++ [{ a with endpoints := a.endpoints ++ [e.endpoint] }]) := by
    rw [hcfg]
    exact pushEndpoint_append e.endpoint alts a
  rw [RawDescriptor.enter, configEntry, if_neg (by rintro ⟨h, -⟩; cases h), if_pos ⟨rfl, hlen⟩,
    haddress, hattributes, hsize, hinterval]
  simp only [Checked.ok_bind, hpush, Checked.pure_eq]

/-- An alternate setting is read with its endpoints, and nothing before it changes. -/
theorem foldlM_endpoints (es : List EndpointLayout) {cfg : ConfigDescriptor}
    {alts : List AltSetting} {a : AltSetting} (hcfg : cfg.altSettings = alts ++ [a]) :
    (es.flatMap EndpointLayout.raws).foldlM RawDescriptor.enter cfg = .ok { cfg with
      altSettings := alts ++
        [{ a with endpoints := a.endpoints ++ es.map EndpointLayout.endpoint }] } := by
  induction es generalizing cfg a with
  | nil => simp [← hcfg]
  | cons e es ih =>
    have hone : e.raws.foldlM RawDescriptor.enter cfg = .ok { cfg with
        altSettings := alts ++ [{ a with endpoints := a.endpoints ++ [e.endpoint] }] } := by
      rw [EndpointLayout.raws, List.foldlM_cons, enter_endpoint e hcfg, Checked.ok_bind,
        foldlM_foreign]
    rw [List.flatMap_cons, Checked.foldlM_append_of_ok hone, ih rfl, List.map_cons]
    simp

/-- An alternate setting with all that stands behind it is read as it is. -/
theorem foldlM_alt (a : AltLayout) (cfg : ConfigDescriptor) :
    a.raws.foldlM RawDescriptor.enter cfg =
      .ok { cfg with altSettings := cfg.altSettings ++ [a.tree] } := by
  rw [AltLayout.raws, List.foldlM_cons, enter_interface, Checked.ok_bind,
    Checked.foldlM_append_of_ok (foldlM_foreign _ _), foldlM_endpoints _ rfl]
  rfl

/-- And so are all of them, one after the other. -/
theorem foldlM_alts (as : List AltLayout) (cfg : ConfigDescriptor) :
    (as.flatMap AltLayout.raws).foldlM RawDescriptor.enter cfg =
      .ok { cfg with altSettings := cfg.altSettings ++ as.map AltLayout.tree } := by
  induction as generalizing cfg with
  | nil => simp
  | cons a as ih =>
    rw [List.flatMap_cons, Checked.foldlM_append_of_ok (foldlM_alt a cfg), ih, List.map_cons]
    simp

/-- A configuration: its own descriptor of at least nine bytes, with everything from the string
index on in `tail`, foreign descriptors before the first interface, and the alternate settings. -/
structure ConfigLayout where
  configurationValue : UInt8
  numInterfaces : UInt8
  tail : Bytes
  three_le : 3 ≤ tail.length
  tail_fits : tail.length ≤ 249
  foreign : List Foreign
  alts : List AltLayout
  fits : 6 + tail.length + ((foreign.map Foreign.raw ++ alts.flatMap AltLayout.raws).flatMap
    RawDescriptor.bytes).length ≤ 65535

namespace ConfigLayout

variable (c : ConfigLayout)

/-- The descriptors behind the configuration's own. -/
def raws : List RawDescriptor := c.foreign.map Foreign.raw ++ c.alts.flatMap AltLayout.raws

/-- `wTotalLength`. -/
def total : ℕ := 6 + c.tail.length + (c.raws.flatMap RawDescriptor.bytes).length

/-- The configuration's own descriptor. -/
def head : Bytes :=
  [UInt8.ofNat (6 + c.tail.length), DT_CONFIG] ++ leBytes 2 c.total ++
    [c.numInterfaces, c.configurationValue] ++ c.tail

def bytes : Bytes := c.head ++ c.raws.flatMap RawDescriptor.bytes

def tree : ConfigDescriptor where
  configurationValue := c.configurationValue
  numInterfaces := c.numInterfaces
  altSettings := c.alts.map AltLayout.tree

end ConfigLayout

theorem length_head (c : ConfigLayout) : c.head.length = 6 + c.tail.length := by
  simp only [ConfigLayout.head, List.length_append, List.length_cons, List.length_nil,
    length_leBytes]

theorem length_bytes (c : ConfigLayout) : c.bytes.length = c.total := by
  rw [ConfigLayout.bytes, List.length_append, length_head, ConfigLayout.total]

theorem toNat_head (c : ConfigLayout) :
    (UInt8.ofNat (6 + c.tail.length)).toNat = c.head.length := by
  have hfits := c.tail_fits
  rw [length_head, UInt8.toNat_ofNat_of_lt']
  simp only [UInt8.size]
  omega

/-- **A configuration reads back** from its bytes. -/
theorem parseConfig_bytes (c : ConfigLayout) : parseConfig c.bytes = .ok c.tree := by
  have hnum : .get c.bytes 4 = Checked.ok (ε := DescriptorError) c.numInterfaces := rfl
  have hvalue : .get c.bytes 5 = Checked.ok (ε := DescriptorError) c.configurationValue := rfl
  have hlen : .get c.bytes 0 =
      Checked.ok (ε := DescriptorError) (UInt8.ofNat (6 + c.tail.length)) := rfl
  rw [parseConfig, hnum, Checked.ok_bind, hvalue, Checked.ok_bind, hlen, Checked.ok_bind,
    toNat_head, ConfigLayout.bytes, configFrom_flatMap, ConfigLayout.raws,
    Checked.foldlM_append_of_ok (foldlM_foreign _ _), foldlM_alts]
  rfl

/-! ### Reading the blob -/

theorem wTotalLength_append (pre post : Bytes) (c : ConfigLayout) :
    wTotalLength (pre ++ (c.bytes ++ post)) pre.length = c.total := by
  have hlt : c.total < 65536 := Nat.lt_succ_of_le c.fits
  have hread : wTotalLength (pre ++ (c.bytes ++ post)) pre.length =
      (UInt16.ofNat (leNat (leBytes 2 c.total))).toNat := by
    rw [wTotalLength, Nat.add_assoc, getD_append, getD_append]
    rfl
  rw [hread, leNat_leBytes hlt, UInt16.toNat_ofNat_of_lt' hlt]

/-- `wTotalLength` cuts a configuration out of what stands around it. -/
theorem configBytes_append (pre post : Bytes) (c : ConfigLayout) :
    configBytes (pre ++ (c.bytes ++ post)) pre.length = c.bytes := by
  have hend : min (pre.length + c.total) (pre ++ (c.bytes ++ post)).length =
      (pre ++ c.bytes).length := by
    simp only [List.length_append, length_bytes]
    omega
  rw [configBytes, wTotalLength_append, hend, ← List.append_assoc, List.take_left, List.drop_left]

/-- **The outer walk** over configurations in a row reads each in turn. -/
theorem configsFrom_flatMap (pre : Bytes) (cs : List ConfigLayout)
    (configs : List ConfigDescriptor) :
    configsFrom (pre ++ cs.flatMap ConfigLayout.bytes) configs pre.length =
      .ok (configs ++ cs.map ConfigLayout.tree) := by
  induction cs generalizing pre configs with
  | nil =>
    rw [configsFrom_step, if_neg]
    · rw [List.map_nil, List.append_nil]
    · rintro ⟨hpos, -⟩
      simp at hpos
  | cons c cs ih =>
    have hlen : ((pre ++ (c.bytes ++ cs.flatMap ConfigLayout.bytes)).getD pre.length 0).toNat =
        c.head.length := by
      rw [← Nat.add_zero pre.length, getD_append]
      exact toNat_head c
    have htype : (pre ++ (c.bytes ++ cs.flatMap ConfigLayout.bytes)).getD (pre.length + 1) 0 =
        DT_CONFIG := getD_append
    have hhead : c.head.length = 6 + c.tail.length := length_head c
    have hthree := c.three_le
    have htotal : c.head.length ≤ c.total := by
      rw [hhead, ConfigLayout.total]
      exact Nat.le_add_right _ _
    have hstands : Stands (pre ++ (c.bytes ++ cs.flatMap ConfigLayout.bytes)) pre.length := by
      rw [Stands, hlen]
      simp only [List.length_append, length_bytes]
      omega
    have hnext : pre.length + c.total = (pre ++ c.bytes).length := by
      rw [List.length_append, length_bytes]
    rw [List.flatMap_cons, configsFrom_step, if_pos hstands, hlen, htype, if_neg (by simp),
      if_neg (by omega), configBytes_append, parseConfig_bytes, Checked.ok_bind,
      wTotalLength_append, if_neg (by omega), hnext, ← List.append_assoc, ih, List.map_cons,
      List.append_assoc, List.singleton_append]

/-- A whole blob: the device descriptor with its string indices, and the configurations. -/
structure BlobLayout where
  device : DeviceDescriptor
  iManufacturer : UInt8
  iProduct : UInt8
  iSerialNumber : UInt8
  configs : List ConfigLayout

namespace BlobLayout

/-- The device descriptor. -/
def deviceBytes (b : BlobLayout) : Bytes :=
  [18, DT_DEVICE] ++ leBytes 2 b.device.bcdUsb.toNat ++
    [b.device.bDeviceClass, b.device.bDeviceSubClass, b.device.bDeviceProtocol,
      b.device.bMaxPacketSize0] ++
    leBytes 2 b.device.idVendor.toNat ++ leBytes 2 b.device.idProduct.toNat ++
    leBytes 2 b.device.bcdDevice.toNat ++
    [b.iManufacturer, b.iProduct, b.iSerialNumber, b.device.bNumConfigurations]

def bytes (b : BlobLayout) : Bytes := b.deviceBytes ++ b.configs.flatMap ConfigLayout.bytes

def tree (b : BlobLayout) : Descriptors where
  device := b.device
  configs := b.configs.map ConfigLayout.tree

end BlobLayout

/-- The device descriptor at the front is read as it is. -/
theorem deviceFrom_bytes (b : BlobLayout) : deviceFrom b.bytes = .ok b.device := by
  have hread : ∀ v : UInt16, UInt16.ofNat (leNat (leBytes 2 v.toNat)) = v := by
    intro v
    rw [leNat_leBytes v.toNat_lt, UInt16.ofNat_toNat]
  have hfields : deviceFrom b.bytes = .ok
      { b.device with
        bcdUsb := UInt16.ofNat (leNat (leBytes 2 b.device.bcdUsb.toNat))
        idVendor := UInt16.ofNat (leNat (leBytes 2 b.device.idVendor.toNat))
        idProduct := UInt16.ofNat (leNat (leBytes 2 b.device.idProduct.toNat))
        bcdDevice := UInt16.ofNat (leNat (leBytes 2 b.device.bcdDevice.toNat)) } := rfl
  rw [hfields, hread, hread, hread, hread]

/-- The device descriptor is read, and the walk over the configurations begins behind it. -/
theorem parse_device (b : BlobLayout) :
    parse b.bytes = (configsFrom b.bytes [] b.deviceBytes.length >>= fun configs =>
      .ok { device := b.device, configs }) := by
  have hlen : b.deviceBytes.length = 18 := rfl
  have htype : .get b.bytes 1 = Checked.ok (ε := DescriptorError) DT_DEVICE := rfl
  have hfirst : .get b.bytes 0 = Checked.ok (ε := DescriptorError) 18 := rfl
  have hstart : max (18 : UInt8).toNat DEVICE_DESC_LEN = b.deviceBytes.length := rfl
  have hlong : ¬b.bytes.length < DEVICE_DESC_LEN := by
    rw [BlobLayout.bytes, List.length_append, hlen, DEVICE_DESC_LEN]
    omega
  rw [parse, if_neg hlong, htype, Checked.ok_bind, if_neg (by simp), deviceFrom_bytes,
    Checked.ok_bind, hfirst, Checked.ok_bind, hstart]
  rfl

/-- **Parsing a blob** gives back the tree that was laid out. -/
theorem parse_layout (b : BlobLayout) : parse b.bytes = .ok b.tree := by
  rw [parse_device, BlobLayout.bytes, configsFrom_flatMap, Checked.ok_bind]
  rfl

end Descriptors

end Padwire
