import Padwire.Backend.Summary
import Padwire.Server.Prefetch

/-!
# Two views of the endpoints

`build` (`usb-backend/src/usbfs.rs`) fills `ep_types` from the endpoints of all alternate settings,
by their address. `submit` looks an endpoint up by its number and the direction, and the prefetcher
takes the endpoints of the primary alternate settings and arms each by its number.

The two agree on an endpoint if its address has no reserved bits, and if the endpoint with that
address that comes last in the configuration has the same transfer type. An alternate setting may
well reuse an address with another type.
-/

namespace Padwire

/-! ### The endpoints of a configuration -/

/-- `bmAttributes & 0x03` of an endpoint descriptor. -/
inductive TransferType
  | control
  | isochronous
  | bulk
  | interrupt
  deriving DecidableEq, Repr

def TransferType.fromAttributes (attrs : UInt8) : TransferType :=
  if attrs &&& 0x03 = 0 then .control
  else if attrs &&& 0x03 = 1 then .isochronous
  else if attrs &&& 0x03 = 2 then .bulk
  else .interrupt

/-- The type of URB for an endpoint. -/
def TransferType.urbType : TransferType → UrbType
  | .control => .control
  | .isochronous => .iso
  | .bulk => .bulk
  | .interrupt => .interrupt

namespace EndpointDescriptor

def transferType (e : EndpointDescriptor) : TransferType := .fromAttributes e.attributes

def number (e : EndpointDescriptor) : UInt8 := e.address &&& 0x0f

def isIn (e : EndpointDescriptor) : Bool := e.address &&& 0x80 ≠ 0

/-- The direction of an endpoint. -/
def dir (e : EndpointDescriptor) : Direction := if e.isIn then .in else .out

end EndpointDescriptor

/-- The control endpoint, in both directions. -/
def controlTypes : Table UInt8 UrbType := AList.insert 0x80 .control (AList.insert 0x00 .control ∅)

namespace ConfigDescriptor

/-- The map that `build` fills. A later endpoint replaces an earlier one of the same address. -/
def epTypes (config : ConfigDescriptor) : Table UInt8 UrbType :=
  config.altSettings.foldl
    (fun t alt => alt.endpoints.foldl (fun t ep => t.insert ep.address ep.transferType.urbType) t)
    controlTypes

/-- List an interrupt IN endpoint, unless its address is there already. -/
def listEndpoint (out : List (UInt8 × UInt16)) (ep : EndpointDescriptor) : List (UInt8 × UInt16) :=
  if ep.isIn ∧ ep.transferType = .interrupt ∧ ¬out.any (fun o => o.1 == ep.address) then
    out ++ [(ep.address, ep.maxPacketSize)]
  else out

/-- The interrupt IN endpoints of the primary alternate settings. -/
def interruptInEndpoints (config : ConfigDescriptor) : List (UInt8 × UInt16) :=
  config.primaryAltSettings.foldl (fun out alt => alt.endpoints.foldl listEndpoint out) []

end ConfigDescriptor

/-- The device that `build` makes of the active configuration. -/
def UsbfsDevice.ofConfig (config : ConfigDescriptor) (caps : UInt32) (maxTransfer : ℕ) :
    UsbfsDevice where
  epTypes := config.epTypes
  caps
  maxTransfer
  interfaceNumbers := config.interfaceNumbers
  interruptInEndpoints := config.interruptInEndpoints

/-! ### The type of an address -/

namespace ConfigDescriptor

variable (cfg : ConfigDescriptor)

/-- All endpoints of all alternate settings. -/
def endpoints : List EndpointDescriptor := cfg.altSettings.flatMap AltSetting.endpoints

/-- The endpoint with this address that comes last. -/
def lastAt (address : UInt8) : Option EndpointDescriptor :=
  cfg.endpoints.reverse.find? fun ep => ep.address = address

theorem lookup_epTypes (address : UInt8) :
    cfg.epTypes.lookup address = ((cfg.lastAt address).map fun ep => ep.transferType.urbType).or
      (controlTypes.lookup address) := by
  rw [epTypes, lastAt, endpoints, ← List.foldl_flatMap]
  exact Table.lookup_foldl_insert _ _ _ _ _

/-- Every endpoint has a last one with its address. -/
theorem exists_lastAt {ep : EndpointDescriptor} (h : ep ∈ cfg.endpoints) :
    ∃ ep', cfg.lastAt ep.address = some ep' := by
  cases hlast : cfg.lastAt ep.address with
  | some ep' => exact ⟨ep', rfl⟩
  | none =>
    have hnot := List.find?_eq_none.mp hlast ep (List.mem_reverse.mpr h)
    simp at hnot

end ConfigDescriptor

theorem TransferType.urbType_injective {t t' : TransferType} (h : t.urbType = t'.urbType) :
    t = t' := by
  cases t <;> cases t' <;> first | rfl | cases h

/-- The address that `urb_type_for` makes of a number and a direction. -/
def addressOf (ep : UInt8) (dir : Direction) : UInt8 :=
  if dir.isIn then ep ||| 0x80 else ep &&& 0x7f

/-- It is the endpoint's own if there is nothing but the number and the direction in it. -/
theorem addressOf_endpoint_iff (ep : EndpointDescriptor) :
    addressOf ep.number ep.dir = ep.address ↔ ep.address &&& 0x70 = 0 := by
  have hall : ∀ n : Fin 256, let a := UInt8.ofNat n.val
      (if (if a &&& 0x80 ≠ 0 then Direction.in else .out).isIn then a &&& 0x0f ||| 0x80
        else a &&& 0x0f &&& 0x7f) = a ↔ a &&& 0x70 = 0 := by
    decide +kernel
  have haddress := hall ⟨ep.address.toNat, ep.address.toNat_lt⟩
  rw [UInt8.ofNat_toNat] at haddress
  simpa [addressOf, EndpointDescriptor.dir, EndpointDescriptor.isIn, EndpointDescriptor.number]
    using haddress

namespace UsbfsDevice

variable {cfg : ConfigDescriptor} {caps : UInt32} {maxTransfer : ℕ}

/-- How an endpoint other than the control endpoint is resolved. -/
theorem urbTypeFor_eq_ok_iff {d : UsbfsDevice} {ep address : UInt8} {dir : Direction} {t : UrbType}
    (hep : ep ≠ 0) :
    d.urbTypeFor ep dir = .ok (address, t) ↔
      addressOf ep dir = address ∧ t ≠ .iso ∧ d.epTypes.lookup address = some t := by
  have haddress : (if dir.isIn then ep ||| 0x80 else ep &&& 0x7f) = addressOf ep dir := rfl
  rw [urbTypeFor]
  simp only [if_neg hep, haddress]
  constructor
  · intro h
    split at h
    · cases h
    · rename_i t' hiso hlook
      obtain ⟨rfl, rfl⟩ := Prod.mk.inj (Except.ok.inj h)
      exact ⟨rfl, hiso, hlook⟩
    · cases h
  · rintro ⟨rfl, hiso, hlook⟩
    rw [← haddress] at hlook
    rw [hlook]
    cases t with
    | iso => exact absurd rfl hiso
    | interrupt | control | bulk => rfl

/-- An endpoint with a number is resolved to itself if its address has no reserved bits, and if the
endpoint with its address that comes last has its transfer type. -/
theorem urbTypeFor_endpoint_iff {ep : EndpointDescriptor} (hmem : ep ∈ cfg.endpoints)
    (hnumber : ep.number ≠ 0) (hiso : ep.transferType ≠ .isochronous) :
    (ofConfig cfg caps maxTransfer).urbTypeFor ep.number ep.dir =
        .ok (ep.address, ep.transferType.urbType) ↔
      ep.address &&& 0x70 = 0 ∧
        ∀ last, cfg.lastAt ep.address = some last → last.transferType = ep.transferType := by
  obtain ⟨last, hlast⟩ := cfg.exists_lastAt hmem
  have hlook : (ofConfig cfg caps maxTransfer).epTypes.lookup ep.address =
      some last.transferType.urbType := by
    rw [ofConfig, cfg.lookup_epTypes, hlast]
    rfl
  have hnot : ep.transferType.urbType ≠ .iso := by
    intro h
    have htype : ep.transferType.urbType = TransferType.isochronous.urbType := h
    exact hiso (TransferType.urbType_injective htype)
  rw [urbTypeFor_eq_ok_iff hnumber, addressOf_endpoint_iff, hlook, hlast]
  constructor
  · rintro ⟨hbits, -, htype⟩
    refine ⟨hbits, ?_⟩
    rintro _ ⟨⟩
    exact TransferType.urbType_injective (Option.some.inj htype)
  · rintro ⟨hbits, htype⟩
    exact ⟨hbits, hnot, by rw [htype last rfl]⟩

end UsbfsDevice

/-! ### The endpoints that the prefetcher arms -/

namespace ConfigDescriptor

variable (cfg : ConfigDescriptor)

/-- The endpoints of the primary alternate settings. -/
def primaryEndpoints : List EndpointDescriptor :=
  cfg.primaryAltSettings.flatMap AltSetting.endpoints

theorem primaryEndpoints_subset {ep : EndpointDescriptor} (h : ep ∈ cfg.primaryEndpoints) :
    ep ∈ cfg.endpoints := by
  obtain ⟨alt, halt, hep⟩ := List.mem_flatMap.mp h
  exact List.mem_flatMap.mpr
    ⟨alt, ((onePerInterface_primaryAltSettings cfg).primary alt halt).1, hep⟩

theorem mem_listEndpoint (out : List (UInt8 × UInt16)) (ep : EndpointDescriptor) (address : UInt8) :
    (∃ o ∈ listEndpoint out ep, o.1 = address) ↔ (∃ o ∈ out, o.1 = address) ∨
      (ep.isIn = true ∧ ep.transferType = .interrupt) ∧ ep.address = address := by
  rw [listEndpoint]
  by_cases hkind : ep.isIn = true ∧ ep.transferType = .interrupt
  · by_cases hthere : out.any fun o => o.1 == ep.address
    · rw [if_neg fun h => h.2.2 hthere]
      refine ⟨.inl, fun h => h.elim id ?_⟩
      rintro ⟨-, rfl⟩
      simpa using hthere
    · rw [if_pos ⟨hkind.1, hkind.2, hthere⟩]
      simp [hkind, or_and_right, exists_or]
  · rw [if_neg fun h => hkind ⟨h.1, h.2.1⟩]
    simp [hkind]

/-- The addresses that `interrupt_in_endpoints` lists. -/
theorem mem_interruptInEndpoints (address : UInt8) :
    (∃ o ∈ cfg.interruptInEndpoints, o.1 = address) ↔
      ∃ ep ∈ cfg.primaryEndpoints, (ep.isIn = true ∧ ep.transferType = .interrupt) ∧
        ep.address = address := by
  have hfold : ∀ (l : List EndpointDescriptor) (out : List (UInt8 × UInt16)),
      (∃ o ∈ l.foldl listEndpoint out, o.1 = address) ↔ (∃ o ∈ out, o.1 = address) ∨
        ∃ ep ∈ l, (ep.isIn = true ∧ ep.transferType = .interrupt) ∧ ep.address = address := by
    intro l
    induction l with
    | nil => simp
    | cons ep l ih =>
      intro out
      rw [List.foldl_cons, ih, mem_listEndpoint, or_assoc, List.exists_mem_cons_iff]
  have hall := hfold cfg.primaryEndpoints []
  rw [primaryEndpoints, List.foldl_flatMap] at hall
  rw [interruptInEndpoints, primaryEndpoints, hall]
  simp

end ConfigDescriptor

/-- Submit finds every endpoint of the primary alternate settings under its own address and with its
own type, isochronous ones and the control endpoint apart; and what the prefetcher submits to arm an
endpoint goes out as an interrupt URB to the address it was listed under. -/
structure ConfigDescriptor.Resolves (cfg : ConfigDescriptor) (d : UsbfsDevice) : Prop where
  submit : ∀ ep ∈ cfg.primaryEndpoints, ep.transferType ≠ .isochronous → ep.number ≠ 0 →
    d.urbTypeFor ep.number ep.dir = .ok (ep.address, ep.transferType.urbType)
  prefetch : ∀ o ∈ d.interruptInEndpoints, ∀ seqnum,
    let req := (Endpoint.fresh o.1 o.2).request o.1 seqnum
    d.urbTypeFor req.ep req.dir = .ok (o.1, .interrupt)

/-- The address of an endpoint is its number and its direction, and no later endpoint takes it with
another transfer type. Interrupt IN endpoints have a number. -/
structure EndpointDescriptor.Plain (ep : EndpointDescriptor) (cfg : ConfigDescriptor) : Prop where
  bits : ep.number ≠ 0 → ep.address &&& 0x70 = 0
  last : ep.number ≠ 0 → ∀ last, cfg.lastAt ep.address = some last →
    last.transferType = ep.transferType
  numbered : ep.isIn = true → ep.transferType = .interrupt → ep.number ≠ 0

theorem resolves_iff (cfg : ConfigDescriptor) (caps : UInt32) (maxTransfer : ℕ) :
    cfg.Resolves (.ofConfig cfg caps maxTransfer) ↔
      ∀ ep ∈ cfg.primaryEndpoints, ep.transferType ≠ .isochronous → ep.Plain cfg := by
  constructor
  · intro h ep hep hiso
    have hmem := cfg.primaryEndpoints_subset hep
    refine ⟨fun hn => ?_, fun hn => ?_, fun hin hint hzero => ?_⟩
    · exact ((UsbfsDevice.urbTypeFor_endpoint_iff hmem hn hiso).mp (h.submit ep hep hiso hn)).1
    · exact ((UsbfsDevice.urbTypeFor_endpoint_iff hmem hn hiso).mp (h.submit ep hep hiso hn)).2
    · obtain ⟨o, ho, haddr⟩ :=
        (cfg.mem_interruptInEndpoints ep.address).mpr ⟨ep, hep, ⟨hin, hint⟩, rfl⟩
      have harmed : (UsbfsDevice.ofConfig cfg caps maxTransfer).urbTypeFor (o.1 &&& 0x0f) .in =
          .ok (o.1, .interrupt) := h.prefetch o ho 0
      -- number 0 is the control endpoint
      have hzero : o.1 &&& 0x0f = 0 := by
        rw [haddr]
        exact hzero
      rw [hzero, UsbfsDevice.urbTypeFor, if_pos rfl] at harmed
      injection harmed with harmed
      injection harmed with _ htype
      cases htype
  · intro h
    have hsubmit : ∀ ep ∈ cfg.primaryEndpoints, ep.transferType ≠ .isochronous → ep.number ≠ 0 →
        (UsbfsDevice.ofConfig cfg caps maxTransfer).urbTypeFor ep.number ep.dir =
          .ok (ep.address, ep.transferType.urbType) := by
      intro ep hep hiso hn
      have hplain := h ep hep hiso
      exact (UsbfsDevice.urbTypeFor_endpoint_iff (cfg.primaryEndpoints_subset hep) hn hiso).mpr
        ⟨hplain.bits hn, hplain.last hn⟩
    refine ⟨hsubmit, fun o ho seqnum => ?_⟩
    obtain ⟨ep, hep, ⟨hin, hint⟩, haddr⟩ := (cfg.mem_interruptInEndpoints o.1).mp ⟨o, ho, rfl⟩
    have hiso : ep.transferType ≠ .isochronous := by
      rw [hint]
      decide
    have hdir : ep.dir = .in := if_pos hin
    have hfound := hsubmit ep hep hiso ((h ep hep hiso).numbered hin hint)
    rw [hdir, hint, haddr, EndpointDescriptor.number, haddr] at hfound
    exact hfound

/-- **Submit and the prefetcher agree on the endpoints** of a configuration if and only if each
endpoint of its primary alternate settings is plain. -/
theorem resolves_of_parse_iff (blob : Bytes) (ds : Descriptors) (cfg : ConfigDescriptor)
    (caps : UInt32) (maxTransfer : ℕ) : Descriptors.parse blob = .ok ds → cfg ∈ ds.configs →
      (cfg.Resolves (.ofConfig cfg caps maxTransfer) ↔
        ∀ ep ∈ cfg.primaryEndpoints, ep.transferType ≠ .isochronous → ep.Plain cfg) := by
  intro _ _
  exact resolves_iff cfg caps maxTransfer

/-- A gamepad with an interrupt IN endpoint, and an alternate setting with a bulk endpoint at the
given address. -/
def altReuses (address : UInt8) : Bytes :=
  [18, 1, 0, 2, 0, 0, 0, 64, 0xde, 0x28, 0x05, 0x12, 0, 1, 0, 0, 0, 1,
    9, 2, 41, 0, 1, 1, 0, 0x80, 50,
    9, 4, 0, 0, 1, 3, 0, 0, 0, 7, 5, 0x81, 3, 64, 0, 1,
    9, 4, 0, 1, 1, 3, 0, 0, 0, 7, 5, address, 2, 64, 0, 0]

def altReusesConfig (address : UInt8) : ConfigDescriptor where
  configurationValue := 1
  numInterfaces := 1
  altSettings := [⟨0, 0, 3, 0, 0, [⟨0x81, 3, 64, 1⟩]⟩, ⟨0, 1, 3, 0, 0, [⟨address, 2, 64, 0⟩]⟩]

theorem resolves_of_parse_iff_altReuses : ∃ ds cfg,
    Descriptors.parse (altReuses 0x02) = .ok ds ∧ cfg ∈ ds.configs ∧
      cfg.Resolves (.ofConfig cfg 0 4096) := by
  have hread : Descriptors.parse (altReuses 0x02) =
      .ok ⟨⟨0x200, 0, 0, 0, 64, 0x28de, 0x1205, 0x100, 1⟩, [altReusesConfig 0x02]⟩ := by
    decide +kernel
  refine ⟨_, _, hread, List.mem_cons_self,
    (resolves_of_parse_iff _ _ _ 0 4096 hread List.mem_cons_self).mpr ?_⟩
  have hprimary : (altReusesConfig 0x02).primaryEndpoints = [⟨0x81, 3, 64, 1⟩] := by
    decide +kernel
  have hlast : (altReusesConfig 0x02).lastAt 0x81 = some ⟨0x81, 3, 64, 1⟩ := by decide +kernel
  rw [hprimary]
  intro ep hep _
  obtain rfl := List.mem_singleton.mp hep
  refine ⟨fun _ => by decide, fun _ last h => ?_, fun _ _ => by decide⟩
  rw [hlast] at h
  rw [← Option.some.inj h]

/-- An alternate setting that uses the address of a primary endpoint with another type takes the
endpoint over: the prefetcher's URBs for it go out as bulk URBs. -/
theorem alternate_setting_takes_over : ∃ ds cfg,
    Descriptors.parse (altReuses 0x81) = .ok ds ∧ cfg ∈ ds.configs ∧
      cfg.interruptInEndpoints = [(0x81, 64)] ∧ ∀ caps maxTransfer,
        (UsbfsDevice.ofConfig cfg caps maxTransfer).urbTypeFor 1 .in = .ok (0x81, .bulk) ∧
          ¬cfg.Resolves (.ofConfig cfg caps maxTransfer) := by
  have hread : Descriptors.parse (altReuses 0x81) =
      .ok ⟨⟨0x200, 0, 0, 0, 64, 0x28de, 0x1205, 0x100, 1⟩, [altReusesConfig 0x81]⟩ := by
    decide +kernel
  refine ⟨_, _, hread, List.mem_cons_self, by decide +kernel, fun caps maxTransfer => ?_⟩
  have htype : (UsbfsDevice.ofConfig (altReusesConfig 0x81) caps maxTransfer).urbTypeFor 1 .in =
      .ok (0x81, .bulk) := by
    have hlook : (altReusesConfig 0x81).epTypes.lookup 0x81 = some .bulk := by decide +kernel
    exact (UsbfsDevice.urbTypeFor_eq_ok_iff (by decide)).mpr ⟨rfl, by decide, hlook⟩
  refine ⟨htype, fun h => ?_⟩
  have hmem : (⟨0x81, 3, 64, 1⟩ : EndpointDescriptor) ∈
      (altReusesConfig 0x81).primaryEndpoints := by decide +kernel
  have hfound : (UsbfsDevice.ofConfig (altReusesConfig 0x81) caps maxTransfer).urbTypeFor 1 .in =
      .ok (0x81, .interrupt) := h.submit _ hmem (by decide) (by decide)
  rw [htype] at hfound
  injection hfound with hfound
  injection hfound with _ htype
  cases htype

end Padwire
