import Padwire.Backend.Summary
import Padwire.Proto.Op

/-!
# The first request of a connection

What the exporter does with a new connection until a session begins (`handle` and `import` in
`usbfwd-server/src/lib.rs`): it reads one request, answers it, and closes the connection or goes on
to the session with the bytes that it has not read.

Two results. The first is about peers that mean well (`peers_agree`): a client that asks for the
list of devices reads the list that the exporter has, and one that asks for a device by its bus id
reads the device or that it was refused, just as the exporter goes on. The second is about peers
that may send anything (`session_only_on_offer`): a session begins after a whole import request for
a device on the list and no other bytes, right behind them; in every other case the exporter writes
the list, a refusal, or nothing.

Whether the lease is free, the device opens and its interfaces can be claimed are answers of the
machine (`Exporter`). Writes to the socket succeed here; what a failed one leaves behind is in
`Padwire.Server.Import`.
-/

namespace Padwire

/-- What `handle` finds on its machine while it deals with one connection. -/
structure Exporter where
  /-- `source.list`, which may fail. -/
  list : Option (List DeviceSummary)
  /-- `registry.acquire` returns a lease. -/
  acquire : String → Bool
  /-- `source.open`, which may fail: the summary of the device that is opened. -/
  «open» : String → Option DeviceSummary
  /-- `claim_all` succeeds. -/
  claimAll : Bool

/-- How `handle` gets through with the request. -/
inductive Exit
  /-- It returns an error. -/
  | failed
  /-- It is done with the connection. -/
  | closed
  /-- It goes on to the session with the device, and with the bytes that it has not read. -/
  | serving (dev : DeviceSummary) (rest : Bytes)

namespace Exporter

/-- Refuse an import. -/
def refuse : Bytes × Exit := (encodeImportReply none, .closed)

/-- `import`, up to the session: what is written, and how it goes on. -/
def importDevice (x : Exporter) (busid : String) (rest : Bytes) : Bytes × Exit :=
  match x.list with
  | none => ([], .failed)
  | some devs =>
    -- only what is on the list: the bus id came over the network
    if !devs.any (·.busid == busid) then refuse
    else if !x.acquire busid then refuse
    else match x.open busid with
      | none => refuse
      | some dev =>
        if !x.claimAll then refuse
        else (encodeImportReply (some dev.toUsbip), .serving dev rest)

/-- `handle`, up to the session. -/
def handle (x : Exporter) (input : Bytes) : Bytes × Exit :=
  match readOpRequest.run input with
  | .error _ => ([], .failed)
  | .ok (some .devList, _) =>
    match x.list with
    | none => ([], .failed)
    | some devs => (encodeDevlistReply (devs.map DeviceSummary.toUsbip), .closed)
  | .ok (some (.importDevice busid), rest) => x.importDevice busid rest
  | .ok (none, _) => ([], .closed)

/-- The exporter has the device on its list, and nothing is in the way of exporting it. -/
structure Exports (x : Exporter) (busid : String) (dev : DeviceSummary) : Prop where
  listed : ∃ devs, x.list = some devs ∧ ∃ s ∈ devs, s.busid = busid
  free : x.acquire busid = true
  opens : x.open busid = some dev
  claimed : x.claimAll = true

variable {x : Exporter} {devs : List DeviceSummary} {busid : String} {dev : DeviceSummary}
  {input out rest : Bytes}

/-- What is on offer is exported. -/
theorem Exports.importDevice_eq (h : x.Exports busid dev) (rest : Bytes) :
    x.importDevice busid rest = (encodeImportReply (some dev.toUsbip), .serving dev rest) := by
  obtain ⟨⟨devs, hlist, s, hs, hbusid⟩, hfree, hopens, hclaimed⟩ := h
  have hany : devs.any (·.busid == busid) = true :=
    List.any_eq_true.mpr ⟨s, hs, beq_iff_eq.mpr hbusid⟩
  simp only [importDevice, hlist, hany, hfree, hopens, hclaimed, Bool.not_true,
    Bool.false_eq_true, if_false]

/-- What is not is refused, if the devices can be listed at all. -/
theorem importDevice_of_not_exports (hlist : x.list = some devs)
    (h : ∀ dev, ¬ x.Exports busid dev) (rest : Bytes) : x.importDevice busid rest = refuse := by
  simp only [importDevice, hlist]
  cases hopens : x.open busid with
  | none => split_ifs <;> rfl
  | some dev =>
    dsimp only
    split_ifs with hlisted hfree hclaimed
    · rfl
    · rfl
    · rfl
    · rw [Bool.not_eq_true', Bool.not_eq_false] at hlisted hfree hclaimed
      obtain ⟨s, hs, hbusid⟩ := List.any_eq_true.mp hlisted
      exact absurd ⟨⟨devs, hlist, s, hs, beq_iff_eq.mp hbusid⟩, hfree, hopens, hclaimed⟩ (h dev)

/-- An import goes on to a session, is refused, or fails for want of a list. -/
theorem importDevice_cases (x : Exporter) (busid : String) (rest : Bytes) :
    (∃ dev, x.Exports busid dev ∧
      x.importDevice busid rest = (encodeImportReply (some dev.toUsbip), .serving dev rest)) ∨
    x.importDevice busid rest = refuse ∨ x.importDevice busid rest = ([], .failed) := by
  cases hlist : x.list with
  | none => exact .inr (.inr (by rw [importDevice, hlist]))
  | some devs =>
    by_cases h : ∃ dev, x.Exports busid dev
    · obtain ⟨dev, hdev⟩ := h
      exact .inl ⟨dev, hdev, hdev.importDevice_eq rest⟩
    · exact .inr (.inl (importDevice_of_not_exports hlist (not_exists.mp h) rest))

/-! ### Peers that mean well -/

/-- A request for the list is answered with it. -/
theorem handle_devlist (hlist : x.list = some devs) (more : Bytes) :
    x.handle (encodeDevlistRequest ++ more) =
      (encodeDevlistReply (devs.map DeviceSummary.toUsbip), .closed) := by
  have hread : readOpRequest.run (encodeDevlistRequest ++ more) = .ok (some .devList, more) :=
    accepts_readOpRequest_devlist more
  rw [handle, hread, hlist]

/-- A bus id that fits its field comes to `import` as it was sent. -/
theorem handle_import (x : Exporter) (hshort : (asBytes busid).length < BUSID_LEN)
    (hnul : (0 : UInt8) ∉ asBytes busid) (more : Bytes) :
    x.handle (encodeImportRequest busid ++ more) = x.importDevice busid more := by
  have hread : readOpRequest.run (encodeImportRequest busid ++ more) =
      .ok (some (.importDevice busid), more) :=
    accepts_readOpRequest more (Reader.fieldText_of_fits hshort hnul)
  rw [handle, hread]

/-- **Client and exporter agree.** Let the exporter have a list of at most `MAX_DEVLIST` devices
whose texts fit their fields. A client that asks for it reads it whole and unchanged. A client that
asks for a device by a bus id that fits its field reads the record of the device that is opened,
and what comes after the reply is left for the session, if the device is on offer; otherwise it
reads that it was refused. -/
theorem peers_agree (hlist : x.list = some devs) (hlen : devs.length ≤ MAX_DEVLIST)
    (hfits : ∀ s ∈ devs, s.toUsbip.Fits) (more : Bytes) :
    (∃ out, x.handle (encodeDevlistRequest ++ more) = (out, .closed) ∧
      readDevlistReply.run out = .ok (devs.map DeviceSummary.toUsbip, [])) ∧
    ∀ busid, (asBytes busid).length < BUSID_LEN → (0 : UInt8) ∉ asBytes busid →
      (∀ dev, x.Exports busid dev → dev.toUsbip.Fits →
        ∃ out, x.handle (encodeImportRequest busid ++ more) = (out, .serving dev more) ∧
          ∀ after, readImportReply.run (out ++ after) =
            .ok ({ dev.toUsbip with interfaces := [] }, after)) ∧
      ((∀ dev, ¬ x.Exports busid dev) →
        ∃ out, x.handle (encodeImportRequest busid ++ more) = (out, .closed) ∧
          readImportReply.run out = .error (.refused ST_NA)) := by
  refine ⟨⟨_, handle_devlist hlist more, ?_⟩,
    fun busid hshort hnul => ⟨fun dev hdev hdevFits => ?_, fun hno => ?_⟩⟩
  · have hreceived : List.Forall₂ UsbDevice.Received (devs.map DeviceSummary.toUsbip)
        (devs.map DeviceSummary.toUsbip) := by
      rw [List.forall₂_same, List.forall_mem_map]
      exact fun s hs => (hfits s hs).received
    exact run_encodeDevlistReply (by rwa [List.length_map]) hreceived
  · exact ⟨encodeImportReply (some dev.toUsbip),
      (x.handle_import hshort hnul more).trans (hdev.importDevice_eq more),
      fun after => accepts_readImportReply hdevFits.received after⟩
  · exact ⟨encodeImportReply none,
      (x.handle_import hshort hnul more).trans (importDevice_of_not_exports hlist hno more),
      run_encodeImportReply_none⟩

/-- A device with one interface, and an exporter that has it. -/
def puckSummary : DeviceSummary where
  busnum := 1
  devnum := 7
  busid := "1-2"
  sysPath := "/sys/bus/usb/devices/1-2"
  nodePath := "/dev/bus/usb/001/007"
  speed := .high
  device := ⟨0x0200, 0, 0, 0, 64, 0x28de, 0x1304, 0x0100, 1⟩
  configValue := 1
  interfaces := [⟨0, 3, 1, 2⟩]

def puckExporter : Exporter where
  list := some [puckSummary]
  acquire := fun _ => true
  «open» := fun busid => if busid = "1-2" then some puckSummary else none
  claimAll := true

theorem peers_agree_puck :
    (∃ out, puckExporter.handle (encodeDevlistRequest ++ [1, 2]) = (out, .closed) ∧
      readDevlistReply.run out = .ok ([puckSummary.toUsbip], [])) ∧
    (∃ out, puckExporter.handle (encodeImportRequest "1-2" ++ [1, 2]) =
        (out, .serving puckSummary [1, 2]) ∧
      readImportReply.run (out ++ [3]) =
        .ok ({ puckSummary.toUsbip with interfaces := [] }, [3])) ∧
    ∃ out, puckExporter.handle (encodeImportRequest "1-3" ++ [1, 2]) = (out, .closed) ∧
      readImportReply.run out = .error (.refused ST_NA) := by
  have hfits : puckSummary.toUsbip.Fits :=
    ⟨by decide +kernel, by decide +kernel, by decide +kernel, by decide +kernel, rfl⟩
  obtain ⟨hdevlist, himport⟩ := peers_agree (x := puckExporter) rfl
    (by decide) (List.forall_mem_singleton.mpr hfits) [1, 2]
  obtain ⟨hserves, -⟩ := himport "1-2" (by decide +kernel) (by decide +kernel)
  obtain ⟨-, hrefuses⟩ := himport "1-3" (by decide +kernel) (by decide +kernel)
  refine ⟨hdevlist, ?_, hrefuses fun dev hdev => ?_⟩
  · have hopens : puckExporter.open "1-2" = some puckSummary := by decide
    obtain ⟨out, hout, hread⟩ := hserves puckSummary
      ⟨⟨_, rfl, puckSummary, List.mem_singleton_self _, rfl⟩, rfl, hopens, rfl⟩ hfits
    exact ⟨out, hout, hread [3]⟩
  · have hopens := hdev.opens
    simp [puckExporter] at hopens

/-! ### Peers that send anything -/

/-- **A session begins only with a device on offer.** Whatever bytes arrive, the exporter goes on
to a session exactly if they begin with a whole import request for a device on offer. It has then
answered with the record of this device, and the session gets the bytes behind the request. In
every other case it writes nothing, its list, or a refusal, and is done with the connection. -/
theorem session_only_on_offer (x : Exporter) (input : Bytes) :
    (∀ out dev rest, x.handle input = (out, .serving dev rest) ↔
      ∃ busid bs, SpellsImportRequest busid bs ∧ input = bs ++ rest ∧ x.Exports busid dev ∧
        out = encodeImportReply (some dev.toUsbip)) ∧
    ((∀ dev rest, (x.handle input).2 ≠ .serving dev rest) →
      (x.handle input).1 = [] ∨ x.handle input = refuse ∨
        ∃ devs, x.list = some devs ∧
          x.handle input = (encodeDevlistReply (devs.map DeviceSummary.toUsbip), .closed)) := by
  refine ⟨fun out dev rest => ⟨fun h => ?_, ?_⟩, fun h => ?_⟩
  · rw [handle] at h
    split at h
    · cases h
    · split at h <;> cases h
    · next busid rest' hread =>
      obtain ⟨bs, hspells, hinput⟩ := accepts_readOpRequest_import_iff.mp hread
      rcases x.importDevice_cases busid rest' with ⟨dev', hdev, heq⟩ | heq | heq
      · rw [heq] at h
        cases h
        exact ⟨busid, bs, hspells, hinput, hdev, rfl⟩
      · rw [heq] at h
        cases h
      · rw [heq] at h
        cases h
    · cases h
  · rintro ⟨busid, bs, hspells, hinput, hdev, rfl⟩
    have hread : readOpRequest.run input = .ok (some (.importDevice busid), rest) :=
      accepts_readOpRequest_import_iff.mpr ⟨bs, hspells, hinput⟩
    rw [handle, hread]
    exact hdev.importDevice_eq rest
  · rw [handle] at h ⊢
    split
    · exact .inl rfl
    · split
      · exact .inl rfl
      · next devs hlist => exact .inr (.inr ⟨devs, hlist, rfl⟩)
    · next busid rest hread =>
      rw [hread] at h
      rcases x.importDevice_cases busid rest with ⟨dev, -, heq⟩ | heq | heq
      · exact absurd (congrArg Prod.snd heq) (h dev rest)
      · exact .inr (.inl heq)
      · exact .inl (congrArg Prod.fst heq)
    · exact .inl rfl

end Exporter

end Padwire
