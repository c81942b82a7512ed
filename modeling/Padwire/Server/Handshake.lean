import Padwire.Backend.Enumerate
import Padwire.Proto.Op

/-!
# A bus id there and back

A server offers its devices under their bus ids; a client that wants one sends the bus id back,
and `import` compares it with its list. On the way the bus id goes through two text fields of 32
bytes, which keep 31. A bus id that may name a device in sysfs can have up to 63, so what comes
back of a longer one is not what was offered (`exists_busid_cut`); those that fit come back whole
(`busid_survives_handshake`).
-/

namespace Padwire

/-- The check of `import` against the list. -/
def onList (devs : List UsbDevice) (busid : String) : Bool :=
  devs.any (·.busid == busid)

/-- A device as the server offers it: its bus id is one that sysfs may have, and its path, which
is made of the bus id or of the device numbers, is ASCII. -/
structure UsbDevice.Offered (d : UsbDevice) : Prop where
  busid : isValidBusid d.busid = true
  path : ∀ b ∈ asBytes d.path, b ≠ 0 ∧ b < 0x80

/-- The bytes of a valid bus id are ASCII, and none of them is NUL. -/
theorem ascii_of_isValidBusid {busid : String} (h : isValidBusid busid = true) :
    ∀ b ∈ asBytes busid, b ≠ 0 ∧ b < 0x80 := by
  intro b hb
  simp only [isValidBusid, Bool.and_eq_true, List.all_eq_true] at h
  have hchar := h.1.2 b hb
  simp only [Bool.or_eq_true, Bool.and_eq_true, decide_eq_true_eq, beq_iff_eq] at hchar
  have hnat : b.toNat ≠ 0 ∧ b.toNat < 0x80 := by
    simp only [UInt8.le_iff_toNat_le, ← UInt8.toNat_inj] at hchar
    simp at hchar
    omega
  refine ⟨?_, by simpa [UInt8.lt_iff_toNat_lt] using hnat.2⟩
  rintro rfl
  exact hnat.1 rfl

/-- What comes back of an ASCII string in a text field: its first `n - 1` bytes. -/
theorem exists_fieldText {s : String} {n : ℕ} (h : ∀ b ∈ asBytes s, b ≠ 0 ∧ b < 0x80) :
    ∃ s', Reader.fieldText (Writer.textField s n) = some s' ∧
      asBytes s' = (asBytes s).take (n - 1) := by
  have hnul : (0 : UInt8) ∉ asBytes s := fun h0 => (h 0 h0).1 rfl
  obtain ⟨s', hs'⟩ := exists_fromUtf8_of_ascii ((asBytes s).take (n - 1))
    fun b hb => (h b (List.mem_of_mem_take hb)).2
  exact ⟨s', (Reader.fieldText_textField hnul).trans hs', asBytes_of_fromUtf8 hs'⟩

/-- What a client sees of a device on offer. -/
theorem UsbDevice.Offered.exists_received {d : UsbDevice} (h : d.Offered) :
    ∃ d', d.Received d' ∧ asBytes d'.busid = (asBytes d.busid).take (BUSID_LEN - 1) := by
  obtain ⟨path, hpath, -⟩ := exists_fieldText (n := PATH_LEN) h.path
  obtain ⟨busid, hbusid, hcut⟩ :=
    exists_fieldText (n := BUSID_LEN) (ascii_of_isValidBusid h.busid)
  exact ⟨{ d with path, busid, interfaces := d.listed }, ⟨hpath, hbusid, rfl⟩, hcut⟩

/-- **The handshake keeps bus ids.** A client decodes the list of the devices on offer. It sees
of each bus id the first 31 bytes; one that has no more comes back to the server as it was
offered, and is on the list. -/
theorem busid_survives_handshake (devs : List UsbDevice) (hlen : devs.length ≤ MAX_DEVLIST)
    (hdevs : ∀ d ∈ devs, d.Offered) (rest more : Bytes) :
    ∃ listed, readDevlistReply.run (encodeDevlistReply devs ++ rest) = .ok (listed, rest) ∧
      listed.length = devs.length ∧
      ∀ (i : ℕ) d l, devs[i]? = some d → listed[i]? = some l →
        asBytes l.busid = (asBytes d.busid).take (BUSID_LEN - 1) ∧
        ((asBytes d.busid).length < BUSID_LEN →
          readOpRequest.run (encodeImportRequest l.busid ++ more) =
            .ok (some (.importDevice d.busid), more) ∧ onList devs d.busid = true) := by
  have hexists : ∀ ds : List UsbDevice, (∀ d ∈ ds, d.Offered) → ∃ ls : List UsbDevice,
      List.Forall₂ (fun d l => d.Received l ∧
        asBytes l.busid = (asBytes d.busid).take (BUSID_LEN - 1)) ds ls := by
    intro ds hds
    induction ds with
    | nil => exact ⟨[], .nil⟩
    | cons d ds ih =>
      obtain ⟨l, hl⟩ := (hds d List.mem_cons_self).exists_received
      obtain ⟨ls, hls⟩ := ih fun d' hd' => hds d' (List.mem_cons_of_mem d hd')
      exact ⟨l :: ls, .cons hl hls⟩
  obtain ⟨listed, hlisted⟩ := hexists devs hdevs
  refine ⟨listed, accepts_readDevlistReply hlen (hlisted.imp fun _ _ h => h.1) rest,
    hlisted.length_eq.symm, fun i d l hd hl => ?_⟩
  obtain ⟨hi, rfl⟩ := List.getElem?_eq_some_iff.mp hd
  obtain ⟨hi', rfl⟩ := List.getElem?_eq_some_iff.mp hl
  obtain ⟨-, hcut⟩ := hlisted.get hi hi'
  refine ⟨hcut, fun hfits => ?_⟩
  -- nothing is cut, so the client sends back what it was offered
  have hsame : listed[i].busid = devs[i].busid := by
    apply asBytes_injective
    rw [← List.take_of_length_le (show (asBytes devs[i].busid).length ≤ BUSID_LEN - 1 by omega)]
    exact hcut
  have hvalid := (hdevs _ (List.getElem_mem hi)).busid
  have hnul : (0 : UInt8) ∉ asBytes devs[i].busid :=
    fun h0 => (ascii_of_isValidBusid hvalid 0 h0).1 rfl
  rw [hsame]
  refine ⟨accepts_readOpRequest more (Reader.fieldText_of_fits hfits hnul), ?_⟩
  exact List.any_eq_true.mpr ⟨_, List.getElem_mem hi, beq_self_eq_true _⟩

theorem busid_survives_handshake_puck : ∃ listed,
    readDevlistReply.run (encodeDevlistReply [puck] ++ []) = .ok (listed, []) ∧
    readOpRequest.run (encodeImportRequest "1-2" ++ []) =
      .ok (some (.importDevice "1-2"), []) ∧ listed.length = 1 := by
  have hoffered : ∀ d ∈ [puck], d.Offered := by
    intro d hd
    rw [List.mem_singleton.mp hd]
    exact ⟨by decide +kernel, by decide +kernel⟩
  obtain ⟨listed, hread, hlength, hall⟩ :=
    busid_survives_handshake [puck] (by decide) hoffered [] []
  obtain ⟨l, rfl⟩ := List.length_eq_one_iff.mp hlength
  obtain ⟨hcut, hback⟩ := hall 0 puck l rfl rfl
  have hsame : l.busid = "1-2" := by
    apply asBytes_injective
    rw [hcut]
    decide +kernel
  rw [hsame] at hback
  exact ⟨[l], hread, (hback (by decide +kernel)).1, hlength⟩

/-- A device under a bus id of 32 bytes. -/
def deepPuck : UsbDevice :=
  { puck with busid := "1-1.1.1.1.1.1.1.1.1.1.1.1.1.1.22" }

/-- A bus id of 32 bytes is valid, but a client sees 31 of them, and what it sends back is on
nobody's list. -/
theorem exists_busid_cut :
    ¬ ∀ d listed, isValidBusid d.busid = true →
      readDevlistReply.run (encodeDevlistReply [d]) = .ok (listed, []) →
      ∀ l ∈ listed, readOpRequest.run (encodeImportRequest l.busid) =
          .ok (some (.importDevice d.busid), []) ∧ onList [d] l.busid = true := by
  intro hall
  obtain ⟨l, hl⟩ : ∃ l, deepPuck.Received l ∧
      l.busid = "1-1.1.1.1.1.1.1.1.1.1.1.1.1.1.2" := by
    refine ⟨{ deepPuck with busid := "1-1.1.1.1.1.1.1.1.1.1.1.1.1.1.2" }, ⟨?_, ?_, by decide⟩, rfl⟩
    · exact Reader.fieldText_of_fits (by decide +kernel) (by decide +kernel)
    · have hcut : (asBytes deepPuck.busid).take (BUSID_LEN - 1) =
          asBytes "1-1.1.1.1.1.1.1.1.1.1.1.1.1.1.2" := by decide +kernel
      rw [Reader.fieldText_textField (by decide +kernel), hcut]
      exact fromUtf8_asBytes _
  have hread : readDevlistReply.run (encodeDevlistReply [deepPuck]) = .ok ([l], []) :=
    run_encodeDevlistReply (by decide) (.cons hl.1 .nil)
  have hon := (hall deepPuck [l] (by decide +kernel) hread l List.mem_cons_self).2
  rw [hl.2] at hon
  exact absurd hon (by decide +kernel)

end Padwire
