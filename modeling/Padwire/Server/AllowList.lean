import Padwire.Backend.Enumerate
import Padwire.Server.Leases

/-!
# The allow-list and the bus

`import` asks `SysfsDevices` for the list of exportable devices and refuses a bus id that is not
on it. The list is one scan of sysfs; the device itself is looked up later and in two more steps,
its numbers by bus id and its node by those numbers, and nobody looks at its vendor and product id
again. A device that is plugged in between is opened and claimed whatever the filter says
(`exists_claimed_not_allowed`).

`claimed_allowed` says what it takes: no device that the filter does not match is plugged in where
an import that has passed the check is about to look. What a port is numbered is up to the kernel:
`busnum` gives the bus number of a bus id, and no two devices on the bus have the same numbers.
-/

namespace Padwire

namespace AllowList

/-- Where an import is. -/
inductive Pc
  | listing
  /-- In the scan: the entries still to be read, and what was found. -/
  | scanning (names : List String) (found : List ScannedDevice)
  | listed
  | leased
  /-- `numbers_for_busid` has read the bus number. -/
  | numbered (busnum : UInt32)
  /-- `numbers_for_busid` has returned: the node to open. -/
  | addressed (busnum devnum : UInt32)
  | opened (dev : BusDevice)
  | claimed (dev : BusDevice)
  | leaving
  | ended
  deriving DecidableEq, Repr

structure Import where
  busid : String
  pc : Pc
  deriving DecidableEq, Repr

/-- The bus and the registry. -/
structure World where
  bus : Bus
  busy : Finset String

/-- What an import does, with what it is answered. -/
inductive Act
  /-- The directory is read, or cannot be. -/
  | readDir (names : Option (List String))
  /-- The next entry of the directory is read. -/
  | scan (readable : Bool)
  | acquire
  | readBusnum (readable : Bool)
  | readDevnum (readable : Bool)
  /-- The node is opened and its descriptors are read. -/
  | openNode (ok : Bool)
  | claimAll (ok : Bool)
  /-- The session is over. -/
  | serve
  | dropLease
  deriving DecidableEq, Repr

/-- What happens on the bus. -/
inductive BusEvent
  | plug (busid : String) (dev : BusDevice)
  | unplug (busid : String)
  deriving DecidableEq, Repr

/-- The device behind a node, if there is one. -/
def nodeAt (busnum : String → UInt32) (bus : Bus) (bn dn : UInt32) : Option BusDevice :=
  (bus.find? fun e => busnum e.1 = bn && e.2.devnum = dn).map (·.2)

/-- One step of an import. -/
def move (filter : DeviceFilter) (busnum : String → UInt32) (w : World) (x : Import) :
    Act → Option (World × Import)
  | .readDir names =>
    if x.pc = .listing then
      some (w, { x with pc := match names with
        | none => .ended
        | some ns => .scanning ns [] })
    else none
  | .scan readable =>
    match x.pc with
    | .scanning (name :: names) found =>
      some (w, { x with pc := .scanning names (listEntry w.bus found name readable) })
    | .scanning [] found =>
      some (w, { x with
        pc := if (exportable filter found).any (·.busid == x.busid) then .listed else .ended })
    | _ => none
  | .acquire =>
    if x.pc = .listed then
      match Registry.acquire w.busy x.busid with
      | some busy => some ({ w with busy }, { x with pc := .leased })
      | none => some (w, { x with pc := .ended })
    else none
  | .readBusnum readable =>
    if x.pc = .leased then
      some (w, { x with
        pc := if readable && (w.bus.at? x.busid).isSome then .numbered (busnum x.busid)
          else .leaving })
    else none
  | .readDevnum readable =>
    match x.pc with
    | .numbered bn =>
      some (w, { x with pc := match w.bus.at? x.busid with
        | some d => if readable then .addressed bn d.devnum else .leaving
        | none => .leaving })
    | _ => none
  | .openNode ok =>
    match x.pc with
    | .addressed bn dn =>
      some (w, { x with pc := match nodeAt busnum w.bus bn dn with
        | some d => if ok then .opened d else .leaving
        | none => .leaving })
    | _ => none
  | .claimAll ok =>
    match x.pc with
    | .opened d => some (w, { x with pc := if ok then .claimed d else .leaving })
    | _ => none
  | .serve =>
    match x.pc with
    | .claimed _ => some (w, { x with pc := .leaving })
    | _ => none
  | .dropLease =>
    if x.pc = .leaving then
      some ({ w with busy := Registry.drop w.busy x.busid }, { x with pc := .ended })
    else none

/-- A port takes one device, and the kernel gives it a number that is free on its bus. -/
def plugged (busnum : String → UInt32) (w : World) : BusEvent → Option World
  | .plug busid dev =>
    if (w.bus.at? busid).isSome || (nodeAt busnum w.bus (busnum busid) dev.devnum).isSome then none
    else some { w with bus := (busid, dev) :: w.bus }
  | .unplug busid => some { w with bus := w.bus.filter fun e => e.1 ≠ busid }

/-- Any number of imports through `SysfsDevices`, on a bus that changes. -/
def imports (filter : DeviceFilter) (busnum : String → UInt32) :
    Program World Import String Act BusEvent where
  spawn w busid := some (w, ⟨busid, .listing⟩)
  move := move filter busnum
  env := plugged busnum

/-- The devices that are there at start-up are plugged in like all others. -/
def Initial (p : Pool World Import) : Prop :=
  p = ⟨⟨[], ∅⟩, []⟩

/-- The import opened and claimed this device. -/
def Import.hasClaimed (x : Import) (d : BusDevice) : Prop :=
  x.pc = .claimed d

/-- The claim of the allow-list. -/
def Allowed (filter : DeviceFilter) (p : Pool World Import) : Prop :=
  ∀ (i : ℕ) x d, p.threads[i]? = some x → x.hasClaimed d → filter.matches d.vid d.pid = true

/-! ### Where an import will look -/

variable {filter : DeviceFilter} {busnum : String → UInt32} {w w' : World} {x x' : Import} {a : Act}

/-- The scan so far has the bus id among the exportable devices. -/
def offers (filter : DeviceFilter) (found : List ScannedDevice) (busid : String) : Bool :=
  (exportable filter found).any (·.busid == busid)

/-- The import has passed the check, or will, and is going to look where `dev` sits when it is
under `busid`. -/
def Import.awaits (filter : DeviceFilter) (busnum : String → UInt32) (x : Import)
    (busid : String) (dev : BusDevice) : Bool :=
  match x.pc with
  | .scanning _ found => offers filter found x.busid && x.busid == busid
  | .listed | .leased | .numbered _ => x.busid == busid
  | .addressed bn dn => busnum busid == bn && dev.devnum == dn
  | _ => false

/-- The condition on a step: no device that the filter does not match is plugged in where some
request that has passed the check is going to look. -/
def NoSwap (filter : DeviceFilter) (busnum : String → UInt32) (p : Pool World Import) :
    Move String Act BusEvent → Prop
  | .env (.plug busid dev) => filter.matches dev.vid dev.pid = true ∨
      ∀ (i : ℕ) x, p.threads[i]? = some x → x.awaits filter busnum busid dev = false
  | _ => True

/-- What holds of each import: the device that it has, and every device on the bus that it is
going to find, is one the filter matches. -/
structure Sound (filter : DeviceFilter) (busnum : String → UInt32) (w : World) (x : Import) :
    Prop where
  found : ∀ e ∈ w.bus, x.awaits filter busnum e.1 e.2 = true →
    filter.matches e.2.vid e.2.pid = true
  taken : ∀ d, x.pc = .opened d ∨ x.pc = .claimed d → filter.matches d.vid d.pid = true
  number : ∀ bn, x.pc = .numbered bn → bn = busnum x.busid

/-- No two devices on the bus have the same numbers, and no two the same bus id. -/
structure Numbered (busnum : String → UInt32) (w : World) : Prop where
  numbers : ∀ e ∈ w.bus, ∀ e' ∈ w.bus, busnum e.1 = busnum e'.1 → e.2.devnum = e'.2.devnum → e = e'
  ports : ∀ e ∈ w.bus, ∀ e' ∈ w.bus, e.1 = e'.1 → e = e'

theorem Bus.mem_of_at? {bus : Bus} {busid : String} {d : BusDevice}
    (h : bus.at? busid = some d) : (busid, d) ∈ bus := by
  obtain ⟨e, he, rfl⟩ := Option.map_eq_some_iff.mp h
  have hid : e.1 = busid := by simpa using List.find?_some he
  exact hid ▸ List.mem_of_find?_eq_some he

theorem mem_of_nodeAt {bus : Bus} {bn dn : UInt32} {d : BusDevice}
    (h : nodeAt busnum bus bn dn = some d) :
    ∃ busid, (busid, d) ∈ bus ∧ busnum busid = bn ∧ d.devnum = dn := by
  obtain ⟨⟨busid, d'⟩, he, rfl⟩ := Option.map_eq_some_iff.mp h
  have hnum : busnum busid = bn ∧ d'.devnum = dn := by simpa using List.find?_some he
  exact ⟨busid, List.mem_of_find?_eq_some he, hnum⟩

theorem offers_listEntry {bus : Bus} {found : List ScannedDevice} {name busid : String}
    {readable : Bool} (h : offers filter (listEntry bus found name readable) busid = true) :
    offers filter found busid = true ∨
      ∃ d, bus.at? busid = some d ∧ filter.matches d.vid d.pid = true := by
  unfold listEntry at h
  split_ifs at h
  · exact .inl h
  · rw [offers, exportable, List.filter_append, List.any_append, Bool.or_eq_true] at h
    refine h.imp_right fun h => ?_
    obtain ⟨s, hs, hid⟩ := List.any_eq_true.mp h
    obtain ⟨hmem, hmatch⟩ := List.mem_filter.mp hs
    rw [Option.mem_toList, summaryFromSysfs] at hmem
    split_ifs at hmem
    obtain ⟨d, hd, rfl⟩ := Option.map_eq_some_iff.mp hmem
    have hname : name = busid := by simpa using hid
    exact ⟨d, hname ▸ hd, hmatch⟩

/-! ### One step -/

/-- The steps of an import. It gives up or ends in many of them; the others take it one stage
further. None of them touches the bus. -/
inductive Effect (filter : DeviceFilter) (busnum : String → UInt32) (w : World) (x : Import) :
    World → Import → Prop
  | gone {busy : Finset String} {pc : Pc} (hgone : pc = .leaving ∨ pc = .ended) :
      Effect filter busnum w x { w with busy } { x with pc }
  | listing {names : List String} :
      Effect filter busnum w x w { x with pc := .scanning names [] }
  | scanned {name : String} {names : List String} {found : List ScannedDevice} {readable : Bool}
      (hpc : x.pc = .scanning (name :: names) found) :
      Effect filter busnum w x w
        { x with pc := .scanning names (listEntry w.bus found name readable) }
  | offered {found : List ScannedDevice} (hpc : x.pc = .scanning [] found)
      (hoffers : offers filter found x.busid = true) :
      Effect filter busnum w x w { x with pc := .listed }
  | acquired {busy : Finset String} (hpc : x.pc = .listed) :
      Effect filter busnum w x { w with busy } { x with pc := .leased }
  | numbered (hpc : x.pc = .leased) :
      Effect filter busnum w x w { x with pc := .numbered (busnum x.busid) }
  | addressed {bn : UInt32} {d : BusDevice} (hpc : x.pc = .numbered bn)
      (hd : w.bus.at? x.busid = some d) :
      Effect filter busnum w x w { x with pc := .addressed bn d.devnum }
  | opened {bn dn : UInt32} {d : BusDevice} (hpc : x.pc = .addressed bn dn)
      (hd : nodeAt busnum w.bus bn dn = some d) :
      Effect filter busnum w x w { x with pc := .opened d }
  | claimed {d : BusDevice} (hpc : x.pc = .opened d) :
      Effect filter busnum w x w { x with pc := .claimed d }

theorem effect_of_move (h : move filter busnum w x a = some (w', x')) :
    Effect filter busnum w x w' x' := by
  cases a with
  | readDir names =>
    simp only [move] at h
    split_ifs at h
    cases h
    cases names with
    | none => exact .gone (.inr rfl)
    | some ns => exact .listing
  | scan readable =>
    simp only [move] at h
    split at h
    case h_1 hpc => cases h; exact .scanned hpc
    case h_2 hpc =>
      cases h
      split_ifs with hoffers
      · exact .offered hpc hoffers
      · exact .gone (.inr rfl)
    case h_3 => cases h
  | acquire =>
    simp only [move] at h
    split_ifs at h with hpc
    split at h
    · cases h
      exact .acquired hpc
    · cases h
      exact .gone (.inr rfl)
  | readBusnum readable =>
    simp only [move] at h
    split_ifs at h with hpc hread
    · cases h
      exact .numbered hpc
    · cases h
      exact .gone (.inl rfl)
  | readDevnum readable =>
    simp only [move] at h
    split at h
    case h_1 hpc =>
      cases h
      split
      case h_1 hd =>
        split_ifs
        · exact .addressed hpc hd
        · exact .gone (.inl rfl)
      case h_2 => exact .gone (.inl rfl)
    case h_2 => cases h
  | openNode ok =>
    simp only [move] at h
    split at h
    case h_1 hpc =>
      cases h
      split
      case h_1 hd =>
        split_ifs
        · exact .opened hpc hd
        · exact .gone (.inl rfl)
      case h_2 => exact .gone (.inl rfl)
    case h_2 => cases h
  | claimAll ok =>
    simp only [move] at h
    split at h
    case h_1 hpc =>
      cases h
      split_ifs
      · exact .claimed hpc
      · exact .gone (.inl rfl)
    case h_2 => cases h
  | serve =>
    simp only [move] at h
    split at h
    case h_1 => cases h; exact .gone (.inl rfl)
    case h_2 => cases h
  | dropLease =>
    simp only [move] at h
    split_ifs at h
    cases h
    exact .gone (.inr rfl)

theorem Effect.bus (h : Effect filter busnum w x w' x') : w'.bus = w.bus := by
  cases h <;> rfl

/-- An import that will look nowhere new, and has no device and no number. -/
theorem Sound.of_idle (hawait : ∀ b d, x'.awaits filter busnum b d = true →
      x.awaits filter busnum b d = true) (htaken : ∀ d, x'.pc ≠ .opened d ∧ x'.pc ≠ .claimed d)
    (hnumber : ∀ bn, x'.pc ≠ .numbered bn) (h : Sound filter busnum w x) :
    Sound filter busnum w x' where
  found e he ha := h.found e he (hawait _ _ ha)
  taken d hd := hd.elim (fun hd => absurd hd (htaken d).1) fun hd => absurd hd (htaken d).2
  number bn hbn := absurd hbn (hnumber bn)

theorem sound_of_gone (hpc : x'.pc = .leaving ∨ x'.pc = .ended) : Sound filter busnum w x' where
  found e _ ha := by rcases hpc with hpc | hpc <;> simp [Import.awaits, hpc] at ha
  taken d hd := by rcases hpc with hpc | hpc <;> simp [hpc] at hd
  number bn hbn := by rcases hpc with hpc | hpc <;> simp [hpc] at hbn

/-- An import that moves keeps what holds of it, on the bus as it is. -/
theorem Effect.sound (h : Effect filter busnum w x w' x') (hw : Numbered busnum w)
    (hx : Sound filter busnum w x) : Sound filter busnum w x' := by
  cases h with
  | gone hgone => exact sound_of_gone hgone
  | listing =>
    refine hx.of_idle ?_ (by simp) (by simp)
    simp [Import.awaits, offers, exportable]
  | scanned hpc =>
    refine ⟨fun e he ha => ?_, by simp, by simp⟩
    simp only [Import.awaits, Bool.and_eq_true, beq_iff_eq] at ha
    rcases offers_listEntry ha.1 with hold | ⟨d, hd, hmatch⟩
    · exact hx.found e he (by simp [Import.awaits, hpc, hold, ← ha.2])
    · -- the entry just read is the one device under the bus id
      rw [hw.ports e he (x.busid, d) (Bus.mem_of_at? hd) ha.2.symm]
      exact hmatch
  | offered hpc hoffers =>
    refine hx.of_idle (fun b d ha => ?_) (by simp) (by simp)
    simp only [Import.awaits] at ha
    simp [Import.awaits, hpc, hoffers, ha]
  | acquired hpc => exact hx.of_idle (by simp [Import.awaits, hpc]) (by simp) (by simp)
  | numbered hpc =>
    refine ⟨fun e he ha => hx.found e he ?_, by simp, by simp⟩
    simpa [Import.awaits, hpc] using ha
  | @addressed bn d hpc hd =>
    refine ⟨fun e he ha => ?_, by simp, by simp⟩
    have hmem := Bus.mem_of_at? hd
    simp only [Import.awaits, Bool.and_eq_true, beq_iff_eq] at ha
    -- only the device whose number was read has these numbers
    have heq := hw.numbers e he (x.busid, d) hmem (ha.1.trans (hx.number bn hpc)) ha.2
    rw [heq]
    exact hx.found _ hmem (by simp [Import.awaits, hpc])
  | @opened bn dn d hpc hd =>
    obtain ⟨busid, hmem, hbn, hdn⟩ := mem_of_nodeAt hd
    have hmatch := hx.found _ hmem (by simp [Import.awaits, hpc, hbn, hdn])
    refine ⟨by simp [Import.awaits], fun d' hd' => ?_, by simp⟩
    have hd' : d = d' := by simpa using hd'
    exact hd' ▸ hmatch
  | @claimed d hpc =>
    refine ⟨by simp [Import.awaits], fun d' hd' => ?_, by simp⟩
    have hd' : d = d' := by simpa using hd'
    exact hd' ▸ hx.taken d (.inl hpc)

/-- What holds of an import depends on the bus alone. -/
theorem Sound.of_bus (hbus : w'.bus = w.bus) (h : Sound filter busnum w x) :
    Sound filter busnum w' x :=
  ⟨hbus ▸ h.found, h.taken, h.number⟩

theorem Numbered.of_bus (hbus : w'.bus = w.bus) (h : Numbered busnum w) : Numbered busnum w' :=
  ⟨hbus ▸ h.numbers, hbus ▸ h.ports⟩

/-! ### Runs -/

variable {p : Pool World Import}

theorem numbered_plugged {e : BusEvent} (hw : Numbered busnum w)
    (h : plugged busnum w e = some w') : Numbered busnum w' := by
  cases e with
  | plug busid dev =>
    simp only [plugged] at h
    split_ifs at h with hfree
    cases h
    simp only [Bool.or_eq_true, not_or, Bool.not_eq_true, Option.isSome_eq_false_iff,
      Option.isNone_iff_eq_none, nodeAt, Bus.at?, Option.map_eq_none_iff, List.find?_eq_none,
      decide_eq_true_eq, Bool.and_eq_true, not_and] at hfree
    constructor
    · intro e he e' he' hb hd
      rcases List.mem_cons.mp he with rfl | he <;> rcases List.mem_cons.mp he' with rfl | he'
      · rfl
      · exact absurd hd.symm (hfree.2 e' he' hb.symm)
      · exact absurd hd (hfree.2 e he hb)
      · exact hw.numbers e he e' he' hb hd
    · intro e he e' he' hid
      rcases List.mem_cons.mp he with rfl | he <;> rcases List.mem_cons.mp he' with rfl | he'
      · rfl
      · exact absurd hid.symm (hfree.1 e' he')
      · exact absurd hid (hfree.1 e he)
      · exact hw.ports e he e' he' hid
  | unplug busid =>
    cases h
    refine ⟨fun e he e' he' => ?_, fun e he e' he' => ?_⟩
    · exact hw.numbers e (List.mem_of_mem_filter he) e' (List.mem_of_mem_filter he')
    · exact hw.ports e (List.mem_of_mem_filter he) e' (List.mem_of_mem_filter he')

theorem holds_of_reach
    (h : Reach (imports filter busnum).step Initial (NoSwap filter busnum) p) :
    p.Holds (Numbered busnum) (Sound filter busnum) fun _ _ => True := by
  refine Program.invariant (fun h => h) ?_ ?_ ?_ ?_ h
  · rintro _ rfl
    exact ⟨⟨by simp, by simp⟩, by simp, by simp⟩
  · intro w busid w' x hw hs
    cases hs
    exact ⟨hw, ⟨by simp [Import.awaits], by simp, by simp⟩, fun t ht => ⟨ht, trivial⟩⟩
  · intro w x a w' x' hw hx hmove
    have heff := effect_of_move hmove
    exact ⟨hw.of_bus heff.bus, (heff.sound hw hx).of_bus heff.bus,
      fun t ht _ => ⟨ht.of_bus heff.bus, trivial⟩⟩
  · intro p e w' hp hok hplug
    refine ⟨numbered_plugged hp.shared hplug, fun i t ht => ?_⟩
    have hsound := hp.each i t ht
    refine ⟨fun e' he' ha => ?_, hsound.taken, hsound.number⟩
    cases e with
    | plug busid dev =>
      simp only [imports, plugged] at hplug
      split_ifs at hplug
      cases hplug
      rcases List.mem_cons.mp he' with rfl | he'
      · rcases hok with hmatch | hnone
        · exact hmatch
        · rw [hnone i t ht] at ha
          cases ha
      · exact hsound.found e' he' ha
    | unplug busid =>
      cases hplug
      exact hsound.found e' (List.mem_of_mem_filter he') ha

/-- **Only what the filter matches.** In every run in which no device that the filter does not
match is plugged in where an import past the check is going to look, every device that an import
has claimed is one that the filter matches. -/
theorem claimed_allowed
    (h : Reach (imports filter busnum).step Initial (NoSwap filter busnum) p) :
    Allowed filter p :=
  fun i x d hx hd => ((holds_of_reach h).each i x hx).taken d (.inr hd)

/-- The condition of `claimed_allowed`, as a check along a run. -/
def noSwap (filter : DeviceFilter) (busnum : String → UInt32) (p : Pool World Import) :
    Move String Act BusEvent → Bool
  | .env (.plug busid dev) => filter.matches dev.vid dev.pid ||
      p.threads.all fun x => !x.awaits filter busnum busid dev
  | _ => true

theorem noSwap_sound (filter : DeviceFilter) (busnum : String → UInt32) (p : Pool World Import)
    (m : Move String Act BusEvent) (h : noSwap filter busnum p m = true) :
    NoSwap filter busnum p m := by
  match m with
  | .env (.plug busid dev) =>
    rw [noSwap, Bool.or_eq_true, List.all_eq_true] at h
    refine h.imp_right fun h i x hx => ?_
    simpa using h x (List.mem_of_getElem? hx)
  | .env (.unplug _) => trivial
  | .spawn _ => trivial
  | .act _ _ => trivial

/-- The first import: from the scan of the port to the lease. -/
def checked (busid : String) : List (Move String Act BusEvent) :=
  .spawn busid :: ([.readDir (some [busid]), .scan true, .scan true, .acquire] : List Act).map
    (.act 0)

/-- The first import: from the lease to the claimed device. -/
def taken : List (Move String Act BusEvent) :=
  ([.readBusnum true, .readDevnum true, .openNode true, .claimAll true] : List Act).map (.act 0)

def controller : BusDevice := { devnum := 7, vid := VALVE_VID, pid := 0x1304 }

def keyboard : BusDevice := { devnum := 8, vid := 0x046d, pid := 0xc31c }

/-- A keyboard in another port and the controller plugged in again are no trouble. -/
theorem claimed_allowed_replugged : ∃ p,
    Reach (imports .default fun _ => 1).step Initial (NoSwap .default fun _ => 1) p ∧
    p.threads = [⟨"1-2", .claimed { controller with devnum := 9 }⟩] ∧ Allowed .default p := by
  obtain ⟨p, hp, hthreads⟩ := (imports .default fun _ => 1).exists_reach
    (noSwap_sound .default fun _ => 1) (p := ⟨⟨[], ∅⟩, []⟩) (show Initial _ from rfl)
    (.env (.plug "1-2" controller) :: checked "1-2" ++ [.env (.plug "1-3" keyboard),
      .env (.unplug "1-2"), .env (.plug "1-2" { controller with devnum := 9 })] ++ taken)
    (fun p => p.threads = [⟨"1-2", .claimed { controller with devnum := 9 }⟩]) (by decide +kernel)
  exact ⟨p, hp, of_decide_eq_true hthreads, claimed_allowed hp⟩

/-- A keyboard that is plugged into the port of the controller after the scan is claimed, though
the filter does not match it. -/
theorem exists_claimed_not_allowed :
    ¬ ∀ filter busnum p, Reachable (imports filter busnum).step Initial p → Allowed filter p := by
  intro hall
  obtain ⟨p, hp, hthreads⟩ := (imports .default fun _ => 1).exists_reachable
    (p := ⟨⟨[], ∅⟩, []⟩) (show Initial _ from rfl)
    (.env (.plug "1-2" controller) :: checked "1-2" ++ [.env (.unplug "1-2"),
      .env (.plug "1-2" keyboard)] ++ taken)
    (fun p => p.threads = [⟨"1-2", .claimed keyboard⟩]) (by decide +kernel)
  have hmatch := hall .default (fun _ => 1) p hp 0 ⟨"1-2", .claimed keyboard⟩ keyboard
    (by rw [of_decide_eq_true hthreads]; rfl) rfl
  exact absurd hmatch (by decide)

end AllowList

end Padwire
