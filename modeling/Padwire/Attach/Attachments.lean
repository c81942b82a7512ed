import Padwire.Attach.Ports
import Padwire.Lib.Progress

/-!
# What the attach daemon is attached to

What may stand in `Daemon.attached`, in every run. An attachment is either one that
`adopt_existing` found when the daemon started, or one of the daemon's own. Its own attachments
are devices that a server has listed when the daemon asked it, a server of the configuration or one
that a browse has found, and that the filter of that server matches; and none of them is a device
that it was attached to already. With `stop_after_first` there is at most one of them, and none
beside an adopted one: the daemon goes through the servers only while it is attached to nothing. So
it does not get a port twice then either (`ports_nodup_of_stopAfterFirst`).
-/

namespace Padwire.Attach

/-! ### Servers and devices -/

/-- What the daemon has been told: the services that a browse has found, and the devices that a
server has listed. -/
structure Told where
  service : Discovered → Prop
  device : Server → UsbDevice → Prop

/-- What the answers of a run tell the daemon. -/
def Run.told (r : Run) (answers : List Answer) : Told where
  service f := ∃ before now found,
    before ++ [.browse (some now) (some found)] <+: answers ∧ f ∈ found
  device server dev := ∃ before devices now r' rest,
    before ++ [.devlist (some devices) now] <+: answers ∧ run Run.step r before = some r' ∧
      r'.phase = .asking server rest ∧ dev ∈ devices

/-- The servers that the daemon may attach from: those of the configuration, and, with discovery
on, those that a browse has found. -/
def Config.Knows (cfg : Config) (told : Told) (s : Server) : Prop :=
  s ∈ cfg.servers ∨ cfg.discovery.mdns = true ∧ ∃ d : Discovered, told.service d ∧
    s = { name := "mdns:" ++ d.name, host := d.endpoint, port := d.port, devices := .default,
          autoAttach := true }

/-- The endpoints of a tick are servers that the daemon knows. -/
theorem Daemon.knows_of_mem_endpoints {d : Daemon} {told : Told} {found : List Discovered}
    {s : Server} (hmdns : found = [] ∨ d.cfg.discovery.mdns = true)
    (htold : ∀ f ∈ found, told.service f) (hs : s ∈ d.endpoints found) : d.cfg.Knows told s := by
  have hfold : ∀ (found : List Discovered) (servers : List Server),
      (found = [] ∨ d.cfg.discovery.mdns = true) → (∀ f ∈ found, told.service f) →
      (∀ s ∈ servers, d.cfg.Knows told s) →
      ∀ s ∈ found.foldl (fun servers f =>
        if servers.any fun s => eqIgnoreAsciiCase s.host f.endpoint then servers
        else servers ++ [{
          name := "mdns:" ++ f.name, host := f.endpoint, port := f.port
          devices := .default, autoAttach := true }]) servers, d.cfg.Knows told s := by
    intro found
    induction found with
    | nil => exact fun servers _ _ h => h
    | cons f found ih =>
      intro servers hon htold h
      have hon : d.cfg.discovery.mdns = true := hon.resolve_left (List.cons_ne_nil f found)
      obtain ⟨hf, hfound⟩ := List.forall_mem_cons.mp htold
      rw [List.foldl_cons]
      refine ih _ (.inr hon) hfound fun s hs => ?_
      split_ifs at hs
      · exact h s hs
      · rcases List.mem_append.mp hs with hs | hs
        · exact h s hs
        · exact .inr ⟨hon, f, hf, List.mem_singleton.mp hs⟩
  exact hfold found d.cfg.servers hmdns htold (fun s hs => .inl hs) s hs

/-- What the daemon compares to tell whether it is attached to a device already. -/
def Tracked.device (t : Tracked) : String × String := (t.server, t.busid)

/-- A device of a server that the daemon may attach. -/
structure Eligible (cfg : Config) (told : Told) (server : Server) (dev : UsbDevice) : Prop where
  knows : cfg.Knows told server
  listed : told.device server dev
  auto : server.autoAttach = true
  fits : server.devices.matches dev.idVendor dev.idProduct = true

/-- An attachment to an eligible device. -/
def Tracked.Chosen (cfg : Config) (told : Told) (t : Tracked) : Prop :=
  ∃ server dev, Eligible cfg told server dev ∧ t.server = server.name ∧ t.host = server.host ∧
    t.busid = dev.busid

/-- What is attached, in order: what is still there of what was found at the start, and then the
daemon's own. -/
structure Accounted (cfg : Config) (told : Told) (found adopted made : List Tracked) :
    Prop where
  kept : adopted.Sublist found
  chosen : ∀ t ∈ made, t.Chosen cfg told
  nodup : (made.map Tracked.device).Nodup
  apart : ∀ t ∈ made, ∀ u ∈ adopted, u.device ≠ t.device
  single : cfg.attach.stopAfterFirst = true → made = [] ∨ adopted = [] ∧ made.length = 1

/-- What has dropped off is no longer accounted for; the rest stays as it was. -/
theorem Accounted.sublist {cfg : Config} {told : Told}
    {found adopted made adopted' made' : List Tracked} (h : Accounted cfg told found adopted made)
    (hadopted : adopted'.Sublist adopted) (hmade : made'.Sublist made) :
    Accounted cfg told found adopted' made' := by
  refine ⟨hadopted.trans h.kept, fun t ht => h.chosen t (hmade.subset ht),
    h.nodup.sublist (hmade.map _),
    fun t ht u hu => h.apart t (hmade.subset ht) u (hadopted.subset hu), fun hstop => ?_⟩
  rcases h.single hstop with rfl | ⟨rfl, hlen⟩
  · exact .inl (List.sublist_nil.mp hmade)
  · have hle := hmade.length_le
    rcases Nat.eq_zero_or_pos made'.length with hzero | hpos
    · exact .inl (List.length_eq_zero_iff.mp hzero)
    · exact .inr ⟨List.sublist_nil.mp hadopted, by omega⟩

/-- The daemon attaches to a device that it is not attached to yet. -/
theorem Accounted.snoc {cfg : Config} {told : Told} {found adopted made : List Tracked}
    (h : Accounted cfg told found adopted made) {t : Tracked} (ht : t.Chosen cfg told)
    (hnew : ∀ u ∈ adopted ++ made, u.device ≠ t.device)
    (hstop : cfg.attach.stopAfterFirst = true → adopted ++ made = []) :
    Accounted cfg told found adopted (made ++ [t]) := by
  refine ⟨h.kept, ?_, ?_, ?_, fun hs => ?_⟩
  · rw [List.forall_mem_append]
    exact ⟨h.chosen, List.forall_mem_singleton.mpr ht⟩
  · rw [List.map_append]
    refine h.nodup.append (List.nodup_singleton _) ?_
    rw [List.map_singleton, List.disjoint_singleton]
    intro hmem
    obtain ⟨u, hu, heq⟩ := List.mem_map.mp hmem
    exact hnew u (List.mem_append_right _ hu) heq
  · rw [List.forall_mem_append]
    exact ⟨h.apart, List.forall_mem_singleton.mpr fun u hu => hnew u (List.mem_append_left _ hu)⟩
  · obtain ⟨rfl, rfl⟩ := List.append_eq_nil_iff.mp (hstop hs)
    exact .inr ⟨rfl, rfl⟩

/-! ### What a step was guarded by -/

namespace Run

variable {r r' : Run}

/-- A step reads the clock or leaves it, and then takes the answer. -/
theorem advance_of_step {a : Answer} (h : r.step a = some r') :
    ∃ clock, r.clock.nanos ≤ clock.nanos ∧ (∀ now, a.time = some now → clock = now) ∧
      { r with clock }.advance a = some r' := by
  rw [step] at h
  cases ha : a.time with
  | none =>
    rw [ha] at h
    exact ⟨r.clock, le_rfl, fun now hnow => (by cases hnow), h⟩
  | some now =>
    rw [ha] at h
    dsimp only at h
    split_ifs at h with hle
    exact ⟨now, hle, fun _ hnow => Option.some.inj hnow, h⟩

theorem advance_prune (hp : r.phase = .ticking) (ports : Option Snapshot) :
    r.advance (.prune ports) = some { r with
      phase := if (r.daemon.prune ports).satisfied then .resting else .browsing
      daemon := r.daemon.prune ports } := by
  simp only [advance, hp]

theorem endpoints_of_advance {a : Answer} (h : r.advance a = some r') (hp : r.phase = .browsing)
    {servers : List Server} (hs : r'.phase = .serving servers) :
    ∃ found, (found = [] ∨ r.daemon.cfg.discovery.mdns = true ∧
      ∃ now, a = .browse (some now) (some found)) ∧ servers = r.daemon.endpoints found := by
  cases a with
  | browse now found =>
    simp only [advance, hp] at h
    split_ifs at h with hmdns
    split at h
    · cases h
      exact ⟨[], .inl rfl, (Phase.serving.inj hs).symm⟩
    · split at h
      · cases h
        cases hs
      · cases h
        cases found with
        | none => exact ⟨[], .inl rfl, (Phase.serving.inj hs).symm⟩
        | some found => exact ⟨found, .inr ⟨hmdns, _, rfl⟩, (Phase.serving.inj hs).symm⟩
  | next =>
    simp only [advance, hp] at h
    split_ifs at h
    cases h
    exact ⟨[], .inl rfl, (Phase.serving.inj hs).symm⟩
  | _ =>
    simp only [advance, hp] at h
    cases h

/-- `try_server` is called for the servers with `auto_attach`, and goes on unless the backoff of
the server says otherwise. -/
theorem advance_check {server : Server} {rest : List Server}
    (hp : r.phase = .serving (server :: rest)) (now : Instant) :
    r.advance (.check now) = if server.autoAttach = true then some { r with
      phase := if (r.daemon.backoff.lookup server.name).any fun b => now.nanos < b.nextTry.nanos
        then .serving rest else .asking server rest } else none := by
  simp only [advance, hp]
  cases r.daemon.backoff.lookup server.name with
  | none => rfl
  | some b => simp only [Option.any_some, decide_eq_true_eq]

theorem advance_devlist {server : Server} {rest : List Server} (hp : r.phase = .asking server rest)
    (devices : List UsbDevice) (now : Instant) :
    r.advance (.devlist (some devices) now) =
      some (match (r.daemon.clearFailure server.name).candidate server devices with
        | none => { r with daemon := r.daemon.clearFailure server.name }.done server .nothing rest
        | some dev => { r with
            phase := .attaching server dev rest
            daemon := r.daemon.clearFailure server.name }) := by
  simp only [advance, hp]
  cases (r.daemon.clearFailure server.name).candidate server devices with
  | none => rfl
  | some dev => rfl

theorem advance_poll {server : Server} {dev : UsbDevice} {before : List UInt32}
    {deadline : Instant} {rest : List Server}
    (hp : r.phase = .settling server dev before deadline rest) (now : Instant)
    (after : Option Snapshot) :
    r.advance (.poll now after) =
      some (if now.nanos < deadline.nanos then
        match newlyUsed before (occupiedPorts after) with
        | none => r
        | some port => { r with
            phase := if r.daemon.cfg.attach.stopAfterFirst then .resting else .serving rest
            daemon := { r.daemon with attached := r.daemon.attached ++
              [{ server := server.name, host := server.host, busid := dev.busid, port }] }
            log := r.log ++ [⟨server.name, .attached port⟩] }
      else r.done server .unsettled rest) := by
  simp only [advance, hp]
  split_ifs with hlt hstop
  · cases newlyUsed before (occupiedPorts after) <;> rfl
  · cases newlyUsed before (occupiedPorts after) <;> rfl
  · rfl

/-- After an attachment the tick ends, or goes on if more than one is wanted. -/
theorem phase_of_attached {server : Server} {dev : UsbDevice} {before : List UInt32}
    {deadline now : Instant} {rest : List Server} {after : Option Snapshot} {port : UInt32}
    (hp : r.phase = .settling server dev before deadline rest)
    (hport : newlyUsed before (occupiedPorts after) = some port)
    (h : r.advance (.poll now after) = some r')
    (hattached : r'.daemon.attached.length = r.daemon.attached.length + 1) :
    r'.phase = if r.daemon.cfg.attach.stopAfterFirst then .resting else .serving rest := by
  rw [advance_poll hp] at h
  cases h
  by_cases hlt : now.nanos < deadline.nanos
  · rw [if_pos hlt, hport]
  · rw [if_neg hlt] at hattached
    exact absurd hattached (Nat.ne_of_lt (Nat.lt_succ_self _))

end Run

/-! ### The attachments along a run -/

/-- Where in a tick the daemon is goes with what it is attached to. With `stop_after_first` it is
past the top of a tick only while it is attached to nothing. -/
def Phase.Sound (cfg : Config) (told : Told) (attached : List Tracked) (phase : Phase) : Prop :=
  let alone := cfg.attach.stopAfterFirst = true → attached = []
  match phase with
  | .starting => False
  | .browsing => alone
  | .serving servers => alone ∧ ∀ s ∈ servers, cfg.Knows told s
  | .asking server rest =>
    alone ∧ server.autoAttach = true ∧ ∀ s ∈ server :: rest, cfg.Knows told s
  | .attaching server dev rest | .settling server dev _ _ rest =>
    alone ∧ Eligible cfg told server dev ∧
      (∀ t ∈ attached, t.device ≠ (server.name, dev.busid)) ∧ ∀ s ∈ rest, cfg.Knows told s
  | .ticking | .resting | .napping _ | .stopped | .panicked _ => True

structure Attachments (cfg : Config) (told : Told) (found : List Tracked) (r : Run) : Prop where
  cfg_eq : r.daemon.cfg = cfg
  accounted : ∃ adopted made,
    r.daemon.attached = adopted ++ made ∧ Accounted cfg told found adopted made
  phase : r.phase.Sound cfg told r.daemon.attached

/-- What has been told stays told. -/
structure Told.Le (told told' : Told) : Prop where
  service : ∀ f, told.service f → told'.service f
  device : ∀ server dev, told.device server dev → told'.device server dev

theorem Run.told_le (r : Run) {answers answers' : List Answer} (h : answers <+: answers') :
    (r.told answers).Le (r.told answers') where
  service f hf := by
    obtain ⟨before, now, found, hpre, hmem⟩ := hf
    exact ⟨before, now, found, hpre.trans h, hmem⟩
  device server dev hdev := by
    obtain ⟨before, devices, now, r', rest, hpre, hrest⟩ := hdev
    exact ⟨before, devices, now, r', rest, hpre.trans h, hrest⟩

section Step

variable {cfg : Config} {told told' : Told} {found : List Tracked} {r r' : Run}

theorem Config.Knows.mono {s : Server} (h : cfg.Knows told s) (hle : told.Le told') :
    cfg.Knows told' s := by
  rcases h with hmem | ⟨hmdns, f, hf, hs⟩
  · exact .inl hmem
  · exact .inr ⟨hmdns, f, hle.service f hf, hs⟩

theorem Eligible.mono {server : Server} {dev : UsbDevice} (h : Eligible cfg told server dev)
    (hle : told.Le told') : Eligible cfg told' server dev :=
  ⟨h.knows.mono hle, hle.device _ _ h.listed, h.auto, h.fits⟩

theorem Phase.Sound.mono {attached : List Tracked} {phase : Phase}
    (h : phase.Sound cfg told attached) (hle : told.Le told') :
    phase.Sound cfg told' attached := by
  cases phase with
  | serving servers => exact ⟨h.1, fun s hs => (h.2 s hs).mono hle⟩
  | asking server rest => exact ⟨h.1, h.2.1, fun s hs => (h.2.2 s hs).mono hle⟩
  | attaching server dev rest | settling server dev before deadline rest =>
    exact ⟨h.1, h.2.1.mono hle, h.2.2.1, fun s hs => (h.2.2.2 s hs).mono hle⟩
  | _ => exact h

theorem Attachments.mono (hr : Attachments cfg told found r) (hle : told.Le told') :
    Attachments cfg told' found r := by
  obtain ⟨adopted, made, hsplit, hacc⟩ := hr.accounted
  refine ⟨hr.cfg_eq, ⟨adopted, made, hsplit, hacc.kept, fun t ht => ?_, hacc.nodup, hacc.apart,
    hacc.single⟩, hr.phase.mono hle⟩
  obtain ⟨server, dev, helig, hsame⟩ := hacc.chosen t ht
  exact ⟨server, dev, helig.mono hle, hsame⟩

/-- A step that keeps the attachments. -/
theorem Attachments.keep (hr : Attachments cfg told found r) (hcfg : r'.daemon.cfg = r.daemon.cfg)
    (hattached : r'.daemon.attached = r.daemon.attached)
    (hphase : r'.phase.Sound cfg told r.daemon.attached) : Attachments cfg told found r' := by
  refine ⟨hcfg.trans hr.cfg_eq, ?_, ?_⟩
  · rw [hattached]
    exact hr.accounted
  · rw [hattached]
    exact hphase

/-- After a call of `try_server` the loop goes on. -/
theorem Attachments.goOn (hr : Attachments cfg told found r) (hcfg : r'.daemon.cfg = r.daemon.cfg)
    (hattached : r'.daemon.attached = r.daemon.attached) {rest : List Server}
    (hphase : r'.phase = .serving rest ∨ ∃ site, r'.phase = .panicked site)
    (halone : cfg.attach.stopAfterFirst = true → r.daemon.attached = [])
    (hrest : ∀ s ∈ rest, cfg.Knows told s) : Attachments cfg told found r' := by
  refine hr.keep hcfg hattached ?_
  rcases hphase with hphase | ⟨site, hphase⟩
  · rw [hphase]
    exact ⟨halone, hrest⟩
  · rw [hphase]
    trivial

theorem Attachments.fail (hr : Attachments cfg told found r) (server : Server) (stage : Stage)
    (now : Instant) {rest : List Server}
    (halone : cfg.attach.stopAfterFirst = true → r.daemon.attached = [])
    (hrest : ∀ s ∈ rest, cfg.Knows told s) :
    Attachments cfg told found (r.fail server stage now rest) := by
  rcases r.fail_cases server stage now rest with ⟨site, -, hfail⟩ | ⟨level, next, d, hd, hfail⟩
  · rw [hfail]
    exact hr.goOn rfl rfl (.inr ⟨site, rfl⟩) halone hrest
  · obtain ⟨-, -, delay, -, rfl⟩ := Daemon.recordFailure_ok hd
    rw [hfail]
    exact hr.goOn rfl rfl (.inl rfl) halone hrest

/-- The device that `try_server` picks is one to attach. -/
theorem eligible_of_candidate {server : Server} {devices : List UsbDevice} {dev : UsbDevice}
    (hknows : cfg.Knows told server) (hlisted : ∀ dev ∈ devices, told.device server dev)
    (hauto : server.autoAttach = true) (h : r.daemon.candidate server devices = some dev) :
    Eligible cfg told server dev ∧
      ∀ t ∈ r.daemon.attached, t.device ≠ (server.name, dev.busid) := by
  have hdev := List.find?_some h
  rw [Bool.and_eq_true, Bool.not_eq_true', List.any_eq_false] at hdev
  refine ⟨⟨hknows, hlisted dev (List.mem_of_find?_eq_some h), hauto, hdev.1⟩,
    fun t ht heq => hdev.2 t ht ?_⟩
  rw [Bool.and_eq_true, beq_iff_eq, beq_iff_eq]
  exact ⟨congrArg Prod.fst heq, congrArg Prod.snd heq⟩

/-- An answer tells the daemon of services or devices. -/
structure Told.Hears (told : Told) (r : Run) (a : Answer) : Prop where
  service : ∀ now found, a = .browse (some now) (some found) → ∀ f ∈ found, told.service f
  device : ∀ server rest devices now, r.phase = .asking server rest →
    a = .devlist (some devices) now → ∀ dev ∈ devices, told.device server dev

/-- **A step keeps the account of what is attached.** -/
theorem Attachments.advance {a : Answer} (hr : Attachments cfg told found r)
    (hears : told.Hears r a) (h : r.advance a = some r') : Attachments cfg told found r' := by
  have hknown : ∀ {servers : List Server}, r.phase = .browsing → r'.phase = .serving servers →
      ∀ s ∈ servers, cfg.Knows told s := by
    intro servers hp hp' s hs
    obtain ⟨heard, hmdns, rfl⟩ := Run.endpoints_of_advance h hp hp'
    refine hr.cfg_eq ▸ Daemon.knows_of_mem_endpoints (hmdns.imp_right And.left) ?_ hs
    rcases hmdns with rfl | ⟨-, now, ha⟩
    · exact List.forall_mem_nil _
    · exact hears.service now heard ha
  have hphase := hr.phase
  have heff := Run.effect_of_advance h
  cases heff with
  | adopt hp =>
    rw [hp] at hphase
    exact hphase.elim
  | @prune ports phase hp _ =>
    obtain rfl : phase = _ := congrArg Run.phase
      (Option.some.inj (h.symm.trans (Run.advance_prune hp ports)))
    obtain ⟨adopted, made, hsplit, hacc⟩ := hr.accounted
    have hsub := r.daemon.prune_sublist ports
    rw [hsplit] at hsub
    obtain ⟨adopted', made', hsplit', hadopted, hmade⟩ := List.sublist_append_iff.mp hsub
    have hcfg : (r.daemon.prune ports).cfg = cfg := by
      rw [← hr.cfg_eq]
      cases ports <;> rfl
    refine ⟨hcfg, ⟨adopted', made', hsplit', hacc.sublist hadopted hmade⟩, ?_⟩
    dsimp only
    split_ifs with hsat
    · trivial
    · intro hstop
      rw [Daemon.satisfied, hcfg, hstop, Bool.true_and, Bool.not_eq_true', Bool.not_eq_false,
        List.isEmpty_iff] at hsat
      exact hsat
  | noBrowse hp _ => exact hr.keep rfl rfl trivial
  | browse hp _ =>
    have hservers := hknown hp rfl
    rw [hp] at hphase
    exact hr.goOn rfl rfl (.inl rfl) hphase hservers
  | endpoints hp =>
    have hservers := hknown hp rfl
    rw [hp] at hphase
    exact hr.goOn rfl rfl (.inl rfl) hphase hservers
  | skip _ hp =>
    rw [hp] at hphase
    exact hr.goOn rfl rfl (.inl rfl) hphase.1 (List.forall_mem_cons.mp hphase.2).2
  | @ask now server rest hp =>
    rw [hp] at hphase
    have hauto : server.autoAttach = true := by
      by_contra hno
      rw [Run.advance_check hp, if_neg hno] at h
      cases h
    exact hr.keep rfl rfl ⟨hphase.1, hauto, hphase.2⟩
  | exhausted hp => exact hr.keep rfl rfl trivial
  | unreachable hp =>
    rw [hp] at hphase
    exact hr.fail _ _ _ hphase.1 (List.forall_mem_cons.mp hphase.2.2).2
  | nothing hp =>
    rw [hp] at hphase
    exact hr.goOn rfl rfl (.inl rfl) hphase.1 (List.forall_mem_cons.mp hphase.2.2).2
  | @found now devices dev server rest hp =>
    rw [hp] at hphase
    obtain ⟨hknows, hrest⟩ := List.forall_mem_cons.mp hphase.2.2
    rw [Run.advance_devlist hp] at h
    cases hdev : (r.daemon.clearFailure server.name).candidate server devices with
    | none =>
      rw [hdev] at h
      cases h
    | some dev' =>
      rw [hdev] at h
      cases h
      obtain ⟨helig, hnew⟩ := eligible_of_candidate (r := { r with
        daemon := r.daemon.clearFailure server.name }) hknows
        (hears.device server rest devices now hp rfl) hphase.2.1 hdev
      exact hr.keep rfl rfl ⟨hphase.1, helig, hnew, hrest⟩
  | refused hp =>
    rw [hp] at hphase
    exact hr.fail _ _ _ hphase.1 hphase.2.2.2
  | noSettle hp => exact hr.keep rfl rfl trivial
  | settle hp =>
    rw [hp] at hphase
    exact hr.keep rfl rfl hphase
  | waiting hp => exact hr
  | @attached now deadline after before port server dev rest phase hp hport _ =>
    have hphase' := Run.phase_of_attached hp hport h List.length_append
    rw [hr.cfg_eq] at hphase'
    dsimp only at hphase'
    rw [hp] at hphase
    obtain ⟨halone, helig, hnew, hrest⟩ := hphase
    obtain ⟨adopted, made, hsplit, hacc⟩ := hr.accounted
    have hchosen : Tracked.Chosen cfg told
        { server := server.name, host := server.host, busid := dev.busid, port } :=
      ⟨server, dev, helig, rfl, rfl, rfl⟩
    refine ⟨hr.cfg_eq, ⟨adopted, made ++ [_], ?_, hacc.snoc hchosen
      (fun u hu => hnew u (hsplit ▸ hu)) fun hstop => hsplit ▸ halone hstop⟩, ?_⟩
    · dsimp only
      rw [hsplit, List.append_assoc]
    · dsimp only
      rw [hphase']
      split_ifs with hstop
      · trivial
      · exact ⟨fun h => absurd h hstop, hrest⟩
  | unsettled hp =>
    rw [hp] at hphase
    exact hr.goOn rfl rfl (.inl rfl) hphase.1 hphase.2.2.2
  | noNap hp _ => exact hr.keep rfl rfl trivial
  | nap hp _ => exact hr.keep rfl rfl trivial
  | wake hp hphase => exact hr.keep rfl rfl (by rcases hphase with rfl | rfl <;> trivial)
  | stop hp => exact hr.keep rfl rfl trivial

end Step

/-- At first all that is attached is what was found. -/
theorem attachments_of_adopt {cfg : Config} {told : Told} {clock : Instant}
    {ports : Option Snapshot} {dir : StateDir} {s : Run}
    (h : (Run.start cfg clock).step (.adopt ports dir) = some s) : Attachments cfg told
      ((Daemon.new cfg).adoptExisting (occupiedPorts ports) (records dir)).attached s := by
  cases h
  exact ⟨rfl, ⟨_, [], (List.append_nil _).symm, ⟨List.Sublist.refl _, List.forall_mem_nil _,
    List.nodup_nil, List.forall_mem_nil _, fun _ => .inl rfl⟩⟩, trivial⟩

/-- What a run is told, with one more answer. -/
theorem Run.hears_told {r s : Run} {answers : List Answer} (hrun : run Run.step s answers = some r)
    (a : Answer) : (s.told (answers ++ [a])).Hears r a where
  service now found ha _ hf := ⟨answers, now, found, ha ▸ List.prefix_rfl, hf⟩
  device _ rest devices now hp ha _ hdev :=
    ⟨answers, devices, now, r, rest, ha ▸ List.prefix_rfl, hrun, hp, hdev⟩

/-- And so does a run, with what its answers have told the daemon. -/
theorem attachments_of_run {cfg : Config} {found : List Tracked} {s r : Run}
    {answers : List Answer} (hs : Attachments cfg (s.told []) found s)
    (h : run Run.step s answers = some r) : Attachments cfg (s.told answers) found r := by
  induction answers using List.reverseRecOn generalizing r with
  | nil => exact Option.some.inj h ▸ hs
  | append_singleton answers a ih =>
    rw [run_append] at h
    obtain ⟨r', hr', hlast⟩ := Option.bind_eq_some_iff.mp h
    obtain ⟨t, hstep, hnil⟩ := Option.bind_eq_some_iff.mp (run_cons a ▸ hlast)
    obtain rfl : t = r := Option.some.inj hnil
    obtain ⟨clock, -, -, hadvance⟩ := Run.advance_of_step hstep
    have hmono := (ih hr').mono (s.told_le (List.prefix_append answers [a]))
    have hclock : Attachments cfg (s.told (answers ++ [a])) found { r' with clock } :=
      ⟨hmono.cfg_eq, hmono.accounted, hmono.phase⟩
    have hears := Run.hears_told hr' a
    exact hclock.advance ⟨hears.service, hears.device⟩ hadvance

/-- What the first answer has nothing to do with is told from the start. -/
theorem Run.told_cons_le {r s : Run} {a : Answer} (h : r.step a = some s)
    (answers : List Answer) : (s.told answers).Le (r.told (a :: answers)) where
  service f hf := by
    obtain ⟨before, now, found, hpre, hmem⟩ := hf
    exact ⟨a :: before, now, found, List.cons_prefix_cons.mpr ⟨rfl, hpre⟩, hmem⟩
  device server dev hdev := by
    obtain ⟨before, devices, now, r', rest, hpre, hrun, hrest⟩ := hdev
    exact ⟨a :: before, devices, now, r', rest, List.cons_prefix_cons.mpr ⟨rfl, hpre⟩,
      by rw [run_cons, h, Option.bind_some, hrun], hrest⟩

/-- **The daemon attaches what it is told to, and nothing twice.** In every run, what is attached
is what is left of what the daemon found at its start, followed by attachments of its own: to
devices that a server has listed in this run, one of the configuration or one that a browse of this
run has found, with `auto_attach` and a filter that matches the device; and these are different
from each other and from the adopted ones that are left. With `stop_after_first` the daemon has at
most one of its own, and then no other. -/
theorem attachments_accounted {cfg : Config} {clock : Instant} {ports : Option Snapshot}
    {dir : StateDir} {answers : List Answer} {r : Run}
    (h : run Run.step (Run.start cfg clock) (.adopt ports dir :: answers) = some r) :
    ∃ adopted made, r.daemon.attached = adopted ++ made ∧ Accounted cfg
      ((Run.start cfg clock).told (.adopt ports dir :: answers))
      ((Daemon.new cfg).adoptExisting (occupiedPorts ports) (records dir)).attached
      adopted made := by
  rw [run_cons] at h
  obtain ⟨s, hs, hr⟩ := Option.bind_eq_some_iff.mp h
  have hrun := attachments_of_run (attachments_of_adopt hs) hr
  exact (hrun.mono (Run.told_cons_le hs answers)).accounted

/-- The controller of the first server is attached when the daemon starts, under a record of an
earlier run; that of the second server is attached in the first tick. -/
def restartAnswers : List Answer :=
  .adopt (some (twoPorts true false)) ⟨[(0, some "deck 3240 3-12")], List.nodup_singleton _⟩ ::
    ([.prune (some (twoPorts true false)), .next, .check (.ofSecs 1),
      .devlist (some [controller]) (.ofSecs 1)] ++
    attachNext (twoPorts true false) (twoPorts true true))

theorem attachments_accounted_restart :
    ∃ (r : Run) (adopted made : List Tracked), r.daemon.attached = adopted ++ made ∧
      r.daemon.attached.map Tracked.device = [("deck", "3-12"), ("tablet", "3-12")] ∧
      Accounted twoServers ((Run.start twoServers (.ofSecs 0)).told restartAnswers)
        ((Daemon.new twoServers).adoptExisting [0] [⟨0, "deck", "3240", "3-12"⟩]).attached
        adopted made := by
  have hrun : (run Run.step (Run.start twoServers (.ofSecs 0)) restartAnswers).any (fun r =>
      r.daemon.attached.map Tracked.device == [("deck", "3-12"), ("tablet", "3-12")]) = true := by
    decide +kernel
  obtain ⟨r, hr, hdevices⟩ := (Option.any_eq_true _ _).mp hrun
  obtain ⟨adopted, made, hsplit, hacc⟩ := attachments_accounted hr
  have hrecords : records ⟨[(0, some "deck 3240 3-12")], List.nodup_singleton _⟩ =
      [⟨0, "deck", "3240", "3-12"⟩] := by decide +kernel
  rw [hrecords] at hacc
  exact ⟨r, adopted, made, hsplit, beq_iff_eq.mp hdevices, hacc⟩

/-! ### A daemon for one attachment -/

/-- All that a daemon can be told. -/
def Told.all : Told := ⟨fun _ => True, fun _ _ => True⟩

theorem Told.all_hears (r : Run) (a : Answer) : Told.all.Hears r a where
  service _ _ _ _ _ := trivial
  device _ _ _ _ _ _ _ _ := trivial

/-- In any run, what is attached is accounted for from its first answer on. -/
theorem attachments_of_reachable {cfg : Config} {r : Run}
    (h : Reachable Run.step (Run.Initial cfg) r) :
    Run.Initial cfg r ∨ ∃ found, Attachments cfg .all found r := by
  refine h.invariant (fun r => Run.Initial cfg r ∨ ∃ found, Attachments cfg .all found r)
    (fun r hr => .inl hr) fun r a r' hr _ hstep => .inr ?_
  obtain ⟨clock, -, -, hadvance⟩ := Run.advance_of_step hstep
  rcases hr with ⟨clock, rfl⟩ | ⟨found, hr⟩
  · cases a with
    | adopt ports dir => exact ⟨_, attachments_of_adopt hstep⟩
    | _ => cases hadvance
  · have hclock : Attachments cfg .all found { r with clock } := ⟨hr.cfg_eq, hr.accounted, hr.phase⟩
    exact ⟨found, hclock.advance (Told.all_hears _ a) hadvance⟩

/-- With `stop_after_first` the condition of `tracked_ports_nodup` always holds: nothing is tracked
while the daemon attaches. -/
theorem noReappearance_of_stopAfterFirst {cfg : Config} {r : Run}
    (hstop : cfg.attach.stopAfterFirst = true) (h : Reachable Run.step (Run.Initial cfg) r)
    (a : Answer) : NoReappearance r a := by
  cases a with
  | poll now after =>
    simp only [NoReappearance]
    cases hp : r.phase with
    | settling server dev before deadline rest =>
      rcases attachments_of_reachable h with ⟨clock, rfl⟩ | ⟨found, hr⟩
      · cases hp
      · have hphase := hr.phase
        rw [hp] at hphase
        intro t ht
        rw [hphase.1 hstop] at ht
        cases ht
    | _ => trivial
  | _ => trivial

/-- So no port is tracked twice then, in any run. -/
theorem ports_nodup_of_stopAfterFirst {cfg : Config} {r : Run}
    (hstop : cfg.attach.stopAfterFirst = true) (h : Reachable Run.step (Run.Initial cfg) r) :
    (r.daemon.attached.map Tracked.port).Nodup := by
  have hreach : Reach Run.step (Run.Initial cfg) NoReappearance r := by
    induction h with
    | start hs => exact .start hs
    | next hr _ ha ih => exact .next ih (noReappearance_of_stopAfterFirst hstop hr _) ha
  exact (distinct_of_reach hreach).nodup

end Padwire.Attach
