import Padwire.Attach.Config
import Padwire.Attach.Vhci
import Padwire.Lib.Run
import Padwire.Lib.Table
import Padwire.Proto.Device

/-!
# The attach daemon

The daemon keeps the configured controller attached (`usbfwd-attach/src/main.rs`). It is one
thread: `adopt_existing` once, and then tick after tick with a nap in between. A tick forgets the
attachments whose port is gone and then goes through the servers; `try_server` asks a server for
its devices and `attach` runs `usbip attach` and waits for a new port to show up.

The daemon runs against an environment that answers it: readings of the clock, which never goes
back, snapshots of the ports, device lists, and how `usbip` ended. Between any two of them the
kernel may do whatever it likes to the ports. `step` is one stretch of the daemon from one answer
to the next. A sum or product of times that does not fit panics, and the daemon is gone: `Site`
says where.
-/

namespace Padwire.Attach

/-- How long to wait for a freshly attached port to show up. -/
def PORT_SETTLE_TIMEOUT : Duration := .fromSecs 10

/-- One attachment this daemon is responsible for. -/
structure Tracked where
  server : String
  host : String
  busid : String
  port : UInt32
  deriving DecidableEq

structure Backoff where
  nextTry : Instant
  delay : Duration
  /-- Whether the last failure has already been reported at `info`. -/
  reported : Bool
  deriving DecidableEq

/-- The daemon: a server is known by its name, which is the key of its backoff. -/
structure Daemon where
  cfg : Config
  attached : List Tracked
  backoff : Table String Backoff

/-- Where the time arithmetic is that panicked. -/
inductive Site
  /-- `Instant::now() + e.delay` in `record_failure`. -/
  | retry
  /-- `e.delay * 2` in `record_failure`. -/
  | double
  /-- `Instant::now() + PORT_SETTLE_TIMEOUT` in `attach`. -/
  | settle
  /-- `Instant::now() + total` in `nap`. -/
  | nap
  /-- `Instant::now() + timeout` in `browse`. -/
  | browse
  deriving DecidableEq, Repr

inductive Level
  | info | debug
  deriving DecidableEq, Repr

/-- What a browse finds. -/
structure Discovered where
  name : String
  host : String
  port : UInt16
  addrs : List String

/-- A literal address if one was advertised, otherwise the `.local` name. -/
def Discovered.endpoint (d : Discovered) : String := d.addrs.head?.getD d.host

namespace Daemon

def new (cfg : Config) : Daemon := ⟨cfg, [], ∅⟩

/-- Pick up attachments that survived a restart of this daemon: the ports in use that a record
explains, and then those that none explains. -/
def adoptExisting (d : Daemon) (used : List UInt32) (recorded : List Record) : Daemon :=
  let known := recorded.filter fun r => used.contains r.port
  let identified := known.map Record.port
  { d with attached := d.attached ++
      known.map (fun r =>
        { server := ((d.cfg.servers.find? fun s => eqIgnoreAsciiCase s.host r.host).map
            Server.name).getD r.host
          host := r.host, busid := r.busid, port := r.port }) ++
      (used.filter fun port => !identified.contains port).map fun port =>
        { server := "unknown", host := "unknown"
          busid := "vhci:" ++ toString port.toNat, port } }

/-- True when there is nothing left to do this tick. -/
def satisfied (d : Daemon) : Bool :=
  d.cfg.attach.stopAfterFirst && !d.attached.isEmpty

/-- Configured servers first; discovered ones appended unless their host is there already. -/
def endpoints (d : Daemon) (found : List Discovered) : List Server :=
  found.foldl (fun servers f =>
    if servers.any fun s => eqIgnoreAsciiCase s.host f.endpoint then servers
    else servers ++ [{
      name := "mdns:" ++ f.name, host := f.endpoint, port := f.port
      devices := .default, autoAttach := true }]) d.cfg.servers

/-- Forget attachments whose port is free again or in an error state. Ports in an error state are
also detached. -/
def prune (d : Daemon) : Option Snapshot → Daemon
  | none => d
  | some s => { d with attached := d.attached.filter fun t =>
      match s.ports.find? fun p => p.port == t.port with
      | some p => !p.failed && p.occupied
      | none => false }

/-- The backoff of a server, or a new one. -/
def entry (d : Daemon) (server : String) (now : Instant) : Backoff :=
  (d.backoff.lookup server).getD
    { nextTry := now, delay := d.cfg.attach.retryMin, reported := false }

/-- Schedule the next attempt; with it the level at which the failure is reported. -/
def recordFailure (d : Daemon) (server : String) (now : Instant) :
    Except Site (Level × Instant × Daemon) :=
  let e := d.entry server now
  match now.add e.delay with
  | none => .error .retry
  | some nextTry =>
    match e.delay.double with
    | none => .error .double
    | some twice =>
      let e' : Backoff := { nextTry, delay := min twice d.cfg.attach.retryMax, reported := true }
      .ok (if e.reported then .debug else .info, nextTry,
        { d with backoff := d.backoff.insert server e' })

def clearFailure (d : Daemon) (server : String) : Daemon :=
  { d with backoff := d.backoff.erase server }

/-- The first device of a server that matches and is not attached yet. -/
def candidate (d : Daemon) (server : Server) (devices : List UsbDevice) : Option UsbDevice :=
  devices.find? fun dev => server.devices.matches dev.idVendor dev.idProduct &&
    !d.attached.any fun t => t.server == server.name && t.busid == dev.busid

end Daemon

/-! ### Runs of the daemon -/

/-- How a call of `try_server` fails. -/
inductive Stage
  /-- The device list could not be had. -/
  | devlist
  /-- `usbip attach` failed. -/
  | attach
  deriving DecidableEq, Repr

/-- A failure as `record_failure` deals with it: when, at which level it is reported, and the time
of the next attempt. -/
structure Failure where
  stage : Stage
  time : Instant
  level : Level
  nextTry : Instant
  deriving DecidableEq

/-- How a call of `try_server` ends. -/
inductive Outcome
  | failed (f : Failure)
  /-- No device matches. -/
  | nothing
  | attached (port : UInt32)
  /-- No port became busy in time. -/
  | unsettled
  deriving DecidableEq

/-- A call of `try_server` that the backoff does not skip. -/
structure Attempt where
  server : String
  outcome : Outcome
  deriving DecidableEq

/-- Where the daemon is. Inside the `for` loop of a tick it carries the servers to come. -/
inductive Phase
  | starting
  /-- At the top of the loop, before `prune`. -/
  | ticking
  /-- In `endpoints`. -/
  | browsing
  | serving (servers : List Server)
  /-- In `try_server`, about to ask for the device list. -/
  | asking (server : Server) (rest : List Server)
  /-- In `attach`. -/
  | attaching (server : Server) (dev : UsbDevice) (rest : List Server)
  /-- In `attach`, waiting for a new port. -/
  | settling (server : Server) (dev : UsbDevice) (before : List UInt32) (deadline : Instant)
      (rest : List Server)
  /-- After a tick. -/
  | resting
  | napping (wake : Instant)
  | stopped
  | panicked (site : Site)

/-- The daemon with the last reading of the clock and all calls of `try_server` so far. -/
structure Run where
  phase : Phase
  daemon : Daemon
  clock : Instant
  log : List Attempt

/-- What the environment answers, with the reading of the clock where the daemon takes one. -/
inductive Answer
  | adopt (ports : Option Snapshot) (dir : StateDir)
  | prune (ports : Option Snapshot)
  /-- `browse` reads the clock, unless it fails before that, and returns what it found. -/
  | browse (now : Option Instant) (found : Option (List Discovered))
  | check (now : Instant)
  | devlist (devices : Option (List UsbDevice)) (now : Instant)
  /-- The ports before `usbip attach`, whether that succeeded, and the time after it. -/
  | usbip (before : Option Snapshot) (ok : Bool) (now : Instant)
  | poll (now : Instant) (after : Option Snapshot)
  | nap (now : Instant)
  | wake (now : Instant)
  | stop
  /-- The next step needs no answer. -/
  | next

/-- The reading of the clock in an answer. -/
def Answer.time : Answer → Option Instant
  | .browse now _ => now
  | .check now | .devlist _ now | .usbip _ _ now | .poll now _ | .nap now | .wake now => some now
  | .adopt _ _ | .prune _ | .stop | .next => none

namespace Run

/-- A call of `try_server` ends, and the loop goes on with the servers to come. -/
def done (r : Run) (server : Server) (outcome : Outcome) (rest : List Server) : Run :=
  { r with phase := .serving rest, log := r.log ++ [⟨server.name, outcome⟩] }

/-- A call of `try_server` ends in `record_failure`. -/
def fail (r : Run) (server : Server) (stage : Stage) (now : Instant) (rest : List Server) : Run :=
  match r.daemon.recordFailure server.name now with
  | .error site => { r with phase := .panicked site }
  | .ok (level, nextTry, daemon) =>
    { r with daemon }.done server (.failed ⟨stage, now, level, nextTry⟩) rest

/-- The answer with its reading of the clock taken. -/
def advance (r : Run) : Answer → Option Run
  | .adopt ports dir =>
    match r.phase with
    | .starting => some { r with
        phase := .ticking, daemon := r.daemon.adoptExisting (occupiedPorts ports) (records dir) }
    | _ => none
  | .prune ports =>
    match r.phase with
    | .ticking =>
      let daemon := r.daemon.prune ports
      some { r with phase := if daemon.satisfied then .resting else .browsing, daemon }
    | _ => none
  | .browse now found =>
    match r.phase with
    | .browsing =>
      if r.daemon.cfg.discovery.mdns then
        match now with
        | none => some { r with phase := .serving (r.daemon.endpoints []) }
        | some now =>
          match now.add r.daemon.cfg.discovery.mdnsTimeout with
          | none => some { r with phase := .panicked .browse }
          | some _ => some { r with phase := .serving (r.daemon.endpoints (found.getD [])) }
      else none
    | _ => none
  | .check now =>
    match r.phase with
    | .serving (server :: rest) =>
      if server.autoAttach then
        match r.daemon.backoff.lookup server.name with
        | some b =>
          some { r with phase :=
            if now.nanos < b.nextTry.nanos then .serving rest else .asking server rest }
        | none => some { r with phase := .asking server rest }
      else none
    | _ => none
  | .devlist devices now =>
    match r.phase with
    | .asking server rest =>
      match devices with
      | none => some (r.fail server .devlist now rest)
      | some devices =>
        let r := { r with daemon := r.daemon.clearFailure server.name }
        match r.daemon.candidate server devices with
        | none => some (r.done server .nothing rest)
        | some dev => some { r with phase := .attaching server dev rest }
    | _ => none
  | .usbip before ok now =>
    match r.phase with
    | .attaching server dev rest =>
      if ok then
        match now.add PORT_SETTLE_TIMEOUT with
        | none => some { r with phase := .panicked .settle }
        | some deadline =>
          some { r with phase := .settling server dev (occupiedPorts before) deadline rest }
      else some (r.fail server .attach now rest)
    | _ => none
  | .poll now after =>
    match r.phase with
    | .settling server dev before deadline rest =>
      if now.nanos < deadline.nanos then
        match newlyUsed before (occupiedPorts after) with
        | none => some r
        | some port =>
          let tracked : Tracked :=
            { server := server.name, host := server.host, busid := dev.busid, port }
          let daemon := { r.daemon with attached := r.daemon.attached ++ [tracked] }
          let r := { r with daemon }.done server (.attached port) rest
          some (if daemon.cfg.attach.stopAfterFirst then { r with phase := .resting } else r)
      else some (r.done server .unsettled rest)
    | _ => none
  | .nap now =>
    match r.phase with
    | .resting =>
      match now.add r.daemon.cfg.attach.pollInterval with
      | none => some { r with phase := .panicked .nap }
      | some wake => some { r with phase := .napping wake }
    | _ => none
  | .wake now =>
    match r.phase with
    | .napping wake =>
      some { r with phase := if wake.nanos ≤ now.nanos then .ticking else .napping wake }
    | _ => none
  | .stop =>
    match r.phase with
    | .ticking | .napping _ | .resting => some { r with phase := .stopped }
    | _ => none
  | .next =>
    match r.phase with
    | .browsing =>
      if r.daemon.cfg.discovery.mdns then none
      else some { r with phase := .serving (r.daemon.endpoints []) }
    | .serving (server :: rest) =>
      if server.autoAttach then none else some { r with phase := .serving rest }
    | .serving [] => some { r with phase := .resting }
    | _ => none

/-- The reading of the clock in an answer is not before the last one. -/
def step (r : Run) (a : Answer) : Option Run :=
  match a.time with
  | none => r.advance a
  | some now => if r.clock.nanos ≤ now.nanos then { r with clock := now }.advance a else none

/-- A daemon that was just started. -/
def start (cfg : Config) (clock : Instant) : Run := ⟨.starting, .new cfg, clock, []⟩

def Initial (cfg : Config) (r : Run) : Prop :=
  ∃ clock, r = start cfg clock

end Run

/-! ### What a step does -/

/-- What `record_failure` leaves: the next attempt is the current delay away, and the delay is
doubled up to the ceiling. -/
theorem Daemon.recordFailure_ok {d d' : Daemon} {server : String} {now nextTry : Instant}
    {level : Level} (h : d.recordFailure server now = .ok (level, nextTry, d')) :
    nextTry.nanos = now.nanos + (d.entry server now).delay.nanos ∧
    level = (if (d.entry server now).reported then .debug else .info) ∧
    ∃ delay : Duration,
      delay.nanos = min ((d.entry server now).delay.nanos * 2) d.cfg.attach.retryMax.nanos ∧
      d' = { d with backoff := d.backoff.insert server ⟨nextTry, delay, true⟩ } := by
  simp only [recordFailure] at h
  split at h
  case h_1 => cases h
  case h_2 hadd =>
    split at h
    case h_1 => cases h
    case h_2 twice htwice =>
      cases h
      refine ⟨Instant.nanos_of_add hadd, rfl, _, ?_, rfl⟩
      rw [Duration.nanos_min, Duration.nanos_of_double htwice]

theorem Daemon.recordFailure_error {d : Daemon} {server : String} {now : Instant} {site : Site}
    (h : d.recordFailure server now = .error site) :
    site = .retry ∧ now.add (d.entry server now).delay = none ∨
      site = .double ∧ (d.entry server now).delay.double = none := by
  simp only [recordFailure] at h
  split at h
  case h_1 hadd => cases h; exact .inl ⟨rfl, hadd⟩
  case h_2 =>
    split at h
    case h_1 htwice => cases h; exact .inr ⟨rfl, htwice⟩
    case h_2 => cases h

namespace Run

theorem fail_cases (r : Run) (server : Server) (stage : Stage) (now : Instant)
    (rest : List Server) :
    (∃ site, r.daemon.recordFailure server.name now = .error site ∧
      r.fail server stage now rest = { r with phase := .panicked site }) ∨
    ∃ level nextTry daemon, r.daemon.recordFailure server.name now = .ok (level, nextTry, daemon) ∧
      r.fail server stage now rest =
        { r with daemon }.done server (.failed ⟨stage, now, level, nextTry⟩) rest := by
  cases h : r.daemon.recordFailure server.name now with
  | error site => exact .inl ⟨site, rfl, by rw [fail, h]⟩
  | ok x => exact .inr ⟨x.1, x.2.1, x.2.2, rfl, by rw [fail, h]⟩

/-- The steps of the daemon, once the clock is read. -/
inductive Effect (r : Run) : Answer → Run → Prop
  | adopt {ports : Option Snapshot} {dir : StateDir} (hp : r.phase = .starting) :
      Effect r (.adopt ports dir) { r with
        phase := .ticking, daemon := r.daemon.adoptExisting (occupiedPorts ports) (records dir) }
  | prune {ports : Option Snapshot} {phase : Phase} (hp : r.phase = .ticking)
      (hphase : phase = .resting ∨ phase = .browsing) :
      Effect r (.prune ports) { r with phase, daemon := r.daemon.prune ports }
  | noBrowse {now : Instant} {found : Option (List Discovered)} (hp : r.phase = .browsing)
      (hadd : now.add r.daemon.cfg.discovery.mdnsTimeout = none) :
      Effect r (.browse (some now) found) { r with phase := .panicked .browse }
  | browse {now : Option Instant} {found : Option (List Discovered)} {servers : List Server}
      (hp : r.phase = .browsing)
      (hadd : ∀ t, now = some t → t.add r.daemon.cfg.discovery.mdnsTimeout ≠ none) :
      Effect r (.browse now found) { r with phase := .serving servers }
  | endpoints {servers : List Server} (hp : r.phase = .browsing) :
      Effect r .next { r with phase := .serving servers }
  | skip {a : Answer} {server : Server} {rest : List Server}
      (ha : a = .next ∨ ∃ now, a = .check now) (hp : r.phase = .serving (server :: rest)) :
      Effect r a { r with phase := .serving rest }
  | ask {now : Instant} {server : Server} {rest : List Server}
      (hp : r.phase = .serving (server :: rest)) :
      Effect r (.check now) { r with phase := .asking server rest }
  | exhausted (hp : r.phase = .serving []) : Effect r .next { r with phase := .resting }
  | unreachable {now : Instant} {server : Server} {rest : List Server}
      (hp : r.phase = .asking server rest) :
      Effect r (.devlist none now) (r.fail server .devlist now rest)
  | nothing {now : Instant} {devices : List UsbDevice} {server : Server} {rest : List Server}
      (hp : r.phase = .asking server rest) :
      Effect r (.devlist (some devices) now)
        ({ r with daemon := r.daemon.clearFailure server.name }.done server .nothing rest)
  | found {now : Instant} {devices : List UsbDevice} {dev : UsbDevice} {server : Server}
      {rest : List Server} (hp : r.phase = .asking server rest) :
      Effect r (.devlist (some devices) now)
        { r with
          phase := .attaching server dev rest, daemon := r.daemon.clearFailure server.name }
  | refused {before : Option Snapshot} {now : Instant} {server : Server} {dev : UsbDevice}
      {rest : List Server} (hp : r.phase = .attaching server dev rest) :
      Effect r (.usbip before false now) (r.fail server .attach now rest)
  | noSettle {before : Option Snapshot} {now : Instant} {server : Server} {dev : UsbDevice}
      {rest : List Server} (hp : r.phase = .attaching server dev rest) :
      Effect r (.usbip before true now) { r with phase := .panicked .settle }
  | settle {before : Option Snapshot} {now deadline : Instant} {server : Server}
      {dev : UsbDevice} {rest : List Server} (hp : r.phase = .attaching server dev rest) :
      Effect r (.usbip before true now)
        { r with phase := .settling server dev (occupiedPorts before) deadline rest }
  | waiting {now deadline : Instant} {after : Option Snapshot} {before : List UInt32}
      {server : Server} {dev : UsbDevice} {rest : List Server}
      (hp : r.phase = .settling server dev before deadline rest) : Effect r (.poll now after) r
  | attached {now deadline : Instant} {after : Option Snapshot} {before : List UInt32}
      {port : UInt32} {server : Server} {dev : UsbDevice} {rest : List Server} {phase : Phase}
      (hp : r.phase = .settling server dev before deadline rest)
      (hport : newlyUsed before (occupiedPorts after) = some port)
      (hphase : phase = .resting ∨ phase = .serving rest) :
      Effect r (.poll now after) { r with
        phase
        daemon := { r.daemon with attached := r.daemon.attached ++
          [{ server := server.name, host := server.host, busid := dev.busid, port }] }
        log := r.log ++ [⟨server.name, .attached port⟩] }
  | unsettled {now deadline : Instant} {after : Option Snapshot} {before : List UInt32}
      {server : Server} {dev : UsbDevice} {rest : List Server}
      (hp : r.phase = .settling server dev before deadline rest) :
      Effect r (.poll now after) (r.done server .unsettled rest)
  | noNap {now : Instant} (hp : r.phase = .resting)
      (hadd : now.add r.daemon.cfg.attach.pollInterval = none) :
      Effect r (.nap now) { r with phase := .panicked .nap }
  | nap {now wake : Instant} (hp : r.phase = .resting)
      (hadd : now.add r.daemon.cfg.attach.pollInterval = some wake) :
      Effect r (.nap now) { r with phase := .napping wake }
  | wake {now wake : Instant} {phase : Phase} (hp : r.phase = .napping wake)
      (hphase : phase = .ticking ∨ phase = .napping wake) :
      Effect r (.wake now) { r with phase }
  | stop (hp : r.phase = .ticking ∨ r.phase = .resting ∨ ∃ wake, r.phase = .napping wake) :
      Effect r .stop { r with phase := .stopped }

theorem effect_of_advance {r r' : Run} {a : Answer} (h : r.advance a = some r') :
    Effect r a r' := by
  cases a with
  | adopt ports dir =>
    simp only [advance] at h
    split at h
    case h_1 hp => cases h; exact .adopt hp
    case h_2 => cases h
  | prune ports =>
    simp only [advance] at h
    split at h
    case h_1 hp => cases h; exact .prune hp (by split_ifs <;> simp)
    case h_2 => cases h
  | browse now found =>
    simp only [advance] at h
    split at h
    case h_2 => cases h
    case h_1 hp =>
      split_ifs at h
      split at h
      · cases h
        exact .browse hp nofun
      · split at h
        case h_1 hadd => cases h; exact .noBrowse hp hadd
        case h_2 hadd =>
          cases h
          refine .browse hp fun t ht => ?_
          rw [← Option.some.inj ht, hadd]
          exact Option.some_ne_none _
  | check now =>
    simp only [advance] at h
    split at h
    case h_2 => cases h
    case h_1 server rest hp =>
      split_ifs at h
      split at h
      case h_1 b hb =>
        by_cases hdue : now.nanos < b.nextTry.nanos
        · rw [if_pos hdue] at h
          cases h
          exact .skip (.inr ⟨now, rfl⟩) hp
        · rw [if_neg hdue] at h
          cases h
          exact .ask hp
      case h_2 => cases h; exact .ask hp
  | devlist devices now =>
    simp only [advance] at h
    split at h
    case h_2 => cases h
    case h_1 server rest hp =>
      split at h
      · cases h
        exact .unreachable hp
      · split at h
        · cases h
          exact .nothing hp
        · cases h
          exact .found hp
  | usbip before ok now =>
    simp only [advance] at h
    split at h
    case h_2 => cases h
    case h_1 server dev rest hp =>
      cases ok with
      | false => cases h; exact .refused hp
      | true =>
        rw [if_pos rfl] at h
        split at h
        · cases h
          exact .noSettle hp
        · cases h
          exact .settle hp
  | poll now after =>
    simp only [advance] at h
    split at h
    case h_2 => cases h
    case h_1 server dev before deadline rest hp =>
      by_cases hlt : now.nanos < deadline.nanos
      · rw [if_pos hlt] at h
        split at h
        case h_1 => cases h; exact .waiting hp
        case h_2 port hport =>
          split_ifs at h with hstop
          · cases h
            exact .attached hp hport (.inl rfl)
          · cases h
            exact .attached hp hport (.inr rfl)
      · rw [if_neg hlt] at h
        cases h
        exact .unsettled hp
  | nap now =>
    simp only [advance] at h
    split at h
    case h_2 => cases h
    case h_1 hp =>
      split at h
      case h_1 hadd => cases h; exact .noNap hp hadd
      case h_2 hadd => cases h; exact .nap hp hadd
  | wake now =>
    simp only [advance] at h
    split at h
    case h_2 => cases h
    case h_1 wake hp =>
      cases h
      exact .wake hp (by split_ifs <;> simp)
  | stop =>
    simp only [advance] at h
    split at h
    case h_1 hp => cases h; exact .stop (.inl hp)
    case h_2 wake hp => cases h; exact .stop (.inr (.inr ⟨wake, hp⟩))
    case h_3 hp => cases h; exact .stop (.inr (.inl hp))
    case h_4 => cases h
  | next =>
    simp only [advance] at h
    split at h
    case h_1 hp =>
      split_ifs at h
      cases h
      exact .endpoints hp
    case h_2 server rest hp =>
      split_ifs at h
      cases h
      exact .skip (.inl rfl) hp
    case h_3 hp => cases h; exact .exhausted hp
    case h_4 => cases h

/-- A step reads the clock or leaves it, and then has one of the effects. -/
theorem effect_of_step {r r' : Run} {a : Answer} (h : r.step a = some r') :
    ∃ clock, r.clock.nanos ≤ clock.nanos ∧ (∀ now, a.time = some now → clock = now) ∧
      Effect { r with clock } a r' := by
  rw [step] at h
  cases ha : a.time with
  | none =>
    rw [ha] at h
    exact ⟨r.clock, le_rfl, nofun, effect_of_advance h⟩
  | some now =>
    rw [ha] at h
    dsimp only at h
    split_ifs at h with hle
    exact ⟨now, hle, fun _ hnow => Option.some.inj hnow, effect_of_advance h⟩

/-- The run that an evaluated list of answers leads to, under a condition checked along the way. -/
theorem exists_reach (cfg : Config) (clock : Instant) {ok : Run → Answer → Prop}
    {check : Run → Answer → Bool} (hok : ∀ r a, check r a = true → ok r a) (answers : List Answer)
    (p : Run → Bool) (hp : (runIf step check (start cfg clock) answers).any p = true) :
    ∃ r, Reach step (Initial cfg) ok r ∧ p r = true :=
  exists_reach_of_runIf (Initial cfg) hok ⟨clock, rfl⟩ hp

theorem exists_reachable (cfg : Config) (clock : Instant) (answers : List Answer)
    (p : Run → Bool) (hp : (run step (start cfg clock) answers).any p = true) :
    ∃ r, Reachable step (Initial cfg) r ∧ p r = true :=
  exists_reachable_of_run (Initial cfg) ⟨clock, rfl⟩ hp

end Run

/-! ### A server to try -/

/-- A server with the default filter. -/
def deck (name : String) : Server :=
  { name, host := name, port := USBIP_PORT, devices := .default, autoAttach := true }

def controller : UsbDevice := { (default : UsbDevice) with busid := "3-12", idVendor := VALVE_VID }

end Padwire.Attach
