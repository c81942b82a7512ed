import Padwire.Lib.Pool
import Mathlib.Data.Finset.Basic

/-!
# Imports, leases and the toggle

Any number of `import` calls (`usbfwd-server/src/lib.rs`) run beside each other, over a `Gated`
source (`toggle.rs`). They share the `Registry` of bus ids that are leased and the `Toggle` with
the bus ids that are suspended, each behind a lock of its own, so that every lock that is taken is
one step here: reading the list (one look at the toggle for each device of it), taking the lease,
the look at the toggle in `Gated::open`, and later the lease being dropped. In a session the
reaper is a thread of its own, which may fire the chord: it then suspends the bus id. The watcher
and `SIGHUP` take bus ids out of the suspended set whenever they like.

An import is refused, fails or unwinds at any point where the source lets it; the lease is then
dropped by the way out. What the session does besides is `Padwire.Server.Session`. A thread that
serves a session does not unwind while its reaper runs: its loop can only panic on a lock that
the reaper poisoned, and that reaper is over.
-/

namespace Padwire

/-! ### The two shared sets -/

/-- Take the device, or `none` if someone already has it. -/
def Registry.acquire (busy : Finset String) (busid : String) : Option (Finset String) :=
  if busid ∈ busy then none else some (insert busid busy)

/-- Dropping a lease. -/
def Registry.drop (busy : Finset String) (busid : String) : Finset String :=
  busy.erase busid

/-- The two sets that imports share. -/
structure Shared where
  /-- The registry: bus ids that are leased. -/
  busy : Finset String
  /-- The toggle: bus ids withheld from importers. -/
  suspended : Finset String

def Toggle.isSuspended (sh : Shared) (busid : String) : Bool :=
  busid ∈ sh.suspended

def Toggle.suspend (sh : Shared) (busid : String) : Shared :=
  { sh with suspended := insert busid sh.suspended }

def Toggle.resume (sh : Shared) (busid : String) : Shared :=
  { sh with suspended := sh.suspended.erase busid }

def Toggle.resumeAll (sh : Shared) : Shared :=
  { sh with suspended := ∅ }

/-! ### One import -/

namespace Leases

/-- Where the thread of an import is. -/
inductive Pc
  /-- Before the list is read. -/
  | listing
  /-- `Gated::list` filters what the inner source returned: what it still has to look at, and
  whether the bus id asked for was kept. -/
  | filtering (rest : List String) (found : Bool)
  /-- The bus id is on the list. -/
  | listed
  /-- The lease is held. -/
  | leased
  /-- `Gated::open` found the bus id not suspended. -/
  | checked
  | opened
  | claimed
  /-- The success reply is written: `session::run` begins. -/
  | replied
  /-- The reader loop runs, and beside it the reaper. -/
  | reading
  /-- The reader loop is over: waiting for the reaper. -/
  | joining
  /-- On the way out with the lease, after the device was opened or without. -/
  | leaving (opened : Bool)
  | ended
  deriving DecidableEq, Repr

/-- Where the reaper of the session is. -/
inductive ReaperPc
  | unborn
  | looping
  /-- The chord fired: about to suspend the bus id. -/
  | firing
  | over
  deriving DecidableEq, Repr

/-- One import request. -/
structure Import where
  busid : String
  pc : Pc
  reaper : ReaperPc
  /-- The chord of this session has fired: its reaper has suspended the bus id. -/
  fired : Bool
  deriving DecidableEq, Repr

def Import.request (busid : String) : Import :=
  { busid, pc := .listing, reaper := .unborn, fired := false }

/-- The reaper thread exists and is not over. -/
def Import.reaping (x : Import) : Prop :=
  x.reaper = .looping ∨ x.reaper = .firing

instance (x : Import) : Decidable x.reaping :=
  inferInstanceAs (Decidable (_ ∨ _))

/-- The import is between acquiring and dropping its lease. -/
def Import.hasLease (x : Import) : Prop :=
  match x.pc with
  | .listing | .filtering _ _ | .listed | .ended => False
  | _ => True

/-- The session runs: from a successful open until the lease is dropped. -/
def Import.running (x : Import) : Prop :=
  match x.pc with
  | .opened | .claimed | .replied | .reading | .joining | .leaving true => True
  | _ => False

/-- What an import and its reaper do, with what they are answered. -/
inductive Act
  /-- The inner source lists its devices, or fails to. -/
  | list (devices : Option (List String))
  /-- `Gated::list` looks at the next device of the list. -/
  | keep
  | acquire
  /-- `Gated::open` looks at the toggle. -/
  | check
  /-- The inner source opens the device. -/
  | open (ok : Bool)
  | claimAll (ok : Bool)
  | reply (ok : Bool)
  /-- `session::run` starts its threads, or gives up before the reaper exists. -/
  | start (ok : Bool)
  | endReading
  | join
  /-- The thread unwinds. -/
  | unwind
  | dropLease
  /-- The reaper drained the completions and the chord has fired. -/
  | chord
  | suspend
  /-- The reaper loop ends for another reason. -/
  | endReaping
  deriving DecidableEq, Repr

/-- One step of one import. -/
def move (sh : Shared) (x : Import) : Act → Option (Shared × Import)
  | .list devices =>
    if x.pc = .listing then
      match devices with
      | none => some (sh, { x with pc := .ended })
      | some ds => some (sh, { x with pc := .filtering ds false })
    else none
  | .keep =>
    match x.pc with
    | .filtering (d :: ds) found =>
      some (sh, { x with
        pc := .filtering ds (found || (!Toggle.isSuspended sh d && d == x.busid)) })
    | .filtering [] found => some (sh, { x with pc := if found then .listed else .ended })
    | _ => none
  | .acquire =>
    if x.pc = .listed then
      match Registry.acquire sh.busy x.busid with
      | some busy => some ({ sh with busy }, { x with pc := .leased })
      | none => some (sh, { x with pc := .ended })
    else none
  | .check =>
    if x.pc = .leased then
      some (sh, { x with
        pc := if Toggle.isSuspended sh x.busid then .leaving false else .checked })
    else none
  | .open ok =>
    if x.pc = .checked then
      some (sh, { x with pc := if ok then .opened else .leaving false })
    else none
  | .claimAll ok =>
    if x.pc = .opened then
      some (sh, { x with pc := if ok then .claimed else .leaving true })
    else none
  | .reply ok =>
    if x.pc = .claimed then
      some (sh, { x with pc := if ok then .replied else .leaving true })
    else none
  | .start ok =>
    if x.pc = .replied then
      some (sh, if ok then { x with pc := .reading, reaper := .looping }
        else { x with pc := .leaving true })
    else none
  | .endReading => if x.pc = .reading then some (sh, { x with pc := .joining }) else none
  | .join =>
    if x.pc = .joining ∧ x.reaper = .over then some (sh, { x with pc := .leaving true })
    else none
  | .unwind =>
    if x.reaping then none
    else
      match x.pc with
      | .listing | .filtering _ _ | .listed => some (sh, { x with pc := .ended })
      | .leased | .checked => some (sh, { x with pc := .leaving false })
      | .opened | .claimed | .replied | .reading | .joining =>
        some (sh, { x with pc := .leaving true })
      | .leaving _ | .ended => none
  | .dropLease =>
    match x.pc with
    | .leaving _ =>
      some ({ sh with busy := Registry.drop sh.busy x.busid }, { x with pc := .ended })
    | _ => none
  | .chord => if x.reaper = .looping then some (sh, { x with reaper := .firing }) else none
  | .suspend =>
    if x.reaper = .firing then
      some (Toggle.suspend sh x.busid, { x with reaper := .over, fired := true })
    else none
  | .endReaping => if x.reaper = .looping then some (sh, { x with reaper := .over }) else none

/-- How a bus id is put back on offer. -/
inductive Resume
  /-- The watcher saw the chord. -/
  | watcher (busid : String)
  /-- `SIGHUP`. -/
  | hangup
  deriving DecidableEq, Repr

def resume (sh : Shared) : Resume → Shared
  | .watcher busid => Toggle.resume sh busid
  | .hangup => Toggle.resumeAll sh

/-- Any number of imports over a gated source. -/
def imports : Program Shared Import String Act Resume where
  spawn sh busid := some (sh, .request busid)
  move := move
  env sh r := some (resume sh r)

/-- At start-up nothing is leased, nothing is suspended and no import runs. -/
def Initial (p : Pool Shared Import) : Prop :=
  p = ⟨⟨∅, ∅⟩, []⟩

/-! ### What a step does -/

/-- The look at the toggle is behind the import, and the lease is still held. -/
def Import.cleared (x : Import) : Prop :=
  x.pc = .checked ∨ x.running

/-- The import is where its reaper exists. -/
def Import.inSession (x : Import) : Prop :=
  x.pc = .reading ∨ x.pc = .joining

theorem Import.hasLease_of_running {x : Import} (h : x.running) : x.hasLease := by
  unfold running at h
  unfold hasLease
  split at h <;> simp_all

theorem Import.hasLease_of_cleared {x : Import} (h : x.cleared) : x.hasLease := by
  rcases h with h | h
  · simp [hasLease, h]
  · exact hasLease_of_running h

theorem Import.running_of_inSession {x : Import} (h : x.inSession) : x.running := by
  rcases h with h | h <;> simp [running, h]

variable {sh sh' : Shared} {x x' : Import} {a : Act}

/-- The steps of an import: four kinds of them touch what is shared or look at it, the others
only move on. -/
inductive Effect (sh : Shared) (x : Import) : Shared → Import → Prop
  | quiet {x' : Import} (hbusid : x'.busid = x.busid) (hfired : x'.fired = x.fired)
      (hlease : x'.hasLease → x.hasLease) (hcleared : x'.cleared → x.cleared)
      (hreaper : (x.reaping → x.inSession) → x'.reaping → x'.inSession) : Effect sh x sh x'
  | acquired (hpc : x.pc = .listed) (hfree : x.busid ∉ sh.busy) :
      Effect sh x { sh with busy := insert x.busid sh.busy } { x with pc := .leased }
  | checked (hpc : x.pc = .leased) (hoffer : x.busid ∉ sh.suspended) :
      Effect sh x sh { x with pc := .checked }
  | dropped {opened : Bool} (hpc : x.pc = .leaving opened) :
      Effect sh x { sh with busy := sh.busy.erase x.busid } { x with pc := .ended }
  | suspended (hfiring : x.reaper = .firing) :
      Effect sh x (Toggle.suspend sh x.busid) { x with reaper := .over, fired := true }

/-- A step that only changes where the import is. -/
theorem Effect.goto {pc : Pc} (hlease : Import.hasLease { x with pc } → x.hasLease)
    (hcleared : Import.cleared { x with pc } → x.cleared)
    (hreaper : x.inSession → x.reaping → pc = .reading ∨ pc = .joining) :
    Effect sh x sh { x with pc } :=
  .quiet rfl rfl hlease hcleared fun hr h => hreaper (hr h) h

theorem effect_of_move (h : move sh x a = some (sh', x')) : Effect sh x sh' x' := by
  cases a with
  | acquire =>
    simp only [move, Registry.acquire] at h
    split_ifs at h with hpc hbusy
    · cases h
      exact .goto (by simp [Import.hasLease]) (by simp [Import.cleared, Import.running])
        (by simp [Import.inSession, hpc])
    · cases h
      exact .acquired hpc hbusy
  | check =>
    simp only [move, Toggle.isSuspended, decide_eq_true_eq] at h
    split_ifs at h with hpc hsus
    · cases h
      exact .goto (by simp [Import.hasLease, hpc]) (by simp [Import.cleared, Import.running])
        (by simp [Import.inSession, hpc])
    · cases h
      exact .checked hpc hsus
  | dropLease =>
    simp only [move] at h
    split at h
    · cases h
      exact .dropped ‹_›
    · cases h
  | suspend =>
    simp only [move] at h
    split_ifs at h with hfiring
    cases h
    exact .suspended hfiring
  | start ok =>
    simp only [move] at h
    split_ifs at h with hpc hok
    · cases h
      exact .quiet rfl rfl (by simp [Import.hasLease, hpc])
        (by simp [Import.cleared, Import.running, hpc]) (by simp [Import.inSession])
    · cases h
      exact .goto (by simp [Import.hasLease, hpc]) (by simp [Import.cleared, Import.running, hpc])
        (by simp [Import.inSession, hpc])
  | _ =>
    -- the others change where the import or its reaper is, and nothing that is shared
    simp only [move] at h
    repeat' split at h
    all_goals first
      | cases h; done
      | (cases h
         refine .quiet rfl rfl ?_ ?_ ?_
         all_goals simp_all [Import.hasLease, Import.cleared, Import.running, Import.inSession,
           Import.reaping])

/-! ### The invariant -/

/-- What holds of each import: its lease is in the registry, its bus id is not suspended once
`Gated::open` has looked, unless its own chord did it, and its reaper lives within the session. -/
structure Fine (sh : Shared) (x : Import) : Prop where
  lease : x.hasLease → x.busid ∈ sh.busy
  offer : x.cleared → x.fired = false → x.busid ∉ sh.suspended
  reaper : x.reaping → x.inSession

/-- No two imports have a lease on one bus id. -/
def Apart (x y : Import) : Prop :=
  x.hasLease → y.hasLease → x.busid ≠ y.busid

theorem fine_request (sh : Shared) (busid : String) : Fine sh (.request busid) where
  lease h := absurd h (by simp [Import.hasLease, Import.request])
  offer h := absurd h (by simp [Import.cleared, Import.running, Import.request])
  reaper h := absurd h (by simp [Import.reaping, Import.request])

/-- An import that moves keeps what holds of it. -/
theorem Effect.fine (h : Effect sh x sh' x') (hx : Fine sh x) : Fine sh' x' := by
  cases h with
  | quiet hbusid hfired hlease hcleared hreaper =>
    refine ⟨fun h => ?_, fun h hf => ?_, hreaper hx.reaper⟩
    · rw [hbusid]
      exact hx.lease (hlease h)
    · rw [hbusid]
      exact hx.offer (hcleared h) (hfired ▸ hf)
  | acquired hpc hfree =>
    refine ⟨fun _ => Finset.mem_insert_self _ _, fun h => ?_, fun h => ?_⟩
    · simp [Import.cleared, Import.running] at h
    · have := hx.reaper h
      simp [Import.inSession, hpc] at this
  | checked hpc hoffer =>
    refine ⟨fun _ => hx.lease (by simp [Import.hasLease, hpc]), fun _ _ => hoffer, fun h => ?_⟩
    have := hx.reaper h
    simp [Import.inSession, hpc] at this
  | dropped hpc =>
    refine ⟨fun h => ?_, fun h => ?_, fun h => ?_⟩
    · simp [Import.hasLease] at h
    · simp [Import.cleared, Import.running] at h
    · have := hx.reaper h
      simp [Import.inSession, hpc] at this
  | suspended hfiring =>
    have hsession : x.inSession := hx.reaper (.inr hfiring)
    refine ⟨fun _ => hx.lease ?_, fun _ hf => (by cases hf), fun h => ?_⟩
    · exact Import.hasLease_of_running (Import.running_of_inSession hsession)
    · simp [Import.reaping] at h

/-- An import that moves keeps what holds of another one. Only a lease holder suspends its bus
id or drops it from the registry, and no other import holds a lease on that one. -/
theorem Effect.fine_other (h : Effect sh x sh' x') (hx : Fine sh x) {t : Import} (ht : Fine sh t)
    (hxt : Apart x t) : Fine sh' t := by
  cases h with
  | quiet _ _ _ _ _ => exact ht
  | acquired _ _ => exact ⟨fun h => Finset.mem_insert_of_mem (ht.lease h), ht.offer, ht.reaper⟩
  | checked _ _ => exact ht
  | dropped hpc =>
    have hlease : x.hasLease := by simp [Import.hasLease, hpc]
    refine ⟨fun h => ?_, ht.offer, ht.reaper⟩
    exact Finset.mem_erase.mpr ⟨(hxt hlease h).symm, ht.lease h⟩
  | suspended hfiring =>
    have hlease : x.hasLease :=
      Import.hasLease_of_running (Import.running_of_inSession (hx.reaper (.inr hfiring)))
    refine ⟨ht.lease, fun h hf hmem => ?_, ht.reaper⟩
    rcases Finset.mem_insert.mp hmem with heq | hmem
    · exact hxt hlease (Import.hasLease_of_cleared h) heq.symm
    · exact ht.offer h hf hmem

/-- An import that moves stays apart from another one: it only gets a lease on a bus id that is
not in the registry. -/
theorem Effect.apart (h : Effect sh x sh' x') {t : Import} (ht : Fine sh t) (hxt : Apart x t) :
    Apart x' t := by
  cases h with
  | quiet hbusid _ hlease _ _ =>
    intro hx' htl
    rw [hbusid]
    exact hxt (hlease hx') htl
  | acquired _ hfree =>
    intro _ htl heq
    exact hfree (heq ▸ ht.lease htl)
  | checked hpc _ => exact fun _ => hxt (by simp [Import.hasLease, hpc])
  | dropped _ => exact fun h => absurd h (by simp [Import.hasLease])
  | suspended _ => exact hxt

theorem Fine.resume {t : Import} (ht : Fine sh t) (r : Resume) : Fine (resume sh r) t := by
  cases r with
  | watcher busid =>
    exact ⟨ht.lease, fun h hf hmem => ht.offer h hf (Finset.mem_of_mem_erase hmem), ht.reaper⟩
  | hangup => exact ⟨ht.lease, fun _ _ hmem => absurd hmem (Finset.notMem_empty _), ht.reaper⟩

variable {p : Pool Shared Import}

theorem holds_of_reachable (h : Reachable imports.step Initial p) :
    p.Holds (fun _ => True) Fine Apart := by
  refine Program.invariant (fun h hu ht => (h ht hu).symm) ?_ ?_ ?_ ?_ h
  · rintro _ rfl
    exact ⟨trivial, by simp, by simp⟩
  · intro s busid s' x _ hs
    cases hs
    refine ⟨trivial, fine_request _ _, fun t ht => ⟨ht, fun hx => ?_⟩⟩
    simp [Import.hasLease, Import.request] at hx
  · intro s x a s' x' _ hx hmove
    have heff := effect_of_move hmove
    exact ⟨trivial, heff.fine hx, fun t ht hxt => ⟨heff.fine_other hx ht hxt, heff.apart ht hxt⟩⟩
  · intro p r s' hp _ hs
    cases hs
    exact ⟨trivial, fun i t ht => (hp.each i t ht).resume r⟩

/-- **One lease, and nothing suspended runs.** In every state that any interleaving of imports,
session ends, chords and resumes reaches, at most one import has a lease on a bus id, and the bus
id of a session whose own chord has not fired is not suspended. -/
theorem lease_unique_and_running_on_offer (h : Reachable imports.step Initial p) :
    (∀ (i j : ℕ) x y, p.threads[i]? = some x → p.threads[j]? = some y → x.busid = y.busid →
      x.hasLease → y.hasLease → i = j) ∧
    ∀ (i : ℕ) x, p.threads[i]? = some x → x.running → x.fired = false →
      x.busid ∉ p.shared.suspended := by
  have hp := holds_of_reachable h
  constructor
  · intro i j x y hx hy hbusid hxl hyl
    by_contra hij
    exact hp.apart i j x y hx hy hij hxl hyl hbusid
  · intro i x hx hrun hfired
    exact (hp.each i x hx).offer (.inr hrun) hfired

/-- The import of a given number, from its list to a running session. -/
def serve (i : ℕ) (busid : String) : List (Move String Act Resume) :=
  .spawn busid :: ([.list (some [busid]), .keep, .keep, .acquire, .check, .open true,
    .claimAll true, .reply true, .start true] : List Act).map (.act i)

/-- Two sessions run; the chord of the second fires, and a third import of the first one's bus id
comes to nothing. -/
def twoSessions : List (Move String Act Resume) :=
  serve 0 "1-2" ++ serve 1 "1-3" ++ [.act 1 .chord, .act 1 .suspend, .spawn "1-2",
    .act 2 (.list (some ["1-2"])), .act 2 .keep, .act 2 .keep, .act 2 .acquire]

theorem lease_unique_and_running_on_offer_two : ∃ p, Reachable imports.step Initial p ∧
    p.shared.suspended = {"1-3"} ∧
    p.threads = [⟨"1-2", .reading, .looping, false⟩, ⟨"1-3", .reading, .over, true⟩,
      ⟨"1-2", .ended, .unborn, false⟩] ∧ "1-2" ∉ p.shared.suspended := by
  obtain ⟨p, hp, hpool⟩ := imports.exists_reachable (p := ⟨⟨∅, ∅⟩, []⟩)
    (show Initial _ from rfl) twoSessions
    (fun p => p.shared.suspended = {"1-3"} && p.threads =
      [⟨"1-2", .reading, .looping, false⟩, ⟨"1-3", .reading, .over, true⟩,
        ⟨"1-2", .ended, .unborn, false⟩]) (by decide +kernel)
  rw [Bool.and_eq_true, decide_eq_true_eq, decide_eq_true_eq] at hpool
  have hsafe := (lease_unique_and_running_on_offer hp).2 0 ⟨"1-2", .reading, .looping, false⟩
    (by rw [hpool.2]; rfl) trivial rfl
  exact ⟨p, hp, hpool.1, hpool.2, hsafe⟩

end Leases

end Padwire
