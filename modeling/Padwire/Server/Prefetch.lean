import Padwire.Backend.Usbfs

/-!
# Keeping an interrupt IN URB queued

The prefetcher (`usbfwd-server/src/prefetch.rs`): per interrupt IN endpoint, an internal URB in
flight, a short buffer of captured reports, and at most one client submit waiting for the next
report. All of it sits behind one mutex, so each operation is one atomic step; the backend it
calls while holding that mutex is a parameter.

The operations are built from what they do to one endpoint (`Endpoint.take`,
`Endpoint.deliver`, `Endpoint.submitted`), and each is described once: an operation that
touches an endpoint rewrites that endpoint alone, and then arms it (`ArmEffect`). The
specifications `take_spec`, `deliver_spec` and `unlink_spec` say this, and every invariant of
the prefetcher and of the session is derived from them.
-/

namespace Padwire

/-- Internal URBs get seqnums from here up. -/
def INTERNAL_BASE : UInt32 := 0x80000000

/-- How many captured reports to hold per endpoint before dropping. -/
def DEPTH : ℕ := 4

/-- Give up on an endpoint after this many consecutive failed prefetches. -/
def MAX_CONSECUTIVE_ERRORS : ℕ := 8

inductive Take
  /-- A captured report is ready; answer the client with it now. -/
  | ready (data : Bytes)
  /-- Nothing captured yet; the client's seqnum is registered. -/
  | waiting
  /-- Not a prefetched endpoint. Submit it the ordinary way. -/
  | passThrough
  deriving DecidableEq, Repr

structure Waiter where
  seqnum : UInt32
  maxLen : ℕ
  deriving DecidableEq, Repr

structure Endpoint where
  /-- Endpoint number without the direction bit, as `submit` wants it. -/
  number : UInt8
  maxPacket : ℕ
  /-- Seqnum of the internal URB in flight, if any. -/
  inFlight : Option UInt32
  captured : List Bytes
  /-- A client submit that arrived with nothing captured. -/
  waiting : Option Waiter
  errors : ℕ
  /-- Set once this endpoint has given up; it then behaves as pass-through. -/
  disabled : Bool
  deriving DecidableEq, Repr

structure Inner where
  eps : Table UInt8 Endpoint
  nextSeqnum : UInt32

structure Prefetch where
  inner : Option Inner

/-- What the reaper owes a client after an internal completion. -/
structure Delivery where
  reply : Option (UInt32 × Int32 × Bytes)
  deriving DecidableEq, Repr

/-! ### One endpoint -/

namespace Endpoint

/-- An endpoint before its first URB. -/
def fresh (address : UInt8) (maxPacket : UInt16) : Endpoint where
  number := address &&& 0x0f
  maxPacket := maxPacket.toNat
  inFlight := none
  captured := []
  waiting := none
  errors := 0
  disabled := false

/-- The internal URB that `arm_one` submits. -/
def request (ep : Endpoint) (address : UInt8) (seqnum : UInt32) : UrbRequest where
  seqnum
  ep := ep.number
  dir := .in
  transferFlags := 0
  setup := .zero
  bufferLength := ep.maxPacket
  data := []
  origin := .prefetch address

/-- The endpoint after its internal URB was submitted with this result. -/
def submitted (ep : Endpoint) (seqnum : UInt32) : Except SubmitError Unit → Endpoint
  | .ok () => { ep with inFlight := some seqnum }
  | .error (.urb _) =>
    { ep with
      errors := ep.errors + 1
      disabled := ep.disabled || MAX_CONSECUTIVE_ERRORS ≤ ep.errors + 1 }
  -- answered without a URB: nothing is in flight, and it does not count as an error
  | .error (.handled _) => ep
  | .error (.fatal _) => { ep with disabled := true }

/-- A client submit on an enabled endpoint: the oldest captured report, or registration.

Only one client submit is kept per endpoint. If a second arrives the first is taken to be
stale, and the newer one is answered. -/
def take (ep : Endpoint) (seqnum : UInt32) (maxLen : ℕ) : Take × Endpoint :=
  match ep.captured with
  | data :: rest => (.ready (data.take maxLen), { ep with captured := rest })
  | [] => (.waiting, { ep with waiting := some { seqnum, maxLen } })

/-- The captured reports after one more has landed: a full buffer drops its oldest. -/
def push (captured : List Bytes) (data : Bytes) : List Bytes :=
  (if captured.length = DEPTH then captured.tail else captured) ++ [data]

/-- The internal URB of an endpoint completed: what a waiting client is owed, and the endpoint
before it is armed again. -/
def deliver (ep : Endpoint) (status : Int32) (data : Bytes) :
    Option (UInt32 × Int32 × Bytes) × Endpoint :=
  if status ≠ 0 then
    -- a waiting client is handed the error: its own submit would have seen it too
    let gaveUp : Bool := MAX_CONSECUTIVE_ERRORS ≤ ep.errors + 1
    (ep.waiting.map fun w => (w.seqnum, status, []),
      { ep with
        inFlight := none
        errors := ep.errors + 1
        waiting := none
        disabled := ep.disabled || gaveUp
        captured := if gaveUp then [] else ep.captured })
  else match ep.waiting with
    | some w =>
      (some (w.seqnum, 0, data.take w.maxLen),
        { ep with inFlight := none, errors := 0, waiting := none })
    | none =>
      (none, { ep with inFlight := none, errors := 0, captured := push ep.captured data })

/-- The endpoint after `shutdown`. -/
def shutdown (ep : Endpoint) : Endpoint :=
  { ep with disabled := true, waiting := none, captured := [], inFlight := none }

/-- This client seqnum waits on the endpoint. -/
def waitsFor (seqnum : UInt32) (ep : Endpoint) : Bool :=
  ep.waiting.any fun w => w.seqnum = seqnum

theorem waitsFor_eq {ep ep' : Endpoint} (h : ep'.waiting = ep.waiting) {seqnum : UInt32} :
    ep'.waitsFor seqnum = ep.waitsFor seqnum := by
  rw [waitsFor, h, waitsFor]

@[simp]
theorem waiting_submitted (ep : Endpoint) (s : UInt32) (r : Except SubmitError Unit) :
    (ep.submitted s r).waiting = ep.waiting := by
  rcases r with (e | e | e) | u <;> rfl

@[simp]
theorem captured_submitted (ep : Endpoint) (s : UInt32) (r : Except SubmitError Unit) :
    (ep.submitted s r).captured = ep.captured := by
  rcases r with (e | e | e) | u <;> rfl

theorem inFlight_submitted_error (ep : Endpoint) (s : UInt32) (e : SubmitError) :
    (ep.submitted s (.error e)).inFlight = ep.inFlight := by
  rcases e with e | e | e <;> rfl

/-- `deliver` returns the waiter of its endpoint, if there is one, and clears it. -/
theorem deliver_waiting (ep : Endpoint) (status : Int32) (data : Bytes) :
    (ep.deliver status data).1.map Prod.fst = ep.waiting.map Waiter.seqnum ∧
      (ep.deliver status data).2.waiting = none := by
  unfold deliver
  cases ep.waiting with
  | none => split_ifs <;> simp
  | some w => split_ifs <;> simp

/-- An endpoint that has given up stays so. -/
theorem deliver_disabled (ep : Endpoint) (status : Int32) (data : Bytes)
    (h : ep.disabled = true) : (ep.deliver status data).2.disabled = true := by
  unfold deliver
  cases ep.waiting with
  | none => split_ifs <;> simp [h]
  | some w => split_ifs <;> simp [h]

/-- The URB that was in flight is not any more. -/
theorem deliver_inFlight (ep : Endpoint) (status : Int32) (data : Bytes) :
    (ep.deliver status data).2.inFlight = none := by
  unfold deliver
  cases ep.waiting with
  | none => split_ifs <;> rfl
  | some w => split_ifs <;> rfl

/-- The reply that `deliver` returns is for the waiter, and no longer than it asked for. -/
theorem deliver_reply {ep : Endpoint} {status status' : Int32} {data data' : Bytes} {s : UInt32}
    (h : (ep.deliver status data).1 = some (s, status', data')) :
    ∃ w, ep.waiting = some w ∧ w.seqnum = s ∧ data'.length ≤ w.maxLen := by
  unfold deliver at h
  cases hw : ep.waiting with
  | none =>
    simp only [hw, Option.map_none] at h
    split_ifs at h
  | some w =>
    simp only [hw, Option.map_some] at h
    refine ⟨w, rfl, ?_⟩
    by_cases hstatus : status ≠ 0
    · rw [if_pos hstatus] at h
      cases h
      exact ⟨rfl, Nat.zero_le _⟩
    · rw [if_neg hstatus] at h
      cases h
      exact ⟨rfl, List.length_take_le w.maxLen data⟩

end Endpoint

/-! ### The operations -/

/-- The internal seqnum after this one; it wraps back into the internal range. -/
def nextInternal (seqnum : UInt32) : UInt32 :=
  if seqnum + 1 < INTERNAL_BASE then INTERNAL_BASE else seqnum + 1

/-- The internal range is closed under counting on. -/
theorem base_le_nextInternal (seqnum : UInt32) : INTERNAL_BASE ≤ nextInternal seqnum := by
  unfold nextInternal
  split_ifs with h
  · exact UInt32.le_refl _
  · exact UInt32.not_lt.mp h

namespace Inner

variable {δ : Type} (dev : UsbBackend δ)

/-- Rewrite one endpoint in place. -/
def set (inner : Inner) (address : UInt8) (ep : Endpoint) : Inner :=
  { inner with eps := inner.eps.replace address ep }

/-- Submit an internal URB on an endpoint that is enabled and has none in flight.

It is armed even with the buffer full: a full buffer drops its oldest report when the next one
lands. -/
def armOne (address : UInt8) (inner : Inner) (d : δ) : Inner × δ :=
  match inner.eps.lookup address with
  | none => (inner, d)
  | some ep =>
    if ep.disabled || ep.inFlight.isSome then (inner, d)
    else
      let (r, d') := dev.submit (ep.request address inner.nextSeqnum) d
      ({ eps := inner.eps.replace address (ep.submitted inner.nextSeqnum r)
         nextSeqnum :=
          match r with
          | .ok () => nextInternal inner.nextSeqnum
          | .error _ => inner.nextSeqnum }, d')

/-- The endpoint whose internal URB in flight has this seqnum, first in iteration order. -/
def owner (inner : Inner) (seqnum : UInt32) : Option UInt8 :=
  Table.findKey? (fun ep => ep.inFlight = some seqnum) inner.eps

/-- The endpoint on which this client seqnum waits, first in iteration order. -/
def waitsOn (inner : Inner) (seqnum : UInt32) : Option UInt8 :=
  Table.findKey? (Endpoint.waitsFor seqnum) inner.eps

end Inner

namespace Prefetch

variable {δ : Type} (dev : UsbBackend δ)

/-- Every endpoint is pass-through and no internal URBs exist. -/
def disabled : Prefetch := { inner := none }

/-- A prefetcher for these interrupt IN endpoints. The order in which they are listed stands
for the iteration order of the map that holds them. -/
def new (endpoints : List (UInt8 × UInt16)) (enabled : Bool) : Prefetch :=
  if !enabled then disabled
  else if endpoints = [] then disabled
  else
    { inner := some
        { eps := endpoints.foldl (fun t e => AList.insert e.1 (Endpoint.fresh e.1 e.2) t) ∅
          nextSeqnum := INTERNAL_BASE } }

/-- The prefetcher takes this seqnum for one of its own. -/
def owns (seqnum : UInt32) : Bool := INTERNAL_BASE ≤ seqnum

/-- Submit an internal URB on every endpoint that has none in flight. -/
def arm (p : Prefetch) (d : δ) : Prefetch × δ :=
  match p.inner with
  | none => (p, d)
  | some inner =>
    let (inner', d') :=
      inner.eps.keys.foldl (fun s address => Inner.armOne dev address s.1 s.2) (inner, d)
    ({ inner := some inner' }, d')

/-- A client submit arrived on an endpoint address. Answer it, register it, or say that the
endpoint is not ours; then arm the endpoint if nothing is in flight. -/
def take (p : Prefetch) (address : UInt8) (seqnum : UInt32) (maxLen : ℕ) (d : δ) :
    Take × Prefetch × δ :=
  match p.inner with
  | none => (.passThrough, p, d)
  | some inner =>
    match inner.eps.lookup address with
    | none => (.passThrough, p, d)
    | some ep =>
      if ep.disabled then (.passThrough, p, d)
      else
        let (take, ep') := ep.take seqnum maxLen
        let (inner', d') :=
          Inner.armOne dev address (inner.set address ep') d
        (take, { inner := some inner' }, d')

/-- An internal URB completed. Returns what the reaper owes the client, and arms the endpoint
again. -/
def deliver (p : Prefetch) (seqnum : UInt32) (status : Int32) (data : Bytes) (d : δ) :
    Delivery × Prefetch × δ :=
  match p.inner with
  | none => ({ reply := none }, p, d)
  | some inner =>
    match inner.owner seqnum with
    | none => ({ reply := none }, p, d)
    | some address =>
      match inner.eps.lookup address with
      | none => ({ reply := none }, p, d)
      | some ep =>
        let (reply, ep') := ep.deliver status data
        let (inner', d') :=
          Inner.armOne dev address (inner.set address ep') d
        ({ reply }, { inner := some inner' }, d')

/-- Drop a registered waiter, for `USBIP_CMD_UNLINK`. -/
def unlink (p : Prefetch) (seqnum : UInt32) : Bool × Prefetch :=
  match p.inner with
  | none => (false, p)
  | some inner =>
    match inner.waitsOn seqnum with
    | none => (false, p)
    | some address =>
      match inner.eps.lookup address with
      | none => (false, p)
      | some ep => (true, { inner := some (inner.set address { ep with waiting := none }) })

/-- Cancel the internal URBs and disable every endpoint. -/
def shutdown (p : Prefetch) (d : δ) : Prefetch × δ :=
  match p.inner with
  | none => (p, d)
  | some inner =>
    ({ inner := some { inner with eps := Table.mapValues Endpoint.shutdown inner.eps } },
      inner.eps.entries.foldl (fun d e =>
        match e.2.inFlight with
        | some s => (dev.unlink s d).2
        | none => d) d)

end Prefetch

/-! ### What arming can do -/

section Specs

variable {δ : Type} {dev : UsbBackend δ}

/-- Everything that arming one endpoint can do: to the endpoint, to the internal counter and to
the device. -/
inductive ArmEffect (dev : UsbBackend δ) (address : UInt8) (ep : Endpoint) (next : UInt32)
    (d : δ) : Endpoint → UInt32 → δ → Prop
  | idle : ep.disabled = true ∨ ep.inFlight.isSome → ArmEffect dev address ep next d ep next d
  | accepted {d' : δ} : ep.disabled = false → ep.inFlight = none →
      dev.submit (ep.request address next) d = (.ok (), d') →
      ArmEffect dev address ep next d { ep with inFlight := some next } (nextInternal next) d'
  | refused {e : SubmitError} {d' : δ} : ep.disabled = false → ep.inFlight = none →
      dev.submit (ep.request address next) d = (.error e, d') →
      ArmEffect dev address ep next d (ep.submitted next (.error e)) next d'

namespace ArmEffect

variable {address : UInt8} {ep ep' : Endpoint} {next next' : UInt32} {d d' : δ}

theorem waiting_eq (h : ArmEffect dev address ep next d ep' next' d') :
    ep'.waiting = ep.waiting := by
  cases h with
  | idle _ => rfl
  | accepted _ _ _ => rfl
  | refused _ _ _ => exact ep.waiting_submitted _ _

theorem captured_eq (h : ArmEffect dev address ep next d ep' next' d') :
    ep'.captured = ep.captured := by
  cases h with
  | idle _ => rfl
  | accepted _ _ _ => rfl
  | refused _ _ _ => exact ep.captured_submitted _ _

end ArmEffect

theorem Inner.armOne_spec (dev : UsbBackend δ) {inner : Inner} {address : UInt8} {ep : Endpoint}
    (h : inner.eps.lookup address = some ep) (d : δ) :
    ∃ ep' next' d', ArmEffect dev address ep inner.nextSeqnum d ep' next' d' ∧
      inner.armOne dev address d =
        ({ eps := inner.eps.replace address ep', nextSeqnum := next' }, d') := by
  simp only [Inner.armOne, h]
  split_ifs with hidle
  -- nothing to arm: the endpoint is written back as it was
  · have hself : inner.eps.replace address ep = inner.eps := Table.replace_self h
    rw [Bool.or_eq_true] at hidle
    exact ⟨ep, inner.nextSeqnum, d, .idle hidle, by rw [hself]⟩
  · rw [Bool.or_eq_true, not_or, Bool.not_eq_true, Bool.not_eq_true,
      Option.isSome_eq_false_iff, Option.isNone_iff_eq_none] at hidle
    cases hr : dev.submit (ep.request address inner.nextSeqnum) d with
    | mk r d' =>
      cases r with
      | error e => exact ⟨_, _, d', .refused hidle.1 hidle.2 hr, by simp only [hr]⟩
      | ok u => exact ⟨_, _, d', .accepted hidle.1 hidle.2 hr, by simp only [hr]; rfl⟩

/-- Rewriting an endpoint and then arming it rewrites that endpoint alone. -/
private theorem armOne_replace (dev : UsbBackend δ) {inner : Inner} {address : UInt8}
    {ep : Endpoint} (h : inner.eps.lookup address = some ep) (ep₁ : Endpoint) (d : δ) :
    ∃ ep₂ next' d', ArmEffect dev address ep₁ inner.nextSeqnum d ep₂ next' d' ∧
      Inner.armOne dev address (inner.set address ep₁) d =
        ({ eps := inner.eps.replace address ep₂, nextSeqnum := next' }, d') := by
  have hlook : (inner.set address ep₁).eps.lookup address = some ep₁ :=
    Table.lookup_replace_self (Table.mem_of_lookup h)
  obtain ⟨ep₂, next', d', heff, heq⟩ := Inner.armOne_spec dev hlook d
  refine ⟨ep₂, next', d', heff, ?_⟩
  rw [heq, Inner.set, Table.replace_replace]

namespace Prefetch

/-! ### The prefetcher seen from outside -/

/-- The endpoint an address names, if it is prefetched. -/
def ep? (p : Prefetch) (address : UInt8) : Option Endpoint :=
  p.inner.bind fun inner => inner.eps.lookup address

/-- The seqnum the next internal URB gets. -/
def next (p : Prefetch) : UInt32 := p.inner.elim INTERNAL_BASE Inner.nextSeqnum

/-- The endpoint whose internal URB in flight has this seqnum. -/
def owner? (p : Prefetch) (seqnum : UInt32) : Option UInt8 :=
  p.inner.bind fun inner => inner.owner seqnum

/-- The endpoint on which this client seqnum waits. -/
def waitsOn? (p : Prefetch) (seqnum : UInt32) : Option UInt8 :=
  p.inner.bind fun inner => inner.waitsOn seqnum

/-- On how many endpoints this client seqnum waits. -/
def waiters (p : Prefetch) (seqnum : UInt32) : ℕ :=
  p.inner.elim 0 fun inner => Table.countValues (Endpoint.waitsFor seqnum) inner.eps

/-- The prefetcher with one endpoint rewritten and the counter moved. -/
def put (p : Prefetch) (address : UInt8) (ep : Endpoint) (next : UInt32) : Prefetch where
  inner := p.inner.map fun inner =>
    { eps := inner.eps.replace address ep, nextSeqnum := next }

theorem ep?_put {p : Prefetch} {address : UInt8} {ep : Endpoint} (h : p.ep? address = some ep)
    (ep' : Endpoint) (next : UInt32) (b : UInt8) :
    (p.put address ep' next).ep? b = if b = address then some ep' else p.ep? b := by
  unfold ep? at h ⊢
  obtain ⟨inner, hp, hep⟩ := Option.bind_eq_some_iff.mp h
  simp only [put, hp, Option.map_some, Option.bind_some]
  exact Table.lookup_replace (Table.mem_of_lookup hep) b ep'

theorem next_put {p : Prefetch} {address : UInt8} {ep : Endpoint} (h : p.ep? address = some ep)
    (ep' : Endpoint) (next : UInt32) : (p.put address ep' next).next = next := by
  obtain ⟨inner, hp, -⟩ := Option.bind_eq_some_iff.mp h
  simp only [put, Prefetch.next, hp, Option.map_some, Option.elim_some]

/-- Rewriting an endpoint changes the number of waiters by what that endpoint held. -/
theorem waiters_put {p : Prefetch} {address : UInt8} {ep : Endpoint}
    (h : p.ep? address = some ep) (ep' : Endpoint) (next s : UInt32) :
    (p.put address ep' next).waiters s + (if ep.waitsFor s then 1 else 0) =
      p.waiters s + (if ep'.waitsFor s then 1 else 0) := by
  obtain ⟨inner, hp, hep⟩ := Option.bind_eq_some_iff.mp h
  simp only [put, waiters, hp, Option.map_some, Option.elim_some]
  exact Table.countValues_replace (Endpoint.waitsFor s) hep ep'

theorem waiters_put_of_waiting_eq {p : Prefetch} {address : UInt8} {ep ep' : Endpoint}
    (h : p.ep? address = some ep) (hwait : ep'.waiting = ep.waiting) (next s : UInt32) :
    (p.put address ep' next).waiters s = p.waiters s := by
  have hput := waiters_put h ep' next s
  rwa [Endpoint.waitsFor_eq hwait, Nat.add_right_cancel_iff] at hput

theorem exists_of_waiters_pos {p : Prefetch} {s : UInt32} (h : 0 < p.waiters s) :
    ∃ address ep, p.ep? address = some ep ∧ ep.waitsFor s = true := by
  unfold waiters at h
  unfold ep?
  cases hp : p.inner with
  | none => simp [hp] at h
  | some inner =>
    rw [hp] at h
    exact Table.exists_of_countValues_pos h

/-- **Take.** Either the endpoint is not ours and nothing happens, or the endpoint answers and
is then armed. -/
theorem take_spec (dev : UsbBackend δ) (p : Prefetch) (address : UInt8) (seqnum : UInt32)
    (maxLen : ℕ) (d : δ) :
    ((∀ ep, p.ep? address = some ep → ep.disabled = true) ∧
        p.take dev address seqnum maxLen d = (.passThrough, p, d)) ∨
      ∃ ep ep' next' d', p.ep? address = some ep ∧ ep.disabled = false ∧
        ArmEffect dev address (ep.take seqnum maxLen).2 p.next d ep' next' d' ∧
        p.take dev address seqnum maxLen d =
          ((ep.take seqnum maxLen).1, p.put address ep' next', d') := by
  unfold take ep? put Prefetch.next
  cases hp : p.inner with
  | none => exact .inl ⟨by simp, rfl⟩
  | some inner =>
    simp only [Option.bind_some]
    cases hep : inner.eps.lookup address with
    | none => exact .inl ⟨by simp, rfl⟩
    | some ep =>
      dsimp only
      split_ifs with hdis
      · exact .inl ⟨by simp [hdis], rfl⟩
      · obtain ⟨ep', next', d', heff, heq⟩ :=
          armOne_replace dev hep (ep.take seqnum maxLen).2 d
        exact .inr ⟨ep, ep', next', d', rfl, by simpa using hdis, heff, by rw [heq]; rfl⟩

/-- **Deliver.** Either no endpoint has this URB in flight and nothing happens, or the endpoint
that has it takes the completion and is then armed. -/
theorem deliver_spec (dev : UsbBackend δ) (p : Prefetch) (seqnum : UInt32) (status : Int32)
    (data : Bytes) (d : δ) :
    ((∀ address ep, p.ep? address = some ep → ep.inFlight ≠ some seqnum) ∧
        p.owner? seqnum = none ∧
        p.deliver dev seqnum status data d = ({ reply := none }, p, d)) ∨
      ∃ address ep ep' next' d', p.owner? seqnum = some address ∧
        p.ep? address = some ep ∧ ep.inFlight = some seqnum ∧
        ArmEffect dev address (ep.deliver status data).2 p.next d ep' next' d' ∧
        p.deliver dev seqnum status data d =
          ({ reply := (ep.deliver status data).1 }, p.put address ep' next', d') := by
  unfold deliver ep? put Prefetch.next owner?
  cases hp : p.inner with
  | none => exact .inl ⟨by simp, rfl, rfl⟩
  | some inner =>
    simp only [Option.bind_some]
    cases how : inner.owner seqnum with
    | none =>
      refine .inl ⟨fun address ep hep => ?_, rfl, rfl⟩
      have hno := Table.not_of_findKey?_eq_none how hep
      simpa using hno
    | some address =>
      obtain ⟨ep, hep, hfl⟩ := Table.lookup_of_findKey? how
      obtain ⟨ep', next', d', heff, heq⟩ :=
        armOne_replace dev hep (ep.deliver status data).2 d
      refine .inr ⟨address, ep, ep', next', d', rfl, hep, by simpa using hfl, heff, ?_⟩
      simp only [hep, heq]
      rfl

/-- **Unlink.** Either no endpoint has this waiter and nothing happens, or one endpoint has it
and drops it. -/
theorem unlink_spec (p : Prefetch) (seqnum : UInt32) :
    ((∀ address ep, p.ep? address = some ep → ep.waitsFor seqnum = false) ∧
        p.unlink seqnum = (false, p)) ∨
      ∃ address ep, p.waitsOn? seqnum = some address ∧ p.ep? address = some ep ∧
        ep.waitsFor seqnum = true ∧
        p.unlink seqnum = (true, p.put address { ep with waiting := none } p.next) := by
  unfold unlink ep? put Prefetch.next waitsOn?
  cases hp : p.inner with
  | none => exact .inl ⟨by simp, rfl⟩
  | some inner =>
    simp only [Option.bind_some]
    cases how : inner.waitsOn seqnum with
    | none => exact .inl ⟨fun _ _ hep => Table.not_of_findKey?_eq_none how hep, rfl⟩
    | some address =>
      obtain ⟨ep, hep, hw⟩ := Table.lookup_of_findKey? how
      refine .inr ⟨address, ep, rfl, hep, hw, ?_⟩
      simp only [hep]
      rfl

/-- **Arm.** What arming one endpoint preserves, arming all of them preserves. -/
theorem arm_rule (dev : UsbBackend δ) (Inv : Prefetch → δ → Prop)
    (hone : ∀ (p : Prefetch) (d : δ) address ep ep' next' d', Inv p d →
      p.ep? address = some ep → ArmEffect dev address ep p.next d ep' next' d' →
      Inv (p.put address ep' next') d') {p : Prefetch} {d : δ} (h : Inv p d) :
    Inv (p.arm dev d).1 (p.arm dev d).2 := by
  unfold arm
  cases hp : p.inner with
  | none => exact h
  | some inner =>
    -- by induction on the addresses still to arm, over any prefetcher reached on the way
    have key : ∀ (addrs : List UInt8) (inner : Inner) (d : δ), Inv { inner := some inner } d →
        Inv { inner := some (addrs.foldl
            (fun s address => Inner.armOne dev address s.1 s.2) (inner, d)).1 }
          (addrs.foldl (fun s address => Inner.armOne dev address s.1 s.2) (inner, d)).2 := by
      intro addrs
      induction addrs with
      | nil => exact fun inner d h => h
      | cons address addrs ih =>
        intro inner d h
        rw [List.foldl_cons]
        cases hep : inner.eps.lookup address with
        | none =>
          have hsame : inner.armOne dev address d = (inner, d) := by simp only [Inner.armOne, hep]
          rw [hsame]
          exact ih inner d h
        | some ep =>
          obtain ⟨ep', next', d', heff, heq⟩ := Inner.armOne_spec dev hep d
          rw [heq]
          exact ih _ d' (hone { inner := some inner } d address ep ep' next' d' h hep heff)
    have hp' : p = { inner := some inner } := by rw [← hp]
    exact key inner.eps.keys inner d (hp' ▸ h)

/-- What a submit preserves of the device, `take` and `deliver` preserve. -/
theorem device_rule (dev : UsbBackend δ) (Inv : δ → Prop)
    (hsubmit : ∀ req d, Inv d → Inv (dev.submit req d).2) {p : Prefetch} {d : δ} (h : Inv d) :
    (∀ address seqnum maxLen, Inv (p.take dev address seqnum maxLen d).2.2) ∧
      ∀ seqnum status data, Inv (p.deliver dev seqnum status data d).2.2 := by
  have harm : ∀ {address ep next ep' next' d'},
      ArmEffect dev address ep next d ep' next' d' → Inv d' := by
    intro address ep next ep' next' d' heff
    have hnext := hsubmit (ep.request address next) d h
    cases heff with
    | idle _ => exact h
    | accepted _ _ hsub =>
      rw [hsub] at hnext
      exact hnext
    | refused _ _ hsub =>
      rw [hsub] at hnext
      exact hnext
  refine ⟨fun address seqnum maxLen => ?_, fun seqnum status data => ?_⟩
  · rcases take_spec dev p address seqnum maxLen d with ⟨-, htake⟩ | ⟨_, _, _, _, -, -, heff, htake⟩
    · rw [htake]
      exact h
    · rw [htake]
      exact harm heff
  · rcases deliver_spec dev p seqnum status data d with
      ⟨-, -, hdel⟩ | ⟨_, _, _, _, _, -, -, -, heff, hdel⟩
    · rw [hdel]
      exact h
    · rw [hdel]
      exact harm heff

/-- A new prefetcher has an untouched endpoint at every address it names. -/
theorem ep?_new {endpoints : List (UInt8 × UInt16)} {enabled : Bool} {address : UInt8}
    {ep : Endpoint} (h : (new endpoints enabled).ep? address = some ep) :
    ∃ maxPacket, ep = Endpoint.fresh address maxPacket := by
  have key : ∀ (l : List (UInt8 × UInt16)) (t : Table UInt8 Endpoint),
      (∀ a e, t.lookup a = some e → ∃ m, e = Endpoint.fresh a m) → ∀ a e,
      (l.foldl (fun t e => AList.insert e.1 (Endpoint.fresh e.1 e.2) t) t).lookup a = some e →
      ∃ m, e = Endpoint.fresh a m := by
    intro l
    induction l with
    | nil => exact fun t ht => ht
    | cons x l ih =>
      intro t ht
      refine ih _ fun a e hae => ?_
      by_cases ha : a = x.1
      · subst ha
        rw [AList.lookup_insert] at hae
        exact ⟨x.2, (Option.some.inj hae).symm⟩
      · rw [AList.lookup_insert_ne ha] at hae
        exact ht a e hae
  unfold new at h
  split_ifs at h with h₁ h₂
  · cases h
  · cases h
  · exact key endpoints ∅ (by simp) address ep h

theorem next_new (endpoints : List (UInt8 × UInt16)) (enabled : Bool) :
    (new endpoints enabled).next = INTERNAL_BASE := by
  unfold new
  split_ifs <;> rfl

/-- After `shutdown` every endpoint is disabled, with nothing captured, waiting or in flight. -/
theorem ep?_shutdown (dev : UsbBackend δ) (p : Prefetch) (d : δ) (address : UInt8) :
    (p.shutdown dev d).1.ep? address = (p.ep? address).map Endpoint.shutdown := by
  unfold shutdown ep?
  cases hp : p.inner with
  | none => simp [hp]
  | some inner => exact Table.lookup_mapValues _ _ _

theorem next_shutdown (dev : UsbBackend δ) (p : Prefetch) (d : δ) :
    (p.shutdown dev d).1.next = p.next := by
  unfold shutdown Prefetch.next
  cases hp : p.inner with
  | none => simp [hp]
  | some inner => rfl

/-- **Shutdown.** What unlinking one URB preserves, `shutdown` preserves. -/
theorem shutdown_rule (dev : UsbBackend δ) (Inv : δ → Prop)
    (hone : ∀ s d, Inv d → Inv (dev.unlink s d).2)
    {p : Prefetch} {d : δ} (h : Inv d) : Inv (p.shutdown dev d).2 := by
  unfold shutdown
  cases p.inner with
  | none => exact h
  | some inner =>
    have key : ∀ (l : List (Σ _ : UInt8, Endpoint)) (d : δ), Inv d →
        Inv (l.foldl (fun d e =>
          match e.2.inFlight with
          | some s => (dev.unlink s d).2
          | none => d) d) := by
      intro l
      induction l with
      | nil => exact fun d h => h
      | cons e l ih =>
        intro d h
        rw [List.foldl_cons]
        cases he : e.2.inFlight with
        | none => exact ih d h
        | some s => exact ih _ (hone s d h)
    exact key inner.eps.entries d h

end Prefetch

end Specs

end Padwire
