import Mathlib.Data.List.Induction
import Padwire.Server.Prefetch

/-!
# Every order of prefetch operations

The prefetcher on its own, against an arbitrary backend: any sequence of `arm`, `take`,
`deliver` and `unlink`, each with any arguments and any backend results. Two questions are
settled about the clients that `take` answered with `Waiting`.

* *Is such a client forgotten?* `waiting_accounted` balances the account of every endpoint and
  seqnum: each `Waiting` was answered once, or cancelled, or superseded by a later `Waiting`
  on the same endpoint, or is still registered. Superseding is deliberate.
* *Can it still be answered?* `waiting_served_iff`: a waiter has a URB in flight on an enabled
  endpoint after every operation exactly when the backend accepts the URB each time a `take`
  registers a client on an endpoint with nothing in flight.
-/

namespace Padwire

namespace Prefetch

variable {δ : Type} (dev : UsbBackend δ)

/-- An operation on the prefetcher. -/
inductive Op
  | arm
  | take (address : UInt8) (seqnum : UInt32) (maxLen : ℕ)
  | deliver (seqnum : UInt32) (status : Int32) (data : Bytes)
  | unlink (seqnum : UInt32)
  deriving DecidableEq, Repr

/-- What became known about a client that was told to wait on an endpoint. -/
inductive Event
  /-- `take` answered `Waiting`. -/
  | waiting (address : UInt8) (seqnum : UInt32)
  /-- `take` answered another client with `Waiting` while this one was registered. -/
  | superseded (address : UInt8) (seqnum : UInt32)
  /-- `deliver` returned the seqnum in its reply. -/
  | replied (address : UInt8) (seqnum : UInt32)
  /-- `unlink` of the seqnum returned `true`. -/
  | cancelled (address : UInt8) (seqnum : UInt32)
  deriving DecidableEq, Repr

/-- A prefetcher and its device, with what has been answered so far. -/
structure Trace (δ : Type) where
  p : Prefetch
  d : δ
  history : List Event

/-- The events of one operation, read off what it returns. -/
def Op.events (t : Trace δ) : Op → List Event
  | .arm => []
  | .take address seqnum maxLen =>
    match (t.p.take dev address seqnum maxLen t.d).1 with
    | .waiting =>
      match (t.p.ep? address).bind Endpoint.waiting with
      | some w => [.superseded address w.seqnum, .waiting address seqnum]
      | none => [.waiting address seqnum]
    | _ => []
  | .deliver seqnum status data =>
    match (t.p.deliver dev seqnum status data t.d).1.reply, t.p.owner? seqnum with
    | some (s, _, _), some address => [.replied address s]
    | _, _ => []
  | .unlink seqnum =>
    match (t.p.unlink seqnum).1, t.p.waitsOn? seqnum with
    | true, some address => [.cancelled address seqnum]
    | _, _ => []

/-- Carry out one operation. -/
def Op.apply (t : Trace δ) (op : Op) : Trace δ :=
  let (p, d) :=
    match op with
    | .arm => t.p.arm dev t.d
    | .take address seqnum maxLen => (t.p.take dev address seqnum maxLen t.d).2
    | .deliver seqnum status data => (t.p.deliver dev seqnum status data t.d).2
    | .unlink seqnum => ((t.p.unlink seqnum).2, t.d)
  { p, d, history := t.history ++ op.events dev t }

/-- Carry out a sequence of operations on a new prefetcher. -/
def runOps (endpoints : List (UInt8 × UInt16)) (enabled : Bool) (d : δ) (ops : List Op) : Trace δ :=
  ops.foldl (Op.apply dev) { p := new endpoints enabled, d, history := [] }

theorem runOps_append_singleton (endpoints : List (UInt8 × UInt16)) (enabled : Bool) (d : δ)
    (ops : List Op) (op : Op) :
    runOps dev endpoints enabled d (ops ++ [op]) =
      op.apply dev (runOps dev endpoints enabled d ops) := by
  simp [runOps]

/-! ### No waiting client is forgotten -/

/-- This client is registered as the waiter of this endpoint. -/
def registered (p : Prefetch) (address : UInt8) (seqnum : UInt32) : Bool :=
  (p.ep? address).any (Endpoint.waitsFor seqnum)

/-- Every `Waiting` on this endpoint is accounted for. -/
def Accounted (t : Trace δ) (address : UInt8) (seqnum : UInt32) : Prop :=
  t.history.count (.waiting address seqnum) =
    t.history.count (.replied address seqnum) + t.history.count (.cancelled address seqnum) +
      t.history.count (.superseded address seqnum) +
      if t.p.registered address seqnum then 1 else 0

theorem registered_put {p : Prefetch} {b : UInt8} {ep : Endpoint} (h : p.ep? b = some ep)
    (ep' : Endpoint) (next : UInt32) (address : UInt8) (seqnum : UInt32) :
    (p.put b ep' next).registered address seqnum =
      if address = b then ep'.waitsFor seqnum else p.registered address seqnum := by
  unfold registered
  rw [ep?_put h]
  split_ifs <;> rfl

theorem registered_eq {p : Prefetch} {address : UInt8} {ep : Endpoint}
    (h : p.ep? address = some ep) (seqnum : UInt32) :
    p.registered address seqnum = ep.waitsFor seqnum := by
  rw [registered, h, Option.any_some]

/-- An endpoint that keeps its waiter registers nobody new. -/
theorem registered_put_of_waiting_eq {p : Prefetch} {b : UInt8} {ep ep' : Endpoint}
    (h : p.ep? b = some ep) (hwait : ep'.waiting = ep.waiting) (next : UInt32)
    (address : UInt8) (seqnum : UInt32) :
    (p.put b ep' next).registered address seqnum = p.registered address seqnum := by
  rw [registered_put h]
  split_ifs with hb
  · rw [hb, registered_eq h, Endpoint.waitsFor_eq hwait]
  · rfl

/-- What the events of an operation have to add up to. -/
private def Balanced (events : List Event) (before after : Prefetch) (address : UInt8)
    (seqnum : UInt32) : Prop :=
  events.count (.waiting address seqnum) + (if before.registered address seqnum then 1 else 0) =
    events.count (.replied address seqnum) + events.count (.cancelled address seqnum) +
      events.count (.superseded address seqnum) +
      if after.registered address seqnum then 1 else 0

private theorem balanced_nil {before after : Prefetch} {address : UInt8} {seqnum : UInt32}
    (h : after.registered address seqnum = before.registered address seqnum) :
    Balanced [] before after address seqnum := by
  simp [Balanced, h]

variable {dev}

private theorem registered_arm (p : Prefetch) (d : δ) (address : UInt8) (seqnum : UInt32) :
    (p.arm dev d).1.registered address seqnum = p.registered address seqnum := by
  refine arm_rule dev
    (fun p' _ => p'.registered address seqnum = p.registered address seqnum)
    (fun p' d b ep ep' next' d' ih hep heff => ?_) rfl
  rw [registered_put_of_waiting_eq hep heff.waiting_eq, ih]

private theorem balanced_take (t : Trace δ) (b : UInt8) (s : UInt32) (n : ℕ) (address : UInt8)
    (seqnum : UInt32) :
    Balanced (Op.events dev t (.take b s n)) t.p (t.p.take dev b s n t.d).2.1 address seqnum := by
  rcases take_spec dev t.p b s n t.d with ⟨-, htake⟩ | ⟨ep, ep', next', d', hep, -, heff, htake⟩
  · simp only [Op.events, htake]
    exact balanced_nil rfl
  · simp only [Op.events, htake, hep, Option.bind_some]
    cases hcap : ep.captured with
    | cons data rest =>
      have hwait : ep'.waiting = ep.waiting := by
        rw [heff.waiting_eq, Endpoint.take, hcap]
      simp only [Endpoint.take, hcap]
      exact balanced_nil (registered_put_of_waiting_eq hep hwait _ _ _)
    | nil =>
      have hwait : ep'.waiting = some { seqnum := s, maxLen := n } := by
        rw [heff.waiting_eq, Endpoint.take, hcap]
      simp only [Endpoint.take, hcap]
      by_cases hb : address = b
      · subst hb
        cases hold : ep.waiting with
        | none =>
          simp [Balanced, registered_put hep, registered_eq hep, Endpoint.waitsFor, hwait, hold,
            List.count_cons]
        -- the waiter of before is superseded: one event more on the right, one waiter less
        | some w =>
          simp [Balanced, registered_put hep, registered_eq hep, Endpoint.waitsFor, hwait, hold,
            List.count_cons, add_comm]
      · have hne : b ≠ address := fun h => hb h.symm
        cases hold : ep.waiting with
        | none => simp [Balanced, registered_put hep, hb, hne]
        | some w => simp [Balanced, registered_put hep, hb, hne]

private theorem balanced_deliver (t : Trace δ) (s : UInt32) (status : Int32) (data : Bytes)
    (address : UInt8) (seqnum : UInt32) :
    Balanced (Op.events dev t (.deliver s status data)) t.p
      (t.p.deliver dev s status data t.d).2.1 address seqnum := by
  rcases deliver_spec dev t.p s status data t.d with
    ⟨-, hown, hdel⟩ | ⟨b, ep, ep', next', d', hown, hep, -, heff, hdel⟩
  · simp only [Op.events, hdel, hown]
    exact balanced_nil rfl
  · obtain ⟨hreply, hnone⟩ := ep.deliver_waiting status data
    have hwait : ep'.waiting = none := heff.waiting_eq.trans hnone
    simp only [Op.events, hdel, hown]
    cases hold : ep.waiting with
    | none =>
      rw [hold, Option.map_none, Option.map_eq_none_iff] at hreply
      simp only [hreply]
      exact balanced_nil (registered_put_of_waiting_eq hep (hwait.trans hold.symm) _ _ _)
    | some w =>
      rw [hold, Option.map_some] at hreply
      obtain ⟨⟨s', status', data'⟩, hr, rfl⟩ := Option.map_eq_some_iff.mp hreply
      simp only [hr]
      by_cases hb : address = b
      · subst hb
        simp [Balanced, registered_put hep, registered_eq hep, Endpoint.waitsFor, hwait, hold,
          List.count_cons]
      · have hne : b ≠ address := fun h => hb h.symm
        simp [Balanced, registered_put hep, hb, hne]

private theorem balanced_unlink (t : Trace δ) (s : UInt32) (address : UInt8) (seqnum : UInt32) :
    Balanced (Op.events dev t (.unlink s)) t.p (t.p.unlink s).2 address seqnum := by
  rcases unlink_spec t.p s with ⟨-, hun⟩ | ⟨b, ep, hon, hep, hw, hun⟩
  · simp only [Op.events, hun]
    exact balanced_nil rfl
  · simp only [Op.events, hun, hon]
    by_cases hb : address = b
    · subst hb
      obtain ⟨w, hwait, hws⟩ : ∃ w, ep.waiting = some w ∧ w.seqnum = s := by
        simpa [Endpoint.waitsFor, Option.any_eq_true] using hw
      simp [Balanced, registered_put hep, registered_eq hep, Endpoint.waitsFor, hwait, hws,
        List.count_cons]
    · have hne : b ≠ address := fun h => hb h.symm
      simp [Balanced, registered_put hep, hb, hne]

private theorem accounted_apply {t : Trace δ} {address : UInt8} {seqnum : UInt32}
    (h : Accounted t address seqnum) (op : Op) :
    Accounted (op.apply dev t) address seqnum := by
  have hbal : Balanced (op.events dev t) t.p (op.apply dev t).p address seqnum := by
    cases op with
    | arm => exact balanced_nil (registered_arm t.p t.d address seqnum)
    | take b s n => exact balanced_take t b s n address seqnum
    | deliver s status data => exact balanced_deliver t s status data address seqnum
    | unlink s => exact balanced_unlink t s address seqnum
  have hhist : (op.apply dev t).history = t.history ++ op.events dev t := rfl
  unfold Accounted at h ⊢
  unfold Balanced at hbal
  rw [hhist, List.count_append, List.count_append, List.count_append, List.count_append]
  omega

/-- **No waiting client is forgotten.** After any sequence of operations, on every endpoint and
for every seqnum, each `Waiting` was answered in one reply, or cancelled, or superseded by a
later `Waiting` on the same endpoint, or is the one still registered. -/
theorem waiting_accounted (dev : UsbBackend δ) (endpoints : List (UInt8 × UInt16))
    (enabled : Bool) (d : δ) (ops : List Op) (address : UInt8) (seqnum : UInt32) :
    Accounted (runOps dev endpoints enabled d ops) address seqnum := by
  have hstart : Accounted { p := new endpoints enabled, d, history := [] } address seqnum := by
    have hreg : (new endpoints enabled).registered address seqnum = false := by
      unfold registered
      cases hep : (new endpoints enabled).ep? address with
      | none => rfl
      | some ep =>
        obtain ⟨m, rfl⟩ := ep?_new hep
        rfl
    simp [Accounted, hreg]
  induction ops using List.reverseRecOn with
  | nil => exact hstart
  | append_singleton ops op ih =>
    rw [runOps_append_singleton]
    exact accounted_apply ih op

/-- A backend that accepts every URB. -/
def accepting : UsbBackend Unit where
  submit _ d := (.ok (), d)
  unlink _ d := (.ok true, d)

/-- The account does not close without superseding: the first of two clients that wait on one
endpoint is neither answered, nor cancelled, nor registered any more. -/
theorem not_waiting_remembered :
    ¬ ∀ (ops : List Op) (address : UInt8) (seqnum : UInt32),
      .waiting address seqnum ∈ (runOps accepting [(0x81, 64)] true () ops).history →
        (runOps accepting [(0x81, 64)] true () ops).history.count (.replied address seqnum) = 1 ∨
        .cancelled address seqnum ∈ (runOps accepting [(0x81, 64)] true () ops).history ∨
        (runOps accepting [(0x81, 64)] true () ops).p.registered address seqnum = true := by
  intro h
  have h1 := h [.take 0x81 1 64, .take 0x81 2 64] 0x81 1 (by decide)
  revert h1
  decide

/-! ### Every waiting client can be answered -/

/-- An endpoint with a waiting client has a URB in flight and is not disabled. -/
def Served (p : Prefetch) : Prop :=
  ∀ address ep, p.ep? address = some ep → ep.waiting.isSome = true →
    ep.inFlight.isSome = true ∧ ep.disabled = false

/-- If the operation is a `take` that finds its endpoint enabled with nothing captured and
nothing in flight, then the backend accepts the URB it submits. -/
def ArmsWaiter (dev : UsbBackend δ) (t : Trace δ) : Op → Prop
  | .take address _ _ => ∀ ep, t.p.ep? address = some ep → ep.disabled = false →
      ep.captured = [] → ep.inFlight = none →
      ∃ d', dev.submit (ep.request address t.p.next) t.d = (.ok (), d')
  | _ => True

/-- Rewriting one endpoint keeps the others served. -/
private theorem served_put {p : Prefetch} {b : UInt8} {ep : Endpoint} (hep : p.ep? b = some ep)
    (h : Served p) {ep' : Endpoint} {next : UInt32}
    (hb : ep'.waiting.isSome = true → ep'.inFlight.isSome = true ∧ ep'.disabled = false) :
    Served (p.put b ep' next) := by
  intro address e he hw
  rw [ep?_put hep] at he
  split_ifs at he with hab
  · obtain rfl := Option.some.inj he
    exact hb hw
  · exact h address e he hw

/-- Arming keeps a served endpoint served. -/
private theorem served_armEffect {address : UInt8} {ep ep' : Endpoint} {next next' : UInt32}
    {d d' : δ} (heff : ArmEffect dev address ep next d ep' next' d')
    (h : ep.waiting.isSome = true → ep.inFlight.isSome = true ∧ ep.disabled = false) :
    ep'.waiting.isSome = true → ep'.inFlight.isSome = true ∧ ep'.disabled = false := by
  intro hw
  have hserved := h (heff.waiting_eq ▸ hw)
  cases heff with
  | idle _ => exact hserved
  | accepted hdis hfl _ => exact ⟨rfl, hdis⟩
  -- only an idle endpoint is submitted for, and then nobody was waiting on it
  | refused hdis hfl _ =>
    rw [hfl] at hserved
    exact absurd hserved.1 (by simp)

private theorem served_take {t : Trace δ} (h : Served t.p) (b : UInt8) (s : UInt32) (n : ℕ) :
    Served (t.p.take dev b s n t.d).2.1 ↔ ArmsWaiter dev t (.take b s n) := by
  rcases take_spec dev t.p b s n t.d with
    ⟨hdis, htake⟩ | ⟨ep, ep', next', d', hep, hdis, heff, htake⟩
  · rw [htake]
    refine iff_of_true h fun ep hep hen => ?_
    rw [hdis ep hep] at hen
    cases hen
  · rw [htake]
    cases hcap : ep.captured with
    | cons data rest =>
      refine iff_of_true (served_put hep h (served_armEffect heff ?_)) fun e he _ hnil => ?_
      · simp only [Endpoint.take, hcap]
        exact h b ep hep
      · rw [hep, Option.some.injEq] at he
        rw [← he, hcap] at hnil
        cases hnil
    | nil =>
      -- the client is registered before the endpoint is armed, so what arming does decides
      have htk : (ep.take s n).2 = { ep with waiting := some { seqnum := s, maxLen := n } } := by
        simp only [Endpoint.take, hcap]
      rw [htk] at heff
      cases heff with
      | idle hidle =>
        have hfl : ep.inFlight.isSome = true := by
          rcases hidle with hd | hf
          · exact absurd hd (by simp [hdis])
          · exact hf
        refine iff_of_true (served_put hep h fun _ => ⟨hfl, hdis⟩) fun e he _ _ hnone => ?_
        rw [hep, Option.some.injEq] at he
        rw [← he] at hnone
        simp [hnone] at hfl
      | accepted _ _ hsub =>
        refine iff_of_true (served_put hep h fun _ => ⟨rfl, hdis⟩) fun e he _ _ _ => ?_
        rw [hep, Option.some.injEq] at he
        exact he ▸ ⟨_, hsub⟩
      -- both sides fail: nothing is in flight for the waiter, and the submit was refused
      | @refused e _ _ hfl hsub =>
        refine iff_of_false (fun hserved => ?_) fun harms => ?_
        · have hboth := hserved b _ ((ep?_put hep _ _ b).trans (if_pos rfl)) (by simp)
          rw [Endpoint.inFlight_submitted_error, hfl] at hboth
          exact absurd hboth.1 (by simp)
        · obtain ⟨d₂, hok⟩ := harms ep hep hdis hcap hfl
          have herr : dev.submit (ep.request b t.p.next) t.d = (.error e, d') := hsub
          rw [hok] at herr
          cases herr

private theorem served_apply_iff {t : Trace δ} (h : Served t.p) (op : Op) :
    Served (op.apply dev t).p ↔ ArmsWaiter dev t op := by
  cases op with
  | arm =>
    refine iff_of_true ?_ trivial
    exact arm_rule dev (fun p _ => Served p)
      (fun p d b ep ep' next' d' ih hep heff =>
        served_put hep ih (served_armEffect heff (ih b ep hep))) h
  | take b s n => exact served_take h b s n
  | deliver s status data =>
    refine iff_of_true ?_ trivial
    change Served (t.p.deliver dev s status data t.d).2.1
    rcases deliver_spec dev t.p s status data t.d with
      ⟨-, -, hdel⟩ | ⟨b, ep, ep', next', d', -, hep, -, heff, hdel⟩
    · rw [hdel]
      exact h
    · rw [hdel]
      refine served_put hep h fun hw => ?_
      rw [heff.waiting_eq, (ep.deliver_waiting status data).2] at hw
      cases hw
  | unlink s =>
    refine iff_of_true ?_ trivial
    change Served (t.p.unlink s).2
    rcases unlink_spec t.p s with ⟨-, hun⟩ | ⟨b, ep, -, hep, -, hun⟩
    · rw [hun]
      exact h
    · rw [hun]
      exact served_put hep h fun hw => absurd hw (by simp)

/-- **Every waiting client can be answered, exactly when arming for it succeeds.** Along any
sequence of operations, a waiting client has a URB in flight on an enabled endpoint after each
of them, if and only if the backend accepts the URB of every `take` that finds its endpoint
enabled, with nothing captured and nothing in flight. -/
theorem waiting_served_iff (dev : UsbBackend δ) (endpoints : List (UInt8 × UInt16))
    (enabled : Bool) (d : δ) (ops : List Op) :
    (∀ done, done <+: ops → Served (runOps dev endpoints enabled d done).p) ↔
      ∀ done op, done ++ [op] <+: ops →
        ArmsWaiter dev (runOps dev endpoints enabled d done) op := by
  constructor
  · intro h done op hpre
    have hbefore := h done ((List.prefix_append done [op]).trans hpre)
    have hafter := h (done ++ [op]) hpre
    rw [runOps_append_singleton] at hafter
    exact (served_apply_iff hbefore op).mp hafter
  · intro h done
    induction done using List.reverseRecOn with
    | nil =>
      intro _ address ep hep hw
      obtain ⟨m, rfl⟩ := ep?_new (show (new endpoints enabled).ep? address = some ep from hep)
      cases hw
    | append_singleton done op ih =>
      intro hpre
      rw [runOps_append_singleton]
      have hbefore := ih ((List.prefix_append done [op]).trans hpre)
      exact (served_apply_iff hbefore op).mpr (h done op hpre)

/-- A backend that refuses every URB. -/
def refusing : UsbBackend Unit where
  submit _ d := (.error (.urb (-EPIPE)), d)
  unlink _ d := (.ok false, d)

/-- A refused URB leaves a waiting client with nothing in flight to answer it. -/
theorem not_waiting_served :
    ¬ ∀ ops : List Op, Served (runOps refusing [(0x81, 64)] true () ops).p := by
  intro h
  have hbad := h [.take 0x81 1 64] 0x81
    { Endpoint.fresh 0x81 64 with waiting := some { seqnum := 1, maxLen := 64 }, errors := 1 }
    (by decide) (by decide)
  exact absurd hbad.1 (by decide)

/-! ### After shutdown -/

/-- Every endpoint is disabled and has nothing in flight. -/
def Halted (p : Prefetch) : Prop :=
  ∀ address ep, p.ep? address = some ep → ep.disabled = true ∧ ep.inFlight = none

theorem halted_shutdown (dev : UsbBackend δ) (p : Prefetch) (d : δ) :
    (p.shutdown dev d).1.Halted := by
  intro address ep hep
  rw [ep?_shutdown] at hep
  obtain ⟨ep₀, -, rfl⟩ := Option.map_eq_some_iff.mp hep
  exact ⟨rfl, rfl⟩

theorem halted_put {p : Prefetch} {b : UInt8} {ep ep' : Endpoint} {next : UInt32} (h : p.Halted)
    (hep : p.ep? b = some ep) (hep' : ep'.disabled = ep.disabled ∧ ep'.inFlight = ep.inFlight) :
    (p.put b ep' next).Halted := by
  intro address e he
  rw [ep?_put hep] at he
  split_ifs at he
  · rw [← Option.some.inj he, hep'.1, hep'.2]
    exact h b ep hep
  · exact h address e he

/-- An operation on a halted prefetcher does not touch the device, and leaves it halted. -/
private theorem halted_apply (dev : UsbBackend δ) {t : Trace δ} (h : t.p.Halted) (op : Op) :
    (op.apply dev t).p.Halted ∧ (op.apply dev t).d = t.d := by
  cases op with
  | arm =>
    refine arm_rule dev (fun p d => p.Halted ∧ d = t.d)
      (fun p d b ep ep' next' d' hinv hep heff => ?_) ⟨h, rfl⟩
    obtain ⟨hdis, -⟩ := hinv.1 b ep hep
    cases heff with
    | idle _ => exact ⟨halted_put hinv.1 hep ⟨rfl, rfl⟩, hinv.2⟩
    | accepted hen _ _ => rw [hdis] at hen; cases hen
    | refused hen _ _ => rw [hdis] at hen; cases hen
  | take b s n =>
    change (t.p.take dev b s n t.d).2.1.Halted ∧ (t.p.take dev b s n t.d).2.2 = t.d
    rcases take_spec dev t.p b s n t.d with ⟨-, htake⟩ | ⟨ep, ep', next', d', hep, hen, -, -⟩
    · rw [htake]
      exact ⟨h, rfl⟩
    · rw [(h b ep hep).1] at hen
      cases hen
  | deliver s status data =>
    change (t.p.deliver dev s status data t.d).2.1.Halted ∧
      (t.p.deliver dev s status data t.d).2.2 = t.d
    rcases deliver_spec dev t.p s status data t.d with
      ⟨-, -, hdel⟩ | ⟨b, ep, ep', next', d', -, hep, hfl, -, -⟩
    · rw [hdel]
      exact ⟨h, rfl⟩
    · rw [(h b ep hep).2] at hfl
      cases hfl
  | unlink s =>
    refine ⟨?_, rfl⟩
    change (t.p.unlink s).2.Halted
    rcases unlink_spec t.p s with ⟨-, hun⟩ | ⟨b, ep, -, hep, -, hun⟩
    · rw [hun]
      exact h
    · rw [hun]
      exact halted_put h hep ⟨rfl, rfl⟩

/-- **After shutdown.** No sequence of operations on a halted prefetcher touches the device:
whatever the backend would do with a URB, it is not asked. -/
theorem device_untouched_of_halted {t : Trace δ} (h : t.p.Halted) (ops : List Op) :
    (ops.foldl (Op.apply dev) t).d = t.d := by
  induction ops generalizing t with
  | nil => rfl
  | cons op ops ih =>
    obtain ⟨hhalted, hsame⟩ := halted_apply dev h op
    rw [List.foldl_cons, ih hhalted, hsame]

end Prefetch

end Padwire
