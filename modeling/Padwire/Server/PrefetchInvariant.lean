import Padwire.Lib.Run
import Padwire.Server.Prefetch

/-!
# What holds of the prefetcher's state

The representation invariant of `usbfwd-server/src/prefetch.rs`, over every sequence of its
operations and with any backend that keeps to two rules (`Keeps`, `Honest`): it refuses a seqnum it
still holds, and it gives an internal URB up only when its completion goes to `deliver`.

The counter of internal seqnums wraps around, and the next seqnum may then be one that is still in
flight on another endpoint. That the endpoints have different URBs in flight is therefore not a
matter of counting: it holds because every URB in flight is held by the backend.
-/

namespace Padwire

/-- A submit that the backend refused. A request that it carried out at once is not refused. -/
def refused : Except SubmitError Unit → Bool
  | .ok () => false
  | .error (.handled _) => false
  | .error _ => true

namespace Endpoint

/-- What holds of one endpoint, after this many failures in a row. -/
structure Sound (ep : Endpoint) (failures : ℕ) : Prop where
  depth : ep.captured.length ≤ DEPTH
  waiting : ep.waiting.isSome = true → ep.captured = []
  disabled : ep.disabled = true → ep.inFlight = none
  errors : ep.disabled = false → ep.errors = failures ∧ failures < MAX_CONSECUTIVE_ERRORS

theorem sound_fresh (address : UInt8) (maxPacket : UInt16) : (fresh address maxPacket).Sound 0 where
  depth := Nat.zero_le _
  waiting _ := rfl
  disabled _ := rfl
  errors _ := ⟨rfl, by decide⟩

theorem sound_shutdown (ep : Endpoint) (failures : ℕ) : ep.shutdown.Sound failures where
  depth := Nat.zero_le _
  waiting _ := rfl
  disabled _ := rfl
  errors h := by cases h

/-- A full buffer drops a report before it takes another. -/
theorem length_push {captured : List Bytes} (h : captured.length ≤ DEPTH) (data : Bytes) :
    (push captured data).length ≤ DEPTH := by
  rw [push]
  split_ifs with hfull
  · rw [List.length_append, List.length_tail, hfull, List.length_singleton]
    decide
  · rw [List.length_append, List.length_singleton]
    omega

namespace Sound

variable {ep : Endpoint} {failures : ℕ}

theorem take (h : ep.Sound failures) (seqnum : UInt32) (maxLen : ℕ) :
    (ep.take seqnum maxLen).2.Sound failures := by
  unfold Endpoint.take
  have hdepth := h.depth
  have hwaiting := h.waiting
  cases hcap : ep.captured with
  | nil => exact ⟨by simp, fun _ => rfl, h.disabled, h.errors⟩
  | cons data rest =>
    rw [hcap] at hdepth hwaiting
    refine ⟨Nat.le_of_succ_le hdepth, fun hw => ?_, h.disabled, h.errors⟩
    cases hwaiting hw

/-- A failed completion counts as one more failure, a successful one ends the row. -/
theorem deliver (h : ep.Sound failures) (status : Int32) (data : Bytes) :
    (ep.deliver status data).2.Sound (if status = 0 then 0 else failures + 1) := by
  unfold Endpoint.deliver
  by_cases hstatus : status = 0
  · rw [if_pos hstatus, if_neg (not_not.mpr hstatus)]
    cases ep.waiting with
    | none => exact ⟨length_push h.depth data, nofun, fun _ => rfl, fun _ => ⟨rfl, by decide⟩⟩
    | some w => exact ⟨h.depth, nofun, fun _ => rfl, fun _ => ⟨rfl, by decide⟩⟩
  · rw [if_neg hstatus, if_pos hstatus]
    refine ⟨?_, nofun, fun _ => rfl, fun hdis => ?_⟩
    · dsimp only
      split_ifs
      · exact Nat.zero_le _
      · exact h.depth
    · obtain ⟨hen, hgave⟩ := Bool.or_eq_false_iff.mp hdis
      obtain ⟨herrors, -⟩ := h.errors hen
      rw [decide_eq_false_iff_not] at hgave
      dsimp only
      omega

/-- A refused submit counts as one more failure. -/
theorem submitted (h : ep.Sound failures) (hdis : ep.disabled = false) (hfl : ep.inFlight = none)
    (seqnum : UInt32) (r : Except SubmitError Unit) :
    (ep.submitted seqnum r).Sound (if refused r then failures + 1 else failures) := by
  obtain ⟨herrors, hlt⟩ := h.errors hdis
  rcases r with (e | e | e) | u
  · refine ⟨h.depth, h.waiting, fun _ => hfl, fun hen => ?_⟩
    have hgave := (Bool.or_eq_false_iff.mp hen).2
    rw [decide_eq_false_iff_not] at hgave
    change ep.errors + 1 = failures + 1 ∧ failures + 1 < MAX_CONSECUTIVE_ERRORS
    omega
  · exact h
  · exact ⟨h.depth, h.waiting, fun _ => hfl, nofun⟩
  · exact ⟨h.depth, h.waiting, fun hon => absurd (hdis.symm.trans hon) nofun, h.errors⟩

end Sound

end Endpoint

namespace Prefetch

variable {δ : Type}

/-! ### What the backend answered -/

/-- Ghost: what became of an internal URB. -/
inductive Outcome
  /-- A submit was answered. -/
  | submitted (origin : Origin) (result : Except SubmitError Unit)
  /-- A completion was delivered to an endpoint. -/
  | completed (address : UInt8) (status : Int32)

/-- The failures of an endpoint since its last successful completion, in a record that has the
latest outcome first. -/
def failures (address : UInt8) : List Outcome → ℕ
  | [] => 0
  | .submitted origin result :: record =>
    if origin = .prefetch address ∧ refused result then failures address record + 1
    else failures address record
  | .completed a status :: record =>
    if a = address then if status = 0 then 0 else failures address record + 1
    else failures address record

/-- The backend with a record of what it answers to submits. -/
def recorded (dev : UsbBackend δ) : UsbBackend (δ × List Outcome) where
  submit req x :=
    let (result, d) := dev.submit req x.1
    (result, d, .submitted req.origin result :: x.2)
  unlink seqnum x :=
    let (result, d) := dev.unlink seqnum x.1
    (result, d, x.2)

theorem recorded_submit {dev : UsbBackend δ} {req : UrbRequest} {r : Except SubmitError Unit}
    {x x' : δ × List Outcome} (h : (recorded dev).submit req x = (r, x')) :
    ∃ d, dev.submit req x.1 = (r, d) ∧ x' = (d, .submitted req.origin r :: x.2) := by
  obtain ⟨rfl, rfl⟩ := Prod.mk.inj h
  exact ⟨_, rfl, rfl⟩

/-- The backend refuses a seqnum it still holds, and neither a submit nor an unlink makes it give
one up. -/
structure Keeps (dev : UsbBackend δ) (holds : δ → UInt32 → Prop) : Prop where
  accepted : ∀ req d d', dev.submit req d = (.ok (), d') →
    ¬holds d req.seqnum ∧ holds d' req.seqnum
  submit : ∀ req d s, holds d s → holds (dev.submit req d).2 s
  unlink : ∀ seqnum d s, holds d s → holds (dev.unlink seqnum d).2 s

/-! ### Runs -/

/-- A prefetcher with its backend and the record of it. -/
structure Backed (δ : Type) where
  p : Prefetch
  d : δ
  record : List Outcome

inductive Call (δ : Type)
  | arm
  | take (address : UInt8) (seqnum : UInt32) (maxLen : ℕ)
  /-- A completion, with the backend as it is when it has given the URB up. -/
  | deliver (seqnum : UInt32) (status : Int32) (data : Bytes) (d : δ)
  | unlink (seqnum : UInt32)
  | shutdown
  /-- The backend is used by others. -/
  | others (d : δ)

/-- The record when a completion has been delivered. -/
def Backed.recordCompletion (st : Backed δ) (seqnum : UInt32) (status : Int32) : List Outcome :=
  match st.p.owner? seqnum with
  | some address => .completed address status :: st.record
  | none => st.record

def callStep (dev : UsbBackend δ) (st : Backed δ) (call : Call δ) : Option (Backed δ) :=
  let state (x : Prefetch × δ × List Outcome) : Backed δ := ⟨x.1, x.2.1, x.2.2⟩
  some <| match call with
  | .arm => state (st.p.arm (recorded dev) (st.d, st.record))
  | .take address seqnum maxLen =>
    state (st.p.take (recorded dev) address seqnum maxLen (st.d, st.record)).2
  | .deliver seqnum status data d =>
    state (st.p.deliver (recorded dev) seqnum status data
      (d, st.recordCompletion seqnum status)).2
  | .unlink seqnum => { st with p := (st.p.unlink seqnum).2 }
  | .shutdown => state (st.p.shutdown (recorded dev) (st.d, st.record))
  | .others d => { st with d }

/-- Any endpoints and any state of the backend. -/
def Initial (st : Backed δ) : Prop :=
  ∃ endpoints enabled, st.p = new endpoints enabled ∧ st.record = []

/-- The backend gives an internal URB up only when its completion goes to `deliver`. -/
def Honest (holds : δ → UInt32 → Prop) (st : Backed δ) : Call δ → Prop
  | .deliver seqnum _ _ d => ∀ s, INTERNAL_BASE ≤ s → s ≠ seqnum → holds st.d s → holds d s
  | .others d => ∀ s, INTERNAL_BASE ≤ s → holds st.d s → holds d s
  | _ => True

/-! ### The invariant -/

/-- The representation invariant. -/
structure Inv (holds : δ → UInt32 → Prop) (p : Prefetch) (x : δ × List Outcome) : Prop where
  endpoint : ∀ a ep, p.ep? a = some ep → ep.Sound (failures a x.2)
  next : INTERNAL_BASE ≤ p.next
  inFlight : ∀ a ep s, p.ep? a = some ep → ep.inFlight = some s → INTERNAL_BASE ≤ s ∧ holds x.1 s
  distinct : ∀ a b ep ep' s, p.ep? a = some ep → p.ep? b = some ep' → ep.inFlight = some s →
    ep'.inFlight = some s → a = b

/-- Rewriting an endpoint twice keeps what was written last. -/
theorem put_put (p : Prefetch) (a : UInt8) (ep ep' : Endpoint) (next next' : UInt32) :
    (p.put a ep next).put a ep' next' = p.put a ep' next' := by
  cases hp : p.inner with
  | none => simp [put, hp]
  | some inner => simp [put, hp, Table.replace_replace]

namespace Inv

variable {holds : δ → UInt32 → Prop} {dev : UsbBackend δ} {p : Prefetch} {x x' : δ × List Outcome}

/-- Rewriting one endpoint: the others have to stay as they are, and what it has in flight has to
be new. -/
theorem put (h : Inv holds p x) {a : UInt8} {ep ep' : Endpoint} {next : UInt32}
    (hep : p.ep? a = some ep) (hsound : ep'.Sound (failures a x'.2))
    (hnext : INTERNAL_BASE ≤ next)
    (hothers : ∀ b, b ≠ a → failures b x'.2 = failures b x.2)
    (hheld : ∀ b e s, b ≠ a → p.ep? b = some e → e.inFlight = some s → holds x'.1 s)
    (hflight : ∀ s, ep'.inFlight = some s → INTERNAL_BASE ≤ s ∧ holds x'.1 s ∧
      ∀ b e, b ≠ a → p.ep? b = some e → e.inFlight ≠ some s) :
    Inv holds (p.put a ep' next) x' where
  endpoint b e he := by
    rw [ep?_put hep] at he
    split_ifs at he with hb
    · rw [hb, ← Option.some.inj he]
      exact hsound
    · rw [hothers b hb]
      exact h.endpoint b e he
  next := by
    rw [next_put hep]
    exact hnext
  inFlight b e s he hs := by
    rw [ep?_put hep] at he
    split_ifs at he with hb
    · rw [← Option.some.inj he] at hs
      exact ⟨(hflight s hs).1, (hflight s hs).2.1⟩
    · exact ⟨(h.inFlight b e s he hs).1, hheld b e s hb he hs⟩
  distinct b c e e' s he he' hs hs' := by
    rw [ep?_put hep] at he he'
    split_ifs at he with hb
    · rw [← Option.some.inj he] at hs
      split_ifs at he' with hc
      · rw [hb, hc]
      · exact absurd hs' ((hflight s hs).2.2 c e' hc he')
    · split_ifs at he' with hc
      · rw [← Option.some.inj he'] at hs'
        exact absurd hs ((hflight s hs').2.2 b e hb he)
      · exact h.distinct b c e e' s he he' hs hs'

/-- Rewriting an endpoint that has nothing new in flight. -/
theorem keep (h : Inv holds p x) {a : UInt8} {ep ep' : Endpoint} (hep : p.ep? a = some ep)
    (hsound : ep'.Sound (failures a x.2))
    (hflight : ∀ s, ep'.inFlight = some s → ep.inFlight = some s) :
    Inv holds (p.put a ep' p.next) x := by
  refine h.put hep hsound h.next (fun _ _ => rfl)
    (fun b e s _ he hs => (h.inFlight b e s he hs).2) fun s hs => ?_
  obtain ⟨hbase, hheld⟩ := h.inFlight a ep s hep (hflight s hs)
  exact ⟨hbase, hheld, fun b e hb he hs' => hb (h.distinct b a e ep s he hep hs' (hflight s hs))⟩

/-- Something happens to the backend that leaves alone what the endpoints have in flight. -/
theorem device (h : Inv holds p x)
    (hrecord : ∀ a, failures a x'.2 = failures a x.2)
    (hheld : ∀ a ep s, p.ep? a = some ep → ep.inFlight = some s → holds x'.1 s) :
    Inv holds p x' where
  endpoint a ep hep := by
    rw [hrecord]
    exact h.endpoint a ep hep
  next := h.next
  inFlight a ep s hep hs := ⟨(h.inFlight a ep s hep hs).1, hheld a ep s hep hs⟩
  distinct := h.distinct

/-- Arming an endpoint. -/
theorem armed (hdev : Keeps dev holds) (h : Inv holds p x) {a : UInt8} {ep ep' : Endpoint}
    {next' : UInt32} (hep : p.ep? a = some ep)
    (heff : ArmEffect (recorded dev) a ep p.next x ep' next' x') :
    Inv holds (p.put a ep' next') x' := by
  have hsound := h.endpoint a ep hep
  have hothers : ∀ (r : Except SubmitError Unit) (b : UInt8), b ≠ a →
      failures b (.submitted (.prefetch a) r :: x.2) = failures b x.2 := by
    intro r b hb
    rw [failures, if_neg]
    rintro ⟨heq, -⟩
    exact hb (Origin.prefetch.inj heq).symm
  have hself : ∀ r : Except SubmitError Unit, failures a (.submitted (.prefetch a) r :: x.2) =
      if refused r then failures a x.2 + 1 else failures a x.2 := by
    intro r
    rw [failures]
    simp
  have hkept : ∀ {r d}, dev.submit (ep.request a p.next) x.1 = (r, d) →
      ∀ b e s, b ≠ a → p.ep? b = some e → e.inFlight = some s → holds d s := by
    intro r d hsub b e s _ he hs
    have hkeeps := hdev.submit (ep.request a p.next) x.1 s (h.inFlight b e s he hs).2
    rwa [hsub] at hkeeps
  cases heff with
  | idle hidle => exact h.keep hep hsound fun _ hs => hs
  | accepted hdis hfl hrec =>
    obtain ⟨d, hsub, rfl⟩ := recorded_submit hrec
    obtain ⟨hfree, hheld⟩ := hdev.accepted _ _ _ hsub
    have hnew := hsound.submitted hdis hfl p.next (.ok ())
    rw [← hself] at hnew
    refine h.put hep hnew (base_le_nextInternal _) (hothers _) (hkept hsub) fun s hs => ?_
    obtain rfl := Option.some.inj hs
    -- what is in flight elsewhere is held, and the backend has just taken this one
    exact ⟨h.next, hheld, fun b e hb he hs' => hfree (h.inFlight b e _ he hs').2⟩
  | @refused e _ hdis hfl hrec =>
    obtain ⟨d, hsub, rfl⟩ := recorded_submit hrec
    have hnew := hsound.submitted hdis hfl p.next (.error e)
    rw [← hself] at hnew
    refine h.put hep hnew h.next (hothers _) (hkept hsub) fun s hs => ?_
    rw [Endpoint.inFlight_submitted_error, hfl] at hs
    cases hs

/-- Rewriting an endpoint, and then arming it. -/
theorem armed_put (hdev : Keeps dev holds) {a : UInt8} {ep ep₁ ep' : Endpoint} {next' : UInt32}
    (hep : p.ep? a = some ep) (h : Inv holds (p.put a ep₁ p.next) x)
    (heff : ArmEffect (recorded dev) a ep₁ p.next x ep' next' x') :
    Inv holds (p.put a ep' next') x' := by
  have hself : (p.put a ep₁ p.next).ep? a = some ep₁ := (ep?_put hep _ _ a).trans (if_pos rfl)
  rw [← next_put hep ep₁ p.next] at heff
  have harmed := h.armed hdev hself heff
  rwa [put_put] at harmed

/-! ### The operations -/

theorem initial {endpoints : List (UInt8 × UInt16)} {enabled : Bool} (d : δ) :
    Inv holds (new endpoints enabled) (d, []) where
  endpoint a ep hep := by
    obtain ⟨maxPacket, rfl⟩ := ep?_new hep
    exact Endpoint.sound_fresh a maxPacket
  next := by
    rw [next_new]
    exact UInt32.le_refl _
  inFlight a ep s hep hs := by
    obtain ⟨maxPacket, rfl⟩ := ep?_new hep
    cases hs
  distinct a b ep ep' s hep _ hs _ := by
    obtain ⟨maxPacket, rfl⟩ := ep?_new hep
    cases hs

theorem arm (hdev : Keeps dev holds) (h : Inv holds p x) :
    Inv holds (p.arm (recorded dev) x).1 (p.arm (recorded dev) x).2 :=
  arm_rule (recorded dev) (fun p x => Inv holds p x)
    (fun _ _ _ _ _ _ _ hinv hep heff => hinv.armed hdev hep heff) h

theorem take (hdev : Keeps dev holds) (h : Inv holds p x) (a : UInt8) (seqnum : UInt32)
    (maxLen : ℕ) : Inv holds (p.take (recorded dev) a seqnum maxLen x).2.1
      (p.take (recorded dev) a seqnum maxLen x).2.2 := by
  rcases take_spec (recorded dev) p a seqnum maxLen x with
    ⟨-, htake⟩ | ⟨ep, ep', next', x', hep, -, heff, htake⟩
  · rw [htake]
    exact h
  · rw [htake]
    have hflight : (ep.take seqnum maxLen).2.inFlight = ep.inFlight := by
      unfold Endpoint.take
      cases ep.captured <;> rfl
    have hput : Inv holds (p.put a (ep.take seqnum maxLen).2 p.next) x :=
      h.keep hep ((h.endpoint a ep hep).take seqnum maxLen) fun s hs => hflight ▸ hs
    exact hput.armed_put hdev hep heff

/-- A completion: the backend has given the URB up, and the endpoint that had it in flight has
nothing in flight before it is armed again. -/
theorem deliver (hdev : Keeps dev holds) {st : Backed δ} (h : Inv holds st.p (st.d, st.record))
    (seqnum : UInt32) (status : Int32) (data : Bytes) {d : δ}
    (hgone : ∀ s, INTERNAL_BASE ≤ s → s ≠ seqnum → holds st.d s → holds d s) :
    Inv holds
      (st.p.deliver (recorded dev) seqnum status data (d, st.recordCompletion seqnum status)).2.1
      (st.p.deliver (recorded dev) seqnum status data
        (d, st.recordCompletion seqnum status)).2.2 := by
  rw [Backed.recordCompletion]
  rcases deliver_spec (recorded dev) st.p seqnum status data
      (d, st.recordCompletion seqnum status) with
    ⟨hnone, hown, hdel⟩ | ⟨a, ep, ep', next', x', hown, hep, hfl, heff, hdel⟩
  · rw [Backed.recordCompletion, hown] at hdel
    rw [hown, hdel]
    refine h.device (fun _ => rfl) fun a ep s hep hs => ?_
    obtain ⟨hbase, hheld⟩ := h.inFlight a ep s hep hs
    refine hgone s hbase ?_ hheld
    rintro rfl
    exact hnone a ep hep hs
  · rw [Backed.recordCompletion, hown] at hdel heff
    rw [hown, hdel]
    refine armed_put hdev hep (h.put hep ?_ h.next (fun b hb => ?_) (fun b e s hb he hs => ?_)
      fun s hs => ?_) heff
    · have hsound := (h.endpoint a ep hep).deliver status data
      rw [failures, if_pos rfl]
      exact hsound
    · rw [failures, if_neg hb.symm]
    · obtain ⟨hbase, hheld⟩ := h.inFlight b e s he hs
      refine hgone s hbase ?_ hheld
      rintro rfl
      exact hb (h.distinct b a e ep s he hep hs hfl)
    · rw [ep.deliver_inFlight] at hs
      cases hs

theorem unlink (h : Inv holds p x) (seqnum : UInt32) : Inv holds (p.unlink seqnum).2 x := by
  rcases unlink_spec p seqnum with ⟨-, hun⟩ | ⟨a, ep, -, hep, -, hun⟩
  · rw [hun]
    exact h
  · rw [hun]
    obtain ⟨hdepth, -, hdisabled, herrors⟩ := h.endpoint a ep hep
    exact h.keep hep ⟨hdepth, nofun, hdisabled, herrors⟩ fun _ hs => hs

theorem shutdown (h : Inv holds p x) : Inv holds (p.shutdown (recorded dev) x).1
    (p.shutdown (recorded dev) x).2 := by
  have hep : ∀ a ep, (p.shutdown (recorded dev) x).1.ep? a = some ep →
      ∃ ep₀ : Endpoint, ep = ep₀.shutdown := by
    intro a ep hep
    rw [ep?_shutdown] at hep
    obtain ⟨ep₀, -, heq⟩ := Option.map_eq_some_iff.mp hep
    exact ⟨ep₀, heq.symm⟩
  refine ⟨fun a ep hep' => ?_, ?_, fun a ep s hep' hs => ?_, fun a b ep ep' s hep' _ hs => ?_⟩
  · obtain ⟨ep₀, rfl⟩ := hep a ep hep'
    exact ep₀.sound_shutdown _
  · rw [next_shutdown]
    exact h.next
  · obtain ⟨ep₀, rfl⟩ := hep a ep hep'
    cases hs
  · obtain ⟨ep₀, rfl⟩ := hep a ep hep'
    cases hs

end Inv

section

variable {holds : δ → UInt32 → Prop} {dev : UsbBackend δ}

theorem inv_step (hdev : Keeps dev holds) {st st' : Backed δ} {call : Call δ}
    (h : Inv holds st.p (st.d, st.record)) (hok : Honest holds st call)
    (hstep : callStep dev st call = some st') : Inv holds st'.p (st'.d, st'.record) := by
  obtain rfl := Option.some.inj hstep
  cases call with
  | arm => exact h.arm hdev
  | take a seqnum maxLen => exact h.take hdev a seqnum maxLen
  | deliver seqnum status data d => exact h.deliver hdev seqnum status data hok
  | unlink seqnum => exact h.unlink seqnum
  | shutdown => exact h.shutdown
  | others d =>
    refine h.device (fun _ => rfl) fun a ep s hep hs => ?_
    obtain ⟨hbase, hheld⟩ := h.inFlight a ep s hep hs
    exact hok s hbase hheld

theorem inv_of_reach (hdev : Keeps dev holds) {st : Backed δ}
    (h : Reach (callStep dev) Initial (Honest holds) st) : Inv holds st.p (st.d, st.record) := by
  refine h.invariant (fun st => Inv holds st.p (st.d, st.record)) ?_ ?_
  · rintro ⟨p, d, record⟩ ⟨endpoints, enabled, rfl, rfl⟩
    exact Inv.initial d
  · exact fun st call st' hinv hok hstep => inv_step hdev hinv hok hstep

end

/-! ### The iteration order -/

/-- The same prefetcher with its endpoints in another order. -/
inductive Reordered : Prefetch → Prefetch → Prop
  | disabled : Reordered ⟨none⟩ ⟨none⟩
  | enabled {inner inner' : Inner} : inner.eps.entries.Perm inner'.eps.entries →
      inner.nextSeqnum = inner'.nextSeqnum → Reordered ⟨some inner⟩ ⟨some inner'⟩

namespace Reordered

variable {p p' : Prefetch}

theorem ep?_eq (h : Reordered p p') (a : UInt8) : p'.ep? a = p.ep? a := by
  cases h with
  | disabled => rfl
  | enabled hperm _ => exact (AList.perm_lookup hperm).symm

theorem next_eq (h : Reordered p p') : p'.next = p.next := by
  cases h with
  | disabled => rfl
  | enabled _ hnext => exact hnext.symm

theorem put (h : Reordered p p') (a : UInt8) (ep : Endpoint) (next : UInt32) :
    Reordered (p.put a ep next) (p'.put a ep next) := by
  cases h with
  | disabled => exact .disabled
  | enabled hperm _ => exact .enabled (AList.perm_replace hperm) rfl

end Reordered

/-- Arming does one thing. -/
theorem armEffect_unique {dev : UsbBackend δ} {a : UInt8} {ep ep₁ ep₂ : Endpoint}
    {next n₁ n₂ : UInt32} {d d₁ d₂ : δ} (h₁ : ArmEffect dev a ep next d ep₁ n₁ d₁)
    (h₂ : ArmEffect dev a ep next d ep₂ n₂ d₂) : ep₁ = ep₂ ∧ n₁ = n₂ ∧ d₁ = d₂ := by
  have hbusy : ep.disabled = true ∨ ep.inFlight.isSome → ep.disabled = false →
      ep.inFlight = none → False := by
    rintro (hdis | hfl) hen hnone
    · exact absurd (hen.symm.trans hdis) nofun
    · rw [hnone] at hfl
      cases hfl
  cases h₁ with
  | idle hidle =>
    cases h₂ with
    | idle _ => exact ⟨rfl, rfl, rfl⟩
    | accepted hen hnone _ => exact (hbusy hidle hen hnone).elim
    | refused hen hnone _ => exact (hbusy hidle hen hnone).elim
  | accepted hen hnone hsub =>
    cases h₂ with
    | idle hidle => exact (hbusy hidle hen hnone).elim
    | accepted _ _ hsub' =>
      obtain ⟨-, rfl⟩ := Prod.mk.inj (hsub.symm.trans hsub')
      exact ⟨rfl, rfl, rfl⟩
    | refused _ _ hsub' =>
      obtain ⟨hres, -⟩ := Prod.mk.inj (hsub.symm.trans hsub')
      cases hres
  | refused hen hnone hsub =>
    cases h₂ with
    | idle hidle => exact (hbusy hidle hen hnone).elim
    | accepted _ _ hsub' =>
      obtain ⟨hres, -⟩ := Prod.mk.inj (hsub.symm.trans hsub')
      cases hres
    | refused _ _ hsub' =>
      obtain ⟨hres, rfl⟩ := Prod.mk.inj (hsub.symm.trans hsub')
      obtain rfl := Except.error.inj hres
      exact ⟨rfl, rfl, rfl⟩

/-- **Deliver**, with the endpoints in another order: if no two of them have the same URB in flight,
the result is the same. -/
theorem deliver_reordered (dev : UsbBackend δ) {p p' : Prefetch} (h : Reordered p p')
    (hdistinct : ∀ a b ep ep' s, p.ep? a = some ep → p.ep? b = some ep' →
      ep.inFlight = some s → ep'.inFlight = some s → a = b)
    (seqnum : UInt32) (status : Int32) (data : Bytes) (d : δ) :
    (p'.deliver dev seqnum status data d).1 = (p.deliver dev seqnum status data d).1 ∧
      (p'.deliver dev seqnum status data d).2.2 = (p.deliver dev seqnum status data d).2.2 ∧
      Reordered (p.deliver dev seqnum status data d).2.1
        (p'.deliver dev seqnum status data d).2.1 := by
  rcases deliver_spec dev p seqnum status data d with
    ⟨hnone, -, hdel⟩ | ⟨a, ep, ep₁, n₁, d₁, -, hep, hfl, heff, hdel⟩ <;>
  rcases deliver_spec dev p' seqnum status data d with
    ⟨hnone', -, hdel'⟩ | ⟨a', ep', ep₂, n₂, d₂, -, hep', hfl', heff', hdel'⟩
  · rw [hdel, hdel']
    exact ⟨rfl, rfl, h⟩
  · rw [h.ep?_eq] at hep'
    exact absurd hfl' (hnone a' ep' hep')
  · rw [← h.ep?_eq] at hep
    exact absurd hfl (hnone' a ep hep)
  · rw [h.ep?_eq] at hep'
    obtain rfl := hdistinct a a' ep ep' seqnum hep hep' hfl hfl'
    obtain rfl := Option.some.inj (hep.symm.trans hep')
    rw [h.next_eq] at heff'
    obtain ⟨rfl, rfl, rfl⟩ := armEffect_unique heff heff'
    rw [hdel, hdel']
    exact ⟨rfl, rfl, h.put a ep₁ n₁⟩

/-! ### The result -/

section

variable {holds : δ → UInt32 → Prop} {dev : UsbBackend δ}

/-- **The representation invariant.** After every sequence of operations: what is buffered and who
waits, when an endpoint is disabled and when it is not, where the internal seqnums are, and that no
two endpoints have the same URB in flight, so that `deliver` does not depend on the order of the
endpoints. -/
theorem representation_invariant (hdev : Keeps dev holds) {st : Backed δ}
    (h : Reach (callStep dev) Initial (Honest holds) st) :
    (∀ a ep, st.p.ep? a = some ep →
      ep.captured.length ≤ DEPTH ∧
      (ep.waiting.isSome = true → ep.captured = []) ∧
      (ep.disabled = true → ep.inFlight = none) ∧
      (ep.disabled = false → failures a st.record < MAX_CONSECUTIVE_ERRORS) ∧
      ∀ s, ep.inFlight = some s → INTERNAL_BASE ≤ s) ∧
    INTERNAL_BASE ≤ st.p.next ∧
    (∀ a b ep ep' s, st.p.ep? a = some ep → st.p.ep? b = some ep' → ep.inFlight = some s →
      ep'.inFlight = some s → a = b) ∧
    ∀ p', Reordered st.p p' → ∀ seqnum status data d,
      (p'.deliver dev seqnum status data d).1 = (st.p.deliver dev seqnum status data d).1 ∧
      (p'.deliver dev seqnum status data d).2.2 = (st.p.deliver dev seqnum status data d).2.2 ∧
      Reordered (st.p.deliver dev seqnum status data d).2.1
        (p'.deliver dev seqnum status data d).2.1 := by
  have hinv := inv_of_reach hdev h
  refine ⟨fun a ep hep => ?_, hinv.next, hinv.distinct,
    fun p' hp' => deliver_reordered dev hp' hinv.distinct⟩
  obtain ⟨hdepth, hwaiting, hdisabled, herrors⟩ := hinv.endpoint a ep hep
  exact ⟨hdepth, hwaiting, hdisabled, fun hen => (herrors hen).2,
    fun s hs => (hinv.inFlight a ep s hep hs).1⟩

end

/-! ### The usbfs backend -/

/-- The backend holds the seqnums in the table of the device. -/
def inTable (x : DevState × List Ioctl) (s : UInt32) : Prop := s ∈ x.1.pending

theorem keeps_backend (d : UsbfsDevice) : Keeps d.backend inTable where
  accepted req x x' h := by
    have hcall : d.backend.submit req x = ((d.submit req (x.2.headD .ok) x.1).1,
        (d.submit req (x.2.headD .ok) x.1).2, x.2.tail) := rfl
    rcases d.submit_spec req (x.2.headD .ok) x.1 with ⟨e, hsub⟩ | ⟨hfree, ep, typ, hsub⟩
    · rw [hcall, hsub] at h
      cases h
    · rw [hcall, hsub] at h
      obtain ⟨-, rfl⟩ := Prod.mk.inj h
      refine ⟨hfree, ?_⟩
      rw [inTable, ← AList.lookup_isSome, DevState.lookup_accept]
      exact Option.isSome_of_eq_some (if_pos rfl)
  submit req x s h := by
    rw [inTable, ← AList.lookup_isSome] at h ⊢
    change ((d.submit req (x.2.headD .ok) x.1).2.pending.lookup s).isSome = true
    rcases d.submit_spec req (x.2.headD .ok) x.1 with ⟨e, hsub⟩ | ⟨hfree, ep, typ, hsub⟩
    · rwa [hsub]
    · rw [hsub, DevState.lookup_accept]
      split_ifs
      · rfl
      · exact h
  unlink seqnum x s h := by
    rw [inTable, ← AList.lookup_isSome] at h
    rw [inTable, ← AList.lookup_isSome]
    change ((x.1.unlink seqnum (x.2.headD .ok)).2.pending.lookup s).isSome = true
    rw [DevState.lookup_unlink]
    split_ifs
    · rwa [Option.isSome_map]
    · exact h

/-- A reap gives up the URB that it reports. -/
theorem honest_reap {st : Backed (DevState × List Ioctl)} {k : DevState.KernelUrb}
    {c : UrbCompletion} {dev : DevState} (h : st.d.1.reap k = some (c, dev))
    (answers : List Ioctl) :
    Honest inTable st (.deliver c.seqnum c.status c.data (dev, answers)) := by
  intro s _ hs hheld
  obtain ⟨e, -, -, hseq, hlookup⟩ := DevState.reap_spec h
  rw [inTable, ← AList.lookup_isSome] at hheld ⊢
  change (dev.pending.lookup s).isSome = true
  rwa [hlookup, if_neg (hseq ▸ hs)]

/-- A controller with two interrupt IN endpoints. -/
def twoEndpoints : UsbfsDevice where
  epTypes := AList.insert 0x81 .interrupt (AList.insert 0x82 .interrupt ∅)
  caps := 0
  maxTransfer := 4096
  interfaceNumbers := [0]
  interruptInEndpoints := [(0x81, 64), (0x82, 64)]

/-- A call that leaves the backend to the prefetcher. -/
def Call.own : Call δ → Bool
  | .deliver _ _ _ _ => false
  | .others _ => false
  | _ => true

/-- Both endpoints are armed, of which one is refused, and a client waits on the other. -/
theorem representation_invariant_twoEndpoints :
    ∃ st, Reach (callStep twoEndpoints.backend) Initial (Honest inTable) st ∧
      (st.p.ep? 0x81).any (fun ep => ep.inFlight = some INTERNAL_BASE && ep.waiting.isSome) ∧
      (st.p.ep? 0x82).any (fun ep => ep.errors = 1) ∧ INTERNAL_BASE ≤ st.p.next ∧
      ∀ ep, st.p.ep? 0x81 = some ep → ep.waiting.isSome = true → ep.captured = [] := by
  let start : Backed (DevState × List Ioctl) :=
    ⟨new twoEndpoints.interruptInEndpoints true, (DevState.fresh, [.err EPIPE]), []⟩
  have hstart : Initial start := ⟨twoEndpoints.interruptInEndpoints, true, rfl, rfl⟩
  have hown : ∀ (st : Backed (DevState × List Ioctl)) call, call.own = true →
      Honest inTable st call := by
    intro st call h
    cases call <;> trivial
  have hrun : (runIf (callStep twoEndpoints.backend) (fun _ call => call.own) start
      [.arm, .take 0x81 5 64]).any (fun st =>
        (st.p.ep? 0x81).any (fun ep => ep.inFlight = some INTERNAL_BASE && ep.waiting.isSome) &&
          (st.p.ep? 0x82).any fun ep => ep.errors = 1) = true := by
    decide +kernel
  obtain ⟨st, hreach, htest⟩ := exists_reach_of_runIf Initial hown hstart hrun
  obtain ⟨hwaiting, herrors⟩ := Bool.and_eq_true_iff.mp htest
  obtain ⟨hendpoint, hnext, -⟩ := representation_invariant (keeps_backend twoEndpoints) hreach
  exact ⟨st, hreach, hwaiting, herrors, hnext, fun ep hep => (hendpoint 0x81 ep hep).2.1⟩

end Prefetch

end Padwire
