import Padwire.Server.SessionSteps

/-!
# Where every client submit is

A submit that has been read is a token: it is in the reader's hand, in the table of URBs, with
the prefetcher as a waiter, or in the reaper's hand, until its reply is put into the outbox.
`tokens_step` follows the tokens through one step: none is ever made except by reading a
submit, and a reply uses one up. Hence no submit is answered twice, in any interleaving.

The one step at which a running session loses a token without an unlink is a reap that takes a
client's completion for one of the prefetcher's. `no_submit_lost`: in every run without such a
reap, and with prefetch off, every submit is accounted for.
-/

namespace Padwire

variable {d : UsbfsDevice} {st st' : State} {a : Action}

/-! ### Whose entry it is -/

/-- An unmarked entry outside the internal range is a submit of this session's client, and
none is left when no client is being served. -/
structure Owned (st : State) : Prop where
  next : Prefetch.owns st.prefetch.next = true
  request : ∀ req, st.main.load.request? = some req → req.origin = .client
  client : ∀ s e, st.dev.pending.lookup s = some e → Prefetch.owns s = false →
    e.unlinked = false → e.urb.origin = .client
  settled : st.main.between = true → ∀ s e, st.dev.pending.lookup s = some e →
    Prefetch.owns s = false → e.unlinked = true

theorem owned_initial : Owned State.initial where
  next := by decide
  request req h := by cases h
  client s e h := by simp [State.initial, DevState.fresh] at h
  settled _ s e h := by simp [State.initial, DevState.fresh] at h

/-- A step that leaves the counter in the internal range and adds only entries of the client or
of the internal range. -/
private theorem owned_of (h : Owned st) (hnext : Prefetch.owns st'.prefetch.next = true)
    (hbetween : st'.main.between = false)
    (hreq : ∀ req, st'.main.load.request? = some req → req.origin = .client)
    (hlook : ∀ s e, st'.dev.pending.lookup s = some e →
      st.dev.pending.lookup s = some e ∨ e.unlinked = true ∨ Prefetch.owns s = true ∨
        e.urb.origin = .client) : Owned st' where
  next := hnext
  request := hreq
  client s e he hs hu := by
    rcases hlook s e he with h' | h' | h' | h'
    · exact h.client s e h' hs hu
    · rw [hu] at h'
      cases h'
    · rw [hs] at h'
      cases h'
    · exact h'
  settled hb := by
    rw [hbetween] at hb
    cases hb

/-- A step that leaves the table and the counter alone. -/
private theorem owned_same (h : Owned st) (hbetween : st'.main.between = false)
    (hreq : ∀ req, st'.main.load.request? = some req → req.origin = .client)
    (hnext : st'.prefetch.next = st.prefetch.next := by rfl)
    (hdev : st'.dev = st.dev := by rfl) : Owned st' :=
  owned_of h (hnext ▸ h.next) hbetween hreq fun s e he => .inl (by rwa [hdev] at he)

/-- A step that takes an entry out of the table. -/
private theorem owned_reap {k : UInt32} (h : Owned st) (hbetween : st'.main.between = false)
    (hlook : ∀ s, st'.dev.pending.lookup s = if s = k then none else st.dev.pending.lookup s)
    (hmain : st'.main = st.main := by rfl)
    (hprefetch : st'.prefetch = st.prefetch := by rfl) : Owned st' := by
  refine owned_of h (hprefetch ▸ h.next) hbetween (hmain ▸ h.request) fun s e he => ?_
  rw [hlook] at he
  split_ifs at he
  exact .inl he

private theorem owns_next_of_arming {address : UInt8} {ep ep' : Endpoint} {next next' : UInt32}
    {dev dev' : DevState} (h : Arming d address ep next dev ep' next' dev')
    (hnext : Prefetch.owns next = true) : Prefetch.owns next' = true := by
  rcases h.next_cases with rfl | rfl
  · exact hnext
  · exact decide_eq_true (base_le_nextInternal next)

private theorem owned_arming {address : UInt8} {ep ep' : Endpoint} {next next' : UInt32}
    {dev dev' : DevState} (h : Arming d address ep next dev ep' next' dev')
    (hnext : Prefetch.owns next = true) {s : UInt32} {e : Entry}
    (he : dev'.pending.lookup s = some e) :
    dev.pending.lookup s = some e ∨ Prefetch.owns s = true := by
  rcases h.lookup_cases s with hsame | ⟨rfl, -, -⟩
  · exact .inl (hsame ▸ he)
  · exact .inr hnext

/-- A step that arms an endpoint. -/
private theorem owned_put {address : UInt8} {ep ep₀ ep' : Endpoint} {next' : UInt32}
    {dev' : DevState} (h : Owned st) (hep : st.prefetch.ep? address = some ep)
    (harm : Arming d address ep₀ st.prefetch.next st.dev ep' next' dev')
    (hbetween : st'.main.between = false)
    (hreq : ∀ req, st'.main.load.request? = some req → req.origin = .client)
    (hprefetch : st'.prefetch = st.prefetch.put address ep' next' := by rfl)
    (hdev : st'.dev = dev' := by rfl) : Owned st' := by
  refine owned_of h ?_ hbetween hreq fun s e he => ?_
  · rw [hprefetch, Prefetch.next_put hep]
    exact owns_next_of_arming harm h.next
  · rw [hdev] at he
    exact (owned_arming harm h.next he).imp_right fun hs => .inr (.inl hs)

private theorem owned_start {opts : SessionOpts} {answers : List Ioctl} (h : Owned st)
    (hb : st.main.between = true) : Owned (start d opts answers st.dev) := by
  have key : Prefetch.owns (start d opts answers st.dev).prefetch.next = true ∧
      ∀ s e, (start d opts answers st.dev).dev.pending.lookup s = some e →
        Prefetch.owns s = false → e.unlinked = true := by
    refine start_rule (fun p dev => Prefetch.owns p.next = true ∧
      ∀ s e, dev.pending.lookup s = some e → Prefetch.owns s = false → e.unlinked = true) ?_ ?_
    · rintro p dev b ep ep' next' dev' ⟨hnext, hall⟩ hep harm
      refine ⟨by rw [Prefetch.next_put hep]; exact owns_next_of_arming harm hnext, ?_⟩
      intro s e he hs
      rcases owned_arming harm hnext he with h' | h'
      · exact hall s e h' hs
      · rw [hs] at h'
        cases h'
    · refine ⟨by rw [Prefetch.next_new]; decide, fun s e he hs => ?_⟩
      rw [DevState.lookup_age] at he
      obtain ⟨e₀, h₀, rfl⟩ := Option.map_eq_some_iff.mp he
      exact h.settled hb s e₀ h₀ hs
  refine ⟨key.1, fun req h => (by cases h), fun s e he hs hu => ?_, fun _ => key.2⟩
  rw [key.2 s e he hs] at hu
  cases hu

theorem owned_step (hc : Control st) (h : Owned st) (heff : Effect d st a st') : Owned st' := by
  cases heff with
  | quiet hq =>
    refine ⟨by rw [hq.prefetch]; exact h.next, by rw [hq.main]; exact h.request, ?_,
      fun hb => ?_⟩
    · rw [hq.dev]
      exact h.client
    · rw [hq.dev]
      exact h.settled (hq.between hb)
  | started hmain => exact owned_start h (by rcases hmain with hm | hm <;> rw [hm] <;> rfl)
  | read hmain _ hpc =>
    refine owned_same h (MainPc.between_of_inside (dispatch_inside hpc)) fun req hreq => ?_
    obtain ⟨c, -, rfl⟩ := request_of_dispatch hpc hreq
    rfl
  | takePass hmain _ =>
    refine owned_same h rfl fun req hreq => h.request req ?_
    rw [hmain]
    exact hreq
  | takeReady _ hep _ _ harm => exact owned_put h hep harm rfl fun req h => by cases h
  | takeWaiting _ hep _ _ harm => exact owned_put h hep harm rfl fun req h => by cases h
  | submitted epAddr typ hmain _ =>
    refine owned_of h h.next rfl (fun req h => by cases h) fun s e he => ?_
    rw [DevState.lookup_accept] at he
    split_ifs at he
    · rw [← Option.some.inj he]
      exact .inr (.inr (.inr (h.request _ (by rw [hmain]; rfl))))
    · exact .inl he
  | submitRefused _ _ _ => exact owned_same h rfl fun req h => by cases h
  | submitFatal _ => exact owned_same h rfl fun req h => by cases h
  | unlinkHit _ hep _ =>
    exact owned_same h rfl (fun req h => by cases h) (Prefetch.next_put hep _ _)
  | unlinkMiss _ _ => exact owned_same h rfl fun req h => by cases h
  | devUnlink _ =>
    refine owned_of h h.next rfl (fun req h => by cases h) fun s e he => ?_
    rw [DevState.lookup_unlink] at he
    split_ifs at he
    · obtain ⟨e₀, -, rfl⟩ := Option.map_eq_some_iff.mp he
      exact .inr (.inl rfl)
    · exact .inl he
  | mainSent _ _ => exact owned_same h rfl fun req h => by cases h
  | mainDropped _ _ => exact owned_same h rfl fun req h => by cases h
  | shutdown _ =>
    refine owned_of h ?_ rfl (fun req h => by cases h) fun s e he => ?_
    · rw [Prefetch.next_shutdown]
      exact h.next
    · rcases lookup_shutdown st.prefetch st.dev _ s with hs | hs
      · exact .inl (hs ▸ he)
      · rw [hs] at he
        obtain ⟨e₀, -, rfl⟩ := Option.map_eq_some_iff.mp he
        exact .inr (.inl rfl)
  | cancelled _ =>
    -- whether or not the drain has finished, what it leaves is marked
    refine ⟨h.next, fun req h => (by cases h), fun s e he _ hu => ?_, fun _ s e he _ => ?_⟩
    · rw [(DevState.lookup_of_cancelPending he).1] at hu
      cases hu
    · exact (DevState.lookup_of_cancelPending he).1
  | reapDropped hreaper _ _ hlook =>
    exact owned_reap h (hc.between_of_reaper (by simp [hreaper])) hlook
  | reapOwned hreaper _ _ hlook _ _ _ =>
    exact owned_reap h (hc.between_of_reaper (by simp [hreaper])) hlook
  | reapClient hreaper _ _ hlook _ _ _ =>
    exact owned_reap h (hc.between_of_reaper (by simp [hreaper])) hlook
  | strayed hreaper _ =>
    exact owned_same h (hc.between_of_reaper (by simp [hreaper])) h.request
  | delivered hreaper hep _ harm =>
    exact owned_put h hep harm (hc.between_of_reaper (by simp [hreaper])) h.request
  | reaperSent hreaper _ =>
    exact owned_same h (hc.between_of_reaper (by simp [hreaper])) h.request
  | reaperDropped hreaper =>
    exact owned_same h (hc.between_of_reaper (by simp [hreaper])) h.request

theorem owned_of_reach {ok : State → Action → Prop}
    (h : Reach (step d) (· = State.initial) ok st) : Owned st :=
  h.session_invariant Owned owned_initial fun _ _ _ hr hown _ heff =>
    owned_step (control_of_reach hr) hown heff

/-! ### Tokens -/

/-- The reply answers this submit. -/
def Out.answers (s : UInt32) (out : Out) : Bool :=
  match out.reply with
  | .retSubmit seqnum _ _ => seqnum = s
  | .retUnlink _ _ => false

/-- The seqnum of a submit. -/
def Pdu.submit? (p : Pdu) : Option UInt32 :=
  match p.header.body with
  | .cmdSubmit _ => some p.header.base.seqnum
  | _ => none

/-- The command is a submit under this seqnum. -/
def Pdu.submits (s : UInt32) (p : Pdu) : Bool := p.submit? == some s

/-- The seqnums of the submits read so far. -/
def State.submits (st : State) : List UInt32 := st.log.filterMap Pdu.submit?

/-- The reader holds this submit or the reply to it. -/
def MainLoad.holds (s : UInt32) : MainLoad → Bool
  | .take req | .submit req => req.seqnum = s
  | .reply out => out.answers s
  | _ => false

/-- The reaper holds the reply to this submit. -/
def ReaperLoad.holds (s : UInt32) : ReaperLoad → Bool
  | .reply out => out.answers s
  | _ => false

/-- The URB of this submit is in the table, not marked as unlinked. -/
def DevState.live (dev : DevState) (s : UInt32) : Bool :=
  (dev.pending.lookup s).any fun e => !e.unlinked && e.urb.origin = .client

/-- How many replies to this submit have been put into the outbox. -/
def State.posted (st : State) (s : UInt32) : ℕ := st.outbox.countP (Out.answers s)

/-- How many times this submit has been read. -/
def State.submitted (st : State) (s : UInt32) : ℕ := st.log.countP (Pdu.submits s)

/-- In how many places this submit is on its way to a reply. -/
def State.tokens (st : State) (s : UInt32) : ℕ :=
  (st.main.load.holds s).toNat + (st.reaper.load.holds s).toNat + (st.dev.live s).toNat +
    st.prefetch.waiters s

theorem holds_of_dispatch {pdu : Pdu} {pc : MainPc} (h : dispatch pdu = some pc) (s : UInt32) :
    pc.load.holds s = pdu.submits s := by
  cases dispatched h with
  | iso hbody => simp [Pdu.submits, Pdu.submit?, hbody]; rfl
  | take hbody _ => simp [Pdu.submits, Pdu.submit?, hbody]; rfl
  | submit hbody => simp [Pdu.submits, Pdu.submit?, hbody]; rfl
  | unlink hbody => simp [Pdu.submits, Pdu.submit?, hbody]; rfl

/-- A client that does not reuse seqnums submits each at most once. -/
theorem submitted_le_one (h : st.submits.Nodup) (s : UInt32) : st.submitted s ≤ 1 := by
  have hcount := List.nodup_iff_count_le_one.mp h s
  rwa [State.submits, List.count_filterMap] at hcount

theorem holds_unlinkOut (seqnum target : UInt32) (cancelled : Bool) (s : UInt32) :
    (unlinkOut seqnum target cancelled).answers s = false := rfl

theorem live_eq_of_lookup {dev dev' : DevState} {s : UInt32}
    (h : dev'.pending.lookup s = dev.pending.lookup s) : dev'.live s = dev.live s := by
  rw [DevState.live, h, DevState.live]

theorem Arming.live_eq {address : UInt8} {ep ep' : Endpoint} {next next' : UInt32}
    {dev dev' : DevState} (h : Arming d address ep next dev ep' next' dev') (s : UInt32) :
    dev'.live s = dev.live s := by
  rcases h.lookup_cases s with hsame | ⟨-, hnone, e, he, -, horigin⟩
  · exact live_eq_of_lookup hsame
  · simp [DevState.live, hnone, he, horigin]

theorem live_accept {dev : DevState} {req : UrbRequest} {epAddr : UInt8} {typ : UrbType}
    (horigin : req.origin = .client) (s : UInt32) :
    (dev.accept (d.pendingUrb req epAddr typ)).live s =
      (decide (req.seqnum = s) || dev.live s) := by
  unfold DevState.live
  rw [DevState.lookup_accept]
  split_ifs with hs
  · simp [hs, UsbfsDevice.pendingUrb, horigin]
  · have hne : ¬ req.seqnum = s := fun h => hs h.symm
    simp [hne]

theorem live_unlink (dev : DevState) (target : UInt32) (answer : Ioctl) (s : UInt32) :
    (dev.unlink target answer).2.live s = (dev.live s && decide (s ≠ target)) := by
  unfold DevState.live
  rw [DevState.lookup_unlink]
  split_ifs with hs
  · cases dev.pending.lookup s <;> simp [hs, DevState.mark]
  · simp [hs]

theorem live_shutdown {p : Prefetch} {dev : DevState} {answers : List Ioctl} {s : UInt32}
    (h : (p.shutdown d.backend (dev, answers)).2.1.live s = true) : dev.live s = true := by
  rcases lookup_shutdown (d := d) p dev answers s with hs | hs
  · rw [← live_eq_of_lookup hs]
    exact h
  · rw [DevState.live, hs] at h
    cases hl : dev.pending.lookup s with
    | none => simp [hl] at h
    | some e => simp [hl, DevState.mark] at h

theorem live_cancelPending (dev : DevState) (answers : UInt32 → Ioctl)
    (done : List DevState.KernelUrb) (s : UInt32) :
    (dev.cancelPending answers done).live s = false := by
  unfold DevState.live
  cases hl : (dev.cancelPending answers done).pending.lookup s with
  | none => rfl
  | some e => simp [(DevState.lookup_of_cancelPending hl).1]

theorem live_reap {dev dev' : DevState} {k : UInt32}
    (hlook : ∀ s, dev'.pending.lookup s = if s = k then none else dev.pending.lookup s)
    (s : UInt32) :
    dev'.live s = (dev.live s && decide (s ≠ k)) := by
  unfold DevState.live
  rw [hlook]
  split_ifs with hs
  · simp [hs]
  · simp [hs]

theorem waiters_shutdown (p : Prefetch) (dev : DevState) (answers : List Ioctl) (s : UInt32) :
    (p.shutdown d.backend (dev, answers)).1.waiters s = 0 := by
  by_contra hne
  have hpos := Nat.pos_of_ne_zero hne
  obtain ⟨b, ep, hep, hw⟩ := Prefetch.exists_of_waiters_pos hpos
  rw [Prefetch.ep?_shutdown] at hep
  obtain ⟨ep₀, -, rfl⟩ := Option.map_eq_some_iff.mp hep
  cases hw

/-- The endpoint that has taken a completion has no waiter left. -/
theorem waiters_delivered {p : Prefetch} {address : UInt8} {ep ep' : Endpoint}
    {next next' : UInt32} {dev dev' : DevState} {status : Int32} {data : Bytes}
    (hep : p.ep? address = some ep)
    (harm : Arming d address (ep.deliver status data).2 next dev ep' next' dev') (s : UInt32) :
    (p.put address ep' next').waiters s + (ep.waitsFor s).toNat = p.waiters s := by
  have hnone : ep'.waitsFor s = false := by
    rw [Endpoint.waitsFor, harm.waiting_eq, (ep.deliver_waiting _ _).2, Option.any_none]
  have hput := Prefetch.waiters_put hep ep' next' s
  rw [hnone, if_neg Bool.false_ne_true] at hput
  cases hw : ep.waitsFor s
  · rw [hw, if_neg Bool.false_ne_true] at hput
    exact hput
  · rw [hw, if_pos rfl] at hput
    exact hput

/-- A reply put into the outbox adds one to the account of the submit it answers. -/
theorem posted_put (st : State) (h : Holder) (out : Out) (s : UInt32) :
    (st.put h out).posted s = st.posted s + (out.answers s).toNat := by
  unfold State.posted State.put
  rw [List.countP_append, List.countP_singleton]
  cases out.answers s <;> rfl

/-- The reply to a reaped URB answers the submit it was accepted for. -/
theorem answers_completionReply (c : UrbCompletion) (site : Site) (s : UInt32) :
    Out.answers s { reply := completionReply c, site } = decide (c.seqnum = s) := rfl

theorem holds_afterDeliver (address : UInt8) (r : Round) (ep : Endpoint) (status : Int32)
    (data : Bytes) (s : UInt32) :
    (afterDeliver address r (ep.deliver status data).1).load.holds s = ep.waitsFor s := by
  have hreply := (ep.deliver_waiting status data).1
  unfold Endpoint.waitsFor
  cases hw : ep.waiting with
  | none =>
    rw [hw, Option.map_none, Option.map_eq_none_iff] at hreply
    rw [hreply]
    rfl
  | some w =>
    rw [hw, Option.map_some] at hreply
    obtain ⟨⟨s', status', data'⟩, hr, hs⟩ := Option.map_eq_some_iff.mp hreply
    rw [hr, Option.any_some, ← hs]
    rfl

private theorem toNat_and_le (b c : Bool) : (b && c).toNat ≤ b.toNat := by
  cases b <;> cases c <;> decide

/-- **Tokens.** A step makes no token except by reading a submit, and a reply put into the
outbox uses one up. -/
theorem tokens_step (hown : Owned st) (heff : Effect d st a st')
    (hstart : ∀ opts answers, st' ≠ start d opts answers st.dev) (s : UInt32) :
    st'.tokens s + st'.posted s + st.submitted s ≤
      st.tokens s + st.posted s + st'.submitted s := by
  unfold State.tokens State.posted State.submitted
  cases heff with
  | quiet hq => rw [hq.main, hq.reaper, hq.dev, hq.prefetch, hq.outbox, hq.log]
  | started _ => exact absurd rfl (hstart _ _)
  | read hmain _ hpc =>
    simp only [hmain, holds_of_dispatch hpc, List.countP_append, List.countP_singleton]
    cases Pdu.submits s _
    · simp [MainPc.load, MainLoad.holds]
    · simp [MainPc.load, MainLoad.holds]
      omega
  | takePass hmain _ => simp only [hmain, MainPc.load, MainLoad.holds, le_refl]
  | @takeReady _ req ep ep' next' _ _ _ hmain hep _ _ harm =>
    have hput := Prefetch.waiters_put_of_waiting_eq hep harm.waiting_eq next' s
    simp only [hmain, harm.live_eq, hput]
    exact le_refl _
  | @takeWaiting _ req ep ep' next' _ hmain hep _ _ harm =>
    have hwaits : ep'.waitsFor s = decide (req.seqnum = s) := by
      rw [Endpoint.waitsFor, harm.waiting_eq, Option.any_some]
    have hput := Prefetch.waiters_put hep ep' next' s
    simp only [hwaits, decide_eq_true_eq] at hput
    simp only [hmain, harm.live_eq, MainPc.load, MainLoad.holds, Bool.toNat_false]
    by_cases hs : req.seqnum = s
    · simp only [hs, decide_true, Bool.toNat_true, if_true] at hput ⊢
      omega
    · simp only [hs, decide_false, Bool.toNat_false, if_false] at hput ⊢
      omega
  | @submitted _ req epAddr typ hmain _ =>
    have horigin := hown.request req (by rw [hmain]; rfl)
    simp only [hmain, live_accept horigin, MainPc.load, MainLoad.holds, Bool.toNat_false]
    by_cases hs : req.seqnum = s
    · simp only [hs, decide_true, Bool.true_or, Bool.toNat_true]
      omega
    · simp only [hs, decide_false, Bool.false_or, Bool.toNat_false, le_refl]
  | submitRefused _ hmain _ =>
    simp only [hmain]
    exact le_refl _
  | submitFatal hmain =>
    simp only [hmain, MainPc.load, MainLoad.holds, Bool.toNat_false]
    omega
  | @unlinkHit _ _ _ ep hmain hep _ =>
    -- the waiter's token is given up, and the reply to the unlink answers no submit
    have hput := Prefetch.waiters_put hep { ep with waiting := none } st.prefetch.next s
    simp only [hmain, MainPc.load, MainLoad.holds, holds_unlinkOut, Bool.toNat_false]
    simp only [Endpoint.waitsFor, Option.any_none, Bool.false_eq_true, if_false] at hput
    omega
  | unlinkMiss hmain _ => simp only [hmain, MainPc.load, MainLoad.holds, le_refl]
  | @devUnlink answer _ target hmain =>
    have hle : ((st.dev.unlink target answer).2.live s).toNat ≤ (st.dev.live s).toNat := by
      rw [live_unlink]
      exact toNat_and_le _ _
    simp only [hmain, MainPc.load, MainLoad.holds, holds_unlinkOut, Bool.toNat_false]
    omega
  | @mainSent out _ hmain _ =>
    have hput := posted_put st .reader out s
    simp only [State.posted, State.put] at hput
    simp only [State.put, hmain, MainPc.load, MainLoad.holds, Bool.toNat_false]
    omega
  | mainDropped hmain _ =>
    simp only [State.drop, hmain, MainPc.load, MainLoad.holds, Bool.toNat_false]
    omega
  | @shutdown answers hmain =>
    have hle : ((st.prefetch.shutdown d.backend (st.dev, answers)).2.1.live s).toNat ≤
        (st.dev.live s).toNat := by
      cases hl : (st.prefetch.shutdown d.backend (st.dev, answers)).2.1.live s with
      | false => exact Nat.zero_le _
      | true => rw [live_shutdown hl]
    simp only [hmain, MainPc.load, MainLoad.holds, waiters_shutdown, Bool.toNat_false]
    omega
  | cancelled hmain =>
    simp only [hmain, MainPc.load, MainLoad.holds, live_cancelPending, Bool.toNat_false]
    omega
  | @reapDropped k _ _ dev' _ hreaper _ _ hlook =>
    have hle : (dev'.live s).toNat ≤ (st.dev.live s).toNat := by
      rw [live_reap hlook]
      exact toNat_and_le _ _
    dsimp only
    omega
  | @reapOwned k _ _ dev' _ _ _ _ hreaper _ _ hlook _ _ _ =>
    have hle : (dev'.live s).toNat ≤ (st.dev.live s).toNat := by
      rw [live_reap hlook]
      exact toNat_and_le _ _
    simp only [hreaper, ReaperPc.load, ReaperLoad.holds, Bool.toNat_false]
    omega
  | @reapClient k _ e dev' _ _ c _ hreaper he hunl hlook hown' hseq _ =>
    -- outside the internal range an unmarked entry is the client's, so its token was counted
    have hclient : st.dev.live k.seqnum = true := by
      simp [DevState.live, he, hunl, hown.client _ _ he hown' hunl]
    simp only [hreaper, ReaperPc.load, ReaperLoad.holds, answers_completionReply, hseq,
      live_reap hlook, Bool.toNat_false]
    by_cases hs : k.seqnum = s
    · subst hs
      simp [hclient]
    · have hne : s ≠ k.seqnum := fun h => hs h.symm
      simp [hs, hne]
  | strayed hreaper _ => simp only [hreaper, ReaperPc.load, ReaperLoad.holds, le_refl]
  | @delivered _ c r address ep ep' next' dev' hreaper hep _ harm =>
    -- the waiter's token passes to the reaper
    have hput := waiters_delivered hep harm s
    have hbefore : st.reaper.load.holds s = false := by rw [hreaper]; rfl
    dsimp only
    rw [hbefore, holds_afterDeliver, harm.live_eq, Bool.toNat_false]
    omega
  | @reaperSent out _ _ hreaper _ =>
    have hput := posted_put st .reaper out s
    simp only [State.posted, State.put] at hput
    simp only [State.put, hreaper, ReaperPc.load, ReaperLoad.holds, Bool.toNat_false]
    omega
  | reaperDropped hreaper =>
    simp only [State.drop, Round.load_next]
    simp only [ReaperLoad.holds, Bool.toNat_false]
    omega

/-- A step that reads nothing makes no token. -/
theorem tokens_le_of_step
    (hstep : ∀ s, st'.tokens s + st'.posted s + st.submitted s ≤
      st.tokens s + st.posted s + st'.submitted s) (s : UInt32)
    (hout : st.outbox <+: st'.outbox := by exact List.prefix_rfl)
    (hlog : st'.log = st.log := by rfl) : st'.tokens s ≤ st.tokens s := by
  have hs := hstep s
  have hposted : st.posted s ≤ st'.posted s := hout.sublist.countP_le
  rw [State.submitted, State.submitted, hlog] at hs
  omega

/-- A session starts without tokens. -/
theorem tokens_start (opts : SessionOpts) (answers : List Ioctl) (dev : DevState) (s : UInt32) :
    (start d opts answers dev).tokens s = 0 := by
  have key : (start d opts answers dev).dev.live s = false ∧
      (start d opts answers dev).prefetch.waiters s = 0 := by
    refine start_rule (fun p dev => dev.live s = false ∧ p.waiters s = 0) ?_ ⟨?_, ?_⟩
    · rintro p dev b ep ep' next' dev' ⟨hlive, hwait⟩ hep harm
      exact ⟨by rw [harm.live_eq, hlive],
        (Prefetch.waiters_put_of_waiting_eq hep harm.waiting_eq next' s).trans hwait⟩
    · rw [DevState.live, DevState.lookup_age]
      cases dev.pending.lookup s <;> simp
    · by_contra hne
      obtain ⟨b, ep, hep, hw⟩ := Prefetch.exists_of_waiters_pos (Nat.pos_of_ne_zero hne)
      obtain ⟨m, rfl⟩ := Prefetch.ep?_new hep
      cases hw
  have hmain : (start d opts answers dev).main.load.holds s = false := rfl
  have hreaper : (start d opts answers dev).reaper.load.holds s = false := rfl
  simp [State.tokens, key.1, key.2, hmain, hreaper]

/-- The account of tokens: each submit that was read is in at most one place, or answered. -/
theorem tokens_le {ok : State → Action → Prop} (h : Reach (step d) (· = State.initial) ok st)
    (s : UInt32) : st.tokens s + st.posted s ≤ st.submitted s := by
  refine h.session_invariant (fun st => st.tokens s + st.posted s ≤ st.submitted s)
    (Nat.le_refl 0) fun st a st' hr hle _ heff => ?_
  by_cases hstart : ∃ opts answers, st' = start d opts answers st.dev
  · obtain ⟨opts, answers, rfl⟩ := hstart
    rw [tokens_start]
    exact Nat.le_refl 0
  · have hstep := tokens_step (owned_of_reach hr) heff (fun o as h => hstart ⟨o, as, h⟩) s
    omega

/-! ### Unlinks in progress -/

/-- The reply answers an unlink that names this submit. -/
def Out.acks (s : UInt32) (out : Out) : Bool := out.site = .unlinkAck s

/-- The command is an unlink that names this submit. -/
def Pdu.unlinks (s : UInt32) (p : Pdu) : Bool :=
  match p.header.body with
  | .cmdUnlink u => u.unlinkSeqnum = s
  | _ => false

/-- The reader is carrying out an unlink of this submit. -/
def MainLoad.unlinking (s : UInt32) : MainLoad → Bool
  | .unlink target | .devUnlink target => target = s
  | .reply out => out.acks s
  | _ => false

theorem acks_unlinkOut (seqnum target : UInt32) (cancelled : Bool) (s : UInt32) :
    (unlinkOut seqnum target cancelled).acks s = decide (target = s) := by
  simp [unlinkOut, Out.acks]

theorem unlinks_of_dispatch {pdu : Pdu} {pc : MainPc} (h : dispatch pdu = some pc)
    (s : UInt32) : pc.load.unlinking s = pdu.unlinks s := by
  cases dispatched h with
  | iso hbody => rw [Pdu.unlinks, hbody]; simp [MainPc.load, MainLoad.unlinking, Out.acks]
  | take hbody _ => rw [Pdu.unlinks, hbody]; rfl
  | submit hbody => rw [Pdu.unlinks, hbody]; rfl
  | unlink hbody => rw [Pdu.unlinks, hbody]; rfl

/-- An unlink in progress was read. -/
theorem named_of_reach {ok : State → Action → Prop}
    (h : Reach (step d) (· = State.initial) ok st) (s : UInt32)
    (hs : st.main.load.unlinking s = true) : st.log.any (Pdu.unlinks s) = true := by
  have key : st.main.load.unlinking s = true → st.log.any (Pdu.unlinks s) = true := by
    refine h.session_invariant (fun st => st.main.load.unlinking s = true →
      st.log.any (Pdu.unlinks s) = true) (fun h => by cases h) fun st a st' _ ih _ heff => ?_
    cases heff with
    | quiet hq => rw [hq.main, hq.log]; exact ih
    | started _ => exact fun h => by cases h
    | read _ _ hpc =>
      intro hun
      have hpdu := (unlinks_of_dispatch hpc s).symm.trans hun
      simp [hpdu]
    | takeReady _ _ _ _ _ => simp [MainPc.load, MainLoad.unlinking, Out.acks]
    | submitRefused _ _ hsite =>
      rcases hsite with rfl | rfl <;> simp [MainPc.load, MainLoad.unlinking, Out.acks]
    | unlinkHit hmain _ _ =>
      rw [hmain] at ih
      simpa [MainPc.load, MainLoad.unlinking, acks_unlinkOut] using ih
    | unlinkMiss hmain _ => rw [hmain] at ih; exact ih
    | devUnlink hmain =>
      rw [hmain] at ih
      simpa [MainPc.load, MainLoad.unlinking, acks_unlinkOut] using ih
    | takePass _ _ => exact fun h => by cases h
    | takeWaiting _ _ _ _ _ => exact fun h => by cases h
    | submitted _ _ _ _ => exact fun h => by cases h
    | submitFatal _ => exact fun h => by cases h
    | mainSent _ _ => exact fun h => by cases h
    | mainDropped _ _ => exact fun h => by cases h
    | shutdown _ => exact fun h => by cases h
    | cancelled _ => exact fun h => by cases h
    | _ => exact ih
  exact key hs

/-! ### No submit is lost -/

/-- No completion of a client's URB is taken for one of the prefetcher's: what the reaper reaps
is unlinked, or was not submitted by the client, or lies outside the internal range. -/
def NoForeignOwner (st : State) : Action → Prop
  | .reap k _ => ∀ e, st.dev.pending.lookup k.seqnum = some e → e.unlinked = false →
      e.urb.origin = .client → Prefetch.owns k.seqnum = false
  | _ => True

/-- The session is running: its reader is in its loop and nothing has asked it to stop. -/
def State.Running (st : State) : Prop := st.main.live = true ∧ st.stop = false

/-- Where a submit that was read can be. -/
inductive Place
  | posted
  | pending
  | inHand
  | unlinked
  deriving DecidableEq, Repr

/-- The submit is in this place: its reply is in the outbox; its URB is in the table, not
marked; a thread holds it or its reply; or none of these, and an unlink has named it. -/
def State.IsAt (st : State) (s : UInt32) : Place → Prop
  | .posted => ∃ out ∈ st.outbox, out.answers s = true
  | .pending => st.dev.live s = true
  | .inHand => st.main.load.holds s = true ∨ st.reaper.load.holds s = true
  | .unlinked => st.log.any (Pdu.unlinks s) = true ∧ (∀ out ∈ st.outbox, out.answers s = false) ∧
      st.dev.live s = false ∧ st.main.load.holds s = false ∧ st.reaper.load.holds s = false

/-- A submit that was read has a token or a reply, or was unlinked. -/
private def Kept (st : State) (s : UInt32) : Prop :=
  st.prefetch.inner = none → st.Running → 0 < st.submitted s →
    st.log.any (Pdu.unlinks s) = true ∨ 0 < st.tokens s + st.posted s

/-- A step that neither reads nor loses anything. -/
private theorem kept_of {s : UInt32} (h : Kept st s)
    (hprefetch : st'.prefetch.inner = none → st.prefetch.inner = none)
    (hrun : st'.Running → st.Running)
    (htok : st.tokens s + st.posted s ≤ st'.tokens s + st'.posted s)
    (hlog : st'.log = st.log := by rfl) : Kept st' s := by
  intro hp hr hs
  rw [State.submitted, hlog] at hs
  rcases h (hprefetch hp) (hrun hr) hs with hun | hpos
  · rw [hlog]
    exact .inl hun
  · exact .inr (by omega)

private theorem put_inner {p : Prefetch} {address : UInt8} {ep : Endpoint} {next : UInt32}
    (h : (p.put address ep next).inner = none) : p.inner = none :=
  Option.map_eq_none_iff.mp h

private theorem ep?_of_inner_none {p : Prefetch} (h : p.inner = none) (address : UInt8) :
    p.ep? address = none := by
  rw [Prefetch.ep?, h, Option.bind_none]

/-- Reaping an entry that was not a live URB of the client takes no token. -/
private theorem live_reap_of_not_live {dev dev' : DevState} {k : UInt32}
    (hk : dev.live k = false)
    (hlook : ∀ s, dev'.pending.lookup s = if s = k then none else dev.pending.lookup s)
    (s : UInt32) : dev'.live s = dev.live s := by
  rw [live_reap hlook]
  by_cases hs : s = k
  · rw [hs, hk]
    rfl
  · simp [hs]

private theorem kept_step {s : UInt32} (hown : Owned st)
    (hnamed : st.main.load.unlinking s = true → st.log.any (Pdu.unlinks s) = true)
    (h : Kept st s) (hok : NoForeignOwner st a) (heff : Effect d st a st') : Kept st' s := by
  cases heff with
  | quiet hq =>
    refine kept_of h (by rw [hq.prefetch]; exact id) (fun hr => ?_) ?_ hq.log
    · refine ⟨hq.live hr.1, ?_⟩
      cases hs : st.stop with
      | false => rfl
      | true => exact absurd hr.2 (by simp [hq.stop hs])
    · simp only [State.tokens, State.posted, hq.main, hq.reaper, hq.dev, hq.prefetch, hq.outbox,
        le_refl]
  | started _ => exact fun _ _ hs => absurd hs (Nat.lt_irrefl 0)
  | @read _ _ pdu pc hmain _ hpc =>
    intro hp hr hs
    have hholds := holds_of_dispatch hpc s
    by_cases hsub : pdu.submits s = true
    · right
      simp only [State.tokens, hholds, hsub, Bool.toNat_true]
      omega
    · have hlog : 0 < st.submitted s := by
        simpa [State.submitted, List.countP_append, hsub] using hs
      rcases h hp ⟨by rw [hmain]; rfl, hr.2⟩ hlog with hun | hpos
      · left
        rw [List.any_append, hun]
        rfl
      · right
        have hbefore : st.main.load.holds s = false := by rw [hmain]; rfl
        simp only [State.tokens, State.posted, hbefore, hholds, Bool.toNat_false] at hpos ⊢
        omega
  | takePass hmain _ =>
    refine kept_of h id (fun hr => ⟨by rw [hmain]; rfl, hr.2⟩) ?_
    simp only [State.tokens, State.posted, hmain, MainPc.load, MainLoad.holds, le_refl]
  | takeReady _ hep _ _ _ =>
    exact fun hp => absurd hep (by simp [ep?_of_inner_none (put_inner hp)])
  | takeWaiting _ hep _ _ _ =>
    exact fun hp => absurd hep (by simp [ep?_of_inner_none (put_inner hp)])
  | @submitted _ req epAddr typ hmain hfree =>
    refine kept_of h id (fun hr => ⟨by rw [hmain]; rfl, hr.2⟩) ?_
    have horigin := hown.request req (by rw [hmain]; rfl)
    have hlive : st.dev.live req.seqnum = false := by
      simp [DevState.live, AList.lookup_eq_none.mpr hfree]
    simp only [State.tokens, State.posted, hmain, live_accept horigin, MainPc.load, MainLoad.holds,
      Bool.toNat_false]
    by_cases hs : req.seqnum = s
    · rw [hs] at hlive
      simp only [hs, hlive, decide_true, Bool.or_false, Bool.toNat_true, Bool.toNat_false]
      omega
    · simp only [hs, decide_false, Bool.false_or, Bool.toNat_false, le_refl]
  | submitRefused _ hmain _ =>
    refine kept_of h id (fun hr => ⟨by rw [hmain]; rfl, hr.2⟩) ?_
    simp only [State.tokens, State.posted, hmain]
    exact le_refl _
  | submitFatal _ => exact fun _ hr => absurd hr.1 (by simp [MainPc.live])
  | unlinkHit _ hep _ => exact fun hp => absurd hep (by simp [ep?_of_inner_none (put_inner hp)])
  | unlinkMiss hmain _ =>
    refine kept_of h id (fun hr => ⟨by rw [hmain]; rfl, hr.2⟩) ?_
    simp only [State.tokens, State.posted, hmain, MainPc.load, MainLoad.holds, le_refl]
  | @devUnlink answer _ target hmain =>
    by_cases hs : target = s
    · -- the entry it marks loses its token, but this unlink has been read
      have hun : st.log.any (Pdu.unlinks s) = true := by
        refine hnamed ?_
        rw [hmain]
        exact decide_eq_true hs
      exact fun _ _ _ => .inl hun
    · refine kept_of h id (fun hr => ⟨by rw [hmain]; rfl, hr.2⟩) ?_
      have hne : s ≠ target := fun h => hs h.symm
      simp only [State.tokens, State.posted, hmain, live_unlink, MainPc.load, MainLoad.holds,
        holds_unlinkOut, ne_eq, hne, not_false_eq_true, decide_true, Bool.and_true, le_refl]
  | @mainSent out _ hmain _ =>
    refine kept_of h id (fun hr => ⟨by rw [hmain]; rfl, hr.2⟩) ?_
    have hput := posted_put st .reader out s
    simp only [State.posted, State.put] at hput
    simp only [State.put, State.tokens, State.posted, hmain, MainPc.load, MainLoad.holds,
      Bool.toNat_false]
    omega
  | mainDropped _ hstop => exact fun _ hr => absurd hr.2 (by simp [State.drop, hstop])
  | shutdown _ => exact fun _ hr => absurd hr.1 (by simp [MainPc.live])
  | cancelled _ => exact fun _ hr => absurd hr.1 (by simp [MainPc.live])
  | @reapDropped k _ e dev' _ _ he hunl hlook =>
    refine kept_of h id id ?_
    have hk : st.dev.live k.seqnum = false := by simp [DevState.live, he, hunl]
    simp only [State.tokens, State.posted, live_reap_of_not_live hk hlook, le_refl]
  | @reapOwned k _ e dev' _ _ c _ hreaper he hunl hlook hks _ _ =>
    refine kept_of h id id ?_
    -- the condition: what `owns` claims for the prefetcher was not the client's
    have hk : st.dev.live k.seqnum = false := by
      have hforeign : e.urb.origin ≠ .client := fun horigin => by
        rw [hok e he hunl horigin] at hks
        cases hks
      simp [DevState.live, he, hforeign]
    simp only [State.tokens, State.posted, live_reap_of_not_live hk hlook, hreaper, ReaperPc.load,
      ReaperLoad.holds, le_refl]
  | @reapClient k _ e dev' _ _ c _ hreaper he hunl hlook _ hseq _ =>
    refine kept_of h id id ?_
    simp only [State.tokens, State.posted, hreaper, ReaperPc.load, ReaperLoad.holds,
      answers_completionReply, hseq, live_reap hlook, Bool.toNat_false]
    by_cases hs : k.seqnum = s
    · have hle := Bool.toNat_le (st.dev.live s)
      simp only [hs, decide_true, Bool.toNat_true, ne_eq, not_true_eq_false, decide_false,
        Bool.and_false, Bool.toNat_false]
      omega
    · have hne : s ≠ k.seqnum := fun h => hs h.symm
      simp only [hs, hne, decide_false, ne_eq, not_false_eq_true, decide_true, Bool.and_true,
        Bool.toNat_false, le_refl]
  | strayed hreaper _ =>
    refine kept_of h id id ?_
    simp only [State.tokens, State.posted, hreaper, ReaperPc.load, ReaperLoad.holds, le_refl]
  | delivered _ hep _ _ =>
    exact fun hp => absurd hep (by simp [ep?_of_inner_none (put_inner hp)])
  | @reaperSent out _ _ hreaper _ =>
    refine kept_of h id id ?_
    have hput := posted_put st .reaper out s
    simp only [State.posted, State.put] at hput
    simp only [State.put, State.tokens, State.posted, hreaper, ReaperPc.load, ReaperLoad.holds,
      Bool.toNat_false]
    omega
  | reaperDropped _ => exact fun _ hr => absurd hr.2 (by simp)

/-- The places of a submit as numbers. -/
private theorem isAt_iff (s : UInt32) (place : Place) :
    st.IsAt s place ↔
      match place with
      | .posted => 0 < st.posted s
      | .pending => (st.dev.live s).toNat = 1
      | .inHand => 0 < (st.main.load.holds s).toNat + (st.reaper.load.holds s).toNat
      | .unlinked => st.log.any (Pdu.unlinks s) = true ∧ st.posted s = 0 ∧
          (st.dev.live s).toNat = 0 ∧
          (st.main.load.holds s).toNat + (st.reaper.load.holds s).toNat = 0 := by
  cases place with
  | posted => exact List.countP_pos_iff.symm
  | pending => simp [State.IsAt]
  | inHand =>
    unfold State.IsAt
    cases st.main.load.holds s <;> cases st.reaper.load.holds s <;> simp
  | unlinked =>
    have hposted : st.posted s = 0 ↔ ∀ out ∈ st.outbox, out.answers s = false := by
      rw [State.posted, List.countP_eq_zero]
      simp
    unfold State.IsAt
    rw [hposted]
    cases st.main.load.holds s <;> cases st.reaper.load.holds s <;> simp

/-- **No submit is lost.** With prefetch off, in every run in which no completion of a client is
taken for one of the prefetcher's, every submit that a running session has read is in exactly
one place: answered, in the table, in a thread's hand, or unlinked. -/
theorem no_submit_lost (h : Reach (step d) (· = State.initial) NoForeignOwner st)
    (hoff : st.prefetch.inner = none) (hrun : st.Running) (hdistinct : st.submits.Nodup)
    {s : UInt32} (hs : s ∈ st.submits) : ∃! place, st.IsAt s place := by
  have hkept : Kept st s := h.session_invariant (fun st => Kept st s)
    (fun _ _ hpos => absurd hpos (Nat.lt_irrefl 0)) fun st a st' hr ih hok heff =>
      kept_step (owned_of_reach hr) (named_of_reach hr s) ih hok heff
  have hread : 0 < st.submitted s := by
    rw [State.submits, ← List.count_pos_iff, List.count_filterMap] at hs
    exact hs
  have hwaiters : st.prefetch.waiters s = 0 := by rw [Prefetch.waiters, hoff, Option.elim_none]
  -- at most one token or reply, because the submit was read once; at least one, or an unlink
  have hle := tokens_le h s
  have hone := submitted_le_one hdistinct s
  have hplace := hkept hoff hrun hread
  unfold State.tokens at hle hplace
  rw [hwaiters] at hle hplace
  simp only [isAt_iff]
  by_cases hposted : 0 < st.posted s
  · refine ⟨.posted, hposted, fun y hy => ?_⟩
    cases y with
    | posted => rfl
    | _ => dsimp only at hy; omega
  by_cases hpending : (st.dev.live s).toNat = 1
  · refine ⟨.pending, hpending, fun y hy => ?_⟩
    cases y with
    | pending => rfl
    | _ => dsimp only at hy; omega
  by_cases hhand : 0 < (st.main.load.holds s).toNat + (st.reaper.load.holds s).toNat
  · refine ⟨.inHand, hhand, fun y hy => ?_⟩
    cases y with
    | inHand => rfl
    | _ => dsimp only at hy; omega
  have hlive := Bool.toNat_le (st.dev.live s)
  have hun : st.log.any (Pdu.unlinks s) = true := by
    rcases hplace with hun | hpos
    · exact hun
    · omega
  refine ⟨.unlinked, ⟨hun, by omega, by omega, by omega⟩, fun y hy => ?_⟩
  cases y with
  | unlinked => rfl
  | _ => dsimp only at hy; omega

/-- A client's completion in the internal range is swallowed. -/
def swallowed : List Action :=
  begin false ++ receive (.submitIn 0x80000000 1 64) ++ [.take .ok, .submit .ok] ++
    reapOne 0x80000000 0 [7] ++ [.deliver .ok]

/-- With prefetch off, a submit under a seqnum of the internal range can be lost. -/
theorem exists_submit_lost :
    ¬ ∀ st, SessionReachable gamepad st → st.prefetch.inner = none → st.Running →
      st.submits.Nodup → ∀ s ∈ st.submits, ∃! place, st.IsAt s place := by
  intro hall
  obtain ⟨st, hst, hp⟩ := exists_session_of_run gamepad swallowed
    (fun st => st.prefetch.inner.isNone && st.main.live && !st.stop &&
      st.submits = [0x80000000] && st.outbox = [] && !st.dev.live 0x80000000 &&
      st.main.load = .none && st.reaper.load = .none && !st.log.any (Pdu.unlinks 0x80000000))
    (by decide +kernel)
  simp only [Bool.and_eq_true, Option.isNone_iff_eq_none, Bool.not_eq_true',
    decide_eq_true_eq] at hp
  obtain ⟨⟨⟨⟨⟨⟨⟨⟨hoff, hlive⟩, hstop⟩, hsub⟩, hout⟩, hdev⟩, hmain⟩, hreaper⟩, hlog⟩ := hp
  obtain ⟨place, hplace, -⟩ := hall st hst hoff ⟨hlive, hstop⟩ (by rw [hsub]; decide) 0x80000000
    (by rw [hsub]; decide)
  cases place with
  | posted => simp [State.IsAt, hout] at hplace
  | pending => simp [State.IsAt, hdev] at hplace
  | inHand => simp [State.IsAt, hmain, hreaper, MainLoad.holds, ReaperLoad.holds] at hplace
  | unlinked => simp [State.IsAt, hlog] at hplace

/-- Two submits in flight, one of them reaped. -/
def inFlight : List Action :=
  begin false ++ receive (.submitIn 1 1 64) ++ [.take .ok, .submit .ok] ++
    receive (.submitIn 2 1 64) ++ [.take .ok, .submit .ok] ++ reapOne 1 0 [7]

/-- A check that is enough for `NoForeignOwner`: nothing in the internal range is reaped. -/
def reapsOutside (_ : State) : Action → Bool
  | .reap k _ => !Prefetch.owns k.seqnum
  | _ => true

theorem noForeignOwner_of_reapsOutside (st : State) (a : Action) (h : reapsOutside st a = true) :
    NoForeignOwner st a := by
  cases a with
  | reap k now => exact fun e _ _ _ => by simpa [reapsOutside] using h
  | _ => trivial

theorem no_submit_lost_in_flight :
    ∃ st, Reach (step gamepad) (· = State.initial) NoForeignOwner st ∧ st.submits = [1, 2] ∧
      (∃! place, st.IsAt 1 place) ∧ ∃! place, st.IsAt 2 place := by
  obtain ⟨st, hst, hp⟩ := exists_session_of_runIf gamepad noForeignOwner_of_reapsOutside inFlight
    (fun st => st.prefetch.inner.isNone && st.main.live && !st.stop && st.submits = [1, 2])
    (by decide +kernel)
  simp only [Bool.and_eq_true, Option.isNone_iff_eq_none, Bool.not_eq_true',
    decide_eq_true_eq] at hp
  obtain ⟨⟨⟨hoff, hlive⟩, hstop⟩, hsub⟩ := hp
  have hnodup : st.submits.Nodup := by rw [hsub]; decide
  exact ⟨st, hst, hsub,
    no_submit_lost hst hoff ⟨hlive, hstop⟩ hnodup (by rw [hsub]; decide),
    no_submit_lost hst hoff ⟨hlive, hstop⟩ hnodup (by rw [hsub]; decide)⟩

end Padwire
