import Padwire.Server.Session

/-!
# What a step of the pump can do

The inversion of `step`. `Effect` lists everything a step can do to the parts of the state that
the invariants are about: the table of URBs, the prefetcher, what each thread holds in its
hands, and the ghosts. All the steps that change none of these are one case, `Effect.quiet`.
`effect_of_step` is proved once; every invariant of the session is then a case analysis over
`Effect` and never unfolds `step`.
-/

namespace Padwire

variable {d : UsbfsDevice} {st st' : State}

/-! ### What the threads hold -/

/-- What the reader holds. -/
inductive MainLoad
  | none
  | take (req : UrbRequest)
  | submit (req : UrbRequest)
  | unlink (target : UInt32)
  | devUnlink (target : UInt32)
  | reply (out : Out)
  deriving DecidableEq, Repr

def MainPc.load : MainPc → MainLoad
  | .take req => .take req
  | .submit req => .submit req
  | .unlink _ target => .unlink target
  | .devUnlink _ target => .devUnlink target
  | .posting out _ => .reply out
  | _ => .none

/-- The submit the reader is about to pass on. -/
def MainLoad.request? : MainLoad → Option UrbRequest
  | .take req | .submit req => some req
  | _ => Option.none

/-- What the reaper holds. -/
inductive ReaperLoad
  | none
  | completion (c : UrbCompletion)
  | reply (out : Out)
  deriving DecidableEq, Repr

def ReaperPc.load : ReaperPc → ReaperLoad
  | .delivering c _ => .completion c
  | .posting out _ _ => .reply out
  | _ => .none

/-- The session has not left the reader's loop. -/
def MainPc.live : MainPc → Bool
  | .returned | .stopped | .shutDown | .joined | .ended | .failed => false
  | _ => true

/-- The prefetcher of this session has been shut down. -/
def MainPc.down : MainPc → Bool
  | .shutDown | .joined | .ended => true
  | _ => false

/-- No client is being served: before the threads run, or after the session. -/
def MainPc.between : MainPc → Bool
  | .setup | .ended | .failed => true
  | _ => false

@[simp]
theorem Round.load_next (r : Round) : r.next.load = .none := by
  unfold Round.next
  split_ifs <;> rfl

/-! ### Control -/

/-- How the program counters and the stop flag hang together. -/
structure Control (st : State) : Prop where
  writer_idle : st.writer = .idle → st.stop = true ∨ st.main = .ended ∨ st.main = .failed
  reaper_idle : st.main = .setup ∨ st.main = .joined ∨ st.main = .ended ∨ st.main = .failed →
    st.reaper = .idle
  stopped : st.main = .stopped ∨ st.main = .shutDown ∨ st.main = .joined → st.stop = true

theorem control_initial : Control State.initial where
  writer_idle _ := .inr (.inl rfl)
  reaper_idle _ := rfl
  stopped h := by simp [State.initial] at h

/-! ### Arming on the usbfs device -/

/-- What arming an endpoint does on a usbfs device: nothing that matters, or one accepted URB
under the next internal seqnum, which was free. -/
inductive Arming (d : UsbfsDevice) (address : UInt8) (ep : Endpoint) (next : UInt32)
    (dev : DevState) : Endpoint → UInt32 → DevState → Prop
  | skipped {ep' : Endpoint} : ep'.waiting = ep.waiting → ep'.captured = ep.captured →
      ep'.inFlight = ep.inFlight → (ep.disabled = true → ep'.disabled = true) →
      Arming d address ep next dev ep' next dev
  | queued (epAddr : UInt8) (typ : UrbType) : ep.disabled = false → ep.inFlight = none →
      next ∉ dev.pending →
      Arming d address ep next dev { ep with inFlight := some next } (nextInternal next)
        (dev.accept (d.pendingUrb (ep.request address next) epAddr typ))

namespace Arming

variable {address : UInt8} {ep ep' : Endpoint} {next next' : UInt32} {dev dev' : DevState}

theorem of_armEffect {answers : List Ioctl} {x : DevState × List Ioctl}
    (h : ArmEffect d.backend address ep next (dev, answers) ep' next' x) :
    Arming d address ep next dev ep' next' x.1 := by
  cases h with
  | idle _ => exact .skipped rfl rfl rfl id
  | @accepted _ hdis hfl hsub =>
    rcases d.submit_spec (ep.request address next) (answers.headD .ok) dev with
      ⟨e, he⟩ | ⟨hfree, epAddr, typ, hok⟩
    · simp only [UsbfsDevice.backend, he, Prod.mk.injEq, reduceCtorEq, false_and] at hsub
    · simp only [UsbfsDevice.backend, hok, Prod.mk.injEq] at hsub
      rw [← hsub.2]
      exact .queued epAddr typ hdis hfl hfree
  | @refused e _ hdis hfl hsub =>
    have hx : x.1 = dev := by
      rcases d.submit_spec (ep.request address next) (answers.headD .ok) dev with
        ⟨e', he⟩ | ⟨-, epAddr, typ, hok⟩
      · simp only [UsbfsDevice.backend, he, Prod.mk.injEq] at hsub
        rw [← hsub.2]
      · simp only [UsbfsDevice.backend, hok, Prod.mk.injEq, reduceCtorEq, false_and] at hsub
    rw [hx]
    refine .skipped (ep.waiting_submitted _ _) (ep.captured_submitted _ _)
      (ep.inFlight_submitted_error _ _) fun h => ?_
    rw [hdis] at h
    cases h

theorem waiting_eq (h : Arming d address ep next dev ep' next' dev') :
    ep'.waiting = ep.waiting := by
  cases h with
  | skipped h _ _ _ => exact h
  | queued _ _ _ _ _ => rfl

theorem captured_eq (h : Arming d address ep next dev ep' next' dev') :
    ep'.captured = ep.captured := by
  cases h with
  | skipped _ h _ _ => exact h
  | queued _ _ _ _ _ => rfl

theorem disabled_mono (h : Arming d address ep next dev ep' next' dev')
    (hdis : ep.disabled = true) : ep'.disabled = true := by
  cases h with
  | skipped _ _ _ h => exact h hdis
  | queued _ _ _ _ _ => exact hdis

/-- Arming changes the table at most by an entry of this endpoint under the next seqnum. -/
theorem lookup_cases (h : Arming d address ep next dev ep' next' dev') (s : UInt32) :
    dev'.pending.lookup s = dev.pending.lookup s ∨
      s = next ∧ dev.pending.lookup s = none ∧ ∃ e, dev'.pending.lookup s = some e ∧
        e.unlinked = false ∧ e.urb.origin = .prefetch address := by
  cases h with
  | skipped _ _ _ _ => exact .inl rfl
  | queued epAddr typ _ _ hfree =>
    have hlook := dev.lookup_accept (d.pendingUrb (ep.request address next) epAddr typ) s
    split_ifs at hlook with hs
    · obtain rfl : s = next := hs
      exact .inr ⟨rfl, AList.lookup_eq_none.mpr hfree, _, hlook, rfl, rfl⟩
    · exact .inl hlook

theorem next_cases (h : Arming d address ep next dev ep' next' dev') :
    next' = next ∨ next' = nextInternal next := by
  cases h with
  | skipped _ _ _ _ => exact .inl rfl
  | queued _ _ _ _ _ => exact .inr rfl

end Arming

/-- What arming preserves holds of the device and the prefetcher a session starts with, if it
holds of the device of before and a new prefetcher. -/
theorem start_rule (Inv : Prefetch → DevState → Prop) {opts : SessionOpts}
    {answers : List Ioctl} {dev : DevState}
    (hone : ∀ p dev address ep ep' next' dev', Inv p dev → p.ep? address = some ep →
      Arming d address ep p.next dev ep' next' dev' → Inv (p.put address ep' next') dev')
    (h : Inv (Prefetch.new d.interruptInEndpoints opts.prefetch) dev.age) :
    Inv (start d opts answers dev).prefetch (start d opts answers dev).dev :=
  Prefetch.arm_rule d.backend (fun p x => Inv p x.1)
    (fun p x address ep ep' next' x' hinv hep heff =>
      hone p x.1 address ep ep' next' x'.1 hinv hep (.of_armEffect heff)) h

/-- Shutting the prefetcher down changes the table at most by marking entries. -/
theorem lookup_shutdown (p : Prefetch) (dev : DevState) (answers : List Ioctl) (s : UInt32) :
    (p.shutdown d.backend (dev, answers)).2.1.pending.lookup s = dev.pending.lookup s ∨
      (p.shutdown d.backend (dev, answers)).2.1.pending.lookup s =
        (dev.pending.lookup s).map DevState.mark := by
  refine Prefetch.shutdown_rule d.backend
    (fun x => x.1.pending.lookup s = dev.pending.lookup s ∨
      x.1.pending.lookup s = (dev.pending.lookup s).map DevState.mark) (fun u x ih => ?_) (.inl rfl)
  have hlook : (d.backend.unlink u x).2.1.pending.lookup s = _ :=
    DevState.lookup_unlink u (x.2.headD .ok) x.1 s
  rw [hlook]
  split_ifs with hs
  · right
    rcases ih with h | h
    · rw [h]
    · rw [h, Option.map_map]
      rfl
  · exact ih

/-! ### Effects -/

/-- A step that changes nothing but program counters, the channel and the stop flag, and leaves
both threads holding what they held. -/
structure Quiet (st st' : State) : Prop where
  dev : st'.dev = st.dev := by rfl
  prefetch : st'.prefetch = st.prefetch := by rfl
  log : st'.log = st.log := by rfl
  outbox : st'.outbox = st.outbox := by rfl
  taken : st'.taken = st.taken := by rfl
  ledger : st'.ledger = st.ledger := by rfl
  main : st'.main.load = st.main.load := by rfl
  reaper : st'.reaper.load = st.reaper.load := by rfl
  stop : st.stop = true → st'.stop = true := by exact id
  live : st'.main.live = true → st.main.live = true := by exact id
  down : st'.main.down = st.main.down := by rfl
  between : st'.main.between = true → st.main.between = true := by exact id
  ended : st'.main = .ended → st.main = .ended := by exact id
  control : Control st → Control st'

/-- Everything a step can do. -/
inductive Effect (d : UsbfsDevice) (st : State) : Action → State → Prop
  | quiet {a : Action} {st' : State} : Quiet st st' → Effect d st a st'
  | started {opts : SessionOpts} {answers : List Ioctl} :
      st.main = .ended ∨ st.main = .failed →
      Effect d st (.start opts answers) (start d opts answers st.dev)
  | read {input rest : Bytes} {pdu : Pdu} {pc : MainPc} : st.main = .reading →
      (readPdu d.maxTransfer).run input = .ok (pdu, rest) → dispatch pdu = some pc →
      Effect d st (.read input) { st with main := pc, log := st.log ++ [pdu] }
  | takePass {answer : Ioctl} {req : UrbRequest} : st.main = .take req →
      (∀ ep, st.prefetch.ep? req.address = some ep → ep.disabled = true) →
      Effect d st (.take answer) { st with main := .submit req }
  | takeReady {answer : Ioctl} {req : UrbRequest} {ep ep' : Endpoint} {next' : UInt32}
      {dev' : DevState} {data : Bytes} {rest : List Bytes} : st.main = .take req →
      st.prefetch.ep? req.address = some ep → ep.disabled = false → ep.captured = data :: rest →
      Arming d req.address { ep with captured := rest } st.prefetch.next st.dev ep' next' dev' →
      Effect d st (.take answer)
        { st with
          prefetch := st.prefetch.put req.address ep' next'
          dev := dev'
          main := .posting
            { reply := prefetchReply req.seqnum 0 (data.take req.bufferLength)
              site := .prefetched req.address } false
          ledger := Function.update st.ledger req.address
            (settleOldest (.inHand .reader req.seqnum req.bufferLength)
              (st.ledger req.address)) }
  | takeWaiting {answer : Ioctl} {req : UrbRequest} {ep ep' : Endpoint} {next' : UInt32}
      {dev' : DevState} : st.main = .take req →
      st.prefetch.ep? req.address = some ep → ep.disabled = false → ep.captured = [] →
      Arming d req.address
        { ep with waiting := some { seqnum := req.seqnum, maxLen := req.bufferLength } }
        st.prefetch.next st.dev ep' next' dev' →
      Effect d st (.take answer)
        { st with prefetch := st.prefetch.put req.address ep' next', dev := dev', main := .top }
  | submitted {answer : Ioctl} {req : UrbRequest} (epAddr : UInt8) (typ : UrbType) :
      st.main = .submit req → req.seqnum ∉ st.dev.pending →
      Effect d st (.submit answer)
        { st with dev := st.dev.accept (d.pendingUrb req epAddr typ), main := .top }
  | submitRefused {answer : Ioctl} {req : UrbRequest} (status : Int32) {site : Site} :
      st.main = .submit req → site = .handled ∨ site = .rejected →
      Effect d st (.submit answer)
        { st with main := .posting { reply := encodeError req.seqnum status, site } false }
  | submitFatal {answer : Ioctl} {req : UrbRequest} : st.main = .submit req →
      Effect d st (.submit answer) { st with main := .returned }
  | unlinkHit {seqnum target : UInt32} {address : UInt8} {ep : Endpoint} :
      st.main = .unlink seqnum target → st.prefetch.ep? address = some ep →
      ep.waitsFor target = true →
      Effect d st .unlink
        { st with
          prefetch := st.prefetch.put address { ep with waiting := none } st.prefetch.next
          main := .posting (unlinkOut seqnum target true) false }
  | unlinkMiss {seqnum target : UInt32} : st.main = .unlink seqnum target →
      (∀ address ep, st.prefetch.ep? address = some ep → ep.waitsFor target = false) →
      Effect d st .unlink { st with main := .devUnlink seqnum target }
  | devUnlink {answer : Ioctl} {seqnum target : UInt32} : st.main = .devUnlink seqnum target →
      Effect d st (.devUnlink answer)
        { st with
          dev := (st.dev.unlink target answer).2
          main := .posting (unlinkOut seqnum target (st.dev.unlink target answer).1) false }
  | mainSent {out : Out} {full : Bool} : st.main = .posting out full →
      postTurn st full = .sent →
      Effect d st .mainPost { st.put .reader out with main := .top }
  | mainDropped {out : Out} {full : Bool} : st.main = .posting out full →
      st.stop = true →
      Effect d st .mainPost { st.drop .reader with main := .returned }
  | shutdown {answers : List Ioctl} : st.main = .stopped →
      Effect d st (.shutdown answers)
        { st with
          prefetch := (st.prefetch.shutdown d.backend (st.dev, answers)).1
          dev := (st.prefetch.shutdown d.backend (st.dev, answers)).2.1
          main := .shutDown
          ledger := fun a => (st.ledger a).map Tracked.clear }
  | cancelled {answers : UInt32 → Ioctl} {done : List DevState.KernelUrb} :
      st.main = .joined →
      Effect d st (.cancel answers done)
        { st with dev := st.dev.cancelPending answers done, main := .ended }
  | reapDropped {k : DevState.KernelUrb} {now : ℕ} {e : Entry} {dev' : DevState} {r : Round} :
      st.reaper = .reaping r → st.dev.pending.lookup k.seqnum = some e → e.unlinked = true →
      (∀ s, dev'.pending.lookup s = if s = k.seqnum then none else st.dev.pending.lookup s) →
      Effect d st (.reap k now) { st with dev := dev' }
  | reapOwned {k : DevState.KernelUrb} {now : ℕ} {e : Entry} {dev' : DevState} {r r' : Round}
      {c : UrbCompletion} {detector : Option Detector} :
      st.reaper = .reaping r → st.dev.pending.lookup k.seqnum = some e → e.unlinked = false →
      (∀ s, dev'.pending.lookup s = if s = k.seqnum then none else st.dev.pending.lookup s) →
      Prefetch.owns k.seqnum = true → c.seqnum = k.seqnum → c.origin = e.urb.origin →
      Effect d st (.reap k now)
        { st with dev := dev', detector, reaper := .delivering c r' }
  | reapClient {k : DevState.KernelUrb} {now : ℕ} {e : Entry} {dev' : DevState} {r r' : Round}
      {c : UrbCompletion} {detector : Option Detector} :
      st.reaper = .reaping r → st.dev.pending.lookup k.seqnum = some e → e.unlinked = false →
      (∀ s, dev'.pending.lookup s = if s = k.seqnum then none else st.dev.pending.lookup s) →
      Prefetch.owns k.seqnum = false → c.seqnum = k.seqnum → c.Answers e →
      Effect d st (.reap k now)
        { st with
          dev := dev'
          detector
          reaper := .posting { reply := completionReply c, site := .reaped } false r' }
  | strayed {answer : Ioctl} {c : UrbCompletion} {r : Round} : st.reaper = .delivering c r →
      (∀ address ep, st.prefetch.ep? address = some ep → ep.inFlight ≠ some c.seqnum) →
      Effect d st (.deliver answer)
        { st with taken := st.taken ++ [c], reaper := .reaping r }
  | delivered {answer : Ioctl} {c : UrbCompletion} {r : Round} {address : UInt8}
      {ep ep' : Endpoint} {next' : UInt32} {dev' : DevState} : st.reaper = .delivering c r →
      st.prefetch.ep? address = some ep → ep.inFlight = some c.seqnum →
      Arming d address (ep.deliver c.status c.data).2 st.prefetch.next st.dev ep' next' dev' →
      Effect d st (.deliver answer)
        { st with
          prefetch := st.prefetch.put address ep' next'
          dev := dev'
          taken := st.taken ++ [c]
          ledger := Function.update st.ledger address (trackDelivery ep c (st.ledger address))
          reaper := afterDeliver address r (ep.deliver c.status c.data).1 }
  | reaperSent {out : Out} {full : Bool} {r : Round} : st.reaper = .posting out full r →
      postTurn st full = .sent →
      Effect d st .reaperPost { st.put .reaper out with reaper := .reaping r }
  | reaperDropped {out : Out} {full : Bool} {r : Round} : st.reaper = .posting out full r →
      Effect d st .reaperPost { st.drop .reaper with stop := true, reaper := r.next }

/-! ### Inverting `step` -/

/-- A turn of `post` that gives up has seen the session stop. -/
private theorem stop_of_gaveUp {full : Bool} (h : postTurn st full = .gaveUp)
    (hmain : st.main ≠ .ended ∧ st.main ≠ .failed) (hc : Control st) : st.stop = true := by
  unfold postTurn at h
  split_ifs at h with h₁ h₂ h₃ h₄
  · exact h₂
  -- the channel was closed: the writer has returned, and it sets the flag on its way out
  · rcases hc.writer_idle h₃ with hs | hm | hm
    · exact hs
    · exact absurd hm hmain.1
    · exact absurd hm hmain.2

private theorem effect_take {answer : Ioctl} (h : step d st (.take answer) = some st') :
    Effect d st (.take answer) st' := by
  simp only [step] at h
  split at h
  · rename_i req hmain
    rcases Prefetch.take_spec d.backend st.prefetch req.address req.seqnum req.bufferLength
        (st.dev, [answer]) with
      ⟨hdis, htake⟩ | ⟨ep, ep', next', x, hep, hen, heff, htake⟩
    · simp only [htake, afterTake] at h
      cases h
      exact .takePass hmain hdis
    · cases hcap : ep.captured with
      | cons data rest =>
        simp only [Endpoint.take, hcap] at htake heff
        simp only [htake, afterTake] at h
        cases h
        exact .takeReady hmain hep hen hcap (.of_armEffect heff)
      | nil =>
        simp only [Endpoint.take, hcap] at htake heff
        simp only [htake, afterTake] at h
        cases h
        exact .takeWaiting hmain hep hen hcap (.of_armEffect (by simpa only [hcap] using heff))
  · cases h

private theorem effect_submit {answer : Ioctl} (h : step d st (.submit answer) = some st') :
    Effect d st (.submit answer) st' := by
  simp only [step] at h
  split at h
  · rename_i req hmain
    rcases d.submit_spec req answer st.dev with ⟨e, he⟩ | ⟨hfree, epAddr, typ, hok⟩
    · simp only [he] at h
      cases h
      cases e with
      | urb status => exact .submitRefused status hmain (.inr rfl)
      | handled status => exact .submitRefused status hmain (.inl rfl)
      | fatal e => exact .submitFatal hmain
    · simp only [hok] at h
      cases h
      exact .submitted epAddr typ hmain hfree
  · cases h

private theorem effect_unlink (h : step d st .unlink = some st') : Effect d st .unlink st' := by
  simp only [step] at h
  split at h
  · rename_i seqnum target hmain
    rcases Prefetch.unlink_spec st.prefetch target with ⟨hno, hun⟩ | ⟨a, ep, -, hep, hw, hun⟩
    · simp only [hun] at h
      cases h
      exact .unlinkMiss hmain hno
    · simp only [hun] at h
      cases h
      exact .unlinkHit hmain hep hw
  · cases h

private theorem effect_reap {k : DevState.KernelUrb} {now : ℕ}
    (h : step d st (.reap k now) = some st') : Effect d st (.reap k now) st' := by
  simp only [step] at h
  split at h
  · rename_i r hreaper
    obtain ⟨⟨c, dev'⟩, hreap, hst⟩ := Option.map_eq_some_iff.mp h
    obtain ⟨e, he, rfl, hseq, hlook⟩ := DevState.reap_spec hreap
    cases hunl : e.unlinked with
    | true =>
      have hyes : (DevState.completion e k).unlinked = true := hunl
      simp only [if_pos hyes] at hst
      rw [← hst]
      exact .reapDropped hreaper he hunl hlook
    | false =>
      have hans := DevState.answers_completion e k
      rcases hs : screen st.detector (DevState.completion e k) now with ⟨fired, detector, c⟩
      -- screening may blank a report, but it stays an answer to the same URB
      have hc : c.seqnum = k.seqnum ∧ c.origin = e.urb.origin ∧ c.Answers e := by
        have hscr := screen_spec st.detector (DevState.completion e k) now
        rw [hs] at hscr
        rcases hscr with rfl | ⟨-, -, rfl⟩
        · exact ⟨hseq, rfl, hans⟩
        · exact ⟨hseq, rfl, fun _ => rfl, fun _ => Nat.zero_le _, fun _ => rfl⟩
      have hnot : ¬ (DevState.completion e k).unlinked = true := by
        rw [show (DevState.completion e k).unlinked = e.unlinked from rfl, hunl]
        decide
      simp only [if_neg hnot, hs] at hst
      rw [← hst]
      cases hown : Prefetch.owns c.seqnum with
      | true => exact .reapOwned hreaper he hunl hlook (hc.1 ▸ hown) hc.1 hc.2.1
      | false => exact .reapClient hreaper he hunl hlook (hc.1 ▸ hown) hc.1 hc.2.2
  · cases h

private theorem effect_deliver {answer : Ioctl} (h : step d st (.deliver answer) = some st') :
    Effect d st (.deliver answer) st' := by
  simp only [step] at h
  split at h
  · rename_i c r hreaper
    rcases Prefetch.deliver_spec d.backend st.prefetch c.seqnum c.status c.data
        (st.dev, [answer]) with
      ⟨hno, hown, hdel⟩ | ⟨a, ep, ep', next', x, hown, hep, hfl, heff, hdel⟩
    · simp only [hdel, State.trackDeliver, hown] at h
      cases h
      exact .strayed hreaper hno
    · simp only [hdel, State.trackDeliver, hown, hep, Option.getD_some] at h
      cases h
      exact .delivered hreaper hep hfl (.of_armEffect heff)
  · cases h

private theorem effect_post (hc : Control st) (h : step d st .mainPost = some st') :
    Effect d st .mainPost st' := by
  simp only [step] at h
  split at h
  · rename_i out full hmain
    -- between two turns of the loop the reader holds the same reply
    have hturns : ∀ b, Quiet st { st with main := .posting out b } := fun b =>
      { main := by rw [hmain]; rfl
        live := by rw [hmain]; exact id
        down := by rw [hmain]; rfl
        between := fun h => by cases h
        ended := fun h => by cases h
        control := fun hc => ⟨fun hw => .inl (by simpa [hmain] using hc.writer_idle hw),
          by simp, by simp⟩ }
    split at h
    · rename_i hturn
      cases h
      exact .mainSent hmain hturn
    · cases h
      exact .quiet (hturns true)
    · cases h
      exact .quiet (hturns false)
    · rename_i hturn
      cases h
      exact .mainDropped hmain (stop_of_gaveUp hturn (by simp [hmain]) hc)
  · cases h

private theorem effect_reaperPost (h : step d st .reaperPost = some st') :
    Effect d st .reaperPost st' := by
  simp only [step] at h
  split at h
  · rename_i out full r hreaper
    have hctl : ∀ b, Control st → Control { st with reaper := .posting out b r } := by
      intro b hc
      refine ⟨hc.writer_idle, fun hm => ?_, hc.stopped⟩
      have hidle := hc.reaper_idle hm
      rw [hreaper] at hidle
      cases hidle
    split at h
    · rename_i hturn
      cases h
      exact .reaperSent hreaper hturn
    · cases h
      exact .quiet { reaper := by rw [hreaper]; rfl, control := hctl true }
    · cases h
      exact .quiet { reaper := by rw [hreaper]; rfl, control := hctl false }
    · cases h
      exact .reaperDropped hreaper
  · cases h

/-- A step of the reader that leaves it empty-handed and in the same stage is quiet. -/
private theorem quiet_main {pc : MainPc} (hload : st.main.load = .none) (hload' : pc.load = .none)
    (hlive : pc.live = true → st.main.live = true) (hdown : pc.down = st.main.down)
    (hbetween : pc.between = false)
    (hc : Control st → Control { st with main := pc }) : Quiet st { st with main := pc } :=
  { main := by rw [hload, hload']
    live := hlive
    down := hdown
    between := fun h => by rw [hbetween] at h; cases h
    ended := fun h => by rw [show pc = .ended from h] at hbetween; cases hbetween
    control := hc }

/-- A step of the reaper between two points where it holds nothing is quiet. -/
private theorem quiet_reaper {pc : ReaperPc} {stop : Bool} (hload : st.reaper.load = .none)
    (hidle : st.reaper ≠ .idle) (hload' : pc.load = .none)
    (hstop : st.stop = true → stop = true) : Quiet st { st with stop, reaper := pc } :=
  { reaper := by rw [hload, hload']
    stop := hstop
    control := fun hc =>
      { writer_idle := fun hw => (hc.writer_idle hw).imp_left hstop
        reaper_idle := fun hm => absurd (hc.reaper_idle hm) hidle
        stopped := fun hm => hstop (hc.stopped hm) } }

/-- **Inversion.** Every step is one of the effects. -/
theorem effect_of_step {a : Action} (hc : Control st) (h : step d st a = some st') :
    Effect d st a st' := by
  cases a with
  | take answer => exact effect_take h
  | submit answer => exact effect_submit h
  | unlink => exact effect_unlink h
  | reap k now => exact effect_reap h
  | deliver answer => exact effect_deliver h
  | mainPost => exact effect_post hc h
  | reaperPost => exact effect_reaperPost h
  | start opts answers =>
    simp only [step] at h
    split at h
    · rename_i hmain
      cases h
      exact .started (.inl hmain)
    · rename_i hmain
      cases h
      exact .started (.inr hmain)
    · cases h
  | spawn ok =>
    simp only [step] at h
    split at h
    · rename_i hmain
      cases ok with
      | true =>
        cases h
        exact .quiet
          { main := by rw [hmain]; rfl
            reaper := by rw [hc.reaper_idle (.inl hmain)]; rfl
            live := by rw [hmain]; exact id
            down := by rw [hmain]; rfl
            between := fun h => by cases h
            ended := fun h => by cases h
            control := fun hc => ⟨fun hw => .inl (by simpa [hmain] using hc.writer_idle hw),
              by simp, by simp⟩ }
      | false =>
        cases h
        exact .quiet
          { main := by rw [hmain]; rfl
            live := fun h => by cases h
            down := by rw [hmain]; rfl
            between := fun _ => by rw [hmain]; rfl
            ended := fun h => by cases h
            control := fun hc => ⟨fun _ => .inr (.inr rfl),
              fun _ => hc.reaper_idle (.inl hmain), by simp⟩ }
    · cases h
  | check shuttingDown =>
    simp only [step] at h
    split at h
    · rename_i hmain
      cases h
      refine .quiet (quiet_main (by rw [hmain]; rfl) ?_ (by rw [hmain]; exact fun _ => rfl) ?_ ?_
        fun hc => ?_)
      · split_ifs <;> rfl
      · rw [hmain]
        split_ifs <;> rfl
      · split_ifs <;> rfl
      · have hw := hc.writer_idle
        rw [hmain] at hw
        refine ⟨fun h => .inl (by simpa using hw h), ?_, ?_⟩
        · split_ifs <;> simp
        · split_ifs <;> simp
    · cases h
  | read input =>
    simp only [step] at h
    split at h
    · rename_i hmain
      split at h
      · cases h
        refine .quiet (quiet_main (by rw [hmain]; rfl) rfl (by rw [hmain]; exact fun _ => rfl)
          (by rw [hmain]; rfl) rfl fun hc => ?_)
        exact ⟨fun hw => .inl (by simpa [hmain] using hc.writer_idle hw), by simp, by simp⟩
      · rename_i pdu rest hread
        obtain ⟨pc, hpc, rfl⟩ := Option.map_eq_some_iff.mp h
        exact .read hmain hread hpc
    · cases h
  | devUnlink answer =>
    simp only [step] at h
    split at h
    · rename_i seqnum target hmain
      cases h
      exact .devUnlink hmain
    · cases h
  | halt =>
    simp only [step] at h
    split at h
    · rename_i hmain
      cases h
      exact .quiet
        { main := by rw [hmain]; rfl
          stop := fun _ => rfl
          live := fun h => by cases h
          down := by rw [hmain]; rfl
          between := fun h => by cases h
          ended := fun h => by cases h
          control := fun _ => ⟨fun _ => .inl rfl, by simp, fun _ => rfl⟩ }
    · cases h
  | shutdown answers =>
    simp only [step] at h
    split at h
    · rename_i hmain
      cases h
      exact .shutdown hmain
    · cases h
  | join =>
    simp only [step] at h
    split at h
    · rename_i hmain
      split_ifs at h with hidle
      cases h
      refine .quiet (quiet_main (by rw [hmain]; rfl) rfl (fun h => by cases h) (by rw [hmain]; rfl)
        rfl fun hc => ?_)
      have hstop := hc.stopped (.inr (.inl hmain))
      exact ⟨fun _ => .inl hstop, fun _ => hidle.1, fun _ => hstop⟩
    · cases h
  | cancel answers done =>
    simp only [step] at h
    split at h
    · rename_i hmain
      cases h
      exact .cancelled hmain
    · cases h
  | poll =>
    simp only [step] at h
    split at h
    · rename_i hreaper
      cases h
      refine .quiet (quiet_reaper (by rw [hreaper]; rfl) (by simp [hreaper]) ?_ id)
      split_ifs <;> rfl
    · cases h
  | wake ready gone =>
    simp only [step] at h
    split at h
    · rename_i hreaper
      cases h
      refine .quiet (quiet_reaper (by rw [hreaper]; rfl) (by simp [hreaper]) ?_ id)
      split_ifs
      · rfl
      · exact Round.load_next _
    · cases h
  | waitFails =>
    simp only [step] at h
    split at h
    · rename_i hreaper
      cases h
      exact .quiet (quiet_reaper (by rw [hreaper]; rfl) (by simp [hreaper]) rfl id)
    · cases h
  | reapNone =>
    simp only [step] at h
    split at h
    · rename_i r hreaper
      cases h
      exact .quiet (quiet_reaper (by rw [hreaper]; rfl) (by simp [hreaper]) r.load_next id)
    · cases h
  | reapFails =>
    simp only [step] at h
    split at h
    · rename_i r hreaper
      cases h
      exact .quiet
        (quiet_reaper (by rw [hreaper]; rfl) (by simp [hreaper]) r.load_next fun _ => rfl)
    · cases h
  | leave =>
    simp only [step] at h
    split at h
    · rename_i hreaper
      cases h
      exact .quiet (quiet_reaper (by rw [hreaper]; rfl) (by simp [hreaper]) rfl fun _ => rfl)
    · cases h
  | write ok =>
    simp only [step] at h
    split at h
    · rename_i hwriter hqueue
      cases h
      refine .quiet { control := fun hc => ⟨fun hw => ?_, hc.reaper_idle, hc.stopped⟩ }
      dsimp only at hw
      split_ifs at hw
    · cases h
  | hangUp =>
    simp only [step] at h
    split at h
    · split_ifs at h
      cases h
      exact .quiet
        { control := fun hc => ⟨fun hw => (by cases hw), hc.reaper_idle, hc.stopped⟩ }
    · cases h
  | writerStop =>
    simp only [step] at h
    split at h
    · cases h
      exact .quiet
        { stop := fun _ => rfl
          control := fun hc => ⟨fun _ => .inl rfl, hc.reaper_idle, fun _ => rfl⟩ }
    · cases h

/-- The four things the reader does with a command. -/
inductive Dispatched (pdu : Pdu) : MainPc → Prop
  | iso {c : CmdSubmit} : pdu.header.body = .cmdSubmit c →
      Dispatched pdu (.posting
        { reply := encodeError pdu.header.base.seqnum (-EOPNOTSUPP), site := .isoRefusal } false)
  | take {c : CmdSubmit} : pdu.header.body = .cmdSubmit c → pdu.header.base.dir = .in →
      Dispatched pdu (.take (urbRequest pdu c))
  | submit {c : CmdSubmit} : pdu.header.body = .cmdSubmit c →
      Dispatched pdu (.submit (urbRequest pdu c))
  | unlink {u : CmdUnlink} : pdu.header.body = .cmdUnlink u →
      Dispatched pdu (.unlink pdu.header.base.seqnum u.unlinkSeqnum)

theorem dispatched {pdu : Pdu} {pc : MainPc} (h : dispatch pdu = some pc) :
    Dispatched pdu pc := by
  unfold dispatch at h
  split at h
  · rename_i c hbody
    split_ifs at h
    · cases h
      exact .iso hbody
    · cases h
      split_ifs with hdir
      · exact .take hbody hdir
      · exact .submit hbody
  · rename_i u hbody
    cases h
    exact .unlink hbody
  · cases h

/-- The submit the reader gets out of a command is the one it read. -/
theorem request_of_dispatch {pdu : Pdu} {pc : MainPc} {req : UrbRequest}
    (h : dispatch pdu = some pc) (hreq : pc.load.request? = some req) :
    ∃ c, pdu.header.body = .cmdSubmit c ∧ req = urbRequest pdu c := by
  cases dispatched h with
  | iso _ => cases hreq
  | take hbody _ => exact ⟨_, hbody, (Option.some.inj hreq).symm⟩
  | submit hbody => exact ⟨_, hbody, (Option.some.inj hreq).symm⟩
  | unlink _ => cases hreq

/-! ### Control along a run -/

/-- The reader's loop has begun, and winding down has not. -/
def MainPc.inside : MainPc → Bool
  | .setup | .stopped | .shutDown | .joined | .ended | .failed => false
  | _ => true

theorem MainPc.between_of_inside {pc : MainPc} (h : pc.inside = true) : pc.between = false := by
  cases pc <;> first | rfl | cases h

/-- While the reaper runs, a client is being served. -/
theorem Control.between_of_reaper (hc : Control st) (h : st.reaper ≠ .idle) :
    st.main.between = false := by
  cases hb : st.main.between with
  | false => rfl
  | true =>
    refine absurd (hc.reaper_idle ?_) h
    cases hm : st.main with
    | setup => exact .inl rfl
    | ended => exact .inr (.inr (.inl rfl))
    | failed => exact .inr (.inr (.inr rfl))
    | _ => rw [hm] at hb; cases hb

/-- A step of the reader inside its loop keeps control. -/
private theorem control_main (hc : Control st) (hin : st.main.inside = true)
    (hin' : st'.main.inside = true) (hw : st'.writer = st.writer := by rfl)
    (hs : st'.stop = st.stop := by rfl) : Control st' := by
  refine ⟨fun hidle => ?_, fun hm => ?_, fun hm => ?_⟩
  · rw [hw] at hidle
    rcases hc.writer_idle hidle with h | h | h
    · exact .inl (hs ▸ h)
    · rw [h] at hin
      cases hin
    · rw [h] at hin
      cases hin
  · rcases hm with h | h | h | h <;> rw [h] at hin' <;> cases hin'
  · rcases hm with h | h | h <;> rw [h] at hin' <;> cases hin'

/-- A step of the reaper between two points of its loop keeps control. -/
private theorem control_reaper (hc : Control st) (hreaper : st.reaper ≠ .idle)
    (hm : st'.main = st.main := by rfl) (hw : st'.writer = st.writer := by rfl)
    (hs : st.stop = true → st'.stop = true := by exact id) : Control st' := by
  refine ⟨fun hidle => ?_, fun h => ?_, fun h => ?_⟩
  · rw [hm]
    exact (hc.writer_idle (hw ▸ hidle)).imp_left hs
  · rw [hm] at h
    exact absurd (hc.reaper_idle h) hreaper
  · rw [hm] at h
    exact hs (hc.stopped h)

/-- What the reader does with a command keeps it inside its loop. -/
theorem dispatch_inside {pdu : Pdu} {pc : MainPc} (h : dispatch pdu = some pc) :
    pc.inside = true := by
  cases dispatched h <;> rfl

theorem control_step {a : Action} (hc : Control st) (h : step d st a = some st') :
    Control st' := by
  cases effect_of_step hc h with
  | quiet hq => exact hq.control hc
  | started _ =>
    exact ⟨fun h => (by simp [start] at h), fun _ => rfl, fun h => (by simp [start] at h)⟩
  | read hmain _ hpc => exact control_main hc (by rw [hmain]; rfl) (dispatch_inside hpc)
  | takePass hmain _ => exact control_main hc (by rw [hmain]; rfl) rfl
  | takeReady hmain _ _ _ _ => exact control_main hc (by rw [hmain]; rfl) rfl
  | takeWaiting hmain _ _ _ _ => exact control_main hc (by rw [hmain]; rfl) rfl
  | submitted _ _ hmain _ => exact control_main hc (by rw [hmain]; rfl) rfl
  | submitRefused _ hmain _ => exact control_main hc (by rw [hmain]; rfl) rfl
  | submitFatal hmain => exact control_main hc (by rw [hmain]; rfl) rfl
  | unlinkHit hmain _ _ => exact control_main hc (by rw [hmain]; rfl) rfl
  | unlinkMiss hmain _ => exact control_main hc (by rw [hmain]; rfl) rfl
  | devUnlink hmain => exact control_main hc (by rw [hmain]; rfl) rfl
  | mainSent hmain _ => exact control_main hc (by rw [hmain]; rfl) rfl
  | mainDropped hmain _ => exact control_main hc (by rw [hmain]; rfl) rfl
  | shutdown hmain =>
    have hstop := hc.stopped (.inl hmain)
    exact ⟨fun _ => .inl hstop, fun h => (by simp at h), fun _ => hstop⟩
  | cancelled hmain =>
    exact ⟨fun _ => .inr (.inl rfl), fun _ => hc.reaper_idle (.inr (.inl hmain)),
      fun h => (by simp at h)⟩
  | reapDropped hreaper _ _ _ => exact control_reaper hc (by simp [hreaper])
  | reapOwned hreaper _ _ _ _ _ _ => exact control_reaper hc (by simp [hreaper])
  | reapClient hreaper _ _ _ _ _ _ => exact control_reaper hc (by simp [hreaper])
  | strayed hreaper _ => exact control_reaper hc (by simp [hreaper])
  | delivered hreaper _ _ _ => exact control_reaper hc (by simp [hreaper])
  | reaperSent hreaper _ => exact control_reaper hc (by simp [hreaper])
  | reaperDropped hreaper =>
    exact control_reaper hc (by simp [hreaper]) rfl rfl fun _ => rfl

theorem control_of_reach {ok : State → Action → Prop}
    (h : Reach (step d) (· = State.initial) ok st) : Control st :=
  h.invariant Control (fun _ hs => by rw [hs]; exact control_initial)
    fun _ _ _ hc _ hstep => control_step hc hstep

/-- **Session invariant rule.** An invariant of the session holds in every state reached if it
holds before the first session and every effect that meets the condition keeps it. What is
known of every state reached may be used along the way. -/
theorem Reach.session_invariant {ok : State → Action → Prop} (Inv : State → Prop)
    (hinit : Inv State.initial)
    (hstep : ∀ st a st', Reach (step d) (· = State.initial) ok st → Inv st → ok st a →
      Effect d st a st' → Inv st')
    (h : Reach (step d) (· = State.initial) ok st) : Inv st :=
  h.invariant_of Inv (fun _ hr => hr) (fun _ hs => by rw [hs]; exact hinit)
    fun st a st' hr hinv hok ha =>
      hstep st a st' hr hinv hok (effect_of_step (control_of_reach hr) ha)

end Padwire
