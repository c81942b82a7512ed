import Padwire.Server.Answers
import Padwire.Server.InFlight
import Padwire.Server.Ledger

/-!
# Reports reach the client in order

The ledger of every endpoint stays in order in every interleaving (`inOrder_step`), and every
report that was not posted has a fate that the state accounts for (`due_step`). Both are about
the completions that `deliver` took for the endpoint. That these are the endpoint's own, and all
of them, is the tie of `InFlight` (`credited_step`); where it breaks, a client's data is passed
off as a report (`exists_report_misdirected`). It takes two steps of the client to break it: one
that cancels a URB of the endpoint, and one that uses its number again.
-/

namespace Padwire

variable {d : UsbfsDevice} {st st' : State} {a : Action}

/-! ### Every endpoint, along a run -/

/-- The report a reply carries, if it is a successful one of this endpoint. -/
def Out.report? (address : UInt8) (out : Out) : Option (UInt32 × Bytes) :=
  match out.site, out.reply with
  | .prefetched b, .retSubmit s ret data | .prefetchFill b, .retSubmit s ret data =>
    if b = address ∧ ret.status = 0 then some (s, data) else none
  | _, _ => none

/-- The report of this endpoint that the reader holds. -/
def MainLoad.report? (address : UInt8) : MainLoad → Option (UInt32 × Bytes)
  | .reply out => out.report? address
  | _ => Option.none

/-- The report of this endpoint that the reaper holds. -/
def ReaperLoad.report? (address : UInt8) : ReaperLoad → Option (UInt32 × Bytes)
  | .reply out => out.report? address
  | _ => Option.none

/-- The report of this endpoint that a thread holds. -/
def State.held (st : State) (address : UInt8) : Holder → Option (UInt32 × Bytes)
  | .reader => st.main.load.report? address
  | .reaper => st.reaper.load.report? address

theorem held_eq {b : UInt8} (hmain : st'.main.load.report? b = st.main.load.report? b)
    (hreaper : st'.reaper.load.report? b = st.reaper.load.report? b) :
    st'.held b = st.held b := by
  funext h
  cases h with
  | reader => exact hmain
  | reaper => exact hreaper

theorem held_reader {b : UInt8} {x : Option (UInt32 × Bytes)}
    (hmain : st'.main.load.report? b = x)
    (hreaper : st'.reaper.load.report? b = st.reaper.load.report? b := by rfl) :
    st'.held b = Function.update (st.held b) .reader x := by
  funext h
  cases h with
  | reader => exact hmain
  | reaper => exact hreaper

theorem held_reaper {b : UInt8} {x : Option (UInt32 × Bytes)}
    (hreaper : st'.reaper.load.report? b = x)
    (hmain : st'.main.load.report? b = st.main.load.report? b := by rfl) :
    st'.held b = Function.update (st.held b) .reaper x := by
  funext h
  cases h with
  | reader => exact hmain
  | reaper => exact hreaper

/-- The reports an endpoint has buffered. -/
def Prefetch.captured (p : Prefetch) (address : UInt8) : List Bytes :=
  (p.ep? address).elim [] Endpoint.captured

/-- The client submit that waits on an endpoint. -/
def Prefetch.waiter (p : Prefetch) (address : UInt8) : Option Waiter :=
  (p.ep? address).bind Endpoint.waiting

theorem Prefetch.captured_put {p : Prefetch} {address : UInt8} {ep : Endpoint}
    (h : p.ep? address = some ep) (ep' : Endpoint) (next : UInt32) (b : UInt8) :
    (p.put address ep' next).captured b = if b = address then ep'.captured else p.captured b := by
  rw [captured, ep?_put h]
  split_ifs <;> rfl

theorem Prefetch.waiter_put {p : Prefetch} {address : UInt8} {ep : Endpoint}
    (h : p.ep? address = some ep) (ep' : Endpoint) (next : UInt32) (b : UInt8) :
    (p.put address ep' next).waiter b = if b = address then ep'.waiting else p.waiter b := by
  rw [waiter, ep?_put h]
  split_ifs <;> rfl

/-- The reports of an endpoint are in order. -/
def State.InOrder (st : State) (address : UInt8) : Prop :=
  Ordered (st.ledger address) (st.held address) (st.prefetch.captured address)
    (st.prefetch.waiter address) (st.outbox.filterMap (Out.report? address))

theorem report?_encodeError (b : UInt8) (s : UInt32) (status : Int32) {site : Site}
    (h : site = .isoRefusal ∨ site = .handled ∨ site = .rejected) :
    Out.report? b { reply := encodeError s status, site } = none := by
  rcases h with rfl | rfl | rfl <;> rfl

theorem report?_dispatch {pdu : Pdu} {pc : MainPc} (h : dispatch pdu = some pc) (b : UInt8) :
    pc.load.report? b = none := by
  cases dispatched h <;> rfl

/-- What the reaper holds after a delivery: the report, if it was a successful one and somebody
waited. -/
theorem report?_afterDeliver (address b : UInt8) (r : Round)
    (reply : Option (UInt32 × Int32 × Bytes)) :
    (afterDeliver address r reply).load.report? b =
      if b = address then reply.bind fun r => if r.2.1 = 0 then some (r.1, r.2.2) else none
      else none := by
  rcases reply with _ | ⟨s, status, data⟩
  · split_ifs <;> rfl
  · by_cases hb : b = address
    · subst hb
      simp [afterDeliver, ReaperPc.load, ReaperLoad.report?, Out.report?, prefetchReply]
    · have hne : ¬ address = b := fun h => hb h.symm
      simp [afterDeliver, ReaperPc.load, ReaperLoad.report?, Out.report?, prefetchReply, hb, hne]

/-- What is ordered is the view that the state has of this endpoint. -/
private theorem inOrder_of {b : UInt8} {ts : List Tracked}
    {held : Holder → Option (UInt32 × Bytes)} {captured : List Bytes} {waiting : Option Waiter}
    {posted : List (UInt32 × Bytes)} (h : Ordered ts held captured waiting posted)
    (hheld : st.held b = held) (hcap : st.prefetch.captured b = captured)
    (hwait : st.prefetch.waiter b = waiting) (hledger : st.ledger b = ts := by rfl)
    (hout : st.outbox.filterMap (Out.report? b) = posted := by rfl) : st.InOrder b := by
  subst hheld hcap hwait hledger hout
  exact h

/-- A step that moves no report of this endpoint. -/
private theorem inOrder_same {b : UInt8} (h : st.InOrder b)
    (hmain : st'.main.load.report? b = st.main.load.report? b)
    (hreaper : st'.reaper.load.report? b = st.reaper.load.report? b := by rfl)
    (hcap : st'.prefetch.captured b = st.prefetch.captured b := by rfl)
    (hwait : st'.prefetch.waiter b = st.prefetch.waiter b := by rfl)
    (hledger : st'.ledger b = st.ledger b := by rfl)
    (hout : st'.outbox = st.outbox := by rfl) : st'.InOrder b :=
  inOrder_of h (held_eq hmain hreaper) hcap hwait hledger (by rw [hout])

/-- A step that rewrites another endpoint. -/
private theorem inOrder_put {b address : UInt8} {ep ep' : Endpoint} {next' : UInt32}
    (h : st.InOrder b) (hb : b ≠ address) (hep : st.prefetch.ep? address = some ep)
    (hprefetch : st'.prefetch = st.prefetch.put address ep' next')
    (hmain : st'.main.load.report? b = st.main.load.report? b)
    (hreaper : st'.reaper.load.report? b = st.reaper.load.report? b := by rfl)
    (hledger : st'.ledger b = st.ledger b := by rfl)
    (hout : st'.outbox = st.outbox := by rfl) : st'.InOrder b :=
  inOrder_same h hmain hreaper
    (by rw [hprefetch, Prefetch.captured_put hep, if_neg hb])
    (by rw [hprefetch, Prefetch.waiter_put hep, if_neg hb]) hledger hout

private theorem inOrder_start (opts : SessionOpts) (answers : List Ioctl) (dev : DevState)
    (b : UInt8) : (start d opts answers dev).InOrder b := by
  have key : (start d opts answers dev).prefetch.captured b = [] ∧
      (start d opts answers dev).prefetch.waiter b = none := by
    refine start_rule (fun p _ => p.captured b = [] ∧ p.waiter b = none) ?_ ?_
    · rintro p dev address ep ep' next' dev' ⟨hcap, hwait⟩ hep harm
      rw [Prefetch.captured_put hep, Prefetch.waiter_put hep, harm.captured_eq, harm.waiting_eq]
      split_ifs with hb
      · subst hb
        simp only [Prefetch.captured, Prefetch.waiter, hep] at hcap hwait
        exact ⟨hcap, hwait⟩
      · exact ⟨hcap, hwait⟩
    · unfold Prefetch.captured Prefetch.waiter
      cases hep : (Prefetch.new d.interruptInEndpoints opts.prefetch).ep? b with
      | none => exact ⟨rfl, rfl⟩
      | some ep =>
        obtain ⟨m, rfl⟩ := Prefetch.ep?_new hep
        exact ⟨rfl, rfl⟩
  refine ⟨[], [], [], rfl, fun hw => ?_, fun t ht => (by cases ht), .empty fun h => ?_,
    fun t ht => (by cases ht), key.1.symm, rfl⟩
  · rw [key.2] at hw
    cases hw
  · cases h <;> rfl

/-- The endpoint the prefetcher has at an address, as the ledger sees it. -/
theorem Prefetch.view_of {p : Prefetch} {address : UInt8} {ep : Endpoint}
    (h : p.ep? address = some ep) :
    p.captured address = ep.captured ∧ p.waiter address = ep.waiting := by
  unfold captured waiter
  rw [h]
  exact ⟨rfl, rfl⟩

private theorem filterMap_snoc (f : Out → Option (UInt32 × Bytes)) (l : List Out) (x : Out) :
    (l ++ [x]).filterMap f = l.filterMap f ++ (f x).toList := by
  rw [List.filterMap_append, List.filterMap_cons, List.filterMap_nil]
  cases f x <;> rfl

/-- **The order of reports.** Every step keeps the reports of every endpoint in order. -/
theorem inOrder_step (heff : Effect d st a st') {b : UInt8} (h : st.InOrder b) :
    st'.InOrder b := by
  cases heff with
  | quiet hq =>
    exact inOrder_same h (by rw [hq.main]) (by rw [hq.reaper]) (by rw [hq.prefetch])
      (by rw [hq.prefetch]) (by rw [hq.ledger]) hq.outbox
  | started _ => exact inOrder_start _ _ _ b
  | read hmain _ hpc => exact inOrder_same h (by rw [hmain]; exact report?_dispatch hpc b)
  | takePass hmain _ => exact inOrder_same h (by rw [hmain]; rfl)
  | @takeReady _ req ep ep' next' _ data rest hmain hep hdis hcap harm =>
    by_cases hb : b = req.address
    · subst hb
      obtain ⟨hc, hw⟩ := Prefetch.view_of hep
      -- the reader holds a submit and no report, so its hand is free
      have hreader : st.held req.address .reader = none := by
        rw [State.held, hmain]
        rfl
      refine inOrder_of (Ordered.take h hreader (hc.trans hcap) req.seqnum req.bufferLength)
        (held_reader ?_) ?_ ?_ (Function.update_self _ _ _)
      · simp [MainPc.load, MainLoad.report?, Out.report?, prefetchReply]
      · rw [Prefetch.captured_put hep, if_pos rfl, harm.captured_eq]
      · rw [Prefetch.waiter_put hep, if_pos rfl, harm.waiting_eq, hw]
    · have hne : ¬ req.address = b := fun h => hb h.symm
      refine inOrder_put h hb hep rfl ?_ rfl (Function.update_of_ne hb _ _)
      simp [hmain, MainPc.load, MainLoad.report?, Out.report?, prefetchReply, hne]
  | @takeWaiting _ req ep ep' next' _ hmain hep hdis hcap harm =>
    by_cases hb : b = req.address
    · subst hb
      obtain ⟨hc, -⟩ := Prefetch.view_of hep
      have hreader : st.held req.address .reader = none := by
        rw [State.held, hmain]
        rfl
      refine inOrder_of (Ordered.register h hreader (hc.trans hcap)
        { seqnum := req.seqnum, maxLen := req.bufferLength })
        (held_eq (by rw [hmain]; rfl) rfl) ?_ ?_
      · rw [Prefetch.captured_put hep, if_pos rfl, harm.captured_eq, hc]
      · rw [Prefetch.waiter_put hep, if_pos rfl, harm.waiting_eq]
    · exact inOrder_put h hb hep rfl (by rw [hmain]; rfl)
  | submitted _ _ hmain _ => exact inOrder_same h (by rw [hmain]; rfl)
  | submitRefused status hmain hsite =>
    refine inOrder_same h ?_
    rw [hmain]
    exact report?_encodeError b _ status (.inr hsite)
  | submitFatal hmain => exact inOrder_same h (by rw [hmain]; rfl)
  | @unlinkHit _ _ address ep hmain hep _ =>
    by_cases hb : b = address
    · subst hb
      obtain ⟨hc, -⟩ := Prefetch.view_of hep
      refine inOrder_of (Ordered.forget h) (held_eq (by rw [hmain]; rfl) rfl) ?_ ?_
      · rw [Prefetch.captured_put hep, if_pos rfl, hc]
      · rw [Prefetch.waiter_put hep, if_pos rfl]
    · exact inOrder_put h hb hep rfl (by rw [hmain]; rfl)
  | unlinkMiss hmain _ => exact inOrder_same h (by rw [hmain]; rfl)
  | devUnlink hmain => exact inOrder_same h (by rw [hmain]; rfl)
  | @mainSent out _ hmain _ =>
    have hheld : st.held b .reader = out.report? b := by
      rw [State.held, hmain]
      rfl
    refine inOrder_of (Ordered.post h .reader) (held_reader rfl) rfl rfl rfl ?_
    rw [hheld]
    exact filterMap_snoc _ _ _
  | mainDropped hmain _ =>
    exact inOrder_of (Ordered.giveUp h .reader) (held_reader rfl) rfl rfl
  | @shutdown answers hmain =>
    refine inOrder_of (Ordered.clear h) (held_eq (by rw [hmain]; rfl) rfl) ?_ ?_
    · rw [Prefetch.captured, Prefetch.ep?_shutdown]
      cases st.prefetch.ep? b <;> rfl
    · rw [Prefetch.waiter, Prefetch.ep?_shutdown]
      cases st.prefetch.ep? b <;> rfl
  | cancelled hmain => exact inOrder_same h (by rw [hmain]; rfl)
  | reapDropped _ _ _ _ => exact inOrder_same h rfl
  | reapOwned hreaper _ _ _ _ _ _ => exact inOrder_same h rfl (by rw [hreaper]; rfl)
  | reapClient hreaper _ _ _ _ _ _ => exact inOrder_same h rfl (by rw [hreaper]; rfl)
  | strayed hreaper _ => exact inOrder_same h rfl (by rw [hreaper]; rfl)
  | @delivered _ c r address ep ep' next' _ hreaper hep hfl harm =>
    by_cases hb : b = address
    · subst hb
      obtain ⟨hc, hw⟩ := Prefetch.view_of hep
      have hnone : st.held b .reaper = none := by
        rw [State.held, hreaper]
        rfl
      refine inOrder_of (Ordered.deliver (by rw [← hc, ← hw]; exact h) hnone c)
        (held_reaper ?_) ?_ ?_ (Function.update_self _ _ _)
      · exact (report?_afterDeliver b b r _).trans (if_pos rfl)
      · rw [Prefetch.captured_put hep, if_pos rfl, harm.captured_eq]
      · rw [Prefetch.waiter_put hep, if_pos rfl, harm.waiting_eq,
          (ep.deliver_waiting c.status c.data).2]
    · refine inOrder_put h hb hep rfl rfl ?_ (Function.update_of_ne hb _ _)
      dsimp only
      rw [report?_afterDeliver, if_neg hb, hreaper]
      rfl
  | @reaperSent out _ _ hreaper _ =>
    have hheld : st.held b .reaper = out.report? b := by
      rw [State.held, hreaper]
      rfl
    refine inOrder_of (Ordered.post h .reaper) (held_reaper rfl) rfl rfl rfl ?_
    rw [hheld]
    exact filterMap_snoc _ _ _
  | @reaperDropped _ _ r hreaper =>
    exact inOrder_of (Ordered.giveUp h .reaper) (held_reaper (by rw [r.load_next]; rfl)) rfl rfl

theorem inOrder_of_reach {ok : State → Action → Prop}
    (h : Reach (step d) (· = State.initial) ok st) (b : UInt8) : st.InOrder b :=
  h.session_invariant (fun st => st.InOrder b)
    ⟨[], [], [], rfl, fun hw => (by cases hw), fun t ht => (by cases ht),
      .empty fun h => (by cases h <;> rfl), fun t ht => (by cases ht), rfl, rfl⟩
    fun _ _ _ _ ih _ heff => inOrder_step heff ih

/-! ### What becomes of a report -/

/-- The endpoint is disabled. -/
def Prefetch.Off (p : Prefetch) (address : UInt8) : Prop :=
  ∃ ep, p.ep? address = some ep ∧ ep.disabled = true

theorem Prefetch.Off.put {p : Prefetch} {address b : UInt8} {ep : Endpoint} (h : p.Off b)
    (hep : p.ep? address = some ep) (ep' : Endpoint)
    (hdis : ep.disabled = true → ep'.disabled = true) (next : UInt32) :
    (p.put address ep' next).Off b := by
  obtain ⟨ep₀, h₀, hoff⟩ := h
  unfold Off
  rw [ep?_put hep]
  split_ifs with hb
  · rw [hb, hep] at h₀
    obtain rfl := Option.some.inj h₀
    exact ⟨ep', rfl, hdis hoff⟩
  · exact ⟨ep₀, h₀, hoff⟩

/-- The fate of a report is one that the state accounts for. -/
def Tracked.Due (log : List Pdu) (stop : Bool) (off : Prop) (t : Tracked) : Prop :=
  match t.fate with
  | .buffered => True
  | .inHand _ s n | .posted s n => Asked log s .in n
  | .evicted buffer => buffer.length = DEPTH ∧ buffer.head? = some t.report
  | .cleared => off
  | .unposted => stop = true

/-- Every report an endpoint took has a fate that the state accounts for. -/
def State.Due (st : State) (b : UInt8) : Prop :=
  ∀ t ∈ st.ledger b, t.Due st.log st.stop (st.prefetch.Off b)

namespace Tracked

variable {log log' : List Pdu} {stop stop' : Bool} {off off' : Prop} {t : Tracked}

theorem Due.mono (h : t.Due log stop off) (hlog : log ⊆ log') (hstop : stop = true → stop' = true)
    (hoff : off → off') : t.Due log' stop' off' := by
  unfold Due at h ⊢
  cases hf : t.fate with
  | buffered => trivial
  | inHand holder s n => rw [hf] at h; exact Asked.mono h hlog
  | posted s n => rw [hf] at h; exact Asked.mono h hlog
  | evicted buffer => rw [hf] at h; exact h
  | cleared => rw [hf] at h; exact hoff h
  | unposted => rw [hf] at h; exact hstop h

theorem Due.post (h : t.Due log stop off) (holder : Holder) : (t.post holder).Due log stop off := by
  unfold Tracked.post
  split
  · rename_i h' s n hf
    split_ifs
    · rw [Due, hf] at h
      exact h
    · exact h
  · exact h

theorem Due.giveUp (h : t.Due log stop off) (hstop : stop = true) (holder : Holder) :
    (t.giveUp holder).Due log stop off := by
  unfold Tracked.giveUp
  split
  · split_ifs
    · exact hstop
    · exact h
  · exact h

theorem Due.clear (h : t.Due log stop off) (hoff : t.isBuffered = true → off) :
    t.clear.Due log stop off := by
  unfold Tracked.clear
  split_ifs with hb
  · exact hoff hb
  · exact h

end Tracked

/-- Settling the oldest report touches a buffered one, the first of the buffer. -/
theorem mem_settleOldest {fate : Fate} {ts : List Tracked} {t : Tracked}
    (h : t ∈ settleOldest fate ts) :
    t ∈ ts ∨ t.fate = fate ∧
      ((ts.filter Tracked.isBuffered).map Tracked.report).head? = some t.report := by
  induction ts with
  | nil => cases h
  | cons x ts ih =>
    rw [settleOldest] at h
    split_ifs at h with hb
    · rcases List.mem_cons.mp h with rfl | h
      · exact .inr ⟨rfl, by rw [List.filter_cons_of_pos hb]; rfl⟩
      · exact .inl (List.mem_cons_of_mem x h)
    · rcases List.mem_cons.mp h with rfl | h
      · exact .inl List.mem_cons_self
      · rw [List.filter_cons_of_neg hb]
        exact (ih h).imp_left (List.mem_cons_of_mem x)

/-- A step that changes no fate. -/
private theorem due_same {b : UInt8} (h : st.Due b) (hledger : st'.ledger b = st.ledger b := by rfl)
    (hlog : st.log ⊆ st'.log := by exact List.Subset.refl _)
    (hstop : st.stop = true → st'.stop = true := by exact id)
    (hoff : st.prefetch.Off b → st'.prefetch.Off b := by exact id) : st'.Due b := by
  unfold State.Due
  rw [hledger]
  exact fun t ht => (h t ht).mono hlog hstop hoff

/-- The fates after an endpoint has taken a completion. -/
private theorem due_deliver {log : List Pdu} {stop : Bool} {off : Prop} {ts : List Tracked}
    (ep : Endpoint) (c : UrbCompletion) (h : ∀ t ∈ ts, t.Due log stop off)
    (hbuf : (ts.filter Tracked.isBuffered).map Tracked.report = ep.captured)
    (hask : ∀ w, ep.waiting = some w → Asked log w.seqnum .in w.maxLen)
    (hoff : (ep.deliver c.status c.data).2.disabled = true → off) :
    ∀ t ∈ trackDelivery ep c ts, t.Due log stop off := by
  intro t ht
  unfold trackDelivery at ht
  split at ht
  · rename_i hstatus
    split_ifs at ht with hgave
    -- the endpoint gives up, and whatever it has buffered goes
    · obtain ⟨t₀, ht₀, rfl⟩ := List.mem_map.mp ht
      refine (h t₀ ht₀).clear fun _ => hoff ?_
      simp [Endpoint.deliver, hstatus, hgave]
    · exact h t ht
  · cases hw : ep.waiting with
    | some w =>
      simp only [hw] at ht
      rcases List.mem_append.mp ht with ht | ht
      · exact h t ht
      · rw [List.mem_singleton.mp ht]
        exact hask w hw
    | none =>
      simp only [hw] at ht
      rcases List.mem_append.mp ht with ht | ht
      · split_ifs at ht with hfull
        · rcases mem_settleOldest ht with ht | ⟨hf, hhead⟩
          · exact h t ht
          · rw [Tracked.Due, hf]
            exact ⟨hfull, by rw [← hbuf]; exact hhead⟩
        · exact h t ht
      · rw [List.mem_singleton.mp ht]
        trivial

theorem due_step (hsrc : Sourced d st) {b : UInt8} (hord : st.InOrder b) (h : st.Due b)
    (heff : Effect d st a st') : st'.Due b := by
  cases heff with
  | quiet hq =>
    refine due_same h (by rw [hq.ledger]) (by rw [hq.log]; exact List.Subset.refl _) hq.stop ?_
    rw [hq.prefetch]
    exact id
  | started _ => exact fun t ht => by cases ht
  | read _ _ _ => exact due_same h rfl (List.subset_append_left _ _)
  | takePass _ _ => exact due_same h
  | @takeReady _ req ep ep' next' _ _ _ hmain hep hdis _ harm =>
    have hoff : st.prefetch.Off b → (st.prefetch.put req.address ep' next').Off b :=
      fun hoff => hoff.put hep ep' harm.disabled_mono next'
    by_cases hb : b = req.address
    · subst hb
      have hask := hsrc.main
      rw [hmain] at hask
      intro t ht
      dsimp only at ht
      rw [Function.update_self] at ht
      rcases mem_settleOldest ht with ht | ⟨hf, -⟩
      · exact (h t ht).mono (List.Subset.refl _) id hoff
      · rw [Tracked.Due, hf]
        exact hask.1 ▸ hask.2
    · exact due_same h (Function.update_of_ne hb _ _) (List.Subset.refl _) id hoff
  | takeWaiting _ hep _ _ harm =>
    exact due_same h rfl (List.Subset.refl _) id fun hoff => hoff.put hep _ harm.disabled_mono _
  | submitted _ _ _ _ => exact due_same h
  | submitRefused _ _ _ => exact due_same h
  | submitFatal _ => exact due_same h
  | @unlinkHit _ _ _ ep _ hep _ =>
    exact due_same h rfl (List.Subset.refl _) id fun hoff =>
      hoff.put hep { ep with waiting := none } id _
  | unlinkMiss _ _ => exact due_same h
  | devUnlink _ => exact due_same h
  | mainSent _ _ =>
    intro t ht
    obtain ⟨t₀, ht₀, rfl⟩ := List.mem_map.mp ht
    exact (h t₀ ht₀).post .reader
  | mainDropped _ hstop =>
    intro t ht
    obtain ⟨t₀, ht₀, rfl⟩ := List.mem_map.mp ht
    exact (h t₀ ht₀).giveUp hstop .reader
  | @shutdown answers _ =>
    intro t ht
    obtain ⟨t₀, ht₀, rfl⟩ := List.mem_map.mp ht
    have hall : ∀ ep, st.prefetch.ep? b = some ep →
        (st.prefetch.shutdown d.backend (st.dev, answers)).1.Off b := fun ep hep =>
      ⟨ep.shutdown, by rw [Prefetch.ep?_shutdown, hep, Option.map_some], rfl⟩
    refine ((h t₀ ht₀).mono (List.Subset.refl _) id fun ⟨ep, hep, _⟩ => hall ep hep).clear
      fun hb => ?_
    -- a buffered report is in the buffer of an endpoint that exists
    have hmem : t₀.report ∈ st.prefetch.captured b := by
      rw [← Ordered.buffered hord]
      exact List.mem_map_of_mem (List.mem_filter.mpr ⟨ht₀, hb⟩)
    cases hep : st.prefetch.ep? b with
    | none => simp [Prefetch.captured, hep] at hmem
    | some ep => exact hall ep hep
  | cancelled _ => exact due_same h
  | reapDropped _ _ _ _ => exact due_same h
  | reapOwned _ _ _ _ _ _ _ => exact due_same h
  | reapClient _ _ _ _ _ _ _ => exact due_same h
  | strayed _ _ => exact due_same h
  | @delivered _ c _ address ep ep' next' _ _ hep _ harm =>
    have hoff : st.prefetch.Off b → (st.prefetch.put address ep' next').Off b :=
      fun hoff => hoff.put hep ep'
        (fun hdis => harm.disabled_mono (ep.deliver_disabled _ _ hdis)) next'
    by_cases hb : b = address
    · subst hb
      have hdue := due_deliver ep c (fun t ht => (h t ht).mono (List.Subset.refl _) id hoff)
        ((Ordered.buffered hord).trans (Prefetch.view_of hep).1)
        (fun w hw => hsrc.waiter b ep w hep hw)
        fun hdis => ⟨ep', by rw [Prefetch.ep?_put hep, if_pos rfl], harm.disabled_mono hdis⟩
      intro t ht
      dsimp only at ht
      rw [Function.update_self] at ht
      exact hdue t ht
    · exact due_same h (Function.update_of_ne hb _ _) (List.Subset.refl _) id hoff
  | reaperSent _ _ =>
    intro t ht
    obtain ⟨t₀, ht₀, rfl⟩ := List.mem_map.mp ht
    exact (h t₀ ht₀).post .reaper
  | reaperDropped _ =>
    intro t ht
    obtain ⟨t₀, ht₀, rfl⟩ := List.mem_map.mp ht
    exact ((h t₀ ht₀).mono (List.Subset.refl _) (fun _ => rfl) id).giveUp rfl .reaper

theorem due_of_reach {ok : State → Action → Prop}
    (h : Reach (step d) (· = State.initial) ok st) (b : UInt8) : st.Due b :=
  h.session_invariant (fun st => st.Due b) (fun t ht => by cases ht)
    fun _ _ _ hr ih _ heff => due_step (sourced_of_reach hr) (inOrder_of_reach hr b) ih heff

/-! ### Whose reports they are -/

/-- The successful completions of an endpoint's own URBs that were passed to `deliver`. -/
def State.reports (st : State) (address : UInt8) : List UrbCompletion :=
  st.taken.filter fun c => c.status = 0 ∧ c.origin = .prefetch address

/-- The ledger of an endpoint lists its reports, up to those that came after the prefetcher was
shut down. -/
def State.Credited (st : State) (b : UInt8) : Prop :=
  ∃ late, (st.reports b).map UrbCompletion.data = (st.ledger b).map Tracked.report ++ late ∧
    (late ≠ [] → st.main.down = true ∧ st.stop = true)

theorem map_report_settleOldest (fate : Fate) (ts : List Tracked) :
    (settleOldest fate ts).map Tracked.report = ts.map Tracked.report := by
  induction ts with
  | nil => rfl
  | cons t ts ih =>
    rw [settleOldest]
    split_ifs
    · rfl
    · rw [List.map_cons, ih, List.map_cons]

theorem map_report_map {f : Tracked → Tracked} (hf : ∀ t, (f t).report = t.report)
    (ts : List Tracked) : (ts.map f).map Tracked.report = ts.map Tracked.report := by
  rw [List.map_map]
  exact List.map_congr_left fun t _ => hf t

/-- A completion adds its data to the ledger exactly when it is a successful one. -/
theorem map_report_trackDelivery (ep : Endpoint) (c : UrbCompletion) (ts : List Tracked) :
    (trackDelivery ep c ts).map Tracked.report =
      ts.map Tracked.report ++ if c.status = 0 then [c.data] else [] := by
  unfold trackDelivery
  by_cases hstatus : c.status = 0
  · rw [if_neg (not_not.mpr hstatus), if_pos hstatus]
    cases ep.waiting with
    | some w => exact List.map_append
    | none =>
      dsimp only
      split_ifs
      · rw [List.map_append, map_report_settleOldest]
        rfl
      · exact List.map_append
  · rw [if_pos hstatus, if_neg hstatus, List.append_nil]
    split_ifs
    · exact map_report_map Tracked.report_clear ts
    · rfl

/-- One more completion is a report of the endpoint if it is a successful one of its own. -/
private theorem map_data_snoc {taken : List UrbCompletion} {c : UrbCompletion} {b : UInt8}
    (h : st'.taken = taken ++ [c]) (hst : st.taken = taken) :
    (st'.reports b).map UrbCompletion.data = (st.reports b).map UrbCompletion.data ++
      if c.status = 0 ∧ c.origin = .prefetch b then [c.data] else [] := by
  rw [State.reports, h, State.reports, hst, List.filter_append, List.map_append, List.filter_cons]
  simp only [decide_eq_true_eq]
  split_ifs <;> rfl

/-- A step that takes no completion and leaves the reports of the ledger as they are. -/
private theorem credited_same {b : UInt8} (h : st.Credited b)
    (hdown : st.main.down = true → st'.main.down = true)
    (hledger : (st'.ledger b).map Tracked.report = (st.ledger b).map Tracked.report := by rfl)
    (hstop : st.stop = true → st'.stop = true := by exact id)
    (htaken : st'.taken = st.taken := by rfl) : st'.Credited b := by
  obtain ⟨late, heq, hlate⟩ := h
  refine ⟨late, ?_, fun hne => ⟨hdown (hlate hne).1, hstop (hlate hne).2⟩⟩
  rw [hledger, ← heq, State.reports, htaken, State.reports]

/-- Such a step while the prefetcher is up. -/
private theorem credited_up {b : UInt8} (h : st.Credited b) (hup : st.main.down = false)
    (hledger : (st'.ledger b).map Tracked.report = (st.ledger b).map Tracked.report := by rfl)
    (hstop : st.stop = true → st'.stop = true := by exact id)
    (htaken : st'.taken = st.taken := by rfl) : st'.Credited b :=
  credited_same h (fun hdown => by rw [hup] at hdown; cases hdown) hledger hstop htaken

theorem credited_step (hc : Control st) (htied : st.Tied)
    (hhalt : st.main.down = true → st.prefetch.Halted) {b : UInt8} (h : st.Credited b)
    (heff : Effect d st a st') : st'.Credited b := by
  cases heff with
  | quiet hq =>
    exact credited_same h (by rw [hq.down]; exact id) (by rw [hq.ledger]) hq.stop hq.taken
  | started _ => exact ⟨[], rfl, fun hne => absurd rfl hne⟩
  | read hmain _ _ => exact credited_up h (by rw [hmain]; rfl)
  | takePass hmain _ => exact credited_up h (by rw [hmain]; rfl)
  | @takeReady _ req _ _ _ _ _ _ hmain _ _ _ _ =>
    refine credited_up h (by rw [hmain]; rfl) ?_
    by_cases hb : b = req.address
    · subst hb
      dsimp only
      rw [Function.update_self, map_report_settleOldest]
    · dsimp only
      rw [Function.update_of_ne hb]
  | takeWaiting hmain _ _ _ _ => exact credited_up h (by rw [hmain]; rfl)
  | submitted _ _ hmain _ => exact credited_up h (by rw [hmain]; rfl)
  | submitRefused _ hmain _ => exact credited_up h (by rw [hmain]; rfl)
  | submitFatal hmain => exact credited_up h (by rw [hmain]; rfl)
  | unlinkHit hmain _ _ => exact credited_up h (by rw [hmain]; rfl)
  | unlinkMiss hmain _ => exact credited_up h (by rw [hmain]; rfl)
  | devUnlink hmain => exact credited_up h (by rw [hmain]; rfl)
  | mainSent hmain _ =>
    exact credited_up h (by rw [hmain]; rfl)
      (map_report_map (fun t => t.report_post .reader) _)
  | mainDropped hmain _ =>
    exact credited_up h (by rw [hmain]; rfl)
      (map_report_map (fun t => t.report_giveUp .reader) _)
  | shutdown _ =>
    exact credited_same h (fun _ => rfl) (map_report_map Tracked.report_clear _)
  | cancelled _ => exact credited_same h fun _ => rfl
  | reapDropped _ _ _ _ => exact credited_same h id
  | reapOwned _ _ _ _ _ _ _ => exact credited_same h id
  | reapClient _ _ _ _ _ _ _ => exact credited_same h id
  | @strayed _ c r hreaper hno =>
    obtain ⟨late, heq, hlate⟩ := h
    cases hdown : st.main.down with
    | false =>
      -- before the shutdown a completion without an endpoint is not the prefetcher's
      have hm := htied hdown
      rw [hreaper] at hm
      have hforeign := (hm.strayed (flight_ne hno)).2 b
      refine ⟨late, ?_, fun hne => by rw [(hlate hne).1] at hdown; cases hdown⟩
      rw [map_data_snoc rfl rfl, ← heq, if_neg fun hmine => hforeign hmine.2, List.append_nil]
    | true =>
      -- after it, the reaper may still bring one of the endpoint's own, too late to be entered
      have hstop : st.stop = true := by
        refine hc.stopped (.inr ?_)
        cases hm : st.main with
        | shutDown => exact .inl rfl
        | joined => exact .inr rfl
        | ended =>
          have hidle := hc.reaper_idle (.inr (.inr (.inl hm)))
          rw [hreaper] at hidle
          cases hidle
        | _ => rw [hm] at hdown; cases hdown
      refine ⟨late ++ (if c.status = 0 ∧ c.origin = .prefetch b then [c.data] else []), ?_,
        fun _ => ⟨hdown, hstop⟩⟩
      rw [map_data_snoc rfl rfl, ← List.append_assoc, ← heq]
  | @delivered _ c r address ep ep' _ _ hreaper hep hfl _ =>
    obtain ⟨late, heq, hlate⟩ := h
    -- an endpoint that has something in flight has not been shut down
    have hdown : st.main.down = false := by
      cases hd : st.main.down with
      | false => rfl
      | true =>
        rw [(hhalt hd address ep hep).2] at hfl
        cases hfl
    have hm := htied hdown
    rw [hreaper] at hm
    have horigin : c.origin = .prefetch address :=
      hm.own address c rfl ((Prefetch.flight_of hep).trans hfl)
    have hnil : late = [] := by
      by_contra hne
      rw [(hlate hne).1] at hdown
      cases hdown
    rw [hnil, List.append_nil] at heq
    refine ⟨[], ?_, fun hne => absurd rfl hne⟩
    rw [List.append_nil, map_data_snoc rfl rfl, horigin, heq]
    by_cases hb : b = address
    · subst hb
      dsimp only
      rw [Function.update_self, map_report_trackDelivery]
      simp only [and_true]
    · have hother : ¬ (c.status = 0 ∧ Origin.prefetch address = .prefetch b) :=
        fun hmine => hb (Origin.prefetch.inj hmine.2).symm
      dsimp only
      rw [Function.update_of_ne hb, if_neg hother, List.append_nil]
  | reaperSent _ _ =>
    exact credited_same h id (map_report_map (fun t => t.report_post .reaper) _)
  | reaperDropped _ =>
    exact credited_same h id (map_report_map (fun t => t.report_giveUp .reaper) _) fun _ => rfl

theorem credited_of_reach (h : Reach (step d) (· = State.initial) NoMisdirection st) (b : UInt8) :
    st.Credited b :=
  h.session_invariant (fun st => st.Credited b) ⟨[], rfl, fun hne => absurd rfl hne⟩
    fun _ _ _ hr ih _ heff => credited_step (control_of_reach hr) (tied_of_reach hr)
      (halted_of_reach hr.reachable) ih heff

/-- What prefetching owes the client of an endpoint. -/
structure State.Forwarded (st : State) (address : UInt8) : Prop where
  /-- The payloads in the outbox are a subsequence of the endpoint's reports, each cut to the
  buffer length of the submit it answers. -/
  order : ∃ used : List Bytes,
    used.Sublist ((st.reports address).map UrbCompletion.data) ∧
    List.Forall₂ (fun out report => ∃ n, Asked st.log out.1 .in n ∧ out.2 = report.take n)
      (st.outbox.filterMap (Out.report? address)) used
  /-- Every report is in the ledger, in order, but for those delivered after the stop. -/
  entered : ∃ late,
    (st.reports address).map UrbCompletion.data =
      (st.ledger address).map Tracked.report ++ late ∧ (late ≠ [] → st.stop = true)
  posted : st.outbox.filterMap (Out.report? address) =
    (st.ledger address).filterMap Tracked.posted?
  buffered : ((st.ledger address).filter Tracked.isBuffered).map Tracked.report =
    st.prefetch.captured address
  /-- A report that was not posted is where its fate says, or was lost for the reason its fate
  gives. -/
  missing : ∀ t ∈ st.ledger address,
    match t.fate with
    | .buffered => t.report ∈ st.prefetch.captured address
    | .inHand holder s n => st.held address holder = some (s, t.report.take n)
    | .posted s n => Asked st.log s .in n
    | .evicted buffer => buffer.length = DEPTH ∧ buffer.head? = some t.report
    | .cleared => st.prefetch.Off address
    | .unposted => st.stop = true

/-- The posted reports of a ledger are a subsequence of it. -/
private theorem exists_used {log : List Pdu} {stop : Bool} {off : Prop} {ts : List Tracked}
    (h : ∀ t ∈ ts, t.Due log stop off) :
    ∃ used : List Bytes, used.Sublist (ts.map Tracked.report) ∧
      List.Forall₂ (fun out report => ∃ n, Asked log out.1 .in n ∧ out.2 = report.take n)
        (ts.filterMap Tracked.posted?) used := by
  induction ts with
  | nil => exact ⟨[], .slnil, .nil⟩
  | cons t ts ih =>
    obtain ⟨used, hsub, hall⟩ := ih fun x hx => h x (List.mem_cons_of_mem t hx)
    have hdue := h t List.mem_cons_self
    cases hp : t.posted? with
    | none =>
      rw [List.filterMap_cons_none hp]
      exact ⟨used, hsub.cons t.report, hall⟩
    | some out =>
      rw [List.filterMap_cons_some hp]
      refine ⟨t.report :: used, hsub.cons_cons t.report, .cons ?_ hall⟩
      unfold Tracked.posted? at hp
      split at hp
      · rename_i s n hf
        rw [Tracked.Due, hf] at hdue
        obtain rfl := Option.some.inj hp
        exact ⟨n, hdue, rfl⟩
      · cases hp

/-- **Reports are forwarded in order.** In every run in which no number that an endpoint has lost
is used again, for every endpoint: the status-0 replies of prefetching carry the endpoint's reports
in the order in which they were delivered, each at most once and cut to the buffer length of its
requester; and a report is missing only if it is still buffered or in a thread's hand, was the
oldest of a full buffer when another arrived, was buffered when the endpoint was disabled or
shut down, or could not be posted because the session had stopped. -/
theorem reports_in_order (h : Reach (step d) (· = State.initial) NoMisdirection st)
    (address : UInt8) : st.Forwarded address := by
  have hord := inOrder_of_reach h address
  have hdue := due_of_reach h address
  obtain ⟨late, heq, hlate⟩ := credited_of_reach h address
  obtain ⟨used, hsub, hall⟩ := exists_used hdue
  have hposted := Ordered.posted_eq hord
  exact
    { order := by
        refine ⟨used, ?_, by rw [← hposted]; exact hall⟩
        rw [heq]
        exact hsub.trans (List.sublist_append_left _ _)
      entered := ⟨late, heq, fun hne => (hlate hne).2⟩
      posted := hposted.symm
      buffered := Ordered.buffered hord
      missing := fun t ht => by
        have ht' := hdue t ht
        unfold Tracked.Due at ht'
        cases hf : t.fate with
        | buffered =>
          dsimp only
          rw [← Ordered.buffered hord]
          exact List.mem_map_of_mem (List.mem_filter.mpr ⟨ht, Tracked.isBuffered_iff.mpr hf⟩)
        | inHand holder s n => exact Ordered.held_of_mem hord ht hf
        | posted s n => rw [hf] at ht'; exact ht'
        | evicted buffer => rw [hf] at ht'; exact ht'
        | cleared => rw [hf] at ht'; exact ht'
        | unposted => rw [hf] at ht'; exact ht' }

/-- A run in which neither side runs into a number of the other is such a run. -/
theorem noMisdirection_of_reach (h : Reach (step d) (· = State.initial) NoCollision st) :
    Reach (step d) (· = State.initial) NoMisdirection st := by
  induction h with
  | start hs => exact .start hs
  | @next st st' a hr hok ha ih =>
    refine ih.next (hok.noMisdirection fun s => ?_) ha
    cases hdown : st.main.down with
    | false => exact ((inFlight_of_reach hr).2 hdown).not_lost s
    | true =>
      -- after the shutdown no endpoint records anything
      rintro ⟨⟨b, hb⟩, -⟩
      obtain ⟨ep, hep, hfl⟩ := Option.bind_eq_some_iff.mp hb
      rw [(halted_of_reach hr.reachable hdown b ep hep).2] at hfl
      cases hfl

/-- The client unlinks the internal URB, submits a control transfer under its seqnum and one for
a report: what the control transfer reads is passed off as the report. -/
def misdirected : List Action :=
  hijack ++ receive (.submitIn 0x80000000 0 8) ++ [.take .ok, .submit .ok] ++
    receive (.submitIn 2 1 64) ++ [.take .ok] ++
    [.reap { seqnum := 0x80000000, status := 0, actualLength := 1, written := [7] } 0,
      .deliver .ok, .reaperPost]

/-- A client that uses seqnums of the internal range can be sent data that no report of the
endpoint holds. -/
theorem exists_report_misdirected :
    ¬ ∀ st, SessionReachable gamepad st → ∀ address, st.Forwarded address := by
  intro hall
  obtain ⟨st, hst, hp⟩ := exists_session_of_run gamepad misdirected
    (fun st => st.reports 0x81 = [] && st.outbox.filterMap (Out.report? 0x81) = [(2, [7])])
    (by decide +kernel)
  rw [Bool.and_eq_true, decide_eq_true_eq, decide_eq_true_eq] at hp
  obtain ⟨hreports, hout⟩ := hp
  obtain ⟨used, hsub, hforall⟩ := (hall st hst 0x81).order
  rw [hreports, List.map_nil, List.sublist_nil] at hsub
  rw [hsub, hout] at hforall
  cases hforall

/-- Three reports: one straight to a waiting submit that asks for less, one through the buffer,
and one that stays buffered. -/
def threeReports : List Action :=
  begin true ++ receive (.submitIn 1 1 1) ++ [.take .ok] ++ reapOne 0x80000000 0 [7, 8] ++
    [.deliver .ok, .reaperPost,
      .reap { seqnum := 0x80000001, status := 0, actualLength := 1, written := [9] } 0,
      .deliver .ok,
      .reap { seqnum := 0x80000002, status := 0, actualLength := 1, written := [10] } 0,
      .deliver .ok] ++
    receive (.submitIn 2 1 64) ++ [.take .ok, .mainPost]

theorem reports_in_order_three :
    ∃ st, Reach (step gamepad) (· = State.initial) NoMisdirection st ∧
      (st.reports 0x81).map UrbCompletion.data = [[7, 8], [9], [10]] ∧
      st.outbox.filterMap (Out.report? 0x81) = [(1, [7]), (2, [9])] ∧ st.Forwarded 0x81 := by
  obtain ⟨st, hst, hp⟩ := exists_session_of_runIf gamepad noCollision_sound threeReports
    (fun st => (st.reports 0x81).map UrbCompletion.data = [[7, 8], [9], [10]] &&
      st.outbox.filterMap (Out.report? 0x81) = [(1, [7]), (2, [9])]) (by decide +kernel)
  rw [Bool.and_eq_true, decide_eq_true_eq, decide_eq_true_eq] at hp
  have hst' := noMisdirection_of_reach hst
  exact ⟨st, hst', hp.1, hp.2, reports_in_order hst' 0x81⟩

end Padwire
