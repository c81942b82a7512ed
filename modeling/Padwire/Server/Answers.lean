import Padwire.Server.Accounts
import Padwire.Server.PrefetchRuns

/-!
# What a reply answers

`Sourced` traces everything that can become a reply back to the command it answers: a request
in the reader's hand, a waiter, a URB of the client in the table and a reply on its way all name
a submit of the log, with its direction and its buffer length. From it follows the framing of
the reply stream (`replies_in_frame`): a `USBIP_RET_SUBMIT` does not say whether a payload
follows, and yet the importer, who knows the direction of each submit, reads the outbox back.

The last section winds sessions down (`sessions_wind_down`): after the prefetcher is shut down
nothing is submitted any more, a session that ends leaves only unlinked URBs behind, and every
session answers its own submits only.
-/

namespace Padwire

variable {d : UsbfsDevice} {st st' : State} {a : Action}

/-! ### Provenance -/

/-- The log has a submit with this seqnum, direction and buffer length. -/
def Asked (log : List Pdu) (s : UInt32) (dir : Direction) (len : ℕ) : Prop :=
  ∃ p ∈ log, ∃ c, p.header.body = .cmdSubmit c ∧ p.header.base.seqnum = s ∧
    p.header.base.dir = dir ∧ c.transferBufferLength.toInt.toNat = len

theorem Asked.mono {log log' : List Pdu} {s : UInt32} {dir : Direction} {len : ℕ}
    (h : Asked log s dir len) (hlog : log ⊆ log') : Asked log' s dir len := by
  obtain ⟨p, hp, hc⟩ := h
  exact ⟨p, hlog hp, hc⟩

/-- A buffer length fits in an `i32`. -/
theorem Asked.lt {log : List Pdu} {s : UInt32} {dir : Direction} {len : ℕ}
    (h : Asked log s dir len) : len < 2 ^ 31 := by
  obtain ⟨p, -, c, -, -, -, rfl⟩ := h
  have hlt := c.transferBufferLength.toInt_lt
  omega

/-- A reply to a submit carries the payload its direction calls for, and no more than the
submit asked for. -/
def Reply.Fits (log : List Pdu) (reply : Reply) : Prop :=
  match reply with
  | .retUnlink _ _ => True
  | .retSubmit s ret data => ∃ dir len, Asked log s dir len ∧
      data.length = ret.payloadLen dir ∧ data.length ≤ len

theorem Reply.Fits.mono {log log' : List Pdu} {reply : Reply} (h : reply.Fits log)
    (hlog : log ⊆ log') : reply.Fits log' := by
  unfold Reply.Fits at h ⊢
  split at h
  · trivial
  · obtain ⟨dir, len, hask, hfit⟩ := h
    exact ⟨dir, len, hask.mono hlog, hfit⟩

theorem fits_encodeError {log : List Pdu} {s : UInt32} {dir : Direction} {len : ℕ}
    (h : Asked log s dir len) (status : Int32) : (encodeError s status).Fits log := by
  refine ⟨dir, len, h, ?_, Nat.zero_le _⟩
  unfold RetSubmit.payloadLen
  split_ifs <;> rfl

/-- The length of a payload survives the cast to `i32`. -/
private theorem payloadLen_in {n len : ℕ} (hn : n ≤ len) (hlen : len < 2 ^ 31) (status : Int32) :
    RetSubmit.payloadLen { status, actualLength := Int32.ofNat n } .in = n := by
  have hcast : (Int32.ofNat n).toInt = n := Int32.toInt_ofNat_of_lt (by omega)
  unfold RetSubmit.payloadLen
  rw [if_pos (by decide)]
  dsimp only
  rw [hcast, Int.toNat_natCast]

theorem fits_prefetchReply {log : List Pdu} {s : UInt32} {len : ℕ} (h : Asked log s .in len)
    {data : Bytes} (hdata : data.length ≤ len) (status : Int32) :
    (prefetchReply s status data).Fits log :=
  ⟨.in, len, h, (payloadLen_in hdata h.lt status).symm, hdata⟩

theorem fits_completionReply {log : List Pdu} {e : Entry} {c : UrbCompletion}
    (h : Asked log c.seqnum e.urb.dir e.urb.maxReply) (hans : c.Answers e) :
    (completionReply c).Fits log := by
  cases hdir : e.urb.dir with
  | «in» =>
    rw [hdir] at h
    have hlen := hans.bound hdir
    refine ⟨.in, _, h, ?_, hlen⟩
    have hcast := payloadLen_in hlen h.lt c.status
    rw [hans.actual hdir]
    exact hcast.symm
  | out =>
    rw [hdir] at h
    have hnil := hans.out hdir
    refine ⟨.out, _, h, ?_, by rw [hnil]; exact Nat.zero_le _⟩
    rw [hnil]
    rfl

/-- What the reader holds comes from a submit of the log. -/
def MainLoad.Sourced (log : List Pdu) : MainLoad → Prop
  | .take req => req.dir = .in ∧ Asked log req.seqnum req.dir req.bufferLength
  | .submit req => Asked log req.seqnum req.dir req.bufferLength
  | .reply out => out.reply.Fits log
  | _ => True

/-- What the reaper holds comes from a submit of the log. -/
def ReaperLoad.Sourced (log : List Pdu) : ReaperLoad → Prop
  | .reply out => out.reply.Fits log
  | _ => True

/-- Everything on its way to a reply comes from a submit of this session. -/
structure Sourced (d : UsbfsDevice) (st : State) : Prop where
  log : ∀ p ∈ st.log, p.ClientSends d.maxTransfer
  main : st.main.load.Sourced st.log
  reaper : st.reaper.load.Sourced st.log
  waiter : ∀ address ep w, st.prefetch.ep? address = some ep → ep.waiting = some w →
    Asked st.log w.seqnum .in w.maxLen
  entry : ∀ s e, st.dev.pending.lookup s = some e → e.unlinked = false →
    e.urb.origin = .client → Asked st.log s e.urb.dir e.urb.maxReply
  outbox : ∀ out ∈ st.outbox, out.reply.Fits st.log

private theorem sourced_initial : Sourced d State.initial where
  log p h := by cases h
  main := trivial
  reaper := trivial
  waiter address ep w h := by cases h
  entry s e h := by simp [State.initial, DevState.fresh] at h
  outbox out h := by cases h

private theorem entry_arming {address : UInt8} {ep ep' : Endpoint} {next next' : UInt32}
    {dev dev' : DevState} (harm : Arming d address ep next dev ep' next' dev') {s : UInt32}
    {e : Entry} (he : dev'.pending.lookup s = some e) (horigin : e.urb.origin = .client) :
    dev.pending.lookup s = some e := by
  rcases harm.lookup_cases s with hsame | ⟨-, -, e', he', -, horigin'⟩
  · exact hsame ▸ he
  · rw [he, Option.some.injEq] at he'
    rw [← he', horigin] at horigin'
    cases horigin'

/-- Taking an entry out of the table leaves the others with what they answer. -/
private theorem entry_reap {k : UInt32} {dev' : DevState} (h : Sourced d st)
    (hlook : ∀ s, dev'.pending.lookup s = if s = k then none else st.dev.pending.lookup s)
    (s : UInt32) (e : Entry) (he : dev'.pending.lookup s = some e) (hu : e.unlinked = false)
    (ho : e.urb.origin = .client) : Asked st.log s e.urb.dir e.urb.maxReply := by
  rw [hlook] at he
  split_ifs at he
  exact h.entry s e he hu ho

private theorem waiter_put {address : UInt8} {ep ep' : Endpoint} {next : UInt32}
    (h : Sourced d st) (hep : st.prefetch.ep? address = some ep)
    (hnew : ∀ w, ep'.waiting = some w → Asked st.log w.seqnum .in w.maxLen) (b : UInt8)
    (e : Endpoint) (w : Waiter) (he : (st.prefetch.put address ep' next).ep? b = some e)
    (hw : e.waiting = some w) : Asked st.log w.seqnum .in w.maxLen := by
  rw [Prefetch.ep?_put hep] at he
  split_ifs at he with hb
  · obtain rfl := Option.some.inj he
    exact hnew w hw
  · exact h.waiter b e w he hw

private theorem sourced_start (opts : SessionOpts) (answers : List Ioctl) (dev : DevState) :
    Sourced d (start d opts answers dev) := by
  have key : (∀ s e, (start d opts answers dev).dev.pending.lookup s = some e →
      e.urb.origin ≠ .client) ∧ ∀ b ep, (start d opts answers dev).prefetch.ep? b = some ep →
      ep.waiting = none := by
    refine start_rule (fun p dev => (∀ s e, dev.pending.lookup s = some e →
      e.urb.origin ≠ .client) ∧ ∀ b ep, p.ep? b = some ep → ep.waiting = none) ?_ ⟨?_, ?_⟩
    · rintro p dev b ep ep' next' dev' ⟨hentry, hwait⟩ hep harm
      refine ⟨fun s e he horigin => hentry s e (entry_arming harm he horigin) horigin, ?_⟩
      intro b' e he
      rw [Prefetch.ep?_put hep] at he
      split_ifs at he
      · rw [← Option.some.inj he, harm.waiting_eq]
        exact hwait b ep hep
      · exact hwait b' e he
    -- what is in the table now belongs to earlier sessions
    · intro s e he
      rw [DevState.lookup_age] at he
      obtain ⟨e₀, -, rfl⟩ := Option.map_eq_some_iff.mp he
      simp
    · intro b ep hep
      obtain ⟨m, rfl⟩ := Prefetch.ep?_new hep
      rfl
  exact
    { log := fun p h => by cases h
      main := trivial
      reaper := trivial
      waiter := fun b ep w hep hw => by rw [key.2 b ep hep] at hw; cases hw
      entry := fun s e he _ horigin => absurd horigin (key.1 s e he)
      outbox := fun out h => by cases h }

/-- Reading a command extends the log, and what the reader then holds comes from it. -/
private theorem sourced_read {pdu : Pdu} {pc : MainPc} (h : Sourced d st)
    (hsends : pdu.ClientSends d.maxTransfer) (hpc : dispatch pdu = some pc) :
    Sourced d { st with main := pc, log := st.log ++ [pdu] } := by
  have hsub : st.log ⊆ st.log ++ [pdu] := List.subset_append_left _ _
  have hmem : pdu ∈ st.log ++ [pdu] := List.mem_append_right _ List.mem_cons_self
  exact
    { log := fun p hp => by
        rcases List.mem_append.mp hp with hp | hp
        · exact h.log p hp
        · rw [List.mem_singleton.mp hp]
          exact hsends
      main := by
        cases dispatched hpc with
        | iso hbody => exact fits_encodeError ⟨pdu, hmem, _, hbody, rfl, rfl, rfl⟩ _
        | take hbody hdir => exact ⟨hdir, pdu, hmem, _, hbody, rfl, rfl, rfl⟩
        | submit hbody => exact ⟨pdu, hmem, _, hbody, rfl, rfl, rfl⟩
        | unlink _ => trivial
      reaper := by
        have hr := h.reaper
        dsimp only
        cases hload : st.reaper.load with
        | reply out => rw [hload] at hr; exact Reply.Fits.mono hr hsub
        | _ => trivial
      waiter := fun b ep w hep hw => (h.waiter b ep w hep hw).mono hsub
      entry := fun s e he hu ho => (h.entry s e he hu ho).mono hsub
      outbox := fun out hout => (h.outbox out hout).mono hsub }

/-- A reply that goes into the outbox fits. -/
private theorem outbox_put {out : Out} (h : Sourced d st) (hout : out.reply.Fits st.log) :
    ∀ o ∈ st.outbox ++ [out], o.reply.Fits st.log := by
  intro o ho
  rcases List.mem_append.mp ho with ho | ho
  · exact h.outbox o ho
  · rw [List.mem_singleton.mp ho]
    exact hout

theorem sourced_step (hown : Owned st) (h : Sourced d st) (heff : Effect d st a st') :
    Sourced d st' := by
  cases heff with
  | quiet hq =>
    exact
      { log := by rw [hq.log]; exact h.log
        main := by rw [hq.main, hq.log]; exact h.main
        reaper := by rw [hq.reaper, hq.log]; exact h.reaper
        waiter := by rw [hq.prefetch, hq.log]; exact h.waiter
        entry := by rw [hq.dev, hq.log]; exact h.entry
        outbox := by rw [hq.outbox, hq.log]; exact h.outbox }
  | started _ => exact sourced_start _ _ _
  | read _ hread hpc => exact sourced_read h (clientSends_of_readPdu hread) hpc
  | takePass hmain _ =>
    have hask := h.main
    rw [hmain] at hask
    exact { h with main := hask.2 }
  | @takeReady _ req ep ep' _ _ data _ hmain hep _ _ harm =>
    have hask := h.main
    rw [hmain] at hask
    exact
      { h with
        main := fits_prefetchReply (hask.1 ▸ hask.2) (List.length_take_le _ data) 0
        waiter := waiter_put h hep fun w hw => h.waiter _ ep w hep (harm.waiting_eq ▸ hw)
        entry := fun s e he hu ho => h.entry s e (entry_arming harm he ho) hu ho }
  | @takeWaiting _ req ep ep' _ _ hmain hep _ _ harm =>
    have hask := h.main
    rw [hmain] at hask
    exact
      { h with
        main := trivial
        waiter := waiter_put h hep fun w hw => by
          rw [harm.waiting_eq, Option.some.injEq] at hw
          rw [← hw]
          exact hask.1 ▸ hask.2
        entry := fun s e he hu ho => h.entry s e (entry_arming harm he ho) hu ho }
  | submitted epAddr typ hmain _ =>
    have hask := h.main
    rw [hmain] at hask
    exact
      { h with
        main := trivial
        entry := fun s e he hu ho => by
          rw [DevState.lookup_accept] at he
          split_ifs at he with hs
          · rw [← Option.some.inj he, hs]
            exact hask
          · exact h.entry s e he hu ho }
  | submitRefused status hmain _ =>
    have hask := h.main
    rw [hmain] at hask
    exact { h with main := fits_encodeError hask status }
  | submitFatal _ => exact { h with main := trivial }
  | @unlinkHit _ _ _ ep _ hep _ =>
    exact
      { h with
        main := trivial
        waiter := waiter_put h hep fun w hw => by cases hw }
  | unlinkMiss _ _ => exact { h with main := trivial }
  | devUnlink _ =>
    exact
      { h with
        main := trivial
        entry := fun s e he hu ho => by
          rw [DevState.lookup_unlink] at he
          split_ifs at he
          · obtain ⟨e₀, -, rfl⟩ := Option.map_eq_some_iff.mp he
            cases hu
          · exact h.entry s e he hu ho }
  | mainSent hmain _ =>
    have hfits := h.main
    rw [hmain] at hfits
    exact { h with main := trivial, outbox := outbox_put h hfits }
  | mainDropped _ _ => exact { h with main := trivial }
  | @shutdown answers _ =>
    exact
      { h with
        main := trivial
        waiter := fun b ep w hep hw => by
          rw [Prefetch.ep?_shutdown] at hep
          obtain ⟨ep₀, -, rfl⟩ := Option.map_eq_some_iff.mp hep
          cases hw
        entry := fun s e he hu ho => by
          rcases lookup_shutdown (d := d) st.prefetch st.dev answers s with hs | hs
          · exact h.entry s e (hs ▸ he) hu ho
          · dsimp only at he
            rw [hs] at he
            obtain ⟨e₀, -, rfl⟩ := Option.map_eq_some_iff.mp he
            cases hu }
  | cancelled _ =>
    exact
      { h with
        main := trivial
        entry := fun s e he hu _ => by
          rw [(DevState.lookup_of_cancelPending he).1] at hu
          cases hu }
  | reapDropped _ _ _ hlook =>
    have hentry := entry_reap h hlook
    exact { h with entry := hentry }
  | reapOwned _ _ _ hlook _ _ _ =>
    have hentry := entry_reap h hlook
    exact { h with reaper := trivial, entry := hentry }
  | @reapClient k _ e _ _ _ c _ _ he hunl hlook hks hseq hans =>
    -- outside the internal range an unmarked entry is a submit of this session's client
    have horigin := hown.client _ _ he hks hunl
    have hask := h.entry _ _ he hunl horigin
    rw [← hseq] at hask
    have hentry := entry_reap h hlook
    exact { h with reaper := fits_completionReply hask hans, entry := hentry }
  | strayed _ _ => exact { h with reaper := trivial }
  | @delivered _ c r address ep ep' _ _ _ hep _ harm =>
    exact
      { h with
        reaper := by
          dsimp only
          -- a fill answers the waiter, whatever completion it carries
          cases hreply : (ep.deliver c.status c.data).1 with
          | none => trivial
          | some reply =>
            obtain ⟨s, status, data⟩ := reply
            obtain ⟨w, hw, rfl, hlen⟩ := Endpoint.deliver_reply hreply
            exact fits_prefetchReply (h.waiter _ ep w hep hw) hlen status
        waiter := waiter_put h hep fun w hw => by
          rw [harm.waiting_eq, (ep.deliver_waiting _ _).2] at hw
          cases hw
        entry := fun s e he hu ho => h.entry s e (entry_arming harm he ho) hu ho }
  | reaperSent hreaper _ =>
    have hfits := h.reaper
    rw [hreaper] at hfits
    exact { h with reaper := trivial, outbox := outbox_put h hfits }
  | @reaperDropped _ _ r _ =>
    exact { h with reaper := by dsimp only; rw [Round.load_next]; trivial }

theorem sourced_of_reach {ok : State → Action → Prop}
    (h : Reach (step d) (· = State.initial) ok st) : Sourced d st :=
  h.session_invariant (Sourced d) sourced_initial fun _ _ _ hr hsrc _ heff =>
    sourced_step (owned_of_reach hr) hsrc heff

/-! ### The reply stream -/

/-- The direction of the submit under this seqnum: what an importer remembers of each. -/
def dirFor (log : List Pdu) (s : UInt32) : Option Direction :=
  (log.find? (Pdu.submits s)).map fun p => p.header.base.dir

/-- A reply as the importer reads it. -/
def Reply.parts : Reply → Header × Bytes
  | .retSubmit s ret data => (.retSubmit s ret, data)
  | .retUnlink s status => (.retUnlink s status, [])

/-- A buffer handed to `post` is a 48-byte `USBIP_RET_UNLINK`, or a `USBIP_RET_SUBMIT` whose
payload is as long as the direction of the submit it answers calls for and no longer than that
submit asked for. -/
def Reply.InFrame (log : List Pdu) (reply : Reply) : Prop :=
  match reply with
  | .retUnlink _ _ => reply.buf.length = 48
  | .retSubmit s ret data => ∃ p ∈ log, ∃ c, p.header.body = .cmdSubmit c ∧
      p.header.base.seqnum = s ∧ reply.buf.length = 48 + data.length ∧
      data.length = ret.payloadLen p.header.base.dir ∧
      data.length ≤ c.transferBufferLength.toInt.toNat

theorem Reply.Fits.inFrame {log : List Pdu} {reply : Reply} (h : reply.Fits log) :
    reply.InFrame log := by
  cases reply with
  | retUnlink s status => exact Header.length_encode _
  | retSubmit s ret data =>
    obtain ⟨dir, len, ⟨p, hp, c, hbody, hs, rfl, rfl⟩, hpayload, hlen⟩ := h
    refine ⟨p, hp, c, hbody, hs, ?_, hpayload, hlen⟩
    rw [Reply.buf, writeRetSubmit, List.length_append, Header.length_encode, SIZE_CMD_HEADER]

/-- A client that does not reuse seqnums has one submit under each. -/
private theorem submit_unique {log : List Pdu} (hd : (log.filterMap Pdu.submit?).Nodup)
    {p q : Pdu} {s : UInt32} (hp : p ∈ log) (hq : q ∈ log) (hps : p.submit? = some s)
    (hqs : q.submit? = some s) : p = q := by
  induction log with
  | nil => cases hp
  | cons r log ih =>
    have hmem : ∀ x ∈ log, x.submit? = some s → s ∈ log.filterMap Pdu.submit? :=
      fun x hx hxs => List.mem_filterMap.mpr ⟨x, hx, hxs⟩
    rcases List.mem_cons.mp hp with rfl | hp'
    · rcases List.mem_cons.mp hq with rfl | hq'
      · rfl
      · rw [List.filterMap_cons_some hps, List.nodup_cons] at hd
        exact absurd (hmem q hq' hqs) hd.1
    · rcases List.mem_cons.mp hq with rfl | hq'
      · rw [List.filterMap_cons_some hqs, List.nodup_cons] at hd
        exact absurd (hmem p hp' hps) hd.1
      · refine ih ?_ hp' hq'
        cases hr : r.submit? with
        | none => rwa [List.filterMap_cons_none hr] at hd
        | some t =>
          rw [List.filterMap_cons_some hr, List.nodup_cons] at hd
          exact hd.2

private theorem dirFor_of_asked {log : List Pdu} (hd : (log.filterMap Pdu.submit?).Nodup)
    {s : UInt32} {dir : Direction} {len : ℕ} (h : Asked log s dir len) :
    dirFor log s = some dir := by
  obtain ⟨p, hp, c, hbody, rfl, rfl, -⟩ := h
  have hps : p.submit? = some p.header.base.seqnum := by rw [Pdu.submit?, hbody]
  cases hfind : log.find? (Pdu.submits p.header.base.seqnum) with
  | none =>
    have hno := List.find?_eq_none.mp hfind p hp
    simp [Pdu.submits, hps] at hno
  | some q =>
    have hqs : q.submit? = some p.header.base.seqnum := by
      simpa [Pdu.submits] using List.find?_some hfind
    have hpq := submit_unique hd hp (List.mem_of_find?_eq_some hfind) hps hqs
    rw [dirFor, hfind, Option.map_some, hpq]

/-- No submit of a client asks for more than the server takes. -/
private theorem asked_le {log : List Pdu} {maxTransfer : ℕ}
    (hlog : ∀ p ∈ log, p.ClientSends maxTransfer) {s : UInt32} {dir : Direction} {len : ℕ}
    (hask : Asked log s dir len) : len ≤ maxTransfer := by
  obtain ⟨p, hp, c, hbody, -, -, rfl⟩ := hask
  have hsends := hlog p hp
  rw [Pdu.ClientSends, hbody] at hsends
  have hle := hsends.2.2.1
  omega

/-- An importer with a record of what it has asked for finds the payload length of a reply that
fits the record. -/
theorem replyLen_eq_of_fits {log : List Pdu} {maxTransfer : ℕ}
    (hlog : ∀ p ∈ log, p.ClientSends maxTransfer) (hd : (log.filterMap Pdu.submit?).Nodup)
    {reply : Reply} (hfits : reply.Fits log) :
    replyLen (dirFor log) maxTransfer reply.parts.1 = .ok reply.parts.2.length := by
  cases reply with
  | retUnlink s status => rfl
  | retSubmit s ret data =>
    obtain ⟨dir, len, hask, hpayload, hlen⟩ := hfits
    have hmax := asked_le hlog hask
    have hdir : dirFor log s = some dir := dirFor_of_asked hd hask
    simp only [Reply.parts, replyLen, retSubmitLen, Header.retSubmit, hdir, ← hpayload]
    rw [if_neg (by omega)]

private theorem replyLen_of_fits (h : Sourced d st) (hd : st.submits.Nodup) {reply : Reply}
    (hfits : reply.Fits st.log) :
    replyLen (dirFor st.log) d.maxTransfer reply.parts.1 = .ok reply.parts.2.length :=
  replyLen_eq_of_fits h.log hd hfits

/-- **Replies stay in frame.** In every run with distinct submit seqnums, every buffer handed
to `post` is a 48-byte `USBIP_RET_UNLINK`, or a `USBIP_RET_SUBMIT` with exactly the payload
that the direction of the submit it answers calls for, within the buffer length of that submit.
Hence an importer that knows the direction of each submit reads the concatenation of the
posted buffers back to exactly the replies that were posted. -/
theorem replies_in_frame (h : SessionReachable d st) (hd : st.submits.Nodup) :
    (∀ out, out ∈ st.outbox ∨ st.main.load = .reply out ∨ st.reaper.load = .reply out →
      out.reply.InFrame st.log) ∧
    (Parse.repeat st.outbox.length (readReply (dirFor st.log) d.maxTransfer)).run
        (st.outbox.flatMap fun out => out.reply.buf) =
      .ok (st.outbox.map fun out => out.reply.parts, []) := by
  have hsrc := sourced_of_reach h
  refine ⟨fun out hout => ?_, ?_⟩
  · rcases hout with hout | hout | hout
    · exact (hsrc.outbox out hout).inFrame
    · have hmain := hsrc.main
      rw [hout] at hmain
      exact Reply.Fits.inFrame hmain
    · have hreaper := hsrc.reaper
      rw [hout] at hreaper
      exact Reply.Fits.inFrame hreaper
  · have hread := Parse.accepts_repeat
      (fun x : Header × Bytes => x.1.base.command = x.1.body.command ∧
        replyLen (dirFor st.log) d.maxTransfer x.1 = .ok x.2.length)
      (fun x rest hx => accepts_readFramed hx.1 hx.2 rest)
      (st.outbox.map fun out => out.reply.parts) ?_ []
    -- the posted buffers are the encodings of what the importer reads
    · have hbuf : ((st.outbox.map fun out => out.reply.parts).flatMap fun x => x.1.encode ++ x.2) =
          st.outbox.flatMap fun out => out.reply.buf := by
        rw [List.flatMap_map]
        refine List.flatMap_congr fun out _ => ?_
        cases out.reply with
        | retSubmit s ret data => rfl
        | retUnlink s status => exact List.append_nil _
      rw [hbuf, List.length_map, List.append_nil] at hread
      exact hread
    · intro x hx
      obtain ⟨out, hout, rfl⟩ := List.mem_map.mp hx
      refine ⟨?_, replyLen_of_fits hsrc hd (hsrc.outbox out hout)⟩
      cases out.reply <;> rfl

/-- An answered submit and an unlinked one, read back by the importer. -/
def mixedReplies : List Action :=
  begin true ++ receive (.submitIn 1 1 2) ++ [.take .ok] ++ reapOne 0x80000000 0 [7, 8, 9] ++
    [.deliver .ok, .reaperPost] ++ receive (.submitIn 2 1 64) ++ [.take .ok] ++
    receive (.unlink 3 2) ++ [.unlink, .mainPost]

theorem replies_in_frame_mixed :
    ∃ st, SessionReachable gamepad st ∧ st.submits.Nodup ∧
      st.outbox.map (fun out => out.reply) =
        [.retSubmit 1 { actualLength := 2 } [7, 8], .retUnlink 3 (-ECONNRESET)] ∧
      (Parse.repeat st.outbox.length (readReply (dirFor st.log) 4096)).run
          (st.outbox.flatMap fun out => out.reply.buf) =
        .ok (st.outbox.map fun out => out.reply.parts, []) := by
  obtain ⟨st, hst, hp⟩ := exists_session_of_run gamepad mixedReplies
    (fun st => st.submits.Nodup && st.outbox.map (fun out => out.reply) =
        [.retSubmit 1 { actualLength := 2 } [7, 8], .retUnlink 3 (-ECONNRESET)])
    (by decide +kernel)
  rw [Bool.and_eq_true, decide_eq_true_eq, decide_eq_true_eq] at hp
  exact ⟨st, hst, hp.1, hp.2, (replies_in_frame hst hp.1).2⟩

/-! ### Winding down -/

/-- A session past `prefetch.shutdown` has a halted prefetcher. -/
theorem halted_of_reach (h : SessionReachable d st) (hdown : st.main.down = true) :
    st.prefetch.Halted := by
  have key : st.main.down = true → st.prefetch.Halted := by
    refine h.session_invariant (fun st => st.main.down = true → st.prefetch.Halted)
      (fun _ b ep hep => by cases hep) fun st a st' _ ih _ heff hdown => ?_
    cases heff with
    | quiet hq =>
      rw [hq.prefetch]
      exact ih (hq.down ▸ hdown)
    | started _ => cases hdown
    | read _ _ hpc =>
      dsimp only at hdown
      cases dispatched hpc <;> cases hdown
    | takePass _ _ => cases hdown
    | takeReady _ _ _ _ _ => cases hdown
    | takeWaiting _ _ _ _ _ => cases hdown
    | submitted _ _ _ _ => cases hdown
    | submitRefused _ _ _ => cases hdown
    | submitFatal _ => cases hdown
    | unlinkHit _ _ _ => cases hdown
    | unlinkMiss _ _ => cases hdown
    | devUnlink _ => cases hdown
    | mainSent _ _ => cases hdown
    | mainDropped _ _ => cases hdown
    | shutdown _ => exact Prefetch.halted_shutdown _ _ _
    | cancelled hmain => exact ih (by rw [hmain]; rfl)
    -- a halted endpoint has nothing in flight, so it takes no completion
    | delivered _ hep hfl _ =>
      rw [(ih hdown _ _ hep).2] at hfl
      cases hfl
    | _ => exact ih hdown
  exact key hdown

/-- A session that has reached its end leaves only unlinked URBs behind. -/
private theorem unlinked_of_ended (h : SessionReachable d st) (hend : st.main = .ended)
    {s : UInt32} {e : Entry} (he : st.dev.pending.lookup s = some e) : e.unlinked = true := by
  have key : st.main = .ended → ∀ s e, st.dev.pending.lookup s = some e → e.unlinked = true := by
    refine h.session_invariant (fun st => st.main = .ended →
      ∀ s e, st.dev.pending.lookup s = some e → e.unlinked = true)
      (fun _ s e he => by simp [State.initial, DevState.fresh] at he)
      fun st a st' hr ih _ heff hend => ?_
    -- the reaper has been joined, so none of its steps is taken here
    have hidle : st.main = .ended → st.reaper = .idle :=
      fun hm => (control_of_reach hr).reaper_idle (.inr (.inr (.inl hm)))
    cases heff with
    | quiet hq =>
      rw [hq.dev]
      exact ih (hq.ended hend)
    | started _ => cases hend
    | read _ _ hpc =>
      dsimp only at hend
      cases dispatched hpc <;> cases hend
    | takePass _ _ => cases hend
    | takeReady _ _ _ _ _ => cases hend
    | takeWaiting _ _ _ _ _ => cases hend
    | submitted _ _ _ _ => cases hend
    | submitRefused _ _ _ => cases hend
    | submitFatal _ => cases hend
    | unlinkHit _ _ _ => cases hend
    | unlinkMiss _ _ => cases hend
    | devUnlink _ => cases hend
    | mainSent _ _ => cases hend
    | mainDropped _ _ => cases hend
    | shutdown _ => cases hend
    | cancelled _ => exact fun s e he => (DevState.lookup_of_cancelPending he).1
    | reapDropped hreaper _ _ _ => rw [hidle hend] at hreaper; cases hreaper
    | reapOwned hreaper _ _ _ _ _ _ => rw [hidle hend] at hreaper; cases hreaper
    | reapClient hreaper _ _ _ _ _ _ => rw [hidle hend] at hreaper; cases hreaper
    | strayed hreaper _ => rw [hidle hend] at hreaper; cases hreaper
    | delivered hreaper _ _ _ => rw [hidle hend] at hreaper; cases hreaper
    | reaperSent hreaper _ => rw [hidle hend] at hreaper; cases hreaper
    | reaperDropped hreaper => rw [hidle hend] at hreaper; cases hreaper
  exact key hend s e he

/-- **Sessions wind down.** In any sequence of sessions on one device: once the prefetcher has
been shut down, no order of its operations asks any backend for anything; when a session has
reached its end, every URB it leaves in the table is marked as unlinked, however far the drain
got; and every reply to a submit that a session posts carries the seqnum of a submit that its
own client made. -/
theorem sessions_wind_down (h : SessionReachable d st) :
    (st.main.down = true → ∀ (δ : Type) (dev : UsbBackend δ) (x : δ) (ops : List Prefetch.Op),
      (ops.foldl (Prefetch.Op.apply dev) { p := st.prefetch, d := x, history := [] }).d = x) ∧
    (st.main = .ended → ∀ s e, st.dev.pending.lookup s = some e → e.unlinked = true) ∧
    (∀ out ∈ st.outbox, ∀ s, out.answers s = true → s ∈ st.submits) := by
  refine ⟨fun hdown δ dev x ops => ?_, fun hend s e he => unlinked_of_ended h hend he,
    fun out hout s hs => ?_⟩
  · exact Prefetch.device_untouched_of_halted
      (t := { p := st.prefetch, d := x, history := [] }) (halted_of_reach h hdown) ops
  · have hposted : 0 < st.posted s := List.countP_pos_iff.mpr ⟨out, hout, hs⟩
    have hle := tokens_le h s
    rw [State.submits, ← List.count_pos_iff, List.count_filterMap]
    exact Nat.lt_of_lt_of_le (by omega : 0 < st.tokens s + st.posted s) hle

/-- Two sessions in a row: the first ends with its URBs in flight and a drain that collects
nothing, and one of its URBs is reaped in the second. -/
def leftovers : List Action :=
  begin true ++ receive (.submitIn 1 0 64) ++ [.take .ok, .submit .ok, .check true, .halt,
    .shutdown [], .poll, .leave, .hangUp, .writerStop, .join, .cancel (fun _ => .ok) []] ++
    begin false ++ receive (.submitIn 2 1 64) ++ [.take .ok, .submit .ok] ++ reapOne 1 (-2) [] ++
    [.reap { seqnum := 2, status := 0, actualLength := 1, written := [7] } 0, .reaperPost]

theorem sessions_wind_down_leftovers :
    ∃ st, SessionReachable gamepad st ∧ st.outbox.length = 1 ∧ 0x80000000 ∈ st.dev.pending.keys ∧
      ∀ out ∈ st.outbox, ∀ s, out.answers s = true → s ∈ st.submits := by
  obtain ⟨st, hst, hp⟩ := exists_session_of_run gamepad leftovers
    (fun st => st.outbox.length = 1 && 0x80000000 ∈ st.dev.pending.keys)
    (by decide +kernel)
  rw [Bool.and_eq_true, decide_eq_true_eq, decide_eq_true_eq] at hp
  exact ⟨st, hst, hp.1, hp.2, (sessions_wind_down hst).2.2⟩

end Padwire
