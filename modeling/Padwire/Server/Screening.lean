import Padwire.Server.SessionSteps

/-!
# Nothing with the chord down reaches the client

With a hotkey configured, every completion that the reaper takes off the device passes the
screen, once, before anything else is done with it: a successful report in which the chord is
down goes on as a zero-length transfer. From there it takes one of three ways to the outbox:
straight into a reply, into the reply to a submit that waits, or through the buffer of the
prefetcher; on the way it may be cut to the length the client asked for.

To say where a payload comes from, the session is observed together with what the kernel handed
back: `Observed.reaped` are the completions of the current session as they came off the device,
before the screen. `chord_never_forwarded` says that each successful reply is a truncation of one
of them, empty if the chord was down in it, and that no payload shows the chord.
-/

namespace Padwire

variable {d : UsbfsDevice} {st st' : State} {a : Action}

/-! ### Observed sessions -/

/-- A session with the completions it has taken off the device, before the screen. -/
structure Observed where
  session : State
  reaped : List UrbCompletion

/-- The completions a step takes off the device; those of cancelled URBs are dropped unseen. -/
def Observed.after (o : Observed) : Action → List UrbCompletion
  | .start _ _ => []
  | .reap k _ =>
    o.reaped ++ ((o.session.dev.reap k).map Prod.fst).toList.filter fun c => !c.unlinked
  | _ => o.reaped

def Observed.step (d : UsbfsDevice) (o : Observed) (a : Action) : Option Observed :=
  (Padwire.step d o.session a).map fun st => ⟨st, o.after a⟩

def Observed.Initial (o : Observed) : Prop :=
  o = ⟨State.initial, []⟩

/-- Observing a session does not change it. -/
theorem Observed.reachable_session {o : Observed} (h : Reachable (Observed.step d) Initial o) :
    SessionReachable d o.session := by
  induction h with
  | start hs => exact hs ▸ .start rfl
  | next _ _ ha ih =>
    obtain ⟨st, hst, rfl⟩ := Option.map_eq_some_iff.mp ha
    exact ih.next trivial hst

/-! ### Payloads and where they come from -/

/-- The payload is what is left of one of the completions after the screen and a truncation. -/
def Screened (chord : Chord) (reaped : List UrbCompletion) (data : Bytes) : Prop :=
  ∃ c ∈ reaped, c.status = 0 ∧ data <+: c.data ∧ (chord.downIn c.data = true → data = [])

/-- The reply is built from a completion of the device. -/
def Site.ofCompletion : Site → Bool
  | .prefetched _ | .prefetchFill _ | .reaped => true
  | _ => false

/-- A successful reply answers a submit with one of the completions, as a zero-length transfer if
the chord is down in it; if it is not built from a completion it has no payload. -/
def Out.Screened (chord : Chord) (reaped : List UrbCompletion) (out : Out) : Prop :=
  ∀ seqnum ret data, out.reply = .retSubmit seqnum ret data → ret.status = 0 →
    if out.site.ofCompletion then
      ∃ c ∈ reaped, c.status = 0 ∧ data <+: c.data ∧
        (chord.downIn c.data = true → data = [] ∧ ret.actualLength = 0)
    else data = []

/-- Everything that is on its way to the client has passed the screen. -/
structure Clean (chord : Chord) (reaped : List UrbCompletion) (st : State) : Prop where
  held : ∀ c, st.reaper.load = .completion c → c.status = 0 → Screened chord reaped c.data
  reaper : ∀ out, st.reaper.load = .reply out → out.Screened chord reaped
  main : ∀ out, st.main.load = .reply out → out.Screened chord reaped
  buffered : ∀ address ep, st.prefetch.ep? address = some ep → ∀ data ∈ ep.captured,
    Screened chord reaped data
  posted : ∀ out ∈ st.outbox, out.Screened chord reaped

variable {chord : Chord} {reaped more : List UrbCompletion}

theorem Screened.mono {data : Bytes} (h : Screened chord reaped data) :
    Screened chord (reaped ++ more) data := by
  obtain ⟨c, hc, hrest⟩ := h
  exact ⟨c, List.mem_append_left _ hc, hrest⟩

theorem Out.Screened.mono {out : Out} (h : out.Screened chord reaped) :
    out.Screened chord (reaped ++ more) := by
  intro seqnum ret data hreply hstatus
  have hout := h seqnum ret data hreply hstatus
  split_ifs at hout ⊢
  · obtain ⟨c, hc, hrest⟩ := hout
    exact ⟨c, List.mem_append_left _ hc, hrest⟩
  · exact hout

theorem Clean.mono (h : Clean chord reaped st) : Clean chord (reaped ++ more) st where
  held c hc hs := (h.held c hc hs).mono
  reaper out ho := (h.reaper out ho).mono
  main out ho := (h.main out ho).mono
  buffered address ep hep data hd := (h.buffered address ep hep data hd).mono
  posted out ho := (h.posted out ho).mono

/-- A screened payload that is cut once more is still screened. -/
theorem Screened.take {data : Bytes} (h : Screened chord reaped data) (n : ℕ) :
    Screened chord reaped (data.take n) := by
  obtain ⟨c, hc, hs, hpre, hdown⟩ := h
  refine ⟨c, hc, hs, (List.take_prefix n data).trans hpre, fun h => ?_⟩
  rw [hdown h, List.take_nil]

/-- The reply that both prefetch routes build from a screened payload. -/
theorem Screened.prefetchReply {data : Bytes} {seqnum : UInt32} {status : Int32} {site : Site}
    (h : status = 0 → Screened chord reaped data) (hsite : site.ofCompletion = true) :
    Out.Screened chord reaped { reply := prefetchReply seqnum status data, site } := by
  intro s ret data' hreply hstatus
  cases hreply
  obtain ⟨c, hc, hs, hpre, hdown⟩ := h hstatus
  rw [if_pos hsite]
  refine ⟨c, hc, hs, hpre, fun h => ⟨hdown h, ?_⟩⟩
  rw [hdown h]
  rfl

theorem screened_encodeError {seqnum : UInt32} {status : Int32} {site : Site}
    (hsite : site.ofCompletion = false) :
    Out.Screened chord reaped { reply := encodeError seqnum status, site } := by
  intro s ret data hreply _
  cases hreply
  rw [hsite]
  rfl

theorem screened_unlinkOut {seqnum target : UInt32} {cancelled : Bool} :
    (unlinkOut seqnum target cancelled).Screened chord reaped := by
  intro s ret data hreply
  cases hreply

/-- **No truncation brings the chord back.** A screened reply does not show the chord. -/
theorem Out.Screened.not_downIn {out : Out} (h : out.Screened chord reaped) {seqnum : UInt32}
    {ret : RetSubmit} {data : Bytes} (hreply : out.reply = .retSubmit seqnum ret data)
    (hstatus : ret.status = 0) : chord.downIn data = false := by
  have hout := h seqnum ret data hreply hstatus
  split_ifs at hout
  · obtain ⟨c, -, -, hpre, hdown⟩ := hout
    by_contra hshown
    have hwhole := Chord.downIn_of_prefix hpre (Bool.eq_true_of_not_eq_false hshown)
    rw [(hdown hwhole).1] at hshown
    exact hshown rfl
  · rw [hout]
    rfl

/-! ### One endpoint -/

/-- A completion adds at most its own data to the buffer. -/
theorem Endpoint.captured_deliver {ep : Endpoint} {status : Int32} {data data' : Bytes}
    (h : data' ∈ (ep.deliver status data).2.captured) :
    data' ∈ ep.captured ∨ status = 0 ∧ data' = data := by
  unfold deliver at h
  split_ifs at h with hstatus
  · dsimp only at h
    split_ifs at h
    · cases h
    · exact .inl h
  · rw [not_not] at hstatus
    split at h
    · exact .inl h
    · rcases List.mem_append.mp h with h | h
      · split_ifs at h
        · exact .inl (List.mem_of_mem_tail h)
        · exact .inl h
      · exact .inr ⟨hstatus, List.mem_singleton.mp h⟩

/-- What a waiting submit is answered with when a completion succeeds: its data, cut. -/
theorem Endpoint.data_deliver {ep : Endpoint} {status status' : Int32} {data data' : Bytes}
    {s : UInt32} (h : (ep.deliver status data).1 = some (s, status', data')) :
    status' = status ∧ (status = 0 → ∃ n, data' = data.take n) := by
  unfold deliver at h
  split_ifs at h with hstatus
  · obtain ⟨w, -, hw⟩ := Option.map_eq_some_iff.mp h
    cases hw
    exact ⟨rfl, fun h => absurd h hstatus⟩
  · rw [not_not] at hstatus
    split at h
    · cases h
      exact ⟨hstatus.symm, fun _ => ⟨_, rfl⟩⟩
    · cases h

/-! ### One step -/

/-- Only the reaper feeds the detector. -/
theorem detector_step (hstart : ∀ opts answers, a ≠ .start opts answers)
    (hreap : ∀ k now, a ≠ .reap k now) (h : step d st a = some st') :
    st'.detector = st.detector := by
  cases a with
  | start opts answers => exact absurd rfl (hstart opts answers)
  | reap k now => exact absurd rfl (hreap k now)
  | read input =>
    simp only [step] at h
    split at h
    · split at h
      · cases h
        rfl
      · obtain ⟨pc, -, rfl⟩ := Option.map_eq_some_iff.mp h
        rfl
    · cases h
  | _ =>
    simp only [step] at h
    repeat' split at h
    all_goals first
      | exact (Option.some.inj h) ▸ rfl
      | cases h

/-- The reaper takes a completion off the device: it passes the screen, and the detector goes on
watching for the same chord. -/
theorem clean_reap {det : Detector} (hdet : st.detector = some det)
    (hclean : Clean det.chord reaped st) {k : DevState.KernelUrb} {now : ℕ}
    (h : step d st (.reap k now) = some st') :
    ∃ det', st'.detector = some det' ∧ det'.chord = det.chord ∧
      Clean det.chord (Observed.after ⟨st, reaped⟩ (.reap k now)) st' := by
  simp only [step] at h
  split at h
  · rename_i r hreaper
    obtain ⟨⟨c, dev'⟩, hreap, hst⟩ := Option.map_eq_some_iff.mp h
    simp only [Observed.after, hreap, Option.map_some, Option.toList_some]
    dsimp only at hst
    cases hunl : c.unlinked with
    | true =>
      rw [if_pos hunl] at hst
      rw [← hst]
      have hkeep : Clean det.chord reaped { st with dev := dev' } :=
        ⟨hclean.held, hclean.reaper, hclean.main, hclean.buffered, hclean.posted⟩
      exact ⟨det, hdet, rfl, hkeep.mono⟩
    | false =>
      rw [hunl, if_neg Bool.false_ne_true, hdet] at hst
      have hfrom := screen_success det c now
      obtain ⟨det', hdet', hchord⟩ := chord_screen det c now
      rcases hs : screen (some det) c now with ⟨fired, detector, c'⟩
      rw [hs] at hfrom hdet' hst
      dsimp only at hfrom hdet' hst
      have hmem : c ∈ reaped ++ [c] := by simp
      have hnot : ([c].filter fun c => !c.unlinked) = [c] := by simp [hunl]
      have hold : Clean det.chord (reaped ++ [c]) st := hclean.mono
      rw [hnot]
      rw [← hst]
      refine ⟨det', hdet', hchord, ⟨?_, ?_, hold.main, hold.buffered, hold.posted⟩⟩
      · intro c'' hload hstatus
        dsimp only at hload
        split_ifs at hload
        · cases hload
          obtain ⟨hs0, hpre, hdown⟩ := hfrom hstatus
          exact ⟨c, hmem, hs0, hpre, fun h => (hdown h).1⟩
        · cases hload
      · intro out hload
        dsimp only at hload
        split_ifs at hload
        · cases hload
        · cases hload
          intro seqnum ret data hreply hstatus
          cases hreply
          obtain ⟨hs0, hpre, hdown⟩ := hfrom hstatus
          refine ⟨c, hmem, hs0, hpre, fun h => ⟨(hdown h).1, ?_⟩⟩
          simp [(hdown h).2]
  · cases h

/-- Posting a screened reply. -/
theorem Clean.posted_snoc (h : Clean chord reaped st) {out : Out}
    (hout : out.Screened chord reaped) :
    ∀ out' ∈ st.outbox ++ [out], out'.Screened chord reaped := by
  intro out' hmem
  rcases List.mem_append.mp hmem with hmem | hmem
  · exact h.posted out' hmem
  · rw [List.mem_singleton.mp hmem]
    exact hout

/-- Rewriting one endpoint keeps the buffers clean if it keeps its own. -/
theorem Clean.buffered_put (h : Clean chord reaped st) {address : UInt8} {ep ep' : Endpoint}
    {next : UInt32} (hep : st.prefetch.ep? address = some ep)
    (hep' : ∀ data ∈ ep'.captured, Screened chord reaped data) :
    ∀ b e, (st.prefetch.put address ep' next).ep? b = some e → ∀ data ∈ e.captured,
      Screened chord reaped data := by
  intro b e he
  rw [Prefetch.ep?_put hep] at he
  split_ifs at he
  · cases he
    exact hep'
  · exact h.buffered b e he

theorem clean_start (opts : SessionOpts) (answers : List Ioctl) (dev : DevState) :
    Clean chord reaped (start d opts answers dev) where
  held := nofun
  reaper := nofun
  main := nofun
  buffered := by
    refine start_rule (fun p _ => ∀ address ep, p.ep? address = some ep → ∀ data ∈ ep.captured,
      Screened chord reaped data) ?_ ?_
    · intro p dev address ep ep' next' dev' hinv hep harm b e he
      rw [Prefetch.ep?_put hep] at he
      split_ifs at he
      · cases he
        rw [harm.captured_eq]
        exact hinv address ep hep
      · exact hinv b e he
    · intro address ep hep data hdata
      obtain ⟨maxPacket, rfl⟩ := Prefetch.ep?_new hep
      cases hdata
  posted := nofun

/-- A step that neither starts a session nor takes a completion off the device hands on what has
passed the screen, whole or cut. -/
theorem clean_effect (hclean : Clean chord reaped st)
    (hstart : ∀ opts answers, a ≠ .start opts answers) (hreap : ∀ k now, a ≠ .reap k now)
    (h : Effect d st a st') : Clean chord reaped st' := by
  obtain ⟨held, reaper, main, buffered, posted⟩ := id hclean
  cases h with
  | quiet hq =>
    refine ⟨?_, ?_, ?_, ?_, ?_⟩
    · rwa [hq.reaper]
    · rwa [hq.reaper]
    · rwa [hq.main]
    · rwa [hq.prefetch]
    · rwa [hq.outbox]
  | started _ => exact absurd rfl (hstart _ _)
  | read _ _ hdisp =>
    refine ⟨held, reaper, fun out hout => ?_, buffered, posted⟩
    cases dispatched hdisp with
    | iso _ => cases hout; exact screened_encodeError rfl
    | _ => cases hout
  | takePass _ _ => exact ⟨held, reaper, nofun, buffered, posted⟩
  | takeReady hmain hep _ hcap harm =>
    have hbuf := buffered _ _ hep
    rw [hcap] at hbuf
    refine ⟨held, reaper, fun out hout => ?_, hclean.buffered_put hep ?_, posted⟩
    · cases hout
      exact Screened.prefetchReply (fun _ => (hbuf _ List.mem_cons_self).take _) rfl
    · rw [harm.captured_eq]
      exact fun data hdata => hbuf data (List.mem_cons_of_mem _ hdata)
  | takeWaiting hmain hep _ _ harm =>
    refine ⟨held, reaper, nofun, hclean.buffered_put hep ?_, posted⟩
    rw [harm.captured_eq]
    exact fun data hdata => buffered _ _ hep data hdata
  | submitted _ _ _ _ => exact ⟨held, reaper, nofun, buffered, posted⟩
  | submitRefused _ _ hsite =>
    refine ⟨held, reaper, fun out hout => ?_, buffered, posted⟩
    cases hout
    exact screened_encodeError (by rcases hsite with rfl | rfl <;> rfl)
  | submitFatal _ => exact ⟨held, reaper, nofun, buffered, posted⟩
  | unlinkHit _ hep _ =>
    refine ⟨held, reaper, fun out hout => ?_, hclean.buffered_put hep ?_, posted⟩
    · cases hout
      exact screened_unlinkOut
    · exact fun data hdata => buffered _ _ hep data hdata
  | unlinkMiss _ _ => exact ⟨held, reaper, nofun, buffered, posted⟩
  | devUnlink _ =>
    refine ⟨held, reaper, fun out hout => ?_, buffered, posted⟩
    cases hout
    exact screened_unlinkOut
  | mainSent hmain _ =>
    have hout := main _ (by rw [hmain]; rfl)
    exact ⟨held, reaper, nofun, buffered, hclean.posted_snoc hout⟩
  | mainDropped _ _ => exact ⟨held, reaper, nofun, buffered, posted⟩
  | shutdown _ =>
    refine ⟨held, reaper, nofun, fun address ep hep data hdata => ?_, posted⟩
    dsimp only at hep
    rw [Prefetch.ep?_shutdown] at hep
    obtain ⟨e, -, rfl⟩ := Option.map_eq_some_iff.mp hep
    cases hdata
  | cancelled _ => exact ⟨held, reaper, nofun, buffered, posted⟩
  | reapDropped _ _ _ _ => exact absurd rfl (hreap _ _)
  | reapOwned _ _ _ _ _ _ _ => exact absurd rfl (hreap _ _)
  | reapClient _ _ _ _ _ _ _ => exact absurd rfl (hreap _ _)
  | strayed _ _ => exact ⟨nofun, nofun, main, buffered, posted⟩
  | @delivered _ c r address ep ep' next' dev' hreaper hep _ harm =>
    have hheld := held c (by rw [hreaper]; rfl)
    refine ⟨fun c' hc' => ?_, fun out hout => ?_, main, hclean.buffered_put hep ?_, posted⟩
    · dsimp only [afterDeliver] at hc'
      split at hc' <;> cases hc'
    · dsimp only [afterDeliver] at hout
      split at hout
      · rename_i s status data hreply
        obtain ⟨hstatus, hcut⟩ := Endpoint.data_deliver hreply
        cases hout
        refine Screened.prefetchReply (fun h0 => ?_) rfl
        obtain ⟨n, hn⟩ := hcut (hstatus ▸ h0)
        rw [hn]
        exact (hheld (hstatus ▸ h0)).take n
      · cases hout
    · rw [harm.captured_eq]
      intro data hdata
      rcases Endpoint.captured_deliver hdata with hdata | ⟨hstatus, rfl⟩
      · exact buffered _ _ hep data hdata
      · exact hheld hstatus
  | reaperSent hreaper _ =>
    have hout := reaper _ (by rw [hreaper]; rfl)
    exact ⟨nofun, nofun, main, buffered, hclean.posted_snoc hout⟩
  | reaperDropped _ =>
    refine ⟨fun c hc => ?_, fun out hout => ?_, main, buffered, posted⟩
    · rw [Round.load_next] at hc
      cases hc
    · rw [Round.load_next] at hout
      cases hout

/-! ### Runs -/

theorem Observed.clean {o : Observed} (h : Reachable (Observed.step d) Initial o) :
    ∀ det, o.session.detector = some det → Clean det.chord o.reaped o.session := by
  refine h.invariant_of (fun o : Observed => ∀ det, o.session.detector = some det →
    Clean det.chord o.reaped o.session) (fun _ => reachable_session) ?_ ?_
  · rintro _ rfl det hdet
    cases hdet
  · rintro ⟨st, reaped⟩ a o' hr hinv _ hstep det' hdet'
    obtain ⟨st', hst, rfl⟩ := Option.map_eq_some_iff.mp hstep
    have hstay : (∀ opts answers, a ≠ .start opts answers) → (∀ k now, a ≠ .reap k now) →
        Clean det'.chord reaped st' := fun hstart hreap =>
      clean_effect (hinv det' (detector_step hstart hreap hst ▸ hdet')) hstart hreap
        (effect_of_step (control_of_reach hr) hst)
    cases a with
    | start opts answers =>
      simp only [Padwire.step] at hst
      split at hst <;> first
        | cases hst; exact clean_start opts answers _
        | cases hst
    | reap k now =>
      cases hdet : st.detector with
      | none =>
        -- without a detector there is none after the step either
        simp only [Padwire.step, hdet, screen] at hst
        split at hst
        · obtain ⟨⟨c, dev'⟩, -, hst⟩ := Option.map_eq_some_iff.mp hst
          dsimp only at hst hdet'
          rw [← hst] at hdet'
          split_ifs at hdet'
        · cases hst
      | some det =>
        obtain ⟨det'', hdet'', hchord, hclean⟩ := clean_reap hdet (hinv det hdet) hst
        have hsame : det'' = det' := Option.some.inj (hdet''.symm.trans hdet')
        rw [← hsame, hchord]
        exact hclean
    | _ => exact hstay (by simp) (by simp)

/-- **The chord stays with the device.** In every state of every session with a hotkey, with the
prefetcher or without: a `USBIP_RET_SUBMIT` with status 0 that is built from a completion answers
with a truncation of one that came off the device, and as a zero-length transfer if the chord is
down in that one; any other has no payload; and none has a payload that shows the chord. -/
theorem chord_never_forwarded {o : Observed} (h : Reachable (Observed.step d) Observed.Initial o)
    {det : Detector} (hdet : o.session.detector = some det) {out : Out}
    (hout : out ∈ o.session.outbox) {seqnum : UInt32} {ret : RetSubmit} {data : Bytes}
    (hreply : out.reply = .retSubmit seqnum ret data) (hstatus : ret.status = 0) :
    (if out.site.ofCompletion then
        ∃ c ∈ o.reaped, c.status = 0 ∧ data <+: c.data ∧
          (det.chord.downIn c.data = true → data = [] ∧ ret.actualLength = 0)
      else data = []) ∧
      ∀ b, buttons data = some b → det.chord.heldIn b = false := by
  have hscreened := (Observed.clean h det hdet).posted out hout
  refine ⟨hscreened seqnum ret data hreply hstatus, fun b hb => ?_⟩
  have hnot := hscreened.not_downIn hreply hstatus
  rwa [Chord.downIn, hb, Option.any_some] at hnot

/-- A state report with the given lowest byte of the button field. -/
def stateReport (low : UInt8) : Bytes :=
  [0x01, 0x00, DECK_STATE, 0x3c, 0, 0, 0, 0, low, 0, 0, 0, 0, 0, 0, 0]

/-- Two reports are captured, the second with the chord down, and two submits take them. -/
def chordCaptured : List Action :=
  [.start { prefetch := true, hotkey := some (⟨1⟩, 1000) } [], .spawn true] ++
    reapOne 0x80000000 0 (stateReport 2) ++
    [.deliver .ok,
      .reap { seqnum := 0x80000001, status := 0, actualLength := 16, written := stateReport 3 } 5,
      .deliver .ok] ++
    receive (.submitIn 1 1 64) ++ [.take .ok, .mainPost] ++
    receive (.submitIn 2 1 64) ++ [.take .ok, .mainPost]

theorem chord_never_forwarded_captured : ∃ o,
    Reachable (Observed.step gamepad) Observed.Initial o ∧
    o.session.outbox.map (·.reply) = [prefetchReply 1 0 (stateReport 2), prefetchReply 2 0 []] ∧
    ∀ out ∈ o.session.outbox, ∀ seqnum ret data, out.reply = .retSubmit seqnum ret data →
      ret.status = 0 → ∀ b, buttons data = some b → Chord.heldIn ⟨1⟩ b = false := by
  have hrun : (run (Observed.step gamepad) ⟨State.initial, []⟩ chordCaptured).any (fun o =>
      o.session.detector = some { chord := ⟨1⟩, hold := 1000, since := some 5, armed := true } &&
        o.session.outbox.map (·.reply) =
          [prefetchReply 1 0 (stateReport 2), prefetchReply 2 0 []]) = true := by decide +kernel
  obtain ⟨o, ho, hp⟩ := exists_reachable_of_run Observed.Initial rfl hrun
  rw [Bool.and_eq_true, decide_eq_true_eq, decide_eq_true_eq] at hp
  refine ⟨o, ho, hp.2, fun out hout seqnum ret data hreply hstatus => ?_⟩
  exact (chord_never_forwarded ho hp.1 hout hreply hstatus).2

end Padwire
