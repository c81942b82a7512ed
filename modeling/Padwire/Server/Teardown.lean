import Padwire.Lib.Progress
import Padwire.Server.WindDown

/-!
# No deadlock

The end of a session with its socket. A thread may wait there for the importer, the reader in
`read_pdu` and the writer in `write_all`, and the reader waits for both other threads in its
joins. None of them waits for good: a reaper that returns shuts the socket down, and the reader
does so before it joins the others (`Conn.Closes`), so that the importer need not do anything for
the session to end.

`session_winds_down` puts this together with the two measures of `WindDown`, and `session_can_end`
draws the conclusion that every run of a stopping session can be completed by its threads alone.
-/

namespace Padwire

variable {d : UsbfsDevice} {st st' : State} {a : Action} {c c' : Conn} {x : ConnAction}
  {as : List ConnAction}

namespace ConnAction

def begins : ConnAction → Bool
  | .pump a => a.begins
  | _ => false

def byReader : ConnAction → Bool
  | .pump a => a.byReader
  | .close t => t = .reader
  | _ => false

/-- The steps of the session, which need nothing of the importer. -/
def byThread : ConnAction → Bool
  | .pump _ | .close _ => true
  | _ => false

end ConnAction

namespace Conn

/-- How far the reader of a stopping session is from its end, where shutting the socket down is a
step of its own. -/
def rank (c : Conn) : ℕ :=
  c.st.main.rank + if c.st.main.rank ≤ 2 then (c.closing .reader).toNat else 1

/-- How many threads are about to shut the socket down. -/
def toClose (c : Conn) : ℕ :=
  (c.closing .reader).toNat + (c.closing .reaper).toNat + (c.closing .writer).toNat

/-- How many steps the threads of a session whose prefetcher is shut down can still take. -/
def windDown (c : Conn) : ℕ := 2 * c.st.windDown + c.toClose

/-- The reader waits for the importer, or for the other threads. -/
def Waits (d : UsbfsDevice) (c : Conn) : Prop :=
  c.st.main = .reading ∧ c.canRead d.maxTransfer = false ∨ c.st.main = .shutDown

end Conn

/-! ### The socket is shut down -/

/-- Whoever waits for the importer will not do so for good: a reaper that has returned has shut the
socket down or is about to, and so has a reader that waits in its joins. -/
structure Conn.Closes (c : Conn) : Prop where
  reaper : c.st.main.between = false → c.st.reaper = .idle →
    c.closing .reaper = true ∨ c.shut = true
  reader : c.st.main = .shutDown → c.closing .reader = true ∨ c.shut = true

/-- A step of the reader leaves the reaper where it is, or starts it. -/
theorem reaper_of_step (hr : a.byReader = true) (hno : a.begins = false)
    (h : step d st a = some st') : st'.reaper = st.reaper ∨ st'.reaper = .top := by
  cases a with
  | spawn ok =>
    simp only [step] at h
    split at h
    · cases h
      cases ok
      · exact .inl rfl
      · exact .inr rfl
    · cases h
  | mainPost =>
    simp only [step] at h
    split at h
    · split at h <;> cases h <;> exact .inl rfl
    · cases h
  | read input =>
    simp only [step] at h
    split at h
    · split at h
      · cases h
        exact .inl rfl
      · obtain ⟨pc, -, rfl⟩ := Option.map_eq_some_iff.mp h
        exact .inl rfl
    · cases h
  | join =>
    simp only [step] at h
    split at h
    · split_ifs at h
      cases h
      exact .inl rfl
    · cases h
  | check _ | take _ | submit _ | unlink | devUnlink _ | halt | shutdown _ | cancel _ _ =>
    simp only [step] at h
    split at h
    · cases h
      exact .inl rfl
    · cases h
  | start opts answers => cases hno
  | _ => cases hr

/-- Only the last step of the reaper takes it to `idle` within a session. -/
theorem idle_of_step (hno : a.begins = false) (hleave : a ≠ .leave)
    (h : step d st a = some st') (hidle : st'.reaper = .idle) : st.reaper = .idle := by
  cases hr : a.byReader with
  | true =>
    rcases reaper_of_step hr hno h with hsame | htop
    · exact hsame ▸ hidle
    · rw [htop] at hidle
      cases hidle
  | false =>
    cases a with
    | leave => exact absurd rfl hleave
    | poll =>
      simp only [step] at h
      split at h
      · cases h
        dsimp only at hidle
        split_ifs at hidle
      · cases h
    | wake ready gone | reapNone | reapFails =>
      simp only [step] at h
      split at h
      · cases h
        dsimp only [Round.next] at hidle
        split_ifs at hidle
      · cases h
    | waitFails =>
      simp only [step] at h
      split at h
      · cases h
        cases hidle
      · cases h
    | reap k now =>
      simp only [step] at h
      split at h
      · obtain ⟨y, -, rfl⟩ := Option.map_eq_some_iff.mp h
        rename_i r hreaper
        split_ifs at hidle
        exact hidle
      · cases h
    | deliver answer =>
      simp only [step, afterDeliver] at h
      split at h
      · cases h
        dsimp only at hidle
        split at hidle <;> cases hidle
      · cases h
    | reaperPost =>
      simp only [step] at h
      split at h
      · split at h
        · cases h
          cases hidle
        · cases h
          cases hidle
        · cases h
          cases hidle
        · cases h
          dsimp only [Round.next] at hidle
          split_ifs at hidle
      · cases h
    | write ok | writerStop =>
      simp only [step] at h
      split at h
      · cases h
        exact hidle
      · cases h
    | hangUp =>
      simp only [step] at h
      split at h
      · split_ifs at h
        cases h
        exact hidle
      · cases h
    | _ => cases hr

/-- Nobody is served before the threads run. -/
theorem between_of_step (hno : a.begins = false) (hspawn : ∀ ok, a ≠ .spawn ok)
    (h : step d st a = some st') (hserved : st'.main.between = false) :
    st.main.between = false := by
  cases hr : a.byReader with
  | false => rwa [main_of_step hr h] at hserved
  | true =>
    have hmove := readerMoves_of_step hr hno h
    have hsetup : st.main ≠ .setup := by
      intro hmain
      cases a with
      | spawn ok => exact hspawn ok rfl
      | start opts answers => cases hno
      | check _ | read _ | take _ | submit _ | unlink | devUnlink _ | mainPost | halt | shutdown _
      | join | cancel _ _ =>
        simp only [step, hmain] at h
        cases h
      | _ => cases hr
    generalize st.main = pc at hmove hsetup
    generalize st'.main = pc' at hmove
    cases hmove with
    | spawned | spawnFailed => exact absurd rfl hsetup
    | _ => rfl

/-- The reader comes to its joins by shutting the prefetcher down. -/
theorem stopped_of_step (hno : a.begins = false) (hshutdown : ∀ answers, a ≠ .shutdown answers)
    (h : step d st a = some st') (hmain : st'.main = .shutDown) : st.main = .shutDown := by
  cases hr : a.byReader with
  | false => rwa [main_of_step hr h] at hmain
  | true =>
    have hmove := readerMoves_of_step hr hno h
    have hstopped : st.main ≠ .stopped := by
      intro hstopped
      cases a with
      | shutdown answers => exact hshutdown answers rfl
      | start opts answers => cases hno
      | spawn _ | check _ | read _ | take _ | submit _ | unlink | devUnlink _ | mainPost | halt
      | join | cancel _ _ =>
        simp only [step, hstopped] at h
        cases h
      | _ => cases hr
    generalize st.main = pc at hmove hstopped
    rw [hmain] at hmove
    generalize hpc : MainPc.shutDown = pc' at hmove
    cases hmove with
    | shutDown => exact absurd rfl hstopped
    | dispatched hd => cases dispatched hd <;> cases hpc
    | took req t => cases t <;> cases hpc
    | submitted req r =>
      rcases r with e | u
      · cases e <;> cases hpc
      · cases hpc
    | _ => cases hpc

theorem main_of_start {opts : SessionOpts} {answers : List Ioctl}
    (h : step d st (.start opts answers) = some st') : st'.main = .setup := by
  simp only [step] at h
  split at h
  · cases h
    rfl
  · cases h
    rfl
  · cases h

/-- Of its steps, only the shutdown of the prefetcher has the reader shut the socket down next. -/
theorem Conn.closing_reader_after (hno : a.begins = false)
    (hshutdown : ∀ answers, a ≠ .shutdown answers) :
    (c.after d st a).closing .reader = c.closing .reader := by
  cases a with
  | start opts answers => cases hno
  | shutdown answers => exact absurd rfl (hshutdown answers)
  | _ => rfl

/-- A step of a thread leaves it to be done, or done, that the socket is shut down. -/
theorem Conn.after_closing {t : Closer} (hno : a.begins = false)
    (h : c.closing t = true ∨ c.shut = true) :
    (c.after d st a).closing t = true ∨ (c.after d st a).shut = true := by
  cases a with
  | start opts answers => cases hno
  | shutdown _ | leave | writerStop =>
    refine h.imp_left fun hclosing => ?_
    dsimp only [after]
    rw [Function.update_apply]
    split_ifs
    · rfl
    · exact hclosing
  | _ => exact h

theorem closes_of_conn (h : ConnReachable d c) : c.Closes := by
  refine h.invariant Conn.Closes (fun c hc => ?_) fun c x c' ih _ hstep => ?_
  · rw [hc]
    exact ⟨fun hserved => (by cases hserved), fun hmain => (by cases hmain)⟩
  · cases x with
    | send bs | drain n | goAway =>
      cases hstep
      exact ⟨ih.reaper, ih.reader⟩
    | close t =>
      rw [connStep] at hstep
      split_ifs at hstep
      cases hstep
      exact ⟨fun _ _ => .inr rfl, fun _ => .inr rfl⟩
    | pump a =>
      obtain ⟨-, st', hs, rfl⟩ := connStep_pump.mp hstep
      refine ⟨fun hserved hidle => ?_, fun hmain => ?_⟩
      · rw [Conn.after_st] at hserved hidle
        cases a with
        | leave => exact .inl rfl
        | start opts answers =>
          rw [main_of_start hs] at hserved
          cases hserved
        | spawn ok =>
          simp only [step] at hs
          split at hs
          · cases hs
            cases ok
            · cases hserved
            · cases hidle
          · cases hs
        | _ =>
          exact Conn.after_closing rfl (ih.reaper
            (between_of_step rfl (fun _ => Action.noConfusion) hs hserved)
            (idle_of_step rfl Action.noConfusion hs hidle))
      · rw [Conn.after_st] at hmain
        cases a with
        | shutdown answers => exact .inl rfl
        | start opts answers =>
          rw [main_of_start hs] at hmain
          cases hmain
        | _ =>
          exact Conn.after_closing rfl (ih.reader
            (stopped_of_step rfl (fun _ => Action.noConfusion) hs hmain))

/-! ### Progress -/

/-- A step that the socket has no say in. -/
theorem exists_connStep (hallows : c.allows d a = true) (h : step d c.st a = some st') :
    connStep d c (.pump a) = some (c.after d st' a) :=
  connStep_pump.mpr ⟨hallows, st', h, rfl⟩

/-- `read_pdu` yields commands only, so that what has been read can be dispatched. -/
theorem exists_dispatch {maxTransfer : ℕ} {input rest : Bytes} {pdu : Pdu}
    (h : (readPdu maxTransfer).run input = .ok (pdu, rest)) : ∃ pc, dispatch pdu = some pc := by
  obtain ⟨hsends, -⟩ := accepts_readPdu.mp h
  rw [Pdu.ClientSends] at hsends
  cases hbody : pdu.header.body with
  | cmdSubmit cmd =>
    simp only [dispatch, hbody]
    split_ifs <;> exact ⟨_, rfl⟩
  | cmdUnlink cmd =>
    simp only [dispatch, hbody]
    exact ⟨_, rfl⟩
  | _ =>
    rw [hbody] at hsends
    exact hsends.elim

/-- Until the session is over the reader can move, unless it waits. -/
theorem reader_progress (hover : 0 < c.st.main.rank) (hwaits : ¬ c.Waits d) :
    ∃ a st', a.byReader = true ∧ a.begins = false ∧ c.allows d a = true ∧
      step d c.st a = some st' := by
  cases hmain : c.st.main with
  | setup => exact ⟨.spawn true, _, rfl, rfl, rfl, by simp only [step, hmain]; rfl⟩
  | top => exact ⟨.check true, _, rfl, rfl, rfl, by simp only [step, hmain]; rfl⟩
  | reading =>
    have hread : c.canRead d.maxTransfer = true := by
      by_contra hno
      exact hwaits (.inl ⟨hmain, Bool.eq_false_of_not_eq_true hno⟩)
    have hallows : c.allows d (.read c.inbox) = true := by simp [Conn.allows, hread]
    refine ⟨.read c.inbox, ?_⟩
    simp only [step, hmain]
    cases hrun : (readPdu d.maxTransfer).run c.inbox with
    | error e => exact ⟨_, rfl, rfl, hallows, rfl⟩
    | ok r =>
      obtain ⟨pdu, rest⟩ := r
      obtain ⟨pc, hpc⟩ := exists_dispatch hrun
      exact ⟨_, rfl, rfl, hallows, by dsimp only; rw [hpc]; rfl⟩
  | take req => exact ⟨.take .ok, _, rfl, rfl, rfl, by simp only [step, hmain]; rfl⟩
  | submit req => exact ⟨.submit .ok, _, rfl, rfl, rfl, by simp only [step, hmain]; rfl⟩
  | unlink seqnum target => exact ⟨.unlink, _, rfl, rfl, rfl, by simp only [step, hmain]; rfl⟩
  | devUnlink seqnum target =>
    exact ⟨.devUnlink .ok, _, rfl, rfl, rfl, by simp only [step, hmain]; rfl⟩
  | posting out full =>
    refine ⟨.mainPost, ?_⟩
    simp only [step, hmain]
    cases postTurn c.st full <;> exact ⟨_, rfl, rfl, rfl, rfl⟩
  | returned => exact ⟨.halt, _, rfl, rfl, rfl, by simp only [step, hmain]; rfl⟩
  | stopped => exact ⟨.shutdown [], _, rfl, rfl, rfl, by simp only [step, hmain]; rfl⟩
  | shutDown => exact absurd (.inr hmain) hwaits
  | joined =>
    exact ⟨.cancel (fun _ => .ok) [], _, rfl, rfl, rfl, by simp only [step, hmain]; rfl⟩
  | ended => rw [hmain] at hover; cases hover
  | failed => rw [hmain] at hover; cases hover

/-- In a stopping session a reaper that has not returned can come a step closer to it. -/
theorem reaper_progress (hstop : c.st.stop = true) (hreaper : c.st.reaper ≠ .idle) :
    ∃ a st', a.byReader = false ∧ a.begins = false ∧ c.allows d a = true ∧
      step d c.st a = some st' ∧ st'.reaper.weight < c.st.reaper.weight := by
  cases hpc : c.st.reaper with
  | top => exact ⟨.poll, _, rfl, rfl, rfl, by simp only [step, hpc]; rfl, by simp [hstop]⟩
  -- the wait has a timeout
  | waiting =>
    exact ⟨.wake false false, _, rfl, rfl, rfl, by simp only [step, hpc]; rfl, by simp [Round.next]⟩
  | reaping r =>
    have hnext := r.weight_next_le
    exact ⟨.reapNone, _, rfl, rfl, rfl, by simp only [step, hpc]; rfl,
      by rw [ReaperPc.weight_reaping]; exact Nat.lt_succ_of_le hnext⟩
  | delivering y r =>
    refine ⟨.deliver .ok, _, rfl, rfl, rfl, by simp only [step, hpc]; rfl, ?_⟩
    dsimp only [afterDeliver]
    split <;> simp
  | posting out full r =>
    refine ⟨.reaperPost, ?_⟩
    have hnext := r.weight_next_le
    rcases postTurn_of_stop full hstop with ⟨hturn, rfl⟩ | ⟨hturn, rfl⟩ | hturn
    · simp only [step, hpc, hturn]
      exact ⟨_, rfl, rfl, rfl, rfl, by simp⟩
    · simp only [step, hpc, hturn]
      exact ⟨_, rfl, rfl, rfl, rfl, by simp⟩
    · simp only [step, hpc, hturn]
      refine ⟨_, rfl, rfl, rfl, rfl, ?_⟩
      rw [ReaperPc.weight_posting]
      dsimp only
      split_ifs <;> omega
  | leaving => exact ⟨.leave, _, rfl, rfl, rfl, by simp only [step, hpc]; rfl, by simp⟩
  | idle => exact absurd hpc hreaper

/-- While the reader waits, one of the other threads can move or the socket can be shut down, or
the joins are over. -/
theorem other_progress (hc : c.Closes) (hstop : c.st.stop = true) (hwaits : c.Waits d) :
    ∃ x c', x.byThread = true ∧ x.begins = false ∧ connStep d c x = some c' := by
  have hclose : ∀ t, c.closing t = true →
      ∃ x c', x.byThread = true ∧ x.begins = false ∧ connStep d c x = some c' := by
    intro t ht
    exact ⟨.close t, _, rfl, rfl, if_pos ht⟩
  by_cases hreaper : c.st.reaper = .idle
  · rcases hwaits with ⟨hmain, hread⟩ | hmain
    · -- nobody but the reaper can end this wait
      rcases hc.reaper (by rw [hmain]; rfl) hreaper with hclosing | hshut
      · exact hclose _ hclosing
      · rw [Conn.canRead, hshut] at hread
        cases hread
    · rcases hc.reader hmain with hclosing | hshut
      · exact hclose _ hclosing
      · by_cases hnone : ∀ t, c.closing t = false
        · have hpump : ∀ {a st'}, a.begins = false → c.allows d a = true →
              step d c.st a = some st' →
              ∃ x c', x.byThread = true ∧ x.begins = false ∧ connStep d c x = some c' :=
            fun hno hallows h => ⟨.pump _, _, rfl, hno, exists_connStep hallows h⟩
          cases hwriter : c.st.writer with
          | running =>
            cases hqueue : c.st.queue with
            | nil =>
              exact hpump (a := .hangUp) rfl (by simp [Conn.allows, hnone])
                (by simp only [step, hwriter, hqueue, hmain, hreaper]; rfl)
            | cons buf rest =>
              exact hpump (a := .write false) rfl (by simp [Conn.allows, hshut])
                (by simp only [step, hwriter, hqueue]; rfl)
          | closing =>
            exact hpump (a := .writerStop) rfl rfl (by simp only [step, hwriter]; rfl)
          | idle =>
            exact hpump (a := .join) rfl (by simp [Conn.allows, hnone])
              (by simp only [step, hmain, hreaper, hwriter]; rfl)
        · obtain ⟨t, ht⟩ := not_forall.mp hnone
          exact hclose t (Bool.eq_true_of_not_eq_false ht)
  · obtain ⟨a, st', -, hno, hallows, h, -⟩ := reaper_progress (d := d) hstop hreaper
    exact ⟨.pump a, _, rfl, hno, exists_connStep hallows h⟩

/-! ### The end of a session -/

/-- What a stopping session keeps. -/
private def Stopping (d : UsbfsDevice) (c : Conn) : Prop :=
  ConnReachable d c ∧ c.st.stop = true

private theorem stopping_step (hs : Stopping d c) (hno : x.begins = false)
    (h : connStep d c x = some c') : Stopping d c' := by
  refine ⟨hs.1.next trivial h, ?_⟩
  rcases st_of_connStep h with hsame | ⟨a, rfl, ha⟩
  · rw [hsame]
    exact hs.2
  · exact stop_of_step (control_of_reach (session_of_conn hs.1)) hs.2 hno ha

/-- The reader is about to shut the socket down only before it joins the others. -/
theorem shutDown_of_closing (h : ConnReachable d c) (hclosing : c.closing .reader = true) :
    c.st.main = .shutDown := by
  revert hclosing
  refine h.invariant (fun c => c.closing .reader = true → c.st.main = .shutDown) (fun c hc => ?_)
    fun c x c' ih _ hstep hclosing => ?_
  · rw [hc]
    exact fun hfalse => (by cases hfalse)
  · cases x with
    | send bs | drain n | goAway =>
      cases hstep
      exact ih hclosing
    | close t =>
      rw [connStep] at hstep
      split_ifs at hstep
      cases hstep
      dsimp only at hclosing
      rw [Function.update_apply] at hclosing
      split_ifs at hclosing
      exact ih hclosing
    | pump a =>
      obtain ⟨hallows, st', hs, rfl⟩ := connStep_pump.mp hstep
      rw [Conn.after_st]
      have hmain : a.begins = false → (∀ answers, a ≠ .shutdown answers) →
          c.st.main = .shutDown := fun hno hshutdown =>
        ih (by rwa [Conn.closing_reader_after hno hshutdown] at hclosing)
      cases a with
      | start opts answers => cases hclosing
      | shutdown answers =>
        simp only [step] at hs
        split at hs
        · cases hs
          rfl
        · cases hs
      | join =>
        rw [Conn.allows, show c.closing .reader = true from hclosing] at hallows
        cases hallows
      | spawn _ | check _ | read _ | take _ | submit _ | unlink | devUnlink _ | mainPost | halt
      | cancel _ _ =>
        -- none of these is a step of a reader that waits in its joins
        simp only [step, hmain rfl fun _ => Action.noConfusion] at hs
        cases hs
      | _ => exact (main_of_step rfl hs).trans (hmain rfl fun _ => Action.noConfusion)

/-- The rank of the reader is a potential for the steps of the reader. -/
private theorem potential_rank : Potential (connStep d) (fun x => x.begins = false) (Stopping d)
    (fun x => x.byReader.toNat) Conn.rank := by
  intro c x c' hs hno h
  refine ⟨stopping_step hs hno h, ?_⟩
  cases x with
  | send bs | drain n | goAway =>
    cases h
    exact (Nat.zero_add _).le
  | close t =>
    rw [connStep] at h
    split_ifs at h with hclosing
    cases h
    cases t with
    | reader =>
      simp [ConnAction.byReader, Conn.rank, shutDown_of_closing hs.1 hclosing, MainPc.rank,
        hclosing]
    | reaper | writer => simp [ConnAction.byReader, Conn.rank]
  | pump a =>
    obtain ⟨-, st', hst, rfl⟩ := connStep_pump.mp h
    dsimp only [ConnAction.byReader]
    cases hr : a.byReader with
    | false =>
      have hclosing : (c.after d st' a).closing .reader = c.closing .reader :=
        Conn.closing_reader_after hno fun answers heq => by rw [heq] at hr; cases hr
      rw [Bool.toNat_false, Nat.zero_add, Conn.rank, Conn.rank, Conn.after_st,
        main_of_step hr hst, hclosing]
    | true =>
      have hlt := (readerMoves_of_step hr hno hst).rank_lt hs.2
      have hone := Bool.toNat_le ((c.after d st' a).closing .reader)
      rw [Bool.toNat_true, Conn.rank, Conn.rank, Conn.after_st]
      by_cases hlow : c.st.main.rank ≤ 2
      · -- the last steps of the reader leave the socket alone
        have hclosing : (c.after d st' a).closing .reader = c.closing .reader := by
          refine Conn.closing_reader_after hno fun answers heq => ?_
          rw [heq] at hst
          simp only [step] at hst
          split at hst
          · rename_i hmain
            rw [hmain] at hlow
            exact absurd hlow (by decide)
          · cases hst
        rw [if_pos hlow, if_pos (by omega), hclosing]
        omega
      · rw [if_neg hlow]
        split_ifs <;> omega

/-- What a session keeps from the shutdown of its prefetcher on. -/
private def Downward (d : UsbfsDevice) (c : Conn) : Prop :=
  Stopping d c ∧ c.st.main.down = true

private theorem downward_step (hs : Downward d c) (hno : x.begins = false)
    (h : connStep d c x = some c') : Downward d c' := by
  refine ⟨stopping_step hs.1 hno h, ?_⟩
  rcases st_of_connStep h with hsame | ⟨a, rfl, ha⟩
  · rw [hsame]
    exact hs.2
  · cases hr : a.byReader with
    | false => rw [main_of_step hr ha]; exact hs.2
    | true =>
      have hdown := hs.2
      have hmove := readerMoves_of_step hr hno ha
      generalize c.st.main = pc at hdown hmove
      generalize c'.st.main = pc' at hmove
      cases hmove with
      | joined _ _ => rfl
      | ended => rfl
      | _ => cases hdown

/-- A step of a thread makes at most one more of them about to shut the socket down. -/
private theorem toClose_after_le (hno : a.begins = false) :
    (c.after d st a).toClose ≤ c.toClose + 1 := by
  have hreader := Bool.toNat_le (c.closing .reader)
  cases a with
  | start opts answers => cases hno
  | shutdown _ | leave | writerStop =>
    simp only [Conn.toClose, Conn.after, Function.update_apply, reduceCtorEq, if_true, if_false,
      Bool.toNat_true]
    omega
  | _ => exact Nat.le_succ _

private theorem potential_windDown : Potential (connStep d) (fun x => x.begins = false)
    (Downward d) (fun x => x.byThread.toNat) Conn.windDown := by
  intro c x c' hs hno h
  refine ⟨downward_step hs hno h, ?_⟩
  cases x with
  | send bs | drain n | goAway =>
    cases h
    exact (Nat.zero_add _).le
  | close t =>
    rw [connStep] at h
    split_ifs at h with hclosing
    cases h
    cases t <;> simp [ConnAction.byThread, Conn.windDown, Conn.toClose, hclosing] <;> omega
  | pump a =>
    obtain ⟨-, st', hst, rfl⟩ := connStep_pump.mp h
    have hreach := session_of_conn hs.1.1
    have hlt := windDown_lt_of_step (control_of_reach hreach) hs.1.2 hs.2
      (halted_of_reach hreach hs.2) hno hst
    have hclose : (c.after d st' a).toClose ≤ c.toClose + 1 := toClose_after_le hno
    simp only [ConnAction.byThread, Bool.toNat_true, Conn.windDown, Conn.after_st]
    omega

/-- **A stopping session winds down.** Once the stop flag is set, in every interleaving of the
threads and the importer: the reader takes no more steps than its rank, which is at most eleven,
whatever the others do; from the shutdown of the prefetcher on, all threads together take no more
steps than `windDown`; and until the session is over one of its threads can move without the
importer, the reader itself unless it waits for a command or in its joins. -/
theorem session_winds_down (h : ConnReachable d c) (hstop : c.st.stop = true)
    (hno : ∀ x ∈ as, x.begins = false) (hrun : run (connStep d) c as = some c') :
    as.countP ConnAction.byReader + c'.rank ≤ c.rank ∧ c.rank ≤ 11 ∧
    (c.st.main.down = true → as.countP ConnAction.byThread + c'.windDown ≤ c.windDown) ∧
    (0 < c'.st.main.rank → ∃ x c'', x.byThread = true ∧ x.begins = false ∧
      connStep d c' x = some c'' ∧ (x.byReader = true ∨ c'.Waits d)) := by
  obtain ⟨hs, hcount⟩ := potential_rank.countP_le ⟨h, hstop⟩ hno hrun
  refine ⟨hcount, ?_, fun hdown => (potential_windDown.countP_le ⟨⟨h, hstop⟩, hdown⟩ hno hrun).2,
    fun hover => ?_⟩
  · have hrank := c.st.main.rank_le
    have hone := Bool.toNat_le (c.closing .reader)
    rw [Conn.rank]
    split_ifs <;> omega
  · by_cases hwaits : c'.Waits d
    · obtain ⟨x, c'', hthread, hb, hstep⟩ := other_progress (closes_of_conn hs.1) hs.2 hwaits
      exact ⟨x, c'', hthread, hb, hstep, .inr hwaits⟩
    · obtain ⟨a, st', hr, hb, hallows, hst⟩ := reader_progress hover hwaits
      exact ⟨.pump a, _, rfl, hb, exists_connStep hallows hst, .inl hr⟩

/-- An importer sends half a command and no more, and keeps the connection open. Then the wait for
completions fails. -/
def silentImporter : List ConnAction :=
  List.map .pump (begin false) ++ [.send ((Pdu.submitIn 1 1 64).encode.take 20)] ++
    List.map ConnAction.pump [.check false, .poll, .waitFails, .leave]

/-- The reaper gets the reader out of `read_pdu`. -/
def windDownSteps : List ConnAction :=
  .close .reaper :: (List.map .pump [.read ((Pdu.submitIn 1 1 64).encode.take 20), .halt,
    .shutdown []] ++ .close .reader :: List.map .pump [.hangUp, .writerStop] ++
    .close .writer :: List.map .pump [.join, .cancel (fun _ => .ok) []])

theorem session_winds_down_silent :
    ∃ c c', ConnReachable gamepad c ∧ run (connStep gamepad) c windDownSteps = some c' ∧
      c.Waits gamepad ∧ c'.st.main = .ended ∧ c.rank = 10 ∧
      windDownSteps.countP ConnAction.byReader + c'.rank ≤ c.rank := by
  have hrun : (run (connStep gamepad) Conn.initial silentImporter).any (fun c =>
      c.st.stop && decide (c.st.main = .reading) && !c.canRead gamepad.maxTransfer &&
      decide (c.rank = 10) &&
      (run (connStep gamepad) c windDownSteps).any fun c' => c'.st.main = .ended) = true := by
    decide +kernel
  obtain ⟨c, hc, hp⟩ := exists_reachable_of_run (· = Conn.initial) rfl hrun
  simp only [Bool.and_eq_true, decide_eq_true_eq, Bool.not_eq_true'] at hp
  obtain ⟨⟨⟨⟨hstop, hmain⟩, hread⟩, hrank⟩, hend⟩ := hp
  obtain ⟨c', hrun', hended⟩ := (Option.any_eq_true _ _).mp hend
  exact ⟨c, c', hc, hrun', .inl ⟨hmain, hread⟩, of_decide_eq_true hended, hrank,
    (session_winds_down hc hstop (by decide) hrun').1⟩

/-! ### No deadlock -/

/-- How far the reader is from the shutdown of the prefetcher, and the reaper from shutting down
the socket that the reader may wait for. -/
private def Conn.toDown (c : Conn) : ℕ :=
  20 * c.rank + 2 * c.st.reaper.weight + (c.closing .reaper).toNat

/-- What a thread does by itself, within a session. -/
private def Own (x : ConnAction) : Prop := x.byThread = true ∧ x.begins = false

private theorem exists_step_toDown (hs : Stopping d c)
    (hgo : ¬ (c.st.main.down = true ∨ c.st.main.rank = 0)) :
    ∃ x c', Own x ∧ connStep d c x = some c' ∧ Stopping d c' ∧ c'.toDown < c.toDown := by
  rw [not_or] at hgo
  have hjoin : c.st.main ≠ .shutDown := fun heq => hgo.1 (by rw [heq]; rfl)
  by_cases hwaits : c.Waits d
  · obtain ⟨hmain, hread⟩ := hwaits.resolve_right hjoin
    by_cases hreaper : c.st.reaper = .idle
    · rcases (closes_of_conn hs.1).reaper (by rw [hmain]; rfl) hreaper with hclosing | hshut
      · have hstep : connStep d c (.close .reaper) = some _ := if_pos hclosing
        refine ⟨_, _, ⟨rfl, rfl⟩, hstep, stopping_step hs rfl hstep, ?_⟩
        simp [Conn.toDown, Conn.rank, hclosing]
      · rw [Conn.canRead, hshut] at hread
        cases hread
    · obtain ⟨a, st', hr, hno, hallows, hst, hlt⟩ := reaper_progress (d := d) hs.2 hreaper
      have hstep := exists_connStep hallows hst
      have hle := (potential_rank c (.pump a) _ hs hno hstep).2
      have hone := Bool.toNat_le ((c.after d st' a).closing .reaper)
      refine ⟨.pump a, _, ⟨rfl, hno⟩, hstep, stopping_step (x := .pump a) hs hno hstep, ?_⟩
      simp only [Conn.toDown, Conn.after_st]
      omega
  · obtain ⟨a, st', hr, hno, hallows, hst⟩ :=
      reader_progress (Nat.pos_of_ne_zero hgo.2) hwaits
    have hstep := exists_connStep hallows hst
    have hle := (potential_rank c (.pump a) _ hs hno hstep).2
    have hone := Bool.toNat_le ((c.after d st' a).closing .reaper)
    have hweight : st'.reaper.weight ≤ c.st.reaper.weight + 2 := by
      rcases reaper_of_step hr hno hst with hsame | htop
      · rw [hsame]
        exact Nat.le_add_right _ _
      · rw [htop]
        exact Nat.le_add_left _ _
    refine ⟨.pump a, _, ⟨rfl, hno⟩, hstep, stopping_step (x := .pump a) hs hno hstep, ?_⟩
    simp only [ConnAction.byReader, hr, Bool.toNat_true] at hle
    simp only [Conn.toDown, Conn.after_st]
    omega

/-- The reader of a stopping session gets to the shutdown of the prefetcher. -/
private theorem exists_run_to_down (hs : Stopping d c) :
    ∃ xs c', (∀ x ∈ xs, Own x) ∧ run (connStep d) c xs = some c' ∧
      Stopping d c' ∧ (c'.st.main.down = true ∨ c'.st.main.rank = 0) :=
  exists_run_of_progress (fun c => c.st.main.down = true ∨ c.st.main.rank = 0) Conn.toDown
    (fun _ hs hgo => exists_step_toDown hs hgo) hs

/-- From there all the threads get to the end. -/
private theorem exists_run_to_end (hs : Downward d c) :
    ∃ xs c', (∀ x ∈ xs, Own x) ∧ run (connStep d) c xs = some c' ∧
      Downward d c' ∧ c'.st.main.rank = 0 := by
  refine exists_run_of_progress (fun c => c.st.main.rank = 0) Conn.windDown
    (fun c hs hgo => ?_) hs
  obtain ⟨x, c', hthread, hno, hstep⟩ :
      ∃ x c', x.byThread = true ∧ x.begins = false ∧ connStep d c x = some c' := by
    by_cases hwaits : c.Waits d
    · exact other_progress (closes_of_conn hs.1.1) hs.1.2 hwaits
    · obtain ⟨a, st', -, hb, hallows, hst⟩ := reader_progress (Nat.pos_of_ne_zero hgo) hwaits
      exact ⟨.pump a, _, rfl, hb, exists_connStep hallows hst⟩
  have hle : x.byThread.toNat + c'.windDown ≤ c.windDown :=
    (potential_windDown c x c' hs hno hstep).2
  rw [hthread, Bool.toNat_true] at hle
  exact ⟨x, c', ⟨hthread, hno⟩, hstep, downward_step hs hno hstep, by omega⟩

/-- **No deadlock.** Every run of a stopping session can be completed by its threads alone: it
extends to one that ends the session, with the reaper and the writer returned, in which the
importer neither sends nor reads nor hangs up. -/
theorem session_can_end (h : ConnReachable d c) (hstop : c.st.stop = true)
    (hno : ∀ x ∈ as, x.begins = false) (hrun : run (connStep d) c as = some c') :
    ∃ bs c'', (∀ x ∈ bs, x.byThread = true ∧ x.begins = false) ∧
      run (connStep d) c (as ++ bs) = some c'' ∧
      c''.st.main.rank = 0 ∧ c''.st.reaper = .idle ∧ c''.st.writer = .idle := by
  have hs : Stopping d c' := (potential_rank.countP_le ⟨h, hstop⟩ hno hrun).1
  obtain ⟨bs, t, hbs, hrun₁, ht, hstage⟩ := exists_run_to_down hs
  obtain ⟨cs, u, hcs, hrun₂, hu, hend⟩ : ∃ cs u, (∀ x ∈ cs, Own x) ∧
      run (connStep d) t cs = some u ∧ SessionReachable d u.st ∧ u.st.main.rank = 0 := by
    rcases hstage with hdown | hzero
    · obtain ⟨cs, u, hcs, hrun₂, hu, hend⟩ := exists_run_to_end ⟨ht, hdown⟩
      exact ⟨cs, u, hcs, hrun₂, session_of_conn hu.1.1, hend⟩
    · exact ⟨[], t, List.forall_mem_nil _, rfl, session_of_conn ht.1, hzero⟩
  refine ⟨bs ++ cs, u, List.forall_mem_append.mpr ⟨hbs, hcs⟩, ?_, hend, ?_,
    writer_idle_of_reach hu (hend ▸ Nat.zero_le 1)⟩
  · rw [run_append, hrun, Option.bind_some, run_append, hrun₁, Option.bind_some, hrun₂]
  · have hidle := (control_of_reach hu).reaper_idle
    cases hmain : u.st.main with
    | ended => exact hidle (.inr (.inr (.inl hmain)))
    | failed => exact hidle (.inr (.inr (.inr hmain)))
    | posting out full => rw [hmain] at hend; cases full <;> cases hend
    | _ => rw [hmain] at hend; cases hend

/-- The importer reads nothing, so that the writer waits with a reply in hand; the reader is done
with its loop, and the reaper is not. -/
def stoppingMidway : List ConnAction :=
  List.map .pump (begin false) ++ .send (Pdu.submitIn 1 1 64).encode ::
    List.map ConnAction.pump (receive (.submitIn 1 1 64) ++ [.take .ok, .submit .ok] ++
      reapOne 1 0 [7] ++ [.reaperPost, .check true, .halt])

theorem session_can_end_midway :
    ∃ c bs c'', ConnReachable gamepad c ∧ c.allows gamepad (.write true) = false ∧
      c.allows gamepad (.write false) = false ∧ c.st.queue ≠ [] ∧
      (∀ x ∈ bs, x.byThread = true ∧ x.begins = false) ∧
      run (connStep gamepad) c ([.pump .reapNone] ++ bs) = some c'' ∧
      c''.st.main.rank = 0 ∧ c''.st.reaper = .idle ∧ c''.st.writer = .idle := by
  have hmidway : (run (connStep gamepad) Conn.initial stoppingMidway).any (fun c =>
      c.st.stop && !c.allows gamepad (.write true) && !c.allows gamepad (.write false) &&
      decide (c.st.queue ≠ []) && (run (connStep gamepad) c [.pump .reapNone]).isSome) = true := by
    decide +kernel
  obtain ⟨c, hc, hp⟩ := exists_reachable_of_run (· = Conn.initial) rfl hmidway
  simp only [Bool.and_eq_true, Bool.not_eq_true', decide_eq_true_eq] at hp
  obtain ⟨⟨⟨⟨hstop, hwrite⟩, hfail⟩, hqueue⟩, hsome⟩ := hp
  obtain ⟨c', hrun⟩ := Option.isSome_iff_exists.mp hsome
  obtain ⟨bs, c'', hbs, hend, hfinal⟩ := session_can_end hc hstop (by decide) hrun
  exact ⟨c, bs, c'', hc, hwrite, hfail, hqueue, hbs, hend, hfinal⟩

end Padwire
