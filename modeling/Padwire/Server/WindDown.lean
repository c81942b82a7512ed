import Padwire.Server.Socket

/-!
# The threads of a session that winds down

`run` ends a session "in an order that cannot deadlock" (`usbfwd-server/src/session.rs`): the
stop flag, the prefetcher, the socket, the sender, and then the joins. Two measures of the state
say how the threads get there.

* Once the stop flag is set, every step of the reader lowers `MainPc.rank`, whatever the other
  threads do in between: the reader is a bounded number of steps away from its end. Until the
  prefetcher is shut down the reaper has no such bound, because `deliver` arms an endpoint again
  and a fast device can keep the reap loop going.
* From the shutdown of the prefetcher on, every step of any thread lowers `State.windDown`: each
  reap takes a URB off a table that does not grow any more.

That the threads do make their steps, with a socket that may hold them up, is what `Teardown` is
about.
-/

namespace Padwire

variable {d : UsbfsDevice} {st st' : State} {a : Action}

/-- The steps of the reader, which are those of `run` itself. -/
def Action.byReader : Action → Bool
  | .start _ _ | .spawn _ | .check _ | .read _ | .take _ | .submit _ | .unlink | .devUnlink _
  | .mainPost | .halt | .shutdown _ | .join | .cancel _ _ => true
  | _ => false

/-- How far the reader of a stopping session is from its end. -/
def MainPc.rank : MainPc → ℕ
  | .setup => 10
  | .reading => 9
  | .take _ | .unlink _ _ => 8
  | .submit _ | .devUnlink _ _ => 7
  | .posting _ false => 6
  | .posting _ true | .top => 5
  | .returned => 4
  | .stopped => 3
  | .shutDown => 2
  | .joined => 1
  | .ended | .failed => 0

theorem MainPc.rank_le (pc : MainPc) : pc.rank ≤ 10 := by
  cases pc with
  | posting out full => cases full <;> exact Nat.le_of_ble_eq_true rfl
  | _ => exact Nat.le_of_ble_eq_true rfl

/-- How far the reaper of a stopping session is from its end, apart from the URBs it may still
reap. A reply it posts is one more for the writer. -/
def ReaperPc.weight : ReaperPc → ℕ
  | .delivering _ _ => 6
  | .posting _ false _ => 5
  | .posting _ true _ | .waiting => 4
  | .reaping _ => 3
  | .top => 2
  | .leaving => 1
  | .idle => 0

def WriterPc.weight : WriterPc → ℕ
  | .running => 2
  | .closing => 1
  | .idle => 0

/-- How many steps a session whose prefetcher is shut down can still take. -/
def State.windDown (st : State) : ℕ :=
  (if st.reaper = .idle then 0 else 4 * st.dev.pending.keys.length) + st.reaper.weight +
    st.queue.length + st.writer.weight + st.main.rank

namespace ReaperPc

@[simp]
theorem weight_delivering (c : UrbCompletion) (r : Round) : (delivering c r).weight = 6 := rfl

@[simp]
theorem weight_posting (out : Out) (full : Bool) (r : Round) :
    (posting out full r).weight = if full then 4 else 5 := by
  cases full <;> rfl

@[simp]
theorem weight_waiting : waiting.weight = 4 := rfl

@[simp]
theorem weight_reaping (r : Round) : (reaping r).weight = 3 := rfl

@[simp]
theorem weight_top : top.weight = 2 := rfl

@[simp]
theorem weight_leaving : leaving.weight = 1 := rfl

@[simp]
theorem weight_idle : idle.weight = 0 := rfl

end ReaperPc

theorem Round.weight_next_le (r : Round) : r.next.weight ≤ 2 := by
  unfold Round.next
  split_ifs <;> decide

/-! ### The stop flag -/

/-- Within a session the stop flag is never cleared. -/
theorem stop_of_step (hc : Control st) (hstop : st.stop = true) (ha : a.begins = false)
    (h : step d st a = some st') : st'.stop = true := by
  cases effect_of_step hc h with
  | quiet hq => exact hq.stop hstop
  | started _ => cases ha
  | reaperDropped _ => rfl
  | _ => exact hstop

/-- A turn of `post` in a stopping session ends in sending, in giving up or, once, in finding
the channel full. -/
theorem postTurn_of_stop (full : Bool) (hstop : st.stop = true) :
    (postTurn st full = .sent ∧ full = false) ∨ (postTurn st full = .sawFull ∧ full = false) ∨
      postTurn st full = .gaveUp := by
  unfold postTurn
  rw [hstop]
  cases full with
  | true => exact .inr (.inr rfl)
  | false =>
    rw [if_neg Bool.false_ne_true]
    split_ifs
    · exact .inr (.inr rfl)
    · exact .inl ⟨rfl, rfl⟩
    · exact .inr (.inl ⟨rfl, rfl⟩)

/-! ### The reader -/

/-- The other threads do not move the reader. -/
theorem main_of_step (ha : a.byReader = false) (h : step d st a = some st') :
    st'.main = st.main := by
  cases a with
  | poll | wake _ _ | waitFails | reapNone | reapFails | deliver _ | leave | writerStop =>
    simp only [step] at h
    split at h
    · cases h
      rfl
    · cases h
  | reap k now =>
    simp only [step] at h
    split at h
    · obtain ⟨x, -, rfl⟩ := Option.map_eq_some_iff.mp h
      split_ifs <;> rfl
    · cases h
  | reaperPost =>
    simp only [step] at h
    split at h
    · split at h <;> cases h <;> rfl
    · cases h
  | write ok =>
    simp only [step] at h
    split at h
    · cases h
      rfl
    · cases h
  | hangUp =>
    simp only [step] at h
    split at h
    · split_ifs at h
      cases h
      rfl
    · cases h
  | _ => cases ha

/-- The control flow of the reader within a session: where one step can take its program
counter. -/
inductive ReaderMoves (st : State) : MainPc → MainPc → Prop
  | spawned : ReaderMoves st .setup .top
  | spawnFailed : ReaderMoves st .setup .failed
  | left : ReaderMoves st .top .returned
  | entered : st.stop = false → ReaderMoves st .top .reading
  | readFailed : ReaderMoves st .reading .returned
  | dispatched {pdu : Pdu} {pc : MainPc} : dispatch pdu = some pc → ReaderMoves st .reading pc
  | took (req : UrbRequest) (t : Take) : ReaderMoves st (.take req) (afterTake req t)
  | submitted (req : UrbRequest) (r : Except SubmitError Unit) :
      ReaderMoves st (.submit req) (afterSubmit req r)
  | unlinked (seqnum target : UInt32) (out : Out) :
      ReaderMoves st (.unlink seqnum target) (.posting out false)
  | unlinkMissed (seqnum target : UInt32) :
      ReaderMoves st (.unlink seqnum target) (.devUnlink seqnum target)
  | devUnlinked (seqnum target : UInt32) (out : Out) :
      ReaderMoves st (.devUnlink seqnum target) (.posting out false)
  | sent (out : Out) : ReaderMoves st (.posting out false) .top
  | sawFull (out : Out) : ReaderMoves st (.posting out false) (.posting out true)
  | retried (out : Out) : st.stop = false →
      ReaderMoves st (.posting out true) (.posting out false)
  | gaveUp (out : Out) (full : Bool) : ReaderMoves st (.posting out full) .returned
  | halted : ReaderMoves st .returned .stopped
  | shutDown : ReaderMoves st .stopped .shutDown
  | joined : st.reaper = .idle → st.writer = .idle → ReaderMoves st .shutDown .joined
  | ended : ReaderMoves st .joined .ended

/-- A turn of `post` by the reader. -/
private theorem readerMoves_post (h : step d st .mainPost = some st') :
    ReaderMoves st st.main st'.main := by
  simp only [step, postTurn] at h
  split at h
  · rename_i out full hmain
    rw [hmain]
    cases full with
    | false =>
      rw [if_neg Bool.false_ne_true] at h
      split_ifs at h
      · cases h
        exact .gaveUp out false
      · cases h
        exact .sent out
      · cases h
        exact .sawFull out
    | true =>
      rw [if_pos rfl] at h
      split_ifs at h with hstop
      · cases h
        exact .gaveUp out true
      · cases h
        exact .retried out (by simpa using hstop)
  · cases h

theorem readerMoves_of_step (ha : a.byReader = true) (hno : a.begins = false)
    (h : step d st a = some st') : ReaderMoves st st.main st'.main := by
  cases a with
  | mainPost => exact readerMoves_post h
  | start opts answers => cases hno
  | read input =>
    simp only [step] at h
    split at h
    · rename_i hmain
      rw [hmain]
      split at h
      · cases h
        exact .readFailed
      · obtain ⟨pc, hpc, rfl⟩ := Option.map_eq_some_iff.mp h
        exact .dispatched hpc
    · cases h
  | spawn ok =>
    simp only [step] at h
    split at h
    · rename_i hmain
      cases h
      rw [hmain]
      cases ok
      · exact .spawnFailed
      · exact .spawned
    · cases h
  | check shuttingDown =>
    simp only [step] at h
    split at h
    · rename_i hmain
      cases h
      rw [hmain]
      dsimp only
      split_ifs with hstop
      · exact .left
      · exact .entered (by simp_all)
    · cases h
  | take answer =>
    simp only [step] at h
    split at h
    · rename_i req hmain
      cases h
      rw [hmain]
      exact .took req _
    · cases h
  | submit answer =>
    simp only [step] at h
    split at h
    · rename_i req hmain
      cases h
      rw [hmain]
      exact .submitted req _
    · cases h
  | unlink =>
    simp only [step] at h
    split at h
    · rename_i seqnum target hmain
      cases h
      rw [hmain]
      dsimp only
      split_ifs
      · exact .unlinked seqnum target _
      · exact .unlinkMissed seqnum target
    · cases h
  | devUnlink answer =>
    simp only [step] at h
    split at h
    · rename_i seqnum target hmain
      cases h
      rw [hmain]
      exact .devUnlinked seqnum target _
    · cases h
  | halt =>
    simp only [step] at h
    split at h
    · rename_i hmain
      cases h
      rw [hmain]
      exact .halted
    · cases h
  | shutdown answers =>
    simp only [step] at h
    split at h
    · rename_i hmain
      cases h
      rw [hmain]
      exact .shutDown
    · cases h
  | join =>
    simp only [step] at h
    split at h
    · rename_i hmain
      split_ifs at h with hidle
      cases h
      rw [hmain]
      exact .joined hidle.1 hidle.2
    · cases h
  | cancel answers done =>
    simp only [step] at h
    split at h
    · rename_i hmain
      cases h
      rw [hmain]
      exact .ended
    · cases h
  | _ => cases ha

namespace ReaderMoves

variable {pc pc' : MainPc}

/-- Each move of the reader of a stopping session brings it closer to its end. -/
theorem rank_lt (h : ReaderMoves st pc pc') (hstop : st.stop = true) : pc'.rank < pc.rank := by
  cases h with
  | entered h => rw [hstop] at h; cases h
  | retried out h => rw [hstop] at h; cases h
  | dispatched hpc => cases Padwire.dispatched hpc <;> simp [MainPc.rank]
  | took req t => cases t <;> simp [afterTake, MainPc.rank]
  | submitted req r =>
    rcases r with e | u
    · cases e <;> simp [afterSubmit, MainPc.rank]
    · simp [afterSubmit, MainPc.rank]
  | gaveUp out full => cases full <;> simp [MainPc.rank]
  | _ => simp [MainPc.rank]

/-- The reader gets past the joins by them, or by never having spawned what they wait for. -/
theorem of_rank_le_one (h : ReaderMoves st pc pc') (hle : pc'.rank ≤ 1) :
    pc = .setup ∨ pc = .shutDown ∨ pc = .joined := by
  cases h with
  | spawnFailed => exact .inl rfl
  | joined _ _ => exact .inr (.inl rfl)
  | ended => exact .inr (.inr rfl)
  | dispatched hpc => cases Padwire.dispatched hpc <;> simp [MainPc.rank] at hle
  | took req t => cases t <;> simp [afterTake, MainPc.rank] at hle
  | submitted req r =>
    rcases r with e | u
    · cases e <;> simp [afterSubmit, MainPc.rank] at hle
    · simp [afterSubmit, MainPc.rank] at hle
  | _ => simp [MainPc.rank] at hle

end ReaderMoves

/-- The writer has returned once the reader is past the joins. -/
theorem writer_idle_of_reach (h : SessionReachable d st) (hmain : st.main.rank ≤ 1) :
    st.writer = .idle := by
  revert hmain
  refine h.invariant (fun st => st.main.rank ≤ 1 → st.writer = .idle)
    (fun _ hs _ => by rw [hs]; rfl) fun st a st' ih _ hstep hmain => ?_
  cases hr : a.byReader with
  | false =>
    -- the other threads move neither the reader nor a writer that has returned
    rw [main_of_step hr hstep] at hmain
    have hidle := ih hmain
    cases a with
    | poll | wake _ _ | waitFails | reapNone | reapFails | deliver _ | leave | writerStop =>
      simp only [step] at hstep
      split at hstep
      · cases hstep
        first | exact hidle | rfl
      · cases hstep
    | reap k now =>
      simp only [step] at hstep
      split at hstep
      · obtain ⟨x, -, rfl⟩ := Option.map_eq_some_iff.mp hstep
        split_ifs <;> exact hidle
      · cases hstep
    | reaperPost =>
      simp only [step] at hstep
      split at hstep
      · split at hstep <;> cases hstep <;> exact hidle
      · cases hstep
    | write ok | hangUp =>
      simp only [step, hidle] at hstep
      cases hstep
    | _ => cases hr
  | true =>
    cases a with
    | start opts answers =>
      simp only [step] at hstep
      split at hstep
      · cases hstep
        simp [start, MainPc.rank] at hmain
      · cases hstep
        simp [start, MainPc.rank] at hmain
      · cases hstep
    | spawn ok =>
      simp only [step] at hstep
      split at hstep
      · cases hstep
        cases ok with
        | true => simp [MainPc.rank] at hmain
        | false => rfl
      · cases hstep
    | join =>
      simp only [step] at hstep
      split at hstep
      · split_ifs at hstep with hidle
        cases hstep
        exact hidle.2
      · cases hstep
    | cancel answers done =>
      simp only [step] at hstep
      split at hstep
      · rename_i hjoined
        cases hstep
        exact ih (by rw [hjoined]; exact Nat.le_refl 1)
      · cases hstep
    | check _ | read _ | take _ | submit _ | unlink | devUnlink _ | mainPost | halt | shutdown _ =>
      -- none of these leads past the joins
      have hpc := (readerMoves_of_step hr rfl hstep).of_rank_le_one hmain
      simp only [step] at hstep
      split at hstep
      · rename_i heq
        rw [heq] at hpc
        simp at hpc
      · cases hstep
    | _ => cases hr

/-! ### After the shutdown -/

/-- A reap takes one URB off the table. -/
theorem length_pending_reap {k : DevState.KernelUrb} {dev dev' : DevState} {c : UrbCompletion}
    (h : dev.reap k = some (c, dev')) :
    dev'.pending.keys.length + 1 = dev.pending.keys.length := by
  unfold DevState.reap at h
  split at h
  · cases h
  · rename_i e he
    obtain ⟨-, rfl⟩ := Prod.mk.inj (Option.some.inj h)
    have hkey : e.urb.seqnum = k.seqnum := dev.keyed _ _ he
    have hmem : e.urb.seqnum ∈ dev.pending.keys := hkey ▸ Table.mem_of_lookup he
    rw [AList.keys_erase, List.length_erase_of_mem hmem]
    exact Nat.sub_add_cancel (List.length_pos_of_mem hmem)

/-- Past its shutdown the prefetcher answers every completion with nothing and arms nothing. -/
theorem deliver_of_halted (h : st.prefetch.Halted) (seqnum : UInt32) (status : Int32)
    (data : Bytes) (x : DevState × List Ioctl) :
    st.prefetch.deliver d.backend seqnum status data x = ({ reply := none }, st.prefetch, x) := by
  rcases Prefetch.deliver_spec d.backend st.prefetch seqnum status data x with
    ⟨-, -, hdel⟩ | ⟨b, ep, -, -, -, -, hep, hfl, -, -⟩
  · exact hdel
  · rw [(h b ep hep).2] at hfl
    cases hfl

/-- A step of the reaper, or a write, lowers `windDown` if it lowers the part that is about the
URBs, the reaper and the queue. -/
private theorem windDown_lt (hreaper : st.reaper ≠ .idle)
    (hle : 4 * st'.dev.pending.keys.length + st'.reaper.weight + st'.queue.length <
      4 * st.dev.pending.keys.length + st.reaper.weight + st.queue.length)
    (hmain : st'.main = st.main := by rfl) (hwriter : st'.writer = st.writer := by rfl) :
    st'.windDown < st.windDown := by
  unfold State.windDown
  rw [hmain, hwriter, if_neg hreaper]
  split_ifs <;> omega

private theorem windDown_reap {k : DevState.KernelUrb} {now : ℕ}
    (h : step d st (.reap k now) = some st') : st'.windDown < st.windDown := by
  simp only [step] at h
  split at h
  · rename_i r hreaper
    obtain ⟨⟨c, dev'⟩, hreap, rfl⟩ := Option.map_eq_some_iff.mp h
    have hlen := length_pending_reap hreap
    have hweight : st.reaper.weight = 3 := by rw [hreaper]; rfl
    -- one URB fewer pays for delivering or posting what was reaped
    dsimp only
    split_ifs
    · exact windDown_lt (by simp [hreaper]) (by dsimp only; omega)
    · exact windDown_lt (by simp [hreaper]) (by simp only [ReaperPc.weight_delivering]; omega)
    · exact windDown_lt (by simp [hreaper]) (by
        simp only [ReaperPc.weight_posting, Bool.false_eq_true, if_false]; omega)
  · cases h

private theorem windDown_reaperPost (hstop : st.stop = true)
    (h : step d st .reaperPost = some st') : st'.windDown < st.windDown := by
  simp only [step] at h
  split at h
  · rename_i out full r hreaper
    rcases postTurn_of_stop full hstop with ⟨hturn, rfl⟩ | ⟨hturn, rfl⟩ | hturn
    -- the writer has one more buffer to write
    · simp only [hturn] at h
      cases h
      exact windDown_lt (by simp [hreaper]) (by simp [State.put, hreaper]; omega)
    · simp only [hturn] at h
      cases h
      exact windDown_lt (by simp [hreaper]) (by simp [hreaper])
    · simp only [hturn] at h
      cases h
      have hnext := r.weight_next_le
      refine windDown_lt (by simp [hreaper]) ?_
      simp only [State.drop, hreaper, ReaperPc.weight_posting]
      split_ifs <;> omega
  · cases h

/-- From the shutdown of the prefetcher on, every step of any thread lowers `windDown`. -/
theorem windDown_lt_of_step (hc : Control st) (hstop : st.stop = true)
    (hdown : st.main.down = true) (hhalt : st.prefetch.Halted) (hno : a.begins = false)
    (h : step d st a = some st') : st'.windDown < st.windDown := by
  cases a with
  | reap k now => exact windDown_reap h
  | reaperPost => exact windDown_reaperPost hstop h
  | poll =>
    simp only [step] at h
    split at h
    · rename_i hreaper
      cases h
      exact windDown_lt (by simp [hreaper]) (by simp [hstop, hreaper])
    · cases h
  | wake ready gone =>
    simp only [step] at h
    split at h
    · rename_i hreaper
      cases h
      have hnext := (Round.mk gone false).weight_next_le
      refine windDown_lt (by simp [hreaper]) ?_
      simp only [hreaper, ReaperPc.weight_waiting]
      split_ifs
      · rw [ReaperPc.weight_reaping]
        omega
      · omega
    · cases h
  | waitFails =>
    simp only [step] at h
    split at h
    · rename_i hreaper
      cases h
      exact windDown_lt (by simp [hreaper]) (by simp [hreaper])
    · cases h
  | reapNone | reapFails =>
    simp only [step] at h
    split at h
    · rename_i r hreaper
      cases h
      have hnext := r.weight_next_le
      exact windDown_lt (by simp [hreaper]) (by simp only [hreaper, ReaperPc.weight_reaping]; omega)
    · cases h
  | deliver answer =>
    simp only [step, deliver_of_halted hhalt] at h
    split at h
    · rename_i c r hreaper
      cases h
      exact windDown_lt (by simp [hreaper])
        (by simp [State.trackDeliver, afterDeliver, hreaper])
    · cases h
  | leave =>
    simp only [step] at h
    split at h
    · rename_i hreaper
      cases h
      exact windDown_lt (by simp [hreaper]) (by simp [hreaper])
    · cases h
  | write ok =>
    simp only [step] at h
    split at h
    · rename_i rest hwriter hqueue
      cases h
      unfold State.windDown
      cases ok <;> simp only [hwriter, hqueue, List.length_cons, WriterPc.weight] <;> grind
    · cases h
  | hangUp =>
    simp only [step] at h
    split at h
    · rename_i hwriter hqueue
      split_ifs at h
      cases h
      simp [State.windDown, hwriter, WriterPc.weight]
    · cases h
  | writerStop =>
    simp only [step] at h
    split at h
    · rename_i hwriter
      cases h
      simp [State.windDown, hwriter, WriterPc.weight]
    · cases h
  | join =>
    simp only [step] at h
    split at h
    · rename_i hmain
      split_ifs at h
      cases h
      simp [State.windDown, hmain, MainPc.rank]
    · cases h
  | cancel answers done =>
    simp only [step] at h
    split at h
    · rename_i hmain
      cases h
      have hidle := hc.reaper_idle (.inr (.inl hmain))
      simp [State.windDown, hmain, hidle, MainPc.rank]
    · cases h
  | start opts answers => cases hno
  | spawn _ | check _ | read _ | take _ | submit _ | unlink | devUnlink _ | mainPost | halt
  | shutdown _ =>
    simp only [step] at h
    split at h
    · rename_i hmain
      rw [hmain] at hdown
      cases hdown
    · cases h

end Padwire
