import Padwire.Server.Accounts

/-!
# Replies and unlinks

What the outbox promises a client that never reuses a seqnum: each submit is answered at most
once, and not after the answer to an unlink that names it.

The first half holds in every interleaving (`tokens_le`). The second half fails in one: the
reaper has taken a completion out of the table and not posted its reply yet, so an unlink finds
nothing to mark, and its answer can go into the outbox first
(`exists_reply_after_unlink`). `NoLateReply` is the condition that this does not happen, and
`replies_once_and_not_after_unlink` says that nothing else breaks the promise: the invariant
`Unlinked` follows an unlink through its stages.
-/

namespace Padwire

variable {d : UsbfsDevice} {st st' : State} {a : Action}

/-- When the answer to an unlink goes into the outbox, the reaper does not hold a reply to the
URB it names; and no submit is read under a seqnum that an earlier unlink has named. -/
def NoLateReply (d : UsbfsDevice) (st : State) : Action → Prop
  | .mainPost => ∀ out full s, st.main = .posting out full → postTurn st full = .sent →
      out.acks s = true → st.reaper.load.holds s = false
  | .read input => ∀ pdu rest s, (readPdu d.maxTransfer).run input = .ok (pdu, rest) →
      pdu.submits s = true → st.log.any (Pdu.unlinks s) = false
  | _ => True

/-- What an unlink guarantees, stage by stage: no waiter once the prefetcher was asked, no live
URB once the device was asked, and no token at all once the answer is in the outbox. -/
structure Unlinked (st : State) : Prop where
  acked : ∀ s, ∀ out ∈ st.outbox, out.acks s = true → st.log.any (Pdu.unlinks s) = true
  reaper : ∀ out s, st.reaper.load = .reply out → out.acks s = false
  asked : ∀ s, st.main.load = .devUnlink s → st.prefetch.waiters s = 0
  marked : ∀ out s, st.main.load = .reply out → out.acks s = true →
    st.prefetch.waiters s = 0 ∧ st.dev.live s = false
  dead : ∀ s, ∀ out ∈ st.outbox, out.acks s = true → st.tokens s = 0
  order : st.outbox.Pairwise fun x y => ∀ s, x.acks s = true → y.answers s = false

/-- Where nothing is in hand and nothing is posted, as at the start of a session. -/
private theorem unlinked_empty (hreaper : st.reaper.load = .none) (hmain : st.main.load = .none)
    (hout : st.outbox = []) : Unlinked st where
  acked s out h := by rw [hout] at h; cases h
  reaper out s h := by rw [hreaper] at h; cases h
  asked s h := by rw [hmain] at h; cases h
  marked out s h := by rw [hmain] at h; cases h
  dead s out h := by rw [hout] at h; cases h
  order := by rw [hout]; exact .nil

/-- A step that posts nothing brings no seqnum back to life. -/
private theorem Unlinked.dead_mono (h : Unlinked st) (htok : ∀ s, st'.tokens s ≤ st.tokens s)
    (hout : st'.outbox = st.outbox) :
    ∀ s, ∀ out ∈ st'.outbox, out.acks s = true → st'.tokens s = 0 := by
  intro s out ho ha
  have hdead := h.dead s out (hout ▸ ho) ha
  have hle := htok s
  omega

/-- A step that reads and posts nothing, and leaves the reader with what it had. -/
private theorem unlinked_reaper (h : Unlinked st) (hmain : st'.main.load = st.main.load)
    (hwait : ∀ s, st'.prefetch.waiters s ≤ st.prefetch.waiters s)
    (hlive : ∀ s, st'.dev.live s = true → st.dev.live s = true)
    (htok : ∀ s, st'.tokens s ≤ st.tokens s)
    (hreaper : ∀ out s, st'.reaper.load = .reply out → out.acks s = false)
    (hlog : st'.log = st.log := by rfl) (hout : st'.outbox = st.outbox := by rfl) :
    Unlinked st' where
  acked s := by rw [hout, hlog]; exact h.acked s
  reaper := hreaper
  asked s hs := by
    have := h.asked s (hmain ▸ hs)
    have := hwait s
    omega
  marked out s ho ha := by
    obtain ⟨hw, hl⟩ := h.marked out s (hmain ▸ ho) ha
    have hle := hwait s
    refine ⟨by omega, ?_⟩
    cases hl' : st'.dev.live s with
    | false => rfl
    | true => rw [hlive s hl'] at hl; cases hl
  dead := h.dead_mono htok hout
  order := by rw [hout]; exact h.order

/-- A step of the reader that reads and posts nothing, and leaves it with no unlink in hand. -/
private theorem unlinked_main (h : Unlinked st)
    (hmain : ∀ s, st'.main.load.unlinking s = false) (hreaper : st'.reaper.load = st.reaper.load)
    (htok : ∀ s, st'.tokens s ≤ st.tokens s) (hlog : st'.log = st.log := by rfl)
    (hout : st'.outbox = st.outbox := by rfl) : Unlinked st' where
  acked s := by rw [hout, hlog]; exact h.acked s
  reaper out s := by rw [hreaper]; exact h.reaper out s
  asked s hs := by
    have := hmain s
    rw [hs] at this
    simp [MainLoad.unlinking] at this
  marked out s ho ha := by
    have := hmain s
    rw [ho, MainLoad.unlinking, ha] at this
    cases this
  dead := h.dead_mono htok hout
  order := by rw [hout]; exact h.order

/-- Reading a command. A submit that no earlier unlink has named revives no dead seqnum. -/
private theorem unlinked_read {input rest : Bytes} {pdu : Pdu} {pc : MainPc} (h : Unlinked st)
    (hok : NoLateReply d st (.read input))
    (hread : (readPdu d.maxTransfer).run input = .ok (pdu, rest)) (hpc : dispatch pdu = some pc)
    (htok : ∀ s, State.tokens { st with main := pc, log := st.log ++ [pdu] } s ≤
      st.tokens s + (pdu.submits s).toNat) :
    Unlinked { st with main := pc, log := st.log ++ [pdu] } where
  acked s out ho ha := by
    rw [List.any_append, h.acked s out ho ha]
    rfl
  reaper := h.reaper
  asked s hs := by
    cases dispatched hpc <;> cases hs
  marked out s ho ha := by
    cases dispatched hpc with
    | iso _ =>
      cases ho
      simp [Out.acks] at ha
    | take _ _ => cases ho
    | submit _ => cases ho
    | unlink _ => cases ho
  dead s out ho ha := by
    -- a dead seqnum has been named by an unlink, and then no submit is read under it
    have hzero := h.dead s out ho ha
    have hle := htok s
    cases hsub : pdu.submits s with
    | false =>
      rw [hsub, Bool.toNat_false] at hle
      omega
    | true =>
      have hnone := hok pdu rest s hread hsub
      rw [h.acked s out ho ha] at hnone
      cases hnone
  order := h.order

private theorem waiters_eq_zero {p : Prefetch} {s : UInt32}
    (h : ∀ address ep, p.ep? address = some ep → ep.waitsFor s = false) : p.waiters s = 0 := by
  by_contra hne
  obtain ⟨b, ep, hep, hw⟩ := Prefetch.exists_of_waiters_pos (Nat.pos_of_ne_zero hne)
  rw [h b ep hep] at hw
  cases hw

/-- The reader goes on to hold the answer to an unlink it has carried out. -/
private theorem unlinked_answer {seqnum target : UInt32} {cancelled : Bool} (h : Unlinked st)
    (hmain : st'.main.load = .reply (unlinkOut seqnum target cancelled))
    (hdone : st'.prefetch.waiters target = 0 ∧ st'.dev.live target = false)
    (htok : ∀ s, st'.tokens s ≤ st.tokens s) (hreaper : st'.reaper.load = st.reaper.load := by rfl)
    (hlog : st'.log = st.log := by rfl) (hout : st'.outbox = st.outbox := by rfl) :
    Unlinked st' where
  acked s := by rw [hout, hlog]; exact h.acked s
  reaper out s := by rw [hreaper]; exact h.reaper out s
  asked s hs := by rw [hmain] at hs; cases hs
  marked out s ho ha := by
    rw [hmain] at ho
    cases ho
    rw [acks_unlinkOut, decide_eq_true_eq] at ha
    rw [← ha]
    exact hdone
  dead := h.dead_mono htok hout
  order := by rw [hout]; exact h.order

/-- A reply goes into the outbox. What it answers was alive until now, so the outbox holds no
answer to an unlink of it. -/
private theorem unlinked_sent (h : Unlinked st) (out : Out)
    (hhold : ∀ s, out.answers s = true → 0 < st.tokens s)
    (hacks : ∀ s, out.acks s = true → st.log.any (Pdu.unlinks s) = true ∧ st'.tokens s = 0)
    (hmain : st'.main.load = st.main.load ∨ st'.main.load = .none)
    (hreaper : st'.reaper.load = st.reaper.load ∨ st'.reaper.load = .none)
    (htok : ∀ s, st'.tokens s ≤ st.tokens s) (hprefetch : st'.prefetch = st.prefetch := by rfl)
    (hdev : st'.dev = st.dev := by rfl) (hlog : st'.log = st.log := by rfl)
    (hout : st'.outbox = st.outbox ++ [out] := by rfl) : Unlinked st' where
  acked s o ho ha := by
    rw [hlog]
    rw [hout, List.mem_append, List.mem_singleton] at ho
    rcases ho with ho | rfl
    · exact h.acked s o ho ha
    · exact (hacks s ha).1
  reaper o s ho := by
    rcases hreaper with hr | hr
    · exact h.reaper o s (hr ▸ ho)
    · rw [hr] at ho
      cases ho
  asked s hs := by
    rcases hmain with hm | hm
    · rw [hprefetch]
      exact h.asked s (hm ▸ hs)
    · rw [hm] at hs
      cases hs
  marked o s ho ha := by
    rcases hmain with hm | hm
    · rw [hprefetch, hdev]
      exact h.marked o s (hm ▸ ho) ha
    · rw [hm] at ho
      cases ho
  dead s o ho ha := by
    rw [hout, List.mem_append, List.mem_singleton] at ho
    rcases ho with ho | rfl
    · have hzero := h.dead s o ho ha
      have hle := htok s
      omega
    · exact (hacks s ha).2
  order := by
    rw [hout]
    refine List.pairwise_append.mpr ⟨h.order, List.pairwise_singleton _ _, ?_⟩
    intro x hx y hy s hxs
    obtain rfl := List.mem_singleton.mp hy
    cases hys : y.answers s with
    | false => rfl
    | true =>
      have hpos := hhold s hys
      have hzero := h.dead s x hx hxs
      omega

private theorem unlinked_step (hown : Owned st)
    (hnamed : ∀ s, st.main.load.unlinking s = true → st.log.any (Pdu.unlinks s) = true)
    (hle : ∀ s, st.tokens s + st.posted s ≤ st.submitted s) (hone : ∀ s, st.submitted s ≤ 1)
    (h : Unlinked st) (hok : NoLateReply d st a) (heff : Effect d st a st')
    (hstart : ∀ opts answers, st' ≠ start d opts answers st.dev) : Unlinked st' := by
  have hstep := tokens_step hown heff hstart
  cases heff with
  | quiet hq =>
    exact unlinked_reaper h hq.main (fun s => by rw [hq.prefetch])
      (fun s => by rw [hq.dev]; exact id)
      (fun s => tokens_le_of_step hstep s (hq.outbox ▸ List.prefix_rfl) hq.log)
      (fun out s => by rw [hq.reaper]; exact h.reaper out s) hq.log hq.outbox
  | started _ => exact absurd rfl (hstart _ _)
  | @read _ _ pdu pc _ hread hpc =>
    refine unlinked_read h hok hread hpc fun s => ?_
    have hs := hstep s
    simp only [State.posted, State.submitted, List.countP_append, List.countP_singleton] at hs
    cases hsub : pdu.submits s
    · simp only [hsub, Bool.false_eq_true, if_false] at hs
      simp only [Bool.toNat_false]
      omega
    · simp only [hsub, if_true] at hs
      simp only [Bool.toNat_true]
      omega
  | takePass _ _ =>
    exact unlinked_main h (fun s => rfl) rfl fun s => tokens_le_of_step hstep s
  | takeReady _ _ _ _ _ =>
    exact unlinked_main h (fun s => by simp [MainPc.load, MainLoad.unlinking, Out.acks]) rfl
      fun s => tokens_le_of_step hstep s
  | takeWaiting _ _ _ _ _ =>
    exact unlinked_main h (fun s => rfl) rfl fun s => tokens_le_of_step hstep s
  | submitted _ _ _ _ =>
    exact unlinked_main h (fun s => rfl) rfl fun s => tokens_le_of_step hstep s
  | submitRefused _ _ hsite =>
    refine unlinked_main h (fun s => ?_) rfl fun s => tokens_le_of_step hstep s
    rcases hsite with rfl | rfl <;> simp [MainPc.load, MainLoad.unlinking, Out.acks]
  | submitFatal _ =>
    exact unlinked_main h (fun s => rfl) rfl fun s => tokens_le_of_step hstep s
  | @unlinkHit seqnum target address ep hmain hep hw =>
    -- the waiter was the one token of this submit, so nothing of it is left
    refine unlinked_answer h rfl ?_ fun s => tokens_le_of_step hstep s
    have hput := Prefetch.waiters_put hep { ep with waiting := none } st.prefetch.next target
    have hnone : Endpoint.waitsFor target { ep with waiting := none } = false := rfl
    rw [if_pos hw, hnone, if_neg Bool.false_ne_true] at hput
    have hall := hle target
    have hsub := hone target
    unfold State.tokens at hall
    refine ⟨by dsimp only; omega, ?_⟩
    cases hl : st.dev.live target with
    | false => rfl
    | true =>
      rw [hl, Bool.toNat_true] at hall
      omega
  | @unlinkMiss seqnum target hmain hno =>
    have htok := fun s => tokens_le_of_step hstep s
    exact
      { acked := h.acked
        reaper := h.reaper
        asked := fun s hs => by
          cases hs
          exact waiters_eq_zero hno
        marked := fun out s ho => by cases ho
        dead := fun s out ho ha => Nat.le_zero.mp ((htok s).trans_eq (h.dead s out ho ha))
        order := h.order }
  | @devUnlink answer seqnum target hmain =>
    refine unlinked_answer h rfl ⟨?_, ?_⟩ fun s => tokens_le_of_step hstep s
    · exact h.asked target (by rw [hmain]; rfl)
    · simp [live_unlink]
  | @mainSent out full hmain hturn =>
    have htok := fun s => tokens_le_of_step hstep s (List.prefix_append _ _)
    refine unlinked_sent h out (fun s hs => ?_) (fun s hs => ?_) (.inr rfl) (.inl rfl) htok
    · have hholds : st.main.load.holds s = true := by rw [hmain]; exact hs
      simp only [State.tokens, hholds, Bool.toNat_true]
      omega
    · have hload : st.main.load = .reply out := by rw [hmain]; rfl
      obtain ⟨hw, hl⟩ := h.marked out s hload hs
      refine ⟨hnamed s (by rw [hload]; exact hs), ?_⟩
      -- the last place a token could be is the reaper's hand, and the condition rules it out
      have hr := hok out full s hmain hturn hs
      simp only [State.tokens, State.put, hr, hl, hw]
      rfl
  | mainDropped _ _ =>
    exact unlinked_main h (fun s => rfl) rfl fun s => tokens_le_of_step hstep s
  | shutdown _ =>
    exact unlinked_main h (fun s => rfl) rfl fun s => tokens_le_of_step hstep s
  | cancelled _ =>
    exact unlinked_main h (fun s => rfl) rfl fun s => tokens_le_of_step hstep s
  | reapDropped _ _ _ hlook =>
    refine unlinked_reaper h rfl (fun s => Nat.le_refl _) (fun s hs => ?_)
      (fun s => tokens_le_of_step hstep s) h.reaper
    rw [live_reap hlook, Bool.and_eq_true] at hs
    exact hs.1
  | reapOwned _ _ _ hlook _ _ _ =>
    refine unlinked_reaper h rfl (fun s => Nat.le_refl _) (fun s hs => ?_)
      (fun s => tokens_le_of_step hstep s) (fun out s ho => by cases ho)
    rw [live_reap hlook, Bool.and_eq_true] at hs
    exact hs.1
  | reapClient _ _ _ hlook _ _ _ =>
    refine unlinked_reaper h rfl (fun s => Nat.le_refl _) (fun s hs => ?_)
      (fun s => tokens_le_of_step hstep s) (fun out s ho => ?_)
    · rw [live_reap hlook, Bool.and_eq_true] at hs
      exact hs.1
    · cases ho
      simp [Out.acks]
  | strayed _ _ =>
    exact unlinked_reaper h rfl (fun s => Nat.le_refl _) (fun s hs => hs)
      (fun s => tokens_le_of_step hstep s) (fun out s ho => by cases ho)
  | @delivered _ c r address ep ep' next' dev' _ hep _ harm =>
    refine unlinked_reaper h rfl (fun s => ?_) (fun s hs => ?_)
      (fun s => tokens_le_of_step hstep s) (fun out s ho => ?_)
    · have hput := waiters_delivered hep harm s
      dsimp only
      omega
    · rw [← harm.live_eq]
      exact hs
    · unfold afterDeliver at ho
      split at ho
      · cases ho
        simp [Out.acks]
      · cases ho
  | @reaperSent out full r hreaper _ =>
    have hload : st.reaper.load = .reply out := by rw [hreaper]; rfl
    refine unlinked_sent h out (fun s hs => ?_) (fun s hs => ?_) (.inl rfl) (.inr rfl)
      fun s => tokens_le_of_step hstep s (List.prefix_append _ _)
    · have hholds : st.reaper.load.holds s = true := by rw [hload]; exact hs
      simp only [State.tokens, hholds, Bool.toNat_true]
      omega
    · rw [h.reaper out s hload] at hs
      cases hs
  | @reaperDropped _ _ r hreaper =>
    refine unlinked_reaper h rfl (fun s => Nat.le_refl _) (fun s hs => hs)
      (fun s => tokens_le_of_step hstep s) (fun out s ho => ?_)
    rw [Round.load_next] at ho
    cases ho

/-- A run never takes back what it has read. -/
private theorem submitted_mono (heff : Effect d st a st')
    (hstart : ∀ opts answers, st' ≠ start d opts answers st.dev) (s : UInt32) :
    st.submitted s ≤ st'.submitted s := by
  cases heff with
  | quiet hq => rw [State.submitted, State.submitted, hq.log]
  | started _ => exact absurd rfl (hstart _ _)
  | read _ _ _ =>
    unfold State.submitted
    rw [List.countP_append]
    exact Nat.le_add_right _ _
  | _ => exact Nat.le_refl _

/-- **Once, and not after an unlink.** In every run that meets `NoLateReply`, with a client that
never reuses the seqnum of a submit: each submit gets at most one reply, and no reply to it
stands in the outbox after the answer to an unlink that names it. -/
theorem replies_once_and_not_after_unlink
    (h : Reach (step d) (· = State.initial) (NoLateReply d) st)
    (hdistinct : st.submits.Nodup) :
    (∀ s, st.outbox.countP (Out.answers s) ≤ 1) ∧
      st.outbox.Pairwise fun x y => ∀ s, x.acks s = true → y.answers s = false := by
  have key : (∀ s, st.submitted s ≤ 1) → Unlinked st := by
    refine h.session_invariant (fun st => (∀ s, st.submitted s ≤ 1) → Unlinked st)
      (fun _ => unlinked_empty rfl rfl rfl) fun st a st' hr ih hok heff hone => ?_
    by_cases hs : ∃ opts answers, st' = start d opts answers st.dev
    · obtain ⟨opts, answers, rfl⟩ := hs
      exact unlinked_empty rfl rfl rfl
    · have hstart : ∀ opts answers, st' ≠ start d opts answers st.dev :=
        fun o as h => hs ⟨o, as, h⟩
      have hone' := fun s => (submitted_mono heff hstart s).trans (hone s)
      exact unlinked_step (owned_of_reach hr) (named_of_reach hr) (tokens_le hr) hone'
        (ih hone') hok heff hstart
  refine ⟨fun s => ?_, (key (submitted_le_one hdistinct)).order⟩
  have hle := tokens_le h s
  have hs := submitted_le_one hdistinct s
  unfold State.posted at hle
  omega

/-- The unlink overtakes the reply: submit 1 completes and is reaped, the reader answers an
unlink of it, and only then does the reaper post. -/
def lateReply : List Action :=
  begin false ++ receive (.submitIn 1 1 64) ++ [.take .ok, .submit .ok] ++ reapOne 1 0 [7] ++
    receive (.unlink 2 1) ++ [.unlink, .devUnlink .ok, .mainPost, .reaperPost]

/-- A client that reuses no seqnum can get a reply after the answer to its unlink. -/
theorem exists_reply_after_unlink :
    ¬ ∀ st, SessionReachable gamepad st → st.submits.Nodup →
      (∀ s, st.outbox.countP (Out.answers s) ≤ 1) ∧
        st.outbox.Pairwise fun x y => ∀ s, x.acks s = true → y.answers s = false := by
  intro hall
  obtain ⟨st, hst, hp⟩ := exists_session_of_run gamepad lateReply
    (fun st => st.submits.Nodup &&
      !decide (st.outbox.Pairwise fun (x y : Out) => x.acks 1 = true → y.answers 1 = false))
    (by decide +kernel)
  rw [Bool.and_eq_true, decide_eq_true_eq, Bool.not_eq_true', decide_eq_false_iff_not] at hp
  exact hp.2 ((hall st hst hp.1).2.imp fun h => h 1)

/-- A submit that is answered, and one that is unlinked while it is in flight. -/
def timelyReply : List Action :=
  begin false ++ receive (.submitIn 1 1 64) ++ [.take .ok, .submit .ok] ++ reapOne 1 0 [7] ++
    [.reaperPost] ++ receive (.submitIn 2 1 64) ++ [.take .ok, .submit .ok] ++
    receive (.unlink 3 2) ++ [.unlink, .devUnlink .ok, .mainPost]

/-- A check that is enough for `NoLateReply`: the reader posts only while the reaper holds
nothing, and reads nothing after an unlink. -/
def timely (st : State) : Action → Bool
  | .mainPost => st.reaper.load = .none
  | .read _ => st.log.all fun p => p.submit?.isSome
  | _ => true

theorem noLateReply_of_timely (d : UsbfsDevice) (st : State) (a : Action)
    (h : timely st a = true) : NoLateReply d st a := by
  cases a with
  | mainPost =>
    intro out full s _ _ _
    rw [of_decide_eq_true h]
    rfl
  | read input =>
    intro pdu rest s _ _
    rw [List.any_eq_false]
    intro p hp
    have hsub := List.all_eq_true.mp h p hp
    unfold Pdu.submit? at hsub
    unfold Pdu.unlinks
    cases hbody : p.header.body with
    | cmdUnlink u => simp [hbody] at hsub
    | _ => simp
  | _ => trivial

theorem replies_once_and_not_after_unlink_timely :
    ∃ st, Reach (step gamepad) (· = State.initial) (NoLateReply gamepad) st ∧
      st.submits = [1, 2] ∧ st.outbox.length = 2 ∧
      (∀ s, st.outbox.countP (Out.answers s) ≤ 1) ∧
      st.outbox.Pairwise fun x y => ∀ s, x.acks s = true → y.answers s = false := by
  obtain ⟨st, hst, hp⟩ := exists_session_of_runIf gamepad (noLateReply_of_timely gamepad)
    timelyReply (fun st => st.submits = [1, 2] && st.outbox.length = 2) (by decide +kernel)
  rw [Bool.and_eq_true, decide_eq_true_eq, decide_eq_true_eq] at hp
  have hnodup : st.submits.Nodup := by
    rw [hp.1]
    decide
  exact ⟨st, hst, hp.1, hp.2, replies_once_and_not_after_unlink hst hnodup⟩

end Padwire
