import Padwire.Backend.Usbfs
import Padwire.Lib.Except
import Padwire.Lib.Run

/-!
# The table and the kernel's own set

`Backend/Usbfs` keeps each URB inside its entry of the table. In the source the entry has a pointer
to a boxed `PendingUrb`, the kernel has the same pointer from `SUBMITURB` until it hands it back,
and `reap` learns from the allocation which entry is meant (`usb-backend/src/usbfs.rs`). Here the
allocations, the entries and what the kernel holds are three things, and nothing but the calls
keeps them together.

The kernel accepts or refuses as it likes, and hands back whatever it holds, in any order. A ghost
log has the URBs it accepted, the calls of `unlink` and the completions. `RawState.Inv` ties all of
this together: the entries, the allocations and what the kernel holds are one and the same set, and
the flag of an entry says whether `unlink` was called on its seqnum since it was accepted.
`RawState.Refines` is the way back to the states of `Backend/Usbfs`, which go through the same
calls with the same results (`submit_refines`, `unlink_refines`, `reap_refines` and
`cancelPending_refines`).
-/

namespace Padwire

def EAGAIN : Int32 := 11

/-- The address of an allocation. -/
abbrev Addr := ℕ

/-- A boxed URB. -/
structure RawUrb where
  urb : PendingUrb
  /-- Points to the allocation itself. -/
  usercontext : Addr
  deriving DecidableEq, Repr

/-- An entry of the table. -/
structure RawEntry where
  ptr : Addr
  unlinked : Bool
  deriving DecidableEq, Repr

/-- A URB the kernel holds. -/
structure Held where
  addr : Addr
  /-- Ghost: the number of this URB among all that were accepted. -/
  id : ℕ
  deriving DecidableEq, Repr

/-- Ghost: what has happened. -/
inductive UrbEvent
  /-- The kernel accepted a URB with this seqnum. -/
  | accepted (id : ℕ) (seqnum : UInt32)
  /-- `unlink` was called. -/
  | unlink (seqnum : UInt32)
  /-- `reap` made a completion of a URB. -/
  | reaped (id : ℕ) (c : UrbCompletion)
  deriving DecidableEq, Repr

/-- The device, its allocations and the kernel. -/
structure RawState where
  pending : Table UInt32 RawEntry := ∅
  heap : Table Addr RawUrb := ∅
  kernel : List Held := []
  /-- Ghost: how many URBs were accepted. -/
  accepted : ℕ := 0
  /-- Ghost: the newest event first. -/
  log : List UrbEvent := []
  /-- Ghost: an allocation was used that is not there. -/
  fault : Bool := false

/-- What the kernel answers `REAPURBNDELAY` with. -/
inductive ReapAnswer
  | err (errno : Int32)
  | null
  | urb (addr : Addr) (status actualLength : Int32) (written : Bytes)
  deriving DecidableEq, Repr

inductive ReapError
  | os (errno : Int32)
  /-- `InvalidData`: "reaped a URB that usbfwd did not submit". -/
  | notOurs
  deriving DecidableEq, Repr

/-- What a submit does before it takes the lock: the URB it wants the kernel to take. -/
def UsbfsDevice.prepare (d : UsbfsDevice) (req : UrbRequest) (answer : Ioctl) :
    Except SubmitError PendingUrb :=
  match d.urbTypeFor req.ep req.dir with
  | .error e => .error e
  | .ok (epAddr, urbType) =>
    match (if urbType = .control then tweakSpecialRequest req answer else none) with
    | some e => .error e
    | none =>
      if d.maxTransfer < (UsbfsDevice.payloadLayout req urbType).1 then .error (.urb (-EINVAL))
      else .ok (d.pendingUrb req epAddr urbType)

namespace RawState

/-- Register a URB that the kernel has accepted. -/
def accept (urb : PendingUrb) (raw : Addr) (st : RawState) : RawState :=
  { st with
    pending := st.pending.insert urb.seqnum { ptr := raw, unlinked := false }
    heap := st.heap.insert raw { urb, usercontext := raw }
    kernel := { addr := raw, id := st.accepted } :: st.kernel
    accepted := st.accepted + 1
    log := .accepted st.accepted urb.seqnum :: st.log }

/-- Submit one URB. `raw` is where the allocator puts it; `none` if it cannot be put there. -/
def submit (d : UsbfsDevice) (req : UrbRequest) (answer : Ioctl) (raw : Addr) (st : RawState) :
    Option (Except SubmitError Unit × RawState) :=
  match d.prepare req answer with
  | .error e => some (.error e, st)
  | .ok urb =>
    if urb.seqnum ∈ st.pending then some (.error (.urb (-EBUSY)), st)
    else if raw = 0 ∨ raw ∈ st.heap then none
    else match answer with
      -- the allocation is made before the kernel is asked, and freed again
      | .err e =>
        some (.error (UsbfsDevice.submitErrno e),
          { st with heap := (st.heap.insert raw { urb, usercontext := raw }).erase raw })
      | .ok => some (.ok (), st.accept urb raw)

/-- Cancel an in-flight URB. `answer` is the kernel's to `DISCARDURB`. -/
def unlink (seqnum : UInt32) (answer : Ioctl) (st : RawState) : Bool × RawState :=
  match st.pending.lookup seqnum with
  | none => (false, { st with log := .unlink seqnum :: st.log })
  | some entry =>
    (answer = .ok, { st with
      pending := st.pending.replace seqnum { entry with unlinked := true }
      log := .unlink seqnum :: st.log
      fault := st.fault || entry.ptr ∉ st.heap })

/-- Take a URB that was handed back off the books, and free it. -/
def settle (held : Held) (boxed : RawUrb) (ctx : Addr) (c : UrbCompletion) (st : RawState) :
    RawState :=
  { st with
    pending := st.pending.erase boxed.urb.seqnum
    heap := st.heap.erase ctx
    kernel := st.kernel.erase held
    log := .reaped held.id c :: st.log }

/-- Reap one URB; `none` if the kernel does not hold what it is to hand back. -/
def reap (answer : ReapAnswer) (st : RawState) :
    Option (Except ReapError (Option UrbCompletion) × RawState) :=
  match answer with
  | .err e => some (if e = EAGAIN then .ok none else .error (.os e), st)
  | .null => some (.ok none, st)
  | .urb addr status actualLength written =>
    match st.kernel.find? (·.addr = addr) with
    | none => none
    | some held =>
      let kernel := st.kernel.erase held
      match st.heap.lookup addr with
      | none => some (.ok none, { st with kernel, fault := true })
      | some raw =>
        if raw.usercontext = 0 then some (.error .notOurs, { st with kernel })
        else match st.heap.lookup raw.usercontext with
          | none => some (.ok none, { st with kernel, fault := true })
          | some boxed =>
            let seqnum := boxed.urb.seqnum
            let unlinked := ((st.pending.lookup seqnum).map (·.unlinked)).getD false
            let c := DevState.completion { urb := boxed.urb, unlinked }
              { seqnum, status, actualLength, written }
            some (.ok (some c), st.settle held boxed raw.usercontext c)

/-- Unlink every seqnum of a list. The result of each is dropped. -/
def unlinkAll (answers : UInt32 → Ioctl) (seqnums : List UInt32) (st : RawState) : RawState :=
  seqnums.foldl (fun st s => (st.unlink s (answers s)).2) st

/-- The drain loop, with what the kernel answers until the time is up. -/
def drain (st : RawState) : List ReapAnswer → Option RawState
  | [] => some st
  | answer :: answers =>
    if st.pending.keys = [] then some st
    else match st.reap answer with
      | none => none
      | some (.ok _, st') => st'.drain answers
      | some (.error _, st') => some st'

/-- Cancel every URB still in flight and drain what the cancellations complete. `seqnums` are the
keys of the table in the order in which the map lists them. -/
def cancelPending (seqnums : List UInt32) (answers : UInt32 → Ioctl) (done : List ReapAnswer)
    (st : RawState) : Option RawState :=
  if ¬seqnums.Perm st.pending.keys then none
  else if seqnums = [] then some st
  else (st.unlinkAll answers seqnums).drain done

/-- A call, with what the allocator and the kernel have to say to it. -/
inductive Call
  | submit (req : UrbRequest) (answer : Ioctl) (raw : Addr)
  | unlink (seqnum : UInt32) (answer : Ioctl)
  | reap (answer : ReapAnswer)
  | cancelPending (seqnums : List UInt32) (answers : UInt32 → Ioctl) (done : List ReapAnswer)

def step (d : UsbfsDevice) (st : RawState) : Call → Option RawState
  | .submit req answer raw => (st.submit d req answer raw).map Prod.snd
  | .unlink seqnum answer => some (st.unlink seqnum answer).2
  | .reap answer => (st.reap answer).map Prod.snd
  | .cancelPending seqnums answers done => st.cancelPending seqnums answers done

/-- A device nothing was submitted to. -/
def Initial (st : RawState) : Prop := st = {}

end RawState

/-! ### The log -/

/-- What has to have happened before an event. A URB is accepted under a number of its own, and all
URBs accepted under its seqnum before it have been reaped. A URB is reaped once, under the seqnum it
was accepted with, and is marked if `unlink` was called on that seqnum in between. -/
def UrbEvent.Justified (before : List UrbEvent) : UrbEvent → Prop
  | .accepted id seqnum => (∀ s, .accepted id s ∉ before) ∧
      ∀ id', .accepted id' seqnum ∈ before → ∃ c, .reaped id' c ∈ before
  | .unlink _ => True
  | .reaped id c => (∀ c', .reaped id c' ∉ before) ∧
      ∃ since earlier, before = since ++ .accepted id c.seqnum :: earlier ∧
        (c.unlinked = true ↔ .unlink c.seqnum ∈ since)

/-- Every event of a log is justified by those before it. -/
def SoundLog (log : List UrbEvent) : Prop :=
  ∀ after ev before, log = after ++ ev :: before → ev.Justified before

/-- A log is sound if its newest event is justified and the rest is sound. -/
theorem soundLog_cons {ev : UrbEvent} {log : List UrbEvent} :
    SoundLog (ev :: log) ↔ ev.Justified log ∧ SoundLog log := by
  constructor
  · intro h
    exact ⟨h [] ev log rfl, fun after ev' before heq => h (ev :: after) ev' before (by simp [heq])⟩
  · rintro ⟨hev, hlog⟩ after ev' before heq
    rcases List.cons_eq_append_iff.mp heq with ⟨-, heq⟩ | ⟨after', -, heq⟩
    · obtain ⟨rfl, rfl⟩ := List.cons.inj heq
      exact hev
    · exact hlog after' ev' before heq

/-- The number of a URB tells its seqnum. -/
theorem SoundLog.seqnum_unique {log : List UrbEvent} (h : SoundLog log) {id : ℕ} {s s' : UInt32}
    (hs : .accepted id s ∈ log) (hs' : .accepted id s' ∈ log) : s = s' := by
  induction log with
  | nil => cases hs
  | cons ev log ih =>
    obtain ⟨hev, hlog⟩ := soundLog_cons.mp h
    rcases List.mem_cons.mp hs with rfl | hold
    · rcases List.mem_cons.mp hs' with heq | hold'
      · injection heq with _ heq
        exact heq.symm
      · exact absurd hold' (hev.1 s')
    · rcases List.mem_cons.mp hs' with rfl | hold'
      · exact absurd hold (hev.1 s)
      · exact ih hlog hold hold'

namespace RawState

/-! ### What a call does -/

/-- A submit is refused and changes nothing, or registers a URB that was free to be registered. -/
theorem submit_spec {d : UsbfsDevice} {req : UrbRequest} {answer : Ioctl} {raw : Addr}
    {st st' : RawState} {r : Except SubmitError Unit}
    (h : st.submit d req answer raw = some (r, st')) :
    ((∃ e, r = .error e) ∧ st' = st) ∨
      ∃ urb, d.prepare req answer = .ok urb ∧ urb.seqnum ∉ st.pending ∧ raw ≠ 0 ∧
        raw ∉ st.heap ∧ answer = .ok ∧ r = .ok () ∧ st' = st.accept urb raw := by
  rw [submit] at h
  split at h
  · obtain ⟨rfl, rfl⟩ := Prod.mk.inj (Option.some.inj h)
    exact .inl ⟨⟨_, rfl⟩, rfl⟩
  · rename_i urb hurb
    split_ifs at h with hlive hraw
    · obtain ⟨rfl, rfl⟩ := Prod.mk.inj (Option.some.inj h)
      exact .inl ⟨⟨_, rfl⟩, rfl⟩
    · rw [not_or] at hraw
      cases answer with
      | err e =>
        obtain ⟨rfl, rfl⟩ := Prod.mk.inj (Option.some.inj h)
        rw [Table.erase_insert hraw.2]
        exact .inl ⟨⟨_, rfl⟩, rfl⟩
      | ok =>
        obtain ⟨rfl, rfl⟩ := Prod.mk.inj (Option.some.inj h)
        exact .inr ⟨urb, hurb, hlive, hraw.1, hraw.2, rfl, rfl, rfl⟩

/-- A lookup after an unlink. -/
theorem lookup_unlink (seqnum : UInt32) (answer : Ioctl) (st : RawState) (s : UInt32) :
    (st.unlink seqnum answer).2.pending.lookup s =
      if s = seqnum then (st.pending.lookup s).map ({ · with unlinked := true })
      else st.pending.lookup s := by
  rw [unlink]
  split
  · rename_i hs
    split_ifs with h
    · rw [h, hs, Option.map_none]
    · rfl
  · rename_i entry hs
    rw [Table.lookup_replace (Table.mem_of_lookup hs)]
    split_ifs with h
    · rw [h, hs, Option.map_some]
    · rfl

/-- Each of the listed entries gets marked. -/
theorem lookup_unlinkAll (answers : UInt32 → Ioctl) (seqnums : List UInt32) (st : RawState)
    (s : UInt32) : (st.unlinkAll answers seqnums).pending.lookup s =
      if s ∈ seqnums then (st.pending.lookup s).map ({ · with unlinked := true })
      else st.pending.lookup s := by
  induction seqnums generalizing st with
  | nil => rw [if_neg List.not_mem_nil, unlinkAll, List.foldl_nil]
  | cons a rest ih =>
    have hstep : st.unlinkAll answers (a :: rest) =
        (st.unlink a (answers a)).2.unlinkAll answers rest := rfl
    rw [hstep, ih, lookup_unlink]
    by_cases ha : s = a
    · subst ha
      cases st.pending.lookup s <;> simp
    · simp [ha]

/-- What an unlink leaves alone. -/
theorem unlink_frame (seqnum : UInt32) (answer : Ioctl) (st : RawState) :
    (st.unlink seqnum answer).2.heap = st.heap ∧ (st.unlink seqnum answer).2.kernel = st.kernel ∧
      (st.unlink seqnum answer).2.accepted = st.accepted ∧
      (st.unlink seqnum answer).2.log = .unlink seqnum :: st.log := by
  rw [unlink]
  split <;> exact ⟨rfl, rfl, rfl, rfl⟩

/-- Each of them is entered in the log. -/
theorem log_unlinkAll (answers : UInt32 → Ioctl) (seqnums : List UInt32) (st : RawState) :
    (st.unlinkAll answers seqnums).log = (seqnums.map .unlink).reverse ++ st.log := by
  induction seqnums generalizing st with
  | nil => rfl
  | cons a rest ih =>
    have hstep : st.unlinkAll answers (a :: rest) =
        (st.unlink a (answers a)).2.unlinkAll answers rest := rfl
    rw [hstep, ih, (unlink_frame a (answers a) st).2.2.2, List.map_cons, List.reverse_cons,
      List.append_assoc, List.singleton_append]

/-- What `cancel_pending` does: it unlinks all that is pending before it reaps anything, and what
it leaves in the table was there before and is marked. -/
structure Cancelled (st st' : RawState) (seqnums : List UInt32) : Prop where
  all : seqnums.Perm st.pending.keys
  log : ∃ reaped, st'.log = reaped ++ (seqnums.map .unlink).reverse ++ st.log ∧
    ∀ ev ∈ reaped, ∃ id c, ev = .reaped id c
  left : ∀ s e, st'.pending.lookup s = some e → s ∈ st.pending ∧ e.unlinked = true

/-! ### The invariant -/

/-- An entry of the table that the kernel holds under the given number. -/
structure Live (st : RawState) (s : UInt32) (e : RawEntry) (id : ℕ) : Prop where
  held : { addr := e.ptr, id } ∈ st.kernel
  boxed : ∃ urb, st.heap.lookup e.ptr = some { urb, usercontext := e.ptr } ∧ urb.seqnum = s
  since : ∃ since earlier, st.log = since ++ .accepted id s :: earlier ∧
    (e.unlinked = true ↔ .unlink s ∈ since)
  waiting : ∀ c, .reaped id c ∉ st.log

/-- The entries, the allocations and what the kernel holds are one set, and the log tells what
becomes of each URB. -/
structure Inv (st : RawState) : Prop where
  sound : SoundLog st.log
  numbered : ∀ id s, .accepted id s ∈ st.log → id < st.accepted
  live : ∀ s e, st.pending.lookup s = some e → ∃ id, st.Live s e id
  held : ∀ h ∈ st.kernel, ∃ s e, st.pending.lookup s = some e ∧ e.ptr = h.addr ∧ st.Live s e h.id
  distinct : (st.kernel.map Held.addr).Nodup
  settled : ∀ id s, .accepted id s ∈ st.log →
    (∃ a, { addr := a, id } ∈ st.kernel) ∨ ∃ c, .reaped id c ∈ st.log
  boxes : ∀ a ∈ st.heap, a ≠ 0 ∧ ∃ h ∈ st.kernel, h.addr = a
  noFault : st.fault = false

variable {st st' : RawState}

theorem Live.accepted {s : UInt32} {e : RawEntry} {id : ℕ} (h : st.Live s e id) :
    .accepted id s ∈ st.log := by
  obtain ⟨since, earlier, hlog, -⟩ := h.since
  rw [hlog]
  exact List.mem_append_right since List.mem_cons_self

theorem Live.ptr_mem {s : UInt32} {e : RawEntry} {id : ℕ} (h : st.Live s e id) :
    e.ptr ∈ st.heap := by
  obtain ⟨urb, hbox, -⟩ := h.boxed
  exact Table.mem_of_lookup hbox

/-- The keys of the table are the seqnums accepted and not yet reaped. -/
theorem Inv.mem_pending_iff (h : Inv st) (s : UInt32) :
    s ∈ st.pending ↔ ∃ id, .accepted id s ∈ st.log ∧ ∀ c, .reaped id c ∉ st.log := by
  constructor
  · intro hs
    obtain ⟨e, he⟩ := Option.isSome_iff_exists.mp (AList.lookup_isSome.mpr hs)
    obtain ⟨id, hlive⟩ := h.live s e he
    exact ⟨id, hlive.accepted, hlive.waiting⟩
  · rintro ⟨id, hacc, hwait⟩
    rcases h.settled id s hacc with ⟨a, ha⟩ | ⟨c, hc⟩
    · obtain ⟨s', e, he, -, hlive⟩ := h.held _ ha
      obtain rfl := h.sound.seqnum_unique hacc hlive.accepted
      exact Table.mem_of_lookup he
    · exact absurd hc (hwait c)

theorem inv_initial : Inv {} where
  sound := by
    rintro after ev before heq
    cases after <;> cases heq
  numbered _ _ h := by cases h
  live _ _ h := by cases h
  held _ h := by cases h
  distinct := List.nodup_nil
  settled _ _ h := by cases h
  boxes _ h := absurd h (AList.notMem_empty _)
  noFault := rfl

/-- An event about another URB leaves an entry as it is. -/
theorem Live.frame {s : UInt32} {e : RawEntry} {id : ℕ} {ev : UrbEvent} (h : st.Live s e id)
    (hkernel : { addr := e.ptr, id } ∈ st'.kernel)
    (hheap : st'.heap.lookup e.ptr = st.heap.lookup e.ptr) (hlog : st'.log = ev :: st.log)
    (hunlink : ev ≠ .unlink s) (hreaped : ∀ c, ev ≠ .reaped id c) : st'.Live s e id where
  held := hkernel
  boxed := by
    rw [hheap]
    exact h.boxed
  since := by
    obtain ⟨since, earlier, hsince, hflag⟩ := h.since
    refine ⟨ev :: since, earlier, by rw [hlog, hsince, List.cons_append], ?_⟩
    rw [hflag, List.mem_cons]
    exact ⟨.inr, fun hmem => hmem.resolve_left hunlink.symm⟩
  waiting c hmem := by
    rw [hlog, List.mem_cons] at hmem
    rcases hmem with heq | hmem
    · exact hreaped c heq.symm
    · exact h.waiting c hmem

/-- An unlink marks the entry. -/
theorem Live.unlink {s : UInt32} {e : RawEntry} {id : ℕ} (h : st.Live s e id)
    (hkernel : st'.kernel = st.kernel) (hheap : st'.heap = st.heap)
    (hlog : st'.log = .unlink s :: st.log) : st'.Live s { e with unlinked := true } id where
  held := by
    rw [hkernel]
    exact h.held
  boxed := by
    rw [hheap]
    exact h.boxed
  since := by
    obtain ⟨since, earlier, hsince, -⟩ := h.since
    exact ⟨.unlink s :: since, earlier, by rw [hlog, hsince, List.cons_append],
      iff_of_true rfl List.mem_cons_self⟩
  waiting c hmem := by
    rw [hlog, List.mem_cons] at hmem
    rcases hmem with heq | hmem
    · cases heq
    · exact h.waiting c hmem

/-- An unlink keeps the invariant, whatever the kernel answers. -/
theorem Inv.unlink (h : Inv st) (seqnum : UInt32) (answer : Ioctl) :
    Inv (st.unlink seqnum answer).2 := by
  obtain ⟨hheap, hkernel, haccepted, hlog⟩ := unlink_frame seqnum answer st
  have hold : ∀ {id s}, UrbEvent.accepted id s ∈ (st.unlink seqnum answer).2.log →
      .accepted id s ∈ st.log := by
    intro id s hmem
    rw [hlog] at hmem
    exact (List.mem_cons.mp hmem).resolve_left nofun
  -- an entry under another seqnum is as it was, the one under this seqnum gets marked
  have hlive : ∀ s e id, st.pending.lookup s = some e → st.Live s e id →
      ∃ e', (st.unlink seqnum answer).2.pending.lookup s = some e' ∧ e'.ptr = e.ptr ∧
        (st.unlink seqnum answer).2.Live s e' id := by
    intro s e id he hlive
    rw [lookup_unlink]
    split_ifs with hs
    · subst hs
      exact ⟨{ e with unlinked := true }, by rw [he, Option.map_some], rfl,
        hlive.unlink hkernel hheap hlog⟩
    · exact ⟨e, he, rfl, hlive.frame (by rw [hkernel]; exact hlive.held) (by rw [hheap]) hlog
        (fun heq => hs (UrbEvent.unlink.inj heq).symm) nofun⟩
  refine ⟨?_, fun id s hmem => ?_, fun s e he => ?_, fun held hmem => ?_, ?_,
    fun id s hmem => ?_, ?_, ?_⟩
  · rw [hlog]
    exact soundLog_cons.mpr ⟨trivial, h.sound⟩
  · rw [haccepted]
    exact h.numbered id s (hold hmem)
  · obtain ⟨e₀, he₀⟩ : ∃ e₀, st.pending.lookup s = some e₀ := by
      rw [lookup_unlink] at he
      split_ifs at he
      · obtain ⟨e₀, he₀, -⟩ := Option.map_eq_some_iff.mp he
        exact ⟨e₀, he₀⟩
      · exact ⟨e, he⟩
    obtain ⟨id, hid⟩ := h.live s e₀ he₀
    obtain ⟨e', he', -, hlive'⟩ := hlive s e₀ id he₀ hid
    rw [he, Option.some.injEq] at he'
    exact ⟨id, he' ▸ hlive'⟩
  · rw [hkernel] at hmem
    obtain ⟨s, e, he, hptr, hid⟩ := h.held held hmem
    obtain ⟨e', he', hptr', hlive'⟩ := hlive s e held.id he hid
    exact ⟨s, e', he', hptr'.trans hptr, hlive'⟩
  · rw [hkernel]
    exact h.distinct
  · rw [hkernel, hlog]
    rcases h.settled id s (hold hmem) with hheld | ⟨c, hc⟩
    · exact .inl hheld
    · exact .inr ⟨c, List.mem_cons_of_mem _ hc⟩
  · rw [hheap, hkernel]
    exact h.boxes
  · rw [RawState.unlink]
    split
    · exact h.noFault
    · rename_i entry hs
      obtain ⟨id, hid⟩ := h.live seqnum entry hs
      simp [h.noFault, hid.ptr_mem]

/-- So does registering a URB under a free seqnum and at a free address. -/
theorem Inv.accept (h : Inv st) {urb : PendingUrb} {raw : Addr} (hfree : urb.seqnum ∉ st.pending)
    (hnull : raw ≠ 0) (hraw : raw ∉ st.heap) : Inv (st.accept urb raw) := by
  have hlookup : ∀ s, (st.accept urb raw).pending.lookup s =
      if s = urb.seqnum then some { ptr := raw, unlinked := false } else st.pending.lookup s := by
    intro s
    split_ifs with hs
    · rw [hs]
      exact AList.lookup_insert _
    · exact AList.lookup_insert_ne hs
  have hnew : (st.accept urb raw).Live urb.seqnum { ptr := raw, unlinked := false }
      st.accepted := by
    refine ⟨List.mem_cons_self, ⟨urb, AList.lookup_insert _, rfl⟩, ⟨[], st.log, rfl, by simp⟩,
      fun c hmem => ?_⟩
    rcases List.mem_cons.mp hmem with heq | hmem
    · cases heq
    -- a completion under this number would come from a URB that has it already
    obtain ⟨after, before, hsplit⟩ := List.append_of_mem hmem
    obtain ⟨-, since, earlier, hbefore, -⟩ := h.sound after _ before hsplit
    refine absurd (h.numbered st.accepted c.seqnum ?_) (lt_irrefl _)
    rw [hsplit, hbefore]
    simp
  have hlive : ∀ s e id, st.pending.lookup s = some e → st.Live s e id →
      (st.accept urb raw).pending.lookup s = some e ∧ (st.accept urb raw).Live s e id := by
    intro s e id he hlive
    have hs : s ≠ urb.seqnum := by
      rintro rfl
      exact hfree (Table.mem_of_lookup he)
    have hptr : e.ptr ≠ raw := by
      rintro rfl
      exact hraw hlive.ptr_mem
    rw [hlookup, if_neg hs]
    exact ⟨he, hlive.frame (List.mem_cons_of_mem _ hlive.held) (AList.lookup_insert_ne hptr) rfl
      nofun nofun⟩
  refine ⟨?_, fun id s hmem => ?_, fun s e he => ?_, fun held hmem => ?_, ?_,
    fun id s hmem => ?_, fun a ha => ?_, h.noFault⟩
  · refine soundLog_cons.mpr ⟨⟨fun s hmem => ?_, fun id' hmem => ?_⟩, h.sound⟩
    · exact lt_irrefl _ (h.numbered st.accepted s hmem)
    · by_contra hwait
      exact hfree ((h.mem_pending_iff urb.seqnum).mpr ⟨id', hmem, fun c hc => hwait ⟨c, hc⟩⟩)
  · rcases List.mem_cons.mp hmem with heq | hmem
    · injection heq with hid
      exact hid ▸ Nat.lt_succ_self _
    · exact Nat.lt_succ_of_lt (h.numbered id s hmem)
  · rw [hlookup] at he
    split_ifs at he with hs
    · obtain rfl := Option.some.inj he
      exact ⟨st.accepted, hs ▸ hnew⟩
    · obtain ⟨id, hid⟩ := h.live s e he
      exact ⟨id, (hlive s e id he hid).2⟩
  · rcases List.mem_cons.mp hmem with rfl | hmem
    · exact ⟨urb.seqnum, { ptr := raw, unlinked := false }, by rw [hlookup, if_pos rfl], rfl, hnew⟩
    · obtain ⟨s, e, he, hptr, hid⟩ := h.held held hmem
      exact ⟨s, e, (hlive s e held.id he hid).1, hptr, (hlive s e held.id he hid).2⟩
  · refine List.nodup_cons.mpr ⟨fun hmem => ?_, h.distinct⟩
    obtain ⟨held, hheld, haddr⟩ := List.mem_map.mp hmem
    obtain ⟨s, e, -, hptr, hid⟩ := h.held held hheld
    have hmem := hid.ptr_mem
    rw [hptr, haddr] at hmem
    exact hraw hmem
  · rcases List.mem_cons.mp hmem with heq | hmem
    · injection heq with hid
      exact .inl ⟨raw, hid ▸ List.mem_cons_self⟩
    · rcases h.settled id s hmem with ⟨a, ha⟩ | ⟨c, hc⟩
      · exact .inl ⟨a, List.mem_cons_of_mem _ ha⟩
      · exact .inr ⟨c, List.mem_cons_of_mem _ hc⟩
  · rcases (AList.mem_insert _).mp ha with rfl | ha
    · exact ⟨hnull, _, List.mem_cons_self, rfl⟩
    · obtain ⟨hne, held, hheld, haddr⟩ := h.boxes a ha
      exact ⟨hne, held, List.mem_cons_of_mem _ hheld, haddr⟩

/-- What the kernel hands back is an entry of the table, and its box is there. -/
structure HandsBack (st : RawState) (held : Held) (s : UInt32) (e : RawEntry) (urb : PendingUrb) :
    Prop where
  mem : held ∈ st.kernel
  entry : st.pending.lookup s = some e
  ptr : e.ptr = held.addr
  live : st.Live s e held.id
  boxed : st.heap.lookup held.addr = some { urb, usercontext := held.addr }
  seqnum : urb.seqnum = s

/-- Whatever the kernel holds is an entry of the table, and its box is there. -/
theorem Inv.handsBack (h : Inv st) {held : Held} (hheld : held ∈ st.kernel) :
    ∃ s e urb, st.HandsBack held s e urb := by
  obtain ⟨s, e, he, hptr, hlive⟩ := h.held held hheld
  obtain ⟨urb, hbox, hseq⟩ := hlive.boxed
  rw [hptr] at hbox
  exact ⟨s, e, urb, hheld, he, hptr, hlive, hbox, hseq⟩

/-- The box of another entry is another one. -/
theorem HandsBack.ptr_ne {held : Held} {s s' : UInt32} {e e' : RawEntry} {urb : PendingUrb}
    {id : ℕ} (hback : st.HandsBack held s e urb) (hlive : st.Live s' e' id) (hs : s' ≠ s) :
    e'.ptr ≠ held.addr := by
  intro hptr
  obtain ⟨urb', hbox, hseq⟩ := hlive.boxed
  rw [hptr, hback.boxed] at hbox
  injection hbox with hbox
  injection hbox with hurb
  exact hs (by rw [← hseq, ← hurb, hback.seqnum])

/-- **Reap** without the kernel handing anything back changes nothing; otherwise the completion is
that of the entry whose box was handed back, and the entry goes with the box. -/
theorem Inv.reap_spec (h : Inv st) {answer : ReapAnswer}
    {r : Except ReapError (Option UrbCompletion)} (hr : st.reap answer = some (r, st')) :
    ((∀ c, r ≠ .ok (some c)) ∧ st' = st) ∨
      ∃ held s e urb c status actualLength written, st.HandsBack held s e urb ∧
        answer = .urb held.addr status actualLength written ∧
        c = DevState.completion { urb, unlinked := e.unlinked }
          { seqnum := s, status, actualLength, written } ∧ r = .ok (some c) ∧
        st' = st.settle held { urb, usercontext := held.addr } held.addr c := by
  cases answer with
  | err e =>
    obtain ⟨rfl, rfl⟩ := Prod.mk.inj (Option.some.inj hr)
    refine .inl ⟨fun c => ?_, rfl⟩
    split_ifs <;> nofun
  | null =>
    obtain ⟨rfl, rfl⟩ := Prod.mk.inj (Option.some.inj hr)
    exact .inl ⟨nofun, rfl⟩
  | urb addr status actualLength written =>
    rw [reap] at hr
    cases hfind : st.kernel.find? (·.addr = addr) with
    | none =>
      rw [hfind] at hr
      cases hr
    | some held =>
      obtain rfl : held.addr = addr := by simpa using List.find?_some hfind
      obtain ⟨s, e, urb, hback⟩ := h.handsBack (List.mem_of_find?_eq_some hfind)
      have hnull : held.addr ≠ 0 := (h.boxes _ (Table.mem_of_lookup hback.boxed)).1
      have hentry : st.pending.lookup urb.seqnum = some e := by
        rw [hback.seqnum]
        exact hback.entry
      rw [hfind] at hr
      simp only [hback.boxed, if_neg hnull, hentry, Option.map_some, Option.getD_some,
        Option.some.injEq, Prod.mk.injEq] at hr
      obtain ⟨rfl, rfl⟩ := hr
      refine .inr ⟨held, s, e, urb, _, status, actualLength, written, hback, rfl, ?_, rfl, rfl⟩
      rw [hback.seqnum]

/-- Taking a URB off the books keeps the invariant. -/
theorem Inv.settle (h : Inv st) {held : Held} {s : UInt32} {e : RawEntry} {urb : PendingUrb}
    {c : UrbCompletion} (hback : st.HandsBack held s e urb) (hseq : c.seqnum = s)
    (hflag : c.unlinked = e.unlinked) :
    Inv (st.settle held { urb, usercontext := held.addr } held.addr c) := by
  have hlookup : ∀ s', (st.pending.erase urb.seqnum).lookup s' =
      if s' = s then none else st.pending.lookup s' := by
    intro s'
    rw [hback.seqnum]
    split_ifs with hs
    · rw [hs, AList.lookup_erase]
    · exact AList.lookup_erase_ne hs
  have hstays : ∀ {held'}, held' ∈ st.kernel → held' ≠ held → held' ∈ st.kernel.erase held :=
    fun hmem hne => (List.mem_erase_of_ne hne).mpr hmem
  have hlive : ∀ s' e' id, s' ≠ s → st.Live s' e' id →
      (st.settle held { urb, usercontext := held.addr } held.addr c).Live s' e' id := by
    intro s' e' id hs hlive
    have hid : id ≠ held.id := by
      rintro rfl
      exact hs (h.sound.seqnum_unique hlive.accepted hback.live.accepted)
    refine hlive.frame (hstays hlive.held ?_) (AList.lookup_erase_ne (hback.ptr_ne hlive hs)) rfl
      nofun ?_
    · intro heq
      exact hid (congrArg Held.id heq)
    · intro c' heq
      injection heq with heq
      exact hid heq.symm
  refine ⟨?_, fun id s' hmem => ?_, fun s' e' he' => ?_, fun held' hmem => ?_, ?_,
    fun id s' hmem => ?_, fun a ha => ?_, h.noFault⟩
  · refine soundLog_cons.mpr ⟨⟨hback.live.waiting, ?_⟩, h.sound⟩
    rw [hseq, hflag]
    exact hback.live.since
  · exact h.numbered id s' ((List.mem_cons.mp hmem).resolve_left nofun)
  · change (st.pending.erase urb.seqnum).lookup s' = some e' at he'
    rw [hlookup] at he'
    split_ifs at he' with hs
    obtain ⟨id, hid⟩ := h.live s' e' he'
    exact ⟨id, hlive s' e' id hs hid⟩
  · have hnodup : st.kernel.Nodup := h.distinct.of_map _
    obtain ⟨hne, hmem⟩ := hnodup.mem_erase_iff.mp hmem
    obtain ⟨s', e', he', hptr, hid⟩ := h.held held' hmem
    have hs : s' ≠ s := by
      rintro rfl
      rw [hback.entry, Option.some.injEq] at he'
      rw [← he', hback.ptr] at hptr
      exact hne (List.inj_on_of_nodup_map h.distinct hmem hback.mem hptr.symm)
    refine ⟨s', e', ?_, hptr, hlive s' e' held'.id hs hid⟩
    change (st.pending.erase urb.seqnum).lookup s' = some e'
    rw [hlookup, if_neg hs, he']
  · exact h.distinct.sublist (List.erase_sublist.map _)
  · rcases h.settled id s' ((List.mem_cons.mp hmem).resolve_left nofun) with ⟨a, ha⟩ | ⟨c', hc'⟩
    · by_cases heq : { addr := a, id : Held } = held
      · exact .inr ⟨c, by rw [← heq]; exact List.mem_cons_self⟩
      · exact .inl ⟨a, hstays ha heq⟩
    · exact .inr ⟨c', List.mem_cons_of_mem _ hc'⟩
  · obtain ⟨hne, ha⟩ := AList.mem_erase.mp ha
    obtain ⟨hnull, held', hheld', haddr⟩ := h.boxes a ha
    refine ⟨hnull, held', hstays hheld' ?_, haddr⟩
    rintro rfl
    exact hne haddr.symm

/-! ### Runs -/

theorem Inv.submit (h : Inv st) {d : UsbfsDevice} {req : UrbRequest} {answer : Ioctl} {raw : Addr}
    {r : Except SubmitError Unit} (hr : st.submit d req answer raw = some (r, st')) : Inv st' := by
  rcases submit_spec hr with ⟨-, rfl⟩ | ⟨urb, -, hfree, hnull, hraw, -, -, rfl⟩
  · exact h
  · exact h.accept hfree hnull hraw

theorem Inv.reap (h : Inv st) {answer : ReapAnswer} {r : Except ReapError (Option UrbCompletion)}
    (hr : st.reap answer = some (r, st')) : Inv st' := by
  rcases h.reap_spec hr with
    ⟨-, rfl⟩ | ⟨held, s, e, urb, c, status, actualLength, written, hback, -, rfl, -, rfl⟩
  · exact h
  · exact h.settle hback hback.seqnum rfl

theorem Inv.unlinkAll (h : Inv st) (answers : UInt32 → Ioctl) (seqnums : List UInt32) :
    Inv (st.unlinkAll answers seqnums) :=
  List.foldlRecOn (motive := Inv) _ _ h fun _ hst s _ => hst.unlink s (answers s)

theorem Inv.drain (h : Inv st) {answers : List ReapAnswer} (hd : st.drain answers = some st') :
    Inv st' := by
  induction answers generalizing st with
  | nil => exact Option.some.inj hd ▸ h
  | cons answer answers ih =>
    rw [RawState.drain] at hd
    split_ifs at hd with hempty
    · exact Option.some.inj hd ▸ h
    · split at hd
      · cases hd
      · rename_i st₁ hr
        exact ih (h.reap hr) hd
      · rename_i st₁ hr
        exact Option.some.inj hd ▸ h.reap hr

/-- The drain reaps, and what it leaves in the table was there before it. -/
theorem Inv.drain_spec (h : Inv st) {answers : List ReapAnswer}
    (hd : st.drain answers = some st') :
    (∃ reaped, st'.log = reaped ++ st.log ∧ ∀ ev ∈ reaped, ∃ id c, ev = .reaped id c) ∧
      ∀ s e, st'.pending.lookup s = some e → st.pending.lookup s = some e := by
  have hnone : ∀ log : List UrbEvent, ∃ reaped, log = reaped ++ log ∧
      ∀ ev ∈ reaped, ∃ id c, ev = .reaped id c := fun _ => ⟨[], rfl, List.forall_mem_nil _⟩
  induction answers generalizing st with
  | nil =>
    obtain rfl := Option.some.inj hd
    exact ⟨hnone _, fun _ _ he => he⟩
  | cons answer answers ih =>
    rw [RawState.drain] at hd
    split_ifs at hd with hempty
    · obtain rfl := Option.some.inj hd
      exact ⟨hnone _, fun _ _ he => he⟩
    split at hd
    · cases hd
    · rename_i st₁ hr
      obtain ⟨⟨reaped, hlog, hall⟩, hleft⟩ := ih (h.reap hr) hd
      rcases h.reap_spec hr with
        ⟨-, rfl⟩ | ⟨held, s, e, urb, c, _, _, _, hback, -, -, -, rfl⟩
      · exact ⟨⟨reaped, hlog, hall⟩, hleft⟩
      · refine ⟨⟨reaped ++ [.reaped held.id c], ?_, ?_⟩, fun s' e' he' => ?_⟩
        · rw [hlog, RawState.settle, List.append_assoc, List.singleton_append]
        · exact List.forall_mem_append.mpr ⟨hall, List.forall_mem_singleton.mpr ⟨_, _, rfl⟩⟩
        · have hlookup := hleft s' e' he'
          by_cases hs : s' = urb.seqnum
          · subst hs
            exact absurd hlookup (by simp [RawState.settle])
          · exact (AList.lookup_erase_ne hs).symm.trans hlookup
    · rename_i st₁ hr
      obtain rfl := Option.some.inj hd
      rcases h.reap_spec hr with ⟨-, rfl⟩ | ⟨_, _, _, _, _, _, _, _, -, -, -, hok, -⟩
      · exact ⟨hnone _, fun _ _ he => he⟩
      · cases hok

/-- **`cancel_pending` leaves no entry unmarked.** -/
theorem Inv.cancelled (h : Inv st) {seqnums : List UInt32} {answers : UInt32 → Ioctl}
    {done : List ReapAnswer} (hc : st.cancelPending seqnums answers done = some st') :
    Cancelled st st' seqnums := by
  rw [RawState.cancelPending] at hc
  split_ifs at hc with hperm hnil
  · -- nothing is pending
    obtain rfl := Option.some.inj hc
    subst hnil
    refine ⟨hperm, ⟨[], rfl, List.forall_mem_nil _⟩, fun s e he => ?_⟩
    exact absurd (hperm.mem_iff.mpr (Table.mem_of_lookup he)) List.not_mem_nil
  · obtain ⟨⟨reaped, hlog, hall⟩, hleft⟩ := (h.unlinkAll answers seqnums).drain_spec hc
    refine ⟨hperm, ⟨reaped, ?_, hall⟩, fun s e he => ?_⟩
    · rw [hlog, log_unlinkAll, List.append_assoc]
    · have hmark := hleft s e he
      rw [lookup_unlinkAll] at hmark
      split_ifs at hmark with hs
      · obtain ⟨e₀, -, rfl⟩ := Option.map_eq_some_iff.mp hmark
        exact ⟨hperm.mem_iff.mp hs, rfl⟩
      · exact absurd (hperm.mem_iff.mpr (Table.mem_of_lookup hmark)) hs

theorem Inv.cancelPending (h : Inv st) {seqnums : List UInt32} {answers : UInt32 → Ioctl}
    {done : List ReapAnswer} (hc : st.cancelPending seqnums answers done = some st') : Inv st' := by
  rw [RawState.cancelPending] at hc
  split_ifs at hc
  · exact Option.some.inj hc ▸ h
  · exact (h.unlinkAll answers seqnums).drain hc

theorem Inv.step (h : Inv st) {d : UsbfsDevice} {call : Call} (hs : st.step d call = some st') :
    Inv st' := by
  cases call with
  | submit req answer raw =>
    obtain ⟨⟨r, _⟩, hr, rfl⟩ := Option.map_eq_some_iff.mp hs
    exact h.submit hr
  | unlink seqnum answer => exact Option.some.inj hs ▸ h.unlink seqnum answer
  | reap answer =>
    obtain ⟨⟨r, _⟩, hr, rfl⟩ := Option.map_eq_some_iff.mp hs
    exact h.reap hr
  | cancelPending seqnums answers done => exact h.cancelPending hs

/-- The invariant holds after any sequence of calls. -/
theorem inv_of_reachable {d : UsbfsDevice} (h : Reachable (step d) Initial st) : Inv st := by
  refine h.invariant Inv ?_ fun _ _ _ hinv _ hs => hinv.step hs
  rintro _ rfl
  exact inv_initial

/-- **The table is the kernel's set.** Its keys are the seqnums accepted and not yet reaped; the log
is sound, and what `reap` returns is in it; a refused submit changes nothing; `cancel_pending`
unlinks all there is, and leaves no entry that is not marked; the allocations are those of the URBs
the kernel holds, and none is used after it was freed. -/
theorem pending_tracks_kernel {d : UsbfsDevice} (h : Reachable (step d) Initial st) :
    (∀ s, s ∈ st.pending ↔ ∃ id, .accepted id s ∈ st.log ∧ ∀ c, .reaped id c ∉ st.log) ∧
      SoundLog st.log ∧
      (∀ req answer raw e st', st.submit d req answer raw = some (.error e, st') → st' = st) ∧
      (∀ answer c st', st.reap answer = some (.ok (some c), st') →
        ∃ id, .accepted id c.seqnum ∈ st.log ∧ st'.log = .reaped id c :: st.log) ∧
      (∀ seqnums answers done st', st.cancelPending seqnums answers done = some st' →
        Cancelled st st' seqnums) ∧
      (∀ a, a ∈ st.heap ↔ ∃ held ∈ st.kernel, held.addr = a) ∧ st.fault = false := by
  have hinv : Inv st := inv_of_reachable h
  refine ⟨hinv.mem_pending_iff, hinv.sound, fun req answer raw e st' hr => ?_,
    fun answer c st' hr => ?_, fun _ _ _ _ hc => hinv.cancelled hc,
    fun a => ⟨fun ha => (hinv.boxes a ha).2, ?_⟩, hinv.noFault⟩
  · rcases submit_spec hr with ⟨-, heq⟩ | ⟨_, -, -, -, -, -, hok, -⟩
    · exact heq
    · cases hok
  · rcases hinv.reap_spec hr with
      ⟨hnone, -⟩ | ⟨held, s, e, urb, c', _, _, _, hback, -, rfl, hok, rfl⟩
    · exact absurd rfl (hnone c)
    · obtain rfl := Option.some.inj (Except.ok.inj hok)
      refine ⟨held.id, ?_, rfl⟩
      rw [← hback.seqnum] at hback
      exact hback.live.accepted
  · rintro ⟨held, hheld, rfl⟩
    obtain ⟨s, e, urb, hback⟩ := hinv.handsBack hheld
    exact Table.mem_of_lookup hback.boxed

/-- A device with one interrupt endpoint. -/
def onePad : UsbfsDevice where
  epTypes := AList.insert 0x81 .interrupt ∅
  caps := 0
  maxTransfer := 4096
  interfaceNumbers := [0]
  interruptInEndpoints := [(0x81, 64)]

/-- Seqnum 7 is used twice, and the second URB gets the address of the first. The first is unlinked,
the second is not, and a submit in between is refused. -/
def seqnumReused : List Call :=
  let req : UrbRequest := ⟨7, 1, .in, 0, Setup.zero, 4, [], .client⟩
  [.submit req .ok 0x1000, .submit req .ok 0x2000, .unlink 7 .ok,
    .reap (.urb 0x1000 (-2) 0 []), .submit req .ok 0x1000, .reap (.urb 0x1000 0 2 [1, 2])]

theorem pending_tracks_kernel_seqnumReused : ∃ st, Reachable (step onePad) Initial st ∧
    st.log = [.reaped 1 ⟨7, 0, 2, [1, 2], false, .client⟩, .accepted 1 7,
      .reaped 0 ⟨7, -2, 0, [], true, .client⟩, .unlink 7, .accepted 0 7] ∧
    SoundLog st.log ∧ st.fault = false := by
  have hrun : (run (step onePad) {} seqnumReused).any (fun st =>
      st.log = [.reaped 1 ⟨7, 0, 2, [1, 2], false, .client⟩, .accepted 1 7,
        .reaped 0 ⟨7, -2, 0, [], true, .client⟩, .unlink 7, .accepted 0 7]) = true := by
    decide +kernel
  obtain ⟨st, hst, hlog⟩ := exists_reachable_of_run Initial rfl hrun
  rw [decide_eq_true_eq] at hlog
  obtain ⟨-, hsound, -, -, -, -, hfault⟩ := pending_tracks_kernel hst
  exact ⟨st, hst, hlog, hsound, hfault⟩

/-! ### The way back to the table of whole URBs -/

/-- The states of `Backend/Usbfs` have the box of an entry in the entry. -/
def Refines (st : RawState) (dev : DevState) : Prop :=
  ∀ s, dev.pending.lookup s = (st.pending.lookup s).bind fun e =>
    (st.heap.lookup e.ptr).map fun raw => { urb := raw.urb, unlinked := e.unlinked }

/-- Both tables have the same keys. -/
theorem Refines.mem_iff (h : Inv st) {dev : DevState} (href : st.Refines dev) (s : UInt32) :
    s ∈ dev.pending ↔ s ∈ st.pending := by
  rw [← AList.lookup_isSome, ← AList.lookup_isSome, href]
  cases he : st.pending.lookup s with
  | none => simp
  | some e =>
    obtain ⟨id, hlive⟩ := h.live s e he
    obtain ⟨urb, hbox, -⟩ := hlive.boxed
    simp [hbox]

end RawState

namespace UsbfsDevice

/-- What a submit does under the lock. -/
def locked (urb : PendingUrb) (answer : Ioctl) (dev : DevState) :
    Except SubmitError Unit × DevState :=
  if urb.seqnum ∈ dev.pending then (.error (.urb (-EBUSY)), dev)
  else match answer with
    | .err e => (.error (submitErrno e), dev)
    | .ok => (.ok (), dev.accept urb)

/-- A submit refuses the request before it takes the lock, or goes on with the URB it wants the
kernel to take. -/
theorem submit_of_prepare (d : UsbfsDevice) (req : UrbRequest) (answer : Ioctl) (dev : DevState) :
    (∀ e, d.prepare req answer = .error e → d.submit req answer dev = (.error e, dev)) ∧
      ∀ urb, d.prepare req answer = .ok urb → d.submit req answer dev = locked urb answer dev := by
  rw [prepare, submit]
  cases htype : d.urbTypeFor req.ep req.dir with
  | error e' => exact ⟨fun e h => by rw [Except.error.inj h], fun urb h => by cases h⟩
  | ok target =>
    obtain ⟨epAddr, urbType⟩ := target
    dsimp only
    cases htweak : if urbType = .control then tweakSpecialRequest req answer else none with
    | some e' => exact ⟨fun e h => by rw [Except.error.inj h], fun urb h => by cases h⟩
    | none =>
      dsimp only
      split_ifs with hlen hlive
      · exact ⟨fun e h => by rw [Except.error.inj h], fun urb h => by cases h⟩
      · refine ⟨fun e h => (by cases h), fun urb h => ?_⟩
        obtain rfl := Except.ok.inj h
        exact (if_pos hlive).symm
      · refine ⟨fun e h => (by cases h), fun urb h => ?_⟩
        obtain rfl := Except.ok.inj h
        exact (if_neg hlive).symm

end UsbfsDevice

namespace RawState

variable {st st' : RawState} {dev : DevState}

/-- A submit has the same result on both. -/
theorem submit_refines (h : Inv st) (href : st.Refines dev) {d : UsbfsDevice} {req : UrbRequest}
    {answer : Ioctl} {raw : Addr} {r : Except SubmitError Unit}
    (hr : st.submit d req answer raw = some (r, st')) :
    (d.submit req answer dev).1 = r ∧ st'.Refines (d.submit req answer dev).2 := by
  obtain ⟨herror, hlocked⟩ := UsbfsDevice.submit_of_prepare d req answer dev
  rcases hprep : d.prepare req answer with e | urb
  · rw [herror e hprep]
    rw [submit, hprep] at hr
    obtain ⟨rfl, rfl⟩ := Prod.mk.inj (Option.some.inj hr)
    exact ⟨rfl, href⟩
  · have hmem := href.mem_iff h urb.seqnum
    rw [hlocked urb hprep]
    unfold UsbfsDevice.locked
    rw [submit, hprep] at hr
    dsimp only at hr
    split_ifs at hr with hlive hraw
    · rw [if_pos (hmem.mpr hlive)]
      obtain ⟨rfl, rfl⟩ := Prod.mk.inj (Option.some.inj hr)
      exact ⟨rfl, href⟩
    · rw [if_neg (mt hmem.mp hlive)]
      rw [not_or] at hraw
      cases answer with
      | err e =>
        obtain ⟨rfl, rfl⟩ := Prod.mk.inj (Option.some.inj hr)
        rw [Table.erase_insert hraw.2]
        exact ⟨rfl, href⟩
      | ok =>
        obtain ⟨rfl, rfl⟩ := Prod.mk.inj (Option.some.inj hr)
        refine ⟨rfl, fun s => ?_⟩
        rw [DevState.lookup_accept]
        split_ifs with hs
        · rw [hs, accept, AList.lookup_insert, Option.bind_some, AList.lookup_insert]
          rfl
        · rw [href s, accept, AList.lookup_insert_ne hs]
          refine Option.bind_congr fun e he => ?_
          obtain ⟨id, hid⟩ := h.live s e he
          have hptr : e.ptr ≠ raw := by
            rintro rfl
            exact hraw.2 hid.ptr_mem
          rw [AList.lookup_insert_ne hptr]

theorem unlink_fst (seqnum : UInt32) (answer : Ioctl) (st : RawState) :
    (st.unlink seqnum answer).1 = (decide (seqnum ∈ st.pending) && decide (answer = .ok)) := by
  rw [unlink]
  split
  · rename_i hs
    rw [AList.lookup_eq_none] at hs
    simp [hs]
  · rename_i entry hs
    simp [Table.mem_of_lookup hs]

theorem devState_unlink_fst (seqnum : UInt32) (answer : Ioctl) (dev : DevState) :
    (dev.unlink seqnum answer).1 = (decide (seqnum ∈ dev.pending) && decide (answer = .ok)) := by
  unfold DevState.unlink
  split
  · rename_i hs
    rw [AList.lookup_eq_none] at hs
    simp [hs]
  · rename_i entry hs
    simp [Table.mem_of_lookup hs]

/-- So has an unlink. -/
theorem unlink_refines (h : Inv st) (href : st.Refines dev) (seqnum : UInt32) (answer : Ioctl) :
    (dev.unlink seqnum answer).1 = (st.unlink seqnum answer).1 ∧
      (st.unlink seqnum answer).2.Refines (dev.unlink seqnum answer).2 := by
  constructor
  · rw [unlink_fst, devState_unlink_fst]
    simp only [href.mem_iff h]
  · intro s
    rw [DevState.lookup_unlink, lookup_unlink, (unlink_frame seqnum answer st).1, href]
    split_ifs with hs
    · cases st.pending.lookup s with
      | none => rfl
      | some e =>
        rw [Option.bind_some, Option.map_some, Option.bind_some, Option.map_map]
        rfl
    · rfl

/-- What is reaped here can be reaped there, with the same completion. -/
theorem reap_refines (h : Inv st) (href : st.Refines dev) {answer : ReapAnswer} {c : UrbCompletion}
    (hr : st.reap answer = some (.ok (some c), st')) :
    ∃ k dev', dev.reap k = some (c, dev') ∧ st'.Refines dev' := by
  rcases h.reap_spec hr with ⟨hnone, -⟩ |
    ⟨held, s, e, urb, c', status, actualLength, written, hback, -, rfl, hok, rfl⟩
  · exact absurd rfl (hnone c)
  obtain rfl := Option.some.inj (Except.ok.inj hok)
  have hentry : dev.pending.lookup s = some { urb, unlinked := e.unlinked } := by
    rw [href, hback.entry, Option.bind_some, hback.ptr, hback.boxed, Option.map_some]
  cases hdev : dev.reap { seqnum := s, status, actualLength, written } with
  | none =>
    unfold DevState.reap at hdev
    split at hdev
    · rename_i hnone
      rw [hentry] at hnone
      cases hnone
    · cases hdev
  | some reaped =>
    obtain ⟨c, dev'⟩ := reaped
    obtain ⟨e', he', rfl, -, hlookup⟩ := DevState.reap_spec hdev
    rw [hentry, Option.some.injEq] at he'
    subst he'
    refine ⟨_, dev', hdev, fun s' => ?_⟩
    rw [hlookup, settle, hback.seqnum]
    dsimp only
    split_ifs with hs
    · rw [hs, AList.lookup_erase, Option.bind_none]
    · rw [AList.lookup_erase_ne hs, href s']
      refine Option.bind_congr fun e₂ he₂ => ?_
      obtain ⟨id, hid⟩ := h.live s' e₂ he₂
      rw [AList.lookup_erase_ne (hback.ptr_ne hid hs)]

/-- A drain here is one there, for some of the kernel's answers. -/
theorem drain_refines (h : Inv st) (href : st.Refines dev) {answers : List ReapAnswer}
    (hd : st.drain answers = some st') : ∃ done, st'.Refines (dev.drain done) := by
  induction answers generalizing st dev with
  | nil => exact ⟨[], Option.some.inj hd ▸ href⟩
  | cons answer answers ih =>
    rw [drain] at hd
    split_ifs at hd with hempty
    · exact ⟨[], Option.some.inj hd ▸ href⟩
    · split at hd
      · cases hd
      · rename_i result st₁ hr
        cases result with
        | none =>
          rcases h.reap_spec hr with ⟨-, rfl⟩ | ⟨_, _, _, _, _, _, _, _, -, -, -, hok, -⟩
          · exact ih h href hd
          · cases hok
        | some c =>
          obtain ⟨k, dev', hk, href'⟩ := reap_refines h href hr
          obtain ⟨done, hdone⟩ := ih (h.reap hr) href' hd
          obtain ⟨e, he, -⟩ := DevState.reap_spec hk
          have hkeys : dev.pending.keys ≠ [] := List.ne_nil_of_mem (Table.mem_of_lookup he)
          refine ⟨k :: done, ?_⟩
          rw [DevState.drain, if_neg hkeys, hk]
          exact hdone
      · rename_i st₁ hr
        rcases h.reap_spec hr with ⟨-, rfl⟩ | ⟨_, _, _, _, _, _, _, _, -, -, -, hok, -⟩
        · exact ⟨[], Option.some.inj hd ▸ href⟩
        · cases hok

theorem unlinkAll_refines (h : Inv st) (href : st.Refines dev) (answers : UInt32 → Ioctl)
    (seqnums : List UInt32) :
    (st.unlinkAll answers seqnums).Refines (dev.unlinkAll seqnums answers) := by
  induction seqnums generalizing st dev with
  | nil => exact href
  | cons s seqnums ih => exact ih (h.unlink s _) (unlink_refines h href s _).2

/-- The order in which the map lists its keys does not matter. -/
theorem cancelPending_refines (h : Inv st) (href : st.Refines dev) {seqnums : List UInt32}
    {answers : UInt32 → Ioctl} {done : List ReapAnswer}
    (hc : st.cancelPending seqnums answers done = some st') :
    ∃ done', st'.Refines (dev.cancelPending answers done') := by
  have hmem : ∀ s, s ∈ dev.pending.keys ↔ s ∈ st.pending.keys := href.mem_iff h
  rw [cancelPending] at hc
  split_ifs at hc with hperm hnil
  · refine ⟨[], ?_⟩
    have hkeys : dev.pending.keys = [] := by
      rw [List.eq_nil_iff_forall_not_mem]
      intro s hs
      rw [hmem, ← hperm.mem_iff, hnil] at hs
      cases hs
    rw [DevState.cancelPending, if_pos hkeys]
    exact Option.some.inj hc ▸ href
  · have hkeys : dev.pending.keys ≠ [] := by
      obtain ⟨s, hs⟩ := List.exists_mem_of_ne_nil _ hnil
      exact List.ne_nil_of_mem ((hmem s).mpr (hperm.mem_iff.mp hs))
    have hall : (st.unlinkAll answers seqnums).Refines
        (dev.unlinkAll dev.pending.keys answers) := by
      intro s
      rw [← unlinkAll_refines h href answers seqnums s, DevState.lookup_unlinkAll,
        DevState.lookup_unlinkAll]
      simp only [hmem, hperm.mem_iff]
    obtain ⟨done', hdone⟩ := drain_refines (h.unlinkAll answers seqnums) hall hc
    refine ⟨done', ?_⟩
    rw [DevState.cancelPending, if_neg hkeys]
    exact hdone

end RawState

end Padwire
