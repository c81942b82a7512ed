import Padwire.Backend.Urb
import Padwire.Lib.Table

/-!
# The usbfs backend

The URB half of `usb-backend/src/usbfs.rs`: the table of URBs in flight and the calls that
change it, each of which runs under one mutex and is therefore one atomic step. What the kernel
decides enters as an argument: the answer to each ioctl, and, for a reaped URB, its status, its
actual length and what was written into its buffer.

Every call is described once: a submit either leaves the table alone or inserts a fresh entry
(`submit_spec`), an unlink marks an entry and nothing else (`lookup_unlink`), a reap removes
one entry and reports it (`reap_spec`), and `cancelPending` leaves only marked entries
(`lookup_of_cancelPending`).
-/

namespace Padwire

/-- `USBDEVFS_URB_TYPE_*`. -/
inductive UrbType
  | iso
  | interrupt
  | control
  | bulk
  deriving DecidableEq, Repr

def SETUP_LEN : ℕ := 8

/-- Kernel URB flags that USB/IP passes through in `transfer_flags`. -/
def SHORT_NOT_OK : UInt32 := 0x01
def ZERO_PACKET : UInt32 := 0x40
def NO_INTERRUPT : UInt32 := 0x80

/-- The flags usbfs takes, and the capability bit it advertises for one of them. -/
def USBDEVFS_URB_SHORT_NOT_OK : UInt32 := 0x01
def USBDEVFS_URB_ZERO_PACKET : UInt32 := 0x40
def USBDEVFS_URB_NO_INTERRUPT : UInt32 := 0x80
def USBDEVFS_CAP_ZERO_PACKET : UInt32 := 0x01

/-- An allocation the kernel holds between `SUBMITURB` and `REAPURB`. -/
structure PendingUrb where
  typ : UrbType
  endpoint : UInt8
  flags : UInt32
  buffer : Bytes
  seqnum : UInt32
  dir : Direction
  /-- Control transfers keep the setup packet at the head of `buffer`. -/
  dataOffset : ℕ
  /-- The client's `transfer_buffer_length`: never hand back more than this. -/
  maxReply : ℕ
  /-- Ghost: who asked for this URB. -/
  origin : Origin
  deriving DecidableEq, Repr

structure Entry where
  urb : PendingUrb
  /-- Set by `unlink`: the completion of this URB must not be reported. -/
  unlinked : Bool
  deriving DecidableEq, Repr

/-- A call that changes which driver holds an interface. -/
inductive IfaceCall
  | claim (ifnum : UInt8)
  | release (ifnum : UInt8)
  | connect (ifnum : UInt8)
  deriving DecidableEq, Repr

/-- What the mutex of a `UsbfsDevice` guards. -/
structure DevState where
  pending : Table UInt32 Entry
  claimed : List UInt8
  /-- Ghost: the interface calls made so far, in order. -/
  calls : List IfaceCall
  /-- A URB is registered under its own seqnum. -/
  keyed : ∀ s e, pending.lookup s = some e → e.urb.seqnum = s

/-- A device on which nothing has happened yet. -/
def DevState.fresh : DevState where
  pending := ∅
  claimed := []
  calls := []
  keyed := by simp

/-- The fixed part of a `UsbfsDevice`. -/
structure UsbfsDevice where
  /-- Endpoint address (direction bit included) to URB type. -/
  epTypes : Table UInt8 UrbType
  caps : UInt32
  maxTransfer : ℕ
  /-- `bInterfaceNumber`s of the active configuration. -/
  interfaceNumbers : List UInt8
  /-- Interrupt IN endpoints as `(address, max_packet_size)`. -/
  interruptInEndpoints : List (UInt8 × UInt16)

/-- Ghost: when a session starts, every URB in the table belongs to an earlier one. -/
def DevState.age (st : DevState) : DevState :=
  { st with
    pending := Table.mapValues
      (fun e => { e with urb := { e.urb with origin := .earlier } }) st.pending
    keyed := by
      intro s e h
      rw [Table.lookup_mapValues] at h
      obtain ⟨e₀, h₀, rfl⟩ := Option.map_eq_some_iff.mp h
      exact st.keyed s e₀ h₀ }

/-! ### Standard requests carried out directly -/

/-- A standard request that has its own usbfs ioctl. -/
inductive Special
  | setAddress (address : UInt16)
  | setConfiguration (config : UInt16)
  | setInterface (interface alt : UInt16)
  | clearHalt (ep : UInt16)
  deriving DecidableEq, Repr

/-- Byte `i` of a setup packet. -/
def Setup.byte (s : Setup) (i : ℕ) : UInt8 := s.1.getD i 0

/-- The little-endian 16-bit field at byte `i` of a setup packet. -/
def Setup.le16 (s : Setup) (i : ℕ) : UInt16 := UInt16.ofNat (leNat [s.byte i, s.byte (i + 1)])

/-- Classify a setup packet. Device-to-host requests are never special. -/
def Special.classify (setup : Setup) : Option Special :=
  let typ := setup.byte 0
  let request := setup.byte 1
  let value := setup.le16 2
  let index := setup.le16 4
  if typ &&& 0x80 ≠ 0 then none
  else if typ = 0x00 ∧ request = 0x05 then some (.setAddress value)
  else if typ = 0x00 ∧ request = 0x09 then some (.setConfiguration value)
  else if typ = 0x01 ∧ request = 0x0b then some (.setInterface index value)
  else if typ = 0x02 ∧ request = 0x01 ∧ value = 0 then some (.clearHalt index)
  else none

/-- The answer a special request gets, if this is one: success even when its ioctl failed,
unless the device is gone. -/
def tweakSpecialRequest (req : UrbRequest) (answer : Ioctl) : Option SubmitError :=
  match Special.classify req.setup with
  | none => none
  | some (.setAddress _) => some (.handled 0)
  | some _ =>
    match answer with
    | .ok => some (.handled 0)
    -- usbfs refuses SET_CONFIGURATION while an interface is claimed, which is always
    | .err e => if e = ENODEV ∨ e = ESHUTDOWN then some (.fatal (.os e)) else some (.handled 0)

/-! ### Submitting -/

/-- Register a URB the kernel has accepted. -/
def DevState.accept (st : DevState) (urb : PendingUrb) : DevState :=
  { st with
    pending := st.pending.insert urb.seqnum { urb, unlinked := false }
    keyed := by
      intro s e h
      by_cases hs : s = urb.seqnum
      · subst hs
        rw [AList.lookup_insert] at h
        rw [← Option.some.inj h]
      · rw [AList.lookup_insert_ne hs] at h
        exact st.keyed s e h }

namespace UsbfsDevice

variable (d : UsbfsDevice)

/-- The endpoint address and URB type of a request. -/
def urbTypeFor (ep : UInt8) (dir : Direction) : Except SubmitError (UInt8 × UrbType) :=
  let addr := if dir.isIn then ep ||| 0x80 else ep &&& 0x7f
  if ep = 0 then .ok (addr, .control)
  else match d.epTypes.lookup addr with
    | some .iso => .error (.urb (-EOPNOTSUPP))
    | some t => .ok (addr, t)
    | none => .error (.urb (-EPIPE))

def usbfsFlags (req : UrbRequest) (urbType : UrbType) : UInt32 :=
  (if req.dir.isIn ∧ req.transferFlags &&& SHORT_NOT_OK ≠ 0 then USBDEVFS_URB_SHORT_NOT_OK
    else 0) |||
  (if ¬ req.dir.isIn ∧ urbType = .bulk ∧ req.transferFlags &&& ZERO_PACKET ≠ 0 ∧
      d.caps &&& USBDEVFS_CAP_ZERO_PACKET ≠ 0 then USBDEVFS_URB_ZERO_PACKET else 0) |||
  (if req.transferFlags &&& NO_INTERRUPT ≠ 0 then USBDEVFS_URB_NO_INTERRUPT else 0)

/-- How many payload bytes a URB needs and where in its buffer they start. For control
transfers the larger of the buffer length and `wLength` counts. -/
def payloadLayout (req : UrbRequest) (urbType : UrbType) : ℕ × ℕ :=
  if urbType = .control then (max req.bufferLength (req.setup.le16 6).toNat, SETUP_LEN)
  else (req.bufferLength, 0)

/-- The buffer handed to the kernel. -/
def submitBuffer (req : UrbRequest) (urbType : UrbType) : Bytes :=
  let (payloadLen, dataOffset) := payloadLayout req urbType
  -- never empty, so that the pointer handed to the kernel is valid
  let buffer := List.replicate (max (dataOffset + payloadLen) 1) 0
  let buffer := if urbType = .control then overwrite buffer 0 req.setup.1 else buffer
  if ¬ req.dir.isIn ∧ req.data ≠ [] then
    overwrite buffer dataOffset (req.data.take payloadLen)
  else buffer

/-- The allocation a submit makes. -/
def pendingUrb (req : UrbRequest) (epAddr : UInt8) (urbType : UrbType) : PendingUrb where
  typ := urbType
  endpoint := epAddr
  flags := d.usbfsFlags req urbType
  buffer := submitBuffer req urbType
  seqnum := req.seqnum
  dir := req.dir
  dataOffset := (payloadLayout req urbType).2
  maxReply := req.bufferLength
  origin := req.origin

/-- What a refused `SUBMITURB` is reported as. -/
def submitErrno (e : Int32) : SubmitError :=
  if e = ENODEV ∨ e = ESHUTDOWN then .fatal (.os e) else .urb (-e)

/-- Submit one URB. `answer` is the kernel's answer to the one ioctl this makes, if any. -/
def submit (req : UrbRequest) (answer : Ioctl) (st : DevState) :
    Except SubmitError Unit × DevState :=
  match d.urbTypeFor req.ep req.dir with
  | .error e => (.error e, st)
  | .ok (epAddr, urbType) =>
    match (if urbType = .control then tweakSpecialRequest req answer else none) with
    | some e => (.error e, st)
    | none =>
      if d.maxTransfer < (payloadLayout req urbType).1 then (.error (.urb (-EINVAL)), st)
      -- a live seqnum is refused: two completions under one number would be ambiguous
      else if req.seqnum ∈ st.pending then (.error (.urb (-EBUSY)), st)
      else match answer with
        | .err e => (.error (submitErrno e), st)
        | .ok => (.ok (), st.accept (d.pendingUrb req epAddr urbType))

/-- **Submit.** Either the table is unchanged and the caller gets an error, or the seqnum was
free and one unmarked entry for the request has been inserted under it. -/
theorem submit_spec (req : UrbRequest) (answer : Ioctl) (st : DevState) :
    (∃ e, d.submit req answer st = (.error e, st)) ∨
      (req.seqnum ∉ st.pending ∧ ∃ epAddr urbType,
        d.submit req answer st = (.ok (), st.accept (d.pendingUrb req epAddr urbType))) := by
  unfold submit
  split
  · exact .inl ⟨_, rfl⟩
  · rename_i epAddr urbType _
    split
    · exact .inl ⟨_, rfl⟩
    · split_ifs with hlen hlive
      · exact .inl ⟨_, rfl⟩
      · exact .inl ⟨_, rfl⟩
      · cases answer with
        | err e => exact .inl ⟨_, rfl⟩
        | ok => exact .inr ⟨hlive, epAddr, urbType, rfl⟩

end UsbfsDevice

namespace DevState

theorem lookup_age (st : DevState) (s : UInt32) :
    st.age.pending.lookup s = (st.pending.lookup s).map fun e =>
      { e with urb := { e.urb with origin := .earlier } } :=
  Table.lookup_mapValues _ _ _

theorem lookup_accept (st : DevState) (urb : PendingUrb) (s : UInt32) :
    (st.accept urb).pending.lookup s =
      if s = urb.seqnum then some { urb, unlinked := false } else st.pending.lookup s := by
  split_ifs with h
  · subst h
    exact AList.lookup_insert _
  · exact AList.lookup_insert_ne h

/-! ### Unlinking -/

/-- An entry marked as unlinked. -/
def mark (e : Entry) : Entry := { e with unlinked := true }

/-- Cancel an in-flight URB; `true` if it was still in flight. The entry is marked whether or
not the discard lands. -/
def unlink (seqnum : UInt32) (answer : Ioctl) (st : DevState) : Bool × DevState :=
  match hs : st.pending.lookup seqnum with
  | none => (false, st)
  | some entry =>
    (answer = .ok, { st with
      pending := st.pending.replace seqnum (mark entry)
      keyed := by
        intro s e h
        rw [Table.lookup_replace (Table.mem_of_lookup hs)] at h
        split_ifs at h with heq
        · rw [← Option.some.inj h, heq]
          exact st.keyed seqnum entry hs
        · exact st.keyed s e h })

/-- **Unlink.** The entry under the seqnum is marked, and nothing else changes. -/
theorem lookup_unlink (seqnum : UInt32) (answer : Ioctl) (st : DevState) (s : UInt32) :
    (st.unlink seqnum answer).2.pending.lookup s =
      if s = seqnum then (st.pending.lookup s).map mark else st.pending.lookup s := by
  unfold unlink
  split
  · rename_i hs
    split_ifs with h
    · rw [h, hs, Option.map_none]
    · rfl
  · rename_i entry hs
    rw [Table.lookup_replace (Table.mem_of_lookup hs)]
    split_ifs with h
    · rw [h, hs, Option.map_some]
    · rfl

/-! ### Reaping -/

/-- A URB the kernel hands back: what it reports, and what it wrote into the buffer. -/
structure KernelUrb where
  seqnum : UInt32
  status : Int32
  actualLength : Int32
  written : Bytes
  deriving DecidableEq, Repr

/-- The completion `reap` builds from an entry and what the kernel reports for it. -/
def completion (e : Entry) (k : KernelUrb) : UrbCompletion :=
  let off := e.urb.dataOffset
  let avail := e.urb.buffer.length - off
  let actual := k.actualLength.toInt.toNat
  let buffer := overwrite e.urb.buffer off (k.written.take avail)
  let data := if e.urb.dir.isIn then (buffer.drop off).take (min (min actual e.urb.maxReply) avail)
    else []
  { seqnum := e.urb.seqnum
    status := k.status
    actualLength := if e.urb.dir.isIn then data.length else actual
    data
    unlinked := e.unlinked
    origin := e.urb.origin }

/-- Reap one URB. The kernel hands back only URBs it accepted and has not handed back before,
and those are exactly the ones in the table. -/
def reap (k : KernelUrb) (st : DevState) : Option (UrbCompletion × DevState) :=
  match st.pending.lookup k.seqnum with
  | none => none
  | some e =>
    some (completion e k, { st with
      pending := st.pending.erase e.urb.seqnum
      keyed := fun s e' h => st.keyed s e' <| by
        by_cases hs : s = e.urb.seqnum
        · rw [hs, AList.lookup_erase] at h
          cases h
        · rwa [AList.lookup_erase_ne hs] at h })

/-- **Reap.** One entry leaves the table and its completion is reported under its seqnum. -/
theorem reap_spec {k : KernelUrb} {st st' : DevState} {c : UrbCompletion}
    (h : st.reap k = some (c, st')) :
    ∃ e, st.pending.lookup k.seqnum = some e ∧ c = completion e k ∧ c.seqnum = k.seqnum ∧
      ∀ s, st'.pending.lookup s = if s = k.seqnum then none else st.pending.lookup s := by
  unfold reap at h
  split at h
  · cases h
  · rename_i e he
    obtain ⟨rfl, rfl⟩ := Prod.mk.inj (Option.some.inj h)
    have hkey : e.urb.seqnum = k.seqnum := st.keyed _ _ he
    refine ⟨e, he, rfl, hkey, fun s => ?_⟩
    dsimp only
    rw [hkey]
    split_ifs with hs
    · rw [hs, AList.lookup_erase]
    · exact AList.lookup_erase_ne hs

end DevState

/-- A completion answers its URB: IN data is as long as it says and no longer than was asked
for, and there is no OUT data. -/
structure UrbCompletion.Answers (c : UrbCompletion) (e : Entry) : Prop where
  actual : e.urb.dir = .in → c.actualLength = c.data.length
  bound : e.urb.dir = .in → c.data.length ≤ e.urb.maxReply
  out : e.urb.dir = .out → c.data = []

namespace DevState

theorem answers_completion (e : Entry) (k : KernelUrb) : (completion e k).Answers e where
  actual h := by simp [completion, Direction.isIn, h]
  bound h := by
    simp only [completion, Direction.isIn, h, decide_true, if_true, List.length_take]
    omega
  out h := by simp [completion, Direction.isIn, h]

/-! ### Cancelling what is left -/

/-- Unlink every seqnum of a list. The result of each is dropped. -/
def unlinkAll (st : DevState) (seqnums : List UInt32) (answers : UInt32 → Ioctl) : DevState :=
  seqnums.foldl (fun st s => (st.unlink s (answers s)).2) st

/-- The drain loop: reap until the table is empty or the time is up. `done` is what the kernel
hands back before the deadline. -/
def drain (st : DevState) : List KernelUrb → DevState
  | [] => st
  | k :: ks =>
    if st.pending.keys = [] then st
    else match st.reap k with
      | some (_, st') => st'.drain ks
      | none => st.drain ks

/-- Cancel every URB still in flight and drain what the cancellations complete. -/
def cancelPending (st : DevState) (answers : UInt32 → Ioctl) (done : List KernelUrb) :
    DevState :=
  if st.pending.keys = [] then st
  else (st.unlinkAll st.pending.keys answers).drain done

theorem lookup_unlinkAll (seqnums : List UInt32) (answers : UInt32 → Ioctl) (st : DevState)
    (s : UInt32) :
    (st.unlinkAll seqnums answers).pending.lookup s =
      if s ∈ seqnums then (st.pending.lookup s).map mark else st.pending.lookup s := by
  induction seqnums generalizing st with
  | nil => simp [unlinkAll]
  | cons a rest ih =>
    have hstep : st.unlinkAll (a :: rest) answers =
        (st.unlink a (answers a)).2.unlinkAll rest answers := rfl
    rw [hstep, ih, lookup_unlink]
    by_cases ha : s = a
    · subst ha
      cases st.pending.lookup s <;> simp [mark]
    · simp [ha]

/-- What the drain leaves in the table was there before it. -/
theorem lookup_of_drain {st : DevState} {done : List KernelUrb} {s : UInt32} {e : Entry}
    (h : (st.drain done).pending.lookup s = some e) : st.pending.lookup s = some e := by
  induction done generalizing st with
  | nil => exact h
  | cons k ks ih =>
    unfold drain at h
    split_ifs at h with hempty
    · exact h
    -- a reap only takes entries out, so what is left after it was there before it
    · cases hr : st.reap k with
      | none =>
        rw [hr] at h
        exact ih h
      | some r =>
        obtain ⟨c, st'⟩ := r
        rw [hr] at h
        obtain ⟨-, -, -, -, hlook⟩ := reap_spec hr
        have hs := ih h
        rw [hlook] at hs
        split_ifs at hs
        exact hs

/-- **Cancel.** Whatever is left in the table afterwards was in it before and is marked as
unlinked, however far the drain got. -/
theorem lookup_of_cancelPending {st : DevState} {answers : UInt32 → Ioctl}
    {done : List KernelUrb} {s : UInt32} {e : Entry}
    (h : (st.cancelPending answers done).pending.lookup s = some e) :
    e.unlinked = true ∧ s ∈ st.pending := by
  unfold cancelPending at h
  split_ifs at h with hempty
  · have hmem : s ∈ st.pending.keys := Table.mem_of_lookup h
    rw [hempty] at hmem
    cases hmem
  · have hall := lookup_of_drain h
    rw [lookup_unlinkAll] at hall
    split_ifs at hall with hs
    · obtain ⟨e₀, -, rfl⟩ := Option.map_eq_some_iff.mp hall
      exact ⟨rfl, hs⟩
    · exact absurd (Table.mem_of_lookup hall) hs

end DevState

/-- The usbfs device as the backend of the prefetcher: its state, with the kernel's answers to
the ioctls of the calls to come. -/
def UsbfsDevice.backend (d : UsbfsDevice) : UsbBackend (DevState × List Ioctl) where
  submit req s :=
    let (r, st) := d.submit req (s.2.headD .ok) s.1
    (r, st, s.2.tail)
  unlink seqnum s :=
    let (r, st) := s.1.unlink seqnum (s.2.headD .ok)
    (.ok r, st, s.2.tail)

end Padwire
