import Padwire.Lib.Run
import Padwire.Server.Chord
import Padwire.Server.Prefetch

/-!
# The URB pump

One imported device and the three threads that serve it (`usbfwd-server/src/session.rs`), as
an executable transition system. `step` moves one thread by one step that other threads can
observe: a call that runs under a mutex is one step, and so is each access to the stop flag and
to the channel, while work on a thread's own variables is part of the step before it. The
action says which thread moves and what its environment answers: the bytes on the socket, the
kernel's answer to each ioctl, the URB it hands back.

* The *reader* is the thread of `run` itself: it sets a session up, reads commands, and winds
  the session down.
* The *reaper* collects completions and posts replies to them.
* The *writer* takes replies off the bounded channel.

Sessions run one after another on one device: `start` begins the next one on the device state
the last one left. A few components are ghosts: they record what happened and no step depends
on them (`log`, `outbox`, `taken`, `ledger`, and the `Site` of a reply).
-/

namespace Padwire

/-- How many replies may queue up before a thread has to wait for the network. -/
def OUTBOX_DEPTH : ℕ := 512

/-- Everything a session needs beyond the socket and the device. -/
structure SessionOpts where
  prefetch : Bool
  /-- The chord that suspends this device, and how long it has to be held. -/
  hotkey : Option (Chord × ℕ)
  deriving DecidableEq, Repr

/-! ### Replies -/

/-- What a buffer handed to `post` spells. -/
inductive Reply
  | retSubmit (seqnum : UInt32) (ret : RetSubmit) (data : Bytes)
  | retUnlink (seqnum : UInt32) (status : Int32)
  deriving DecidableEq, Repr

/-- The buffer handed to `post`. -/
def Reply.buf : Reply → Bytes
  | .retSubmit seqnum ret data => writeRetSubmit seqnum ret data
  | .retUnlink seqnum status => writeRetUnlink seqnum status

/-- Ghost: which branch of the program built a reply. -/
inductive Site
  | isoRefusal
  | handled
  | rejected
  | prefetched (address : UInt8)
  | prefetchFill (address : UInt8)
  | reaped
  /-- The answer to a `USBIP_CMD_UNLINK` that names `target`. -/
  | unlinkAck (target : UInt32)
  deriving DecidableEq, Repr

/-- A reply on its way to the outbox. -/
structure Out where
  reply : Reply
  site : Site
  deriving DecidableEq, Repr

def encodeError (seqnum : UInt32) (status : Int32) : Reply :=
  .retSubmit seqnum { status } []

/-- The reply both prefetch routes build. -/
def prefetchReply (seqnum : UInt32) (status : Int32) (data : Bytes) : Reply :=
  .retSubmit seqnum { status, actualLength := Int32.ofNat data.length } data

/-- The reply to a reaped client URB. -/
def completionReply (c : UrbCompletion) : Reply :=
  .retSubmit c.seqnum { status := c.status, actualLength := Int32.ofNat c.actualLength } c.data

/-! ### The ledger of reports -/

inductive Holder
  | reader
  | reaper
  deriving DecidableEq, Repr

/-- Ghost: what has become of a report that `deliver` took for an endpoint. -/
inductive Fate
  | buffered
  /-- A thread is posting it to a client that asked for `maxLen` bytes. -/
  | inHand (holder : Holder) (seqnum : UInt32) (maxLen : ℕ)
  | posted (seqnum : UInt32) (maxLen : ℕ)
  /-- It was the oldest of a full buffer, which is recorded, when another arrived. -/
  | evicted (buffer : List Bytes)
  /-- It was buffered when the endpoint was disabled or shut down. -/
  | cleared
  /-- `post` gave up on it. -/
  | unposted
  deriving DecidableEq, Repr

/-- Ghost: a successful completion that `deliver` took for an endpoint. -/
structure Tracked where
  report : Bytes
  fate : Fate
  deriving DecidableEq, Repr

namespace Tracked

def isBuffered (t : Tracked) : Bool := t.fate = .buffered

/-- A buffered report is cleared. -/
def clear (t : Tracked) : Tracked := if t.isBuffered then { t with fate := .cleared } else t

/-- A thread has posted what it held. -/
def post (h : Holder) (t : Tracked) : Tracked :=
  match t.fate with
  | .inHand h' seqnum maxLen =>
    if h' = h then { t with fate := .posted seqnum maxLen } else t
  | _ => t

/-- A thread gave up on what it held. -/
def giveUp (h : Holder) (t : Tracked) : Tracked :=
  match t.fate with
  | .inHand h' _ _ => if h' = h then { t with fate := .unposted } else t
  | _ => t

end Tracked

/-- The oldest buffered report meets this fate. -/
def settleOldest (fate : Fate) : List Tracked → List Tracked
  | [] => []
  | t :: ts => if t.isBuffered then { t with fate } :: ts else t :: settleOldest fate ts

/-- The ledger of an endpoint after it has taken a completion. -/
def trackDelivery (ep : Endpoint) (c : UrbCompletion) (ts : List Tracked) : List Tracked :=
  if c.status ≠ 0 then
    if MAX_CONSECUTIVE_ERRORS ≤ ep.errors + 1 then ts.map Tracked.clear else ts
  else match ep.waiting with
    | some w =>
      ts ++ [{ report := c.data, fate := .inHand .reaper w.seqnum w.maxLen }]
    | none =>
      (if ep.captured.length = DEPTH then settleOldest (.evicted ep.captured) ts else ts) ++
        [{ report := c.data, fate := .buffered }]

/-! ### States -/

/-- Where the thread of `run` is. -/
inductive MainPc
  /-- The endpoints are armed; the threads are about to be spawned. -/
  | setup
  /-- At the head of the reader's loop. -/
  | top
  | reading
  /-- About to call `prefetch.take`. -/
  | take (req : UrbRequest)
  /-- About to call `dev.submit`. -/
  | submit (req : UrbRequest)
  /-- About to call `prefetch.unlink`, for a command with this seqnum. -/
  | unlink (seqnum target : UInt32)
  /-- About to call `dev.unlink`. -/
  | devUnlink (seqnum target : UInt32)
  /-- In `post`; `full` if the channel was full and the stop flag is looked at next. -/
  | posting (out : Out) (full : Bool)
  /-- The reader's loop has returned. -/
  | returned
  /-- The stop flag is set; about to call `prefetch.shutdown`. -/
  | stopped
  /-- The prefetcher is shut down and the sender dropped; joining the other threads. -/
  | shutDown
  /-- Both threads are joined; about to call `dev.cancel_pending`. -/
  | joined
  | ended
  /-- A thread could not be spawned, and `run` returned early. -/
  | failed
  deriving DecidableEq, Repr

/-- What a round of the reaper remembers until its reap loop has drained. -/
structure Round where
  gone : Bool
  fired : Bool
  deriving DecidableEq, Repr

/-- Where the reaper is. -/
inductive ReaperPc
  /-- Not started yet, or returned. -/
  | idle
  /-- At the head of its loop. -/
  | top
  /-- In `dev.wait`. -/
  | waiting
  /-- About to call `dev.reap`. -/
  | reaping (r : Round)
  /-- Holding a completion in the internal range, about to call `prefetch.deliver`. -/
  | delivering (c : UrbCompletion) (r : Round)
  | posting (out : Out) (full : Bool) (r : Round)
  /-- Out of the loop, about to set the stop flag. -/
  | leaving
  deriving DecidableEq, Repr

/-- Where the writer is. -/
inductive WriterPc
  | running
  /-- Out of the loop, about to set the stop flag. -/
  | closing
  /-- Returned: the receiving end of the channel is gone. -/
  | idle
  deriving DecidableEq, Repr

structure State where
  dev : DevState
  prefetch : Prefetch
  detector : Option Detector
  stop : Bool
  queue : List Bytes
  main : MainPc
  reaper : ReaperPc
  writer : WriterPc
  /-- Ghost: the commands read so far. -/
  log : List Pdu
  /-- Ghost: the replies put into the channel so far. -/
  outbox : List Out
  /-- Ghost: the completions passed to `deliver` so far. -/
  taken : List UrbCompletion
  /-- Ghost: per endpoint, the reports `deliver` took for it. -/
  ledger : UInt8 → List Tracked

/-- A device that no session has used yet. -/
def State.initial : State where
  dev := .fresh
  prefetch := .disabled
  detector := none
  stop := false
  queue := []
  main := .ended
  reaper := .idle
  writer := .idle
  log := []
  outbox := []
  taken := []
  ledger _ := []

/-! ### The reader -/

/-- A submit in backend terms. -/
def urbRequest (pdu : Pdu) (c : CmdSubmit) : UrbRequest where
  seqnum := pdu.header.base.seqnum
  ep := (pdu.header.base.ep &&& 0x0f).toUInt8
  dir := pdu.header.base.dir
  transferFlags := c.transferFlags
  setup := c.setup
  bufferLength := c.transferBufferLength.toInt.toNat
  data := pdu.data
  origin := .client

/-- What the reader does next with a command it has read. `none` is the `unreachable!`. -/
def dispatch (pdu : Pdu) : Option MainPc :=
  let seqnum := pdu.header.base.seqnum
  match pdu.header.body with
  | .cmdSubmit c =>
    if c.isIso then
      some (.posting { reply := encodeError seqnum (-EOPNOTSUPP), site := .isoRefusal } false)
    else
      let req := urbRequest pdu c
      some (if req.dir = .in then .take req else .submit req)
  | .cmdUnlink u => some (.unlink seqnum u.unlinkSeqnum)
  | _ => none

/-- The endpoint address the prefetcher is asked about. -/
def UrbRequest.address (req : UrbRequest) : UInt8 := req.ep ||| 0x80

/-- The reply to a `USBIP_CMD_UNLINK`. -/
def unlinkOut (seqnum target : UInt32) (cancelled : Bool) : Out where
  reply := .retUnlink seqnum (if cancelled then -ECONNRESET else 0)
  site := .unlinkAck target

/-- What comes after `prefetch.take` has answered. -/
def afterTake (req : UrbRequest) : Take → MainPc
  | .ready data =>
    .posting { reply := prefetchReply req.seqnum 0 data, site := .prefetched req.address } false
  | .waiting => .top
  | .passThrough => .submit req

/-- What comes after `dev.submit` has answered. -/
def afterSubmit (req : UrbRequest) : Except SubmitError Unit → MainPc
  | .ok () => .top
  | .error (.handled status) =>
    .posting { reply := encodeError req.seqnum status, site := .handled } false
  | .error (.urb status) =>
    .posting { reply := encodeError req.seqnum status, site := .rejected } false
  | .error (.fatal _) => .returned

/-- Begin a session: create the prefetcher and arm its endpoints. -/
def start (d : UsbfsDevice) (opts : SessionOpts) (answers : List Ioctl) (dev : DevState) : State :=
  let (p, dev', _) :=
    (Prefetch.new d.interruptInEndpoints opts.prefetch).arm d.backend (dev.age, answers)
  { State.initial with
    dev := dev'
    prefetch := p
    detector := opts.hotkey.map fun h => { chord := h.1, hold := h.2 }
    main := .setup
    writer := .running }

/-! ### The channel -/

/-- What one turn of the loop in `post` comes to. -/
inductive PostTurn
  | sent
  | sawFull
  | retry
  | gaveUp
  deriving DecidableEq, Repr

/-- One turn of the loop in `post`: try to send or, if the channel was full, look at the stop
flag. -/
def postTurn (st : State) (full : Bool) : PostTurn :=
  if full then if st.stop then .gaveUp else .retry
  -- the receiving end is gone
  else if st.writer = .idle then .gaveUp
  else if st.queue.length < OUTBOX_DEPTH then .sent
  else .sawFull

/-- A reply goes into the channel. -/
def State.put (st : State) (h : Holder) (out : Out) : State :=
  { st with
    queue := st.queue ++ [out.reply.buf]
    outbox := st.outbox ++ [out]
    ledger := fun a => (st.ledger a).map (Tracked.post h) }

/-- A reply is given up. -/
def State.drop (st : State) (h : Holder) : State :=
  { st with ledger := fun a => (st.ledger a).map (Tracked.giveUp h) }

/-! ### The reaper -/

/-- What comes after the reap loop. -/
def Round.next (r : Round) : ReaperPc := if r.fired || r.gone then .leaving else .top

/-- What comes after `prefetch.deliver` has answered for an endpoint. -/
def afterDeliver (address : UInt8) (r : Round) : Option (UInt32 × Int32 × Bytes) → ReaperPc
  | some (seqnum, status, data) =>
    .posting { reply := prefetchReply seqnum status data, site := .prefetchFill address } false r
  | none => .reaping r

/-- Ghost: record a completion passed to `deliver`, in the ledger of the endpoint that has the
URB in flight. -/
def State.trackDeliver (st : State) (c : UrbCompletion) : State :=
  { st with
    taken := st.taken ++ [c]
    ledger :=
      match st.prefetch.owner? c.seqnum with
      | none => st.ledger
      | some address =>
        match st.prefetch.ep? address with
        | none => st.ledger
        | some ep =>
          Function.update st.ledger address (trackDelivery ep c (st.ledger address)) }

/-! ### The transition system -/

inductive Action
  /-- Begin the next session on the device. -/
  | start (opts : SessionOpts) (answers : List Ioctl)
  | spawn (ok : Bool)
  /-- The head of the reader's loop. -/
  | check (shuttingDown : Bool)
  /-- `read_pdu` on what the socket holds. -/
  | read (input : Bytes)
  | take (answer : Ioctl)
  | submit (answer : Ioctl)
  | unlink
  | devUnlink (answer : Ioctl)
  | mainPost
  /-- Set the stop flag after the reader's loop. -/
  | halt
  | shutdown (answers : List Ioctl)
  | join
  | cancel (answers : UInt32 → Ioctl) (done : List DevState.KernelUrb)
  /-- The head of the reaper's loop. -/
  | poll
  /-- `dev.wait` returns. -/
  | wake (ready gone : Bool)
  | waitFails
  | reap (k : DevState.KernelUrb) (now : ℕ)
  | reapNone
  | reapFails
  | deliver (answer : Ioctl)
  | reaperPost
  | leave
  /-- The writer takes one buffer and writes it to the socket. -/
  | write (ok : Bool)
  /-- The writer finds every sender gone. -/
  | hangUp
  | writerStop

/-- One step of one thread. -/
def step (d : UsbfsDevice) (st : State) : Action → Option State
  | .start opts answers =>
    match st.main with
    | .ended | .failed => some (start d opts answers st.dev)
    | _ => none
  | .spawn ok =>
    match st.main with
    | .setup =>
      -- if a spawn fails `run` returns early, and dropping the sender ends the writer
      some (if ok then { st with main := .top, reaper := .top }
        else { st with main := .failed, writer := .idle })
    | _ => none
  | .check shuttingDown =>
    match st.main with
    | .top => some { st with main := if st.stop || shuttingDown then .returned else .reading }
    | _ => none
  | .read input =>
    match st.main with
    | .reading =>
      match (readPdu d.maxTransfer).run input with
      -- a hang-up, a malformed header or a read error: the loop returns in every case
      | .error _ => some { st with main := .returned }
      | .ok (pdu, _) => (dispatch pdu).map fun pc => { st with main := pc, log := st.log ++ [pdu] }
    | _ => none
  | .take answer =>
    match st.main with
    | .take req =>
      let (t, p, dev, _) := st.prefetch.take d.backend req.address req.seqnum req.bufferLength
        (st.dev, [answer])
      some { st with
        prefetch := p
        dev
        main := afterTake req t
        ledger :=
          match t with
          | .ready _ => Function.update st.ledger req.address
              (settleOldest (.inHand .reader req.seqnum req.bufferLength)
                (st.ledger req.address))
          | _ => st.ledger }
    | _ => none
  | .submit answer =>
    match st.main with
    | .submit req =>
      let (r, dev) := d.submit req answer st.dev
      some { st with dev, main := afterSubmit req r }
    | _ => none
  | .unlink =>
    match st.main with
    | .unlink seqnum target =>
      -- a waiter has no URB of its own to discard, so the prefetcher is asked first
      let (cancelled, p) := st.prefetch.unlink target
      some { st with
        prefetch := p
        main := if cancelled then .posting (unlinkOut seqnum target true) false
          else .devUnlink seqnum target }
    | _ => none
  | .devUnlink answer =>
    match st.main with
    | .devUnlink seqnum target =>
      let (cancelled, dev) := st.dev.unlink target answer
      some { st with dev, main := .posting (unlinkOut seqnum target cancelled) false }
    | _ => none
  | .mainPost =>
    match st.main with
    | .posting out full =>
      match postTurn st full with
      | .sent => some { st.put .reader out with main := .top }
      | .sawFull => some { st with main := .posting out true }
      | .retry => some { st with main := .posting out false }
      | .gaveUp => some { st.drop .reader with main := .returned }
    | _ => none
  | .halt =>
    match st.main with
    | .returned => some { st with stop := true, main := .stopped }
    | _ => none
  | .shutdown answers =>
    match st.main with
    | .stopped =>
      let (p, dev, _) := st.prefetch.shutdown d.backend (st.dev, answers)
      some { st with
        prefetch := p
        dev
        main := .shutDown
        ledger := fun a => (st.ledger a).map Tracked.clear }
    | _ => none
  -- both joins wait for the other threads to return
  | .join =>
    match st.main with
    | .shutDown =>
      if st.reaper = .idle ∧ st.writer = .idle then some { st with main := .joined } else none
    | _ => none
  | .cancel answers done =>
    match st.main with
    | .joined => some { st with dev := st.dev.cancelPending answers done, main := .ended }
    | _ => none
  | .poll =>
    match st.reaper with
    | .top => some { st with reaper := if st.stop then .leaving else .waiting }
    | _ => none
  | .wake ready gone =>
    match st.reaper with
    | .waiting =>
      let r : Round := { gone, fired := false }
      some { st with reaper := if ready then .reaping r else r.next }
    | _ => none
  | .waitFails =>
    match st.reaper with
    | .waiting => some { st with reaper := .leaving }
    | _ => none
  | .reap k now =>
    match st.reaper with
    | .reaping r =>
      (st.dev.reap k).map fun (c, dev) =>
        -- the client was told that this URB was cancelled; both arms of the match drop it
        if c.unlinked then { st with dev }
        else
          let (fired, detector, c) := screen st.detector c now
          let r := { r with fired := r.fired || fired }
          { st with
            dev
            detector
            reaper :=
              if Prefetch.owns c.seqnum then .delivering c r
              else .posting { reply := completionReply c, site := .reaped } false r }
    | _ => none
  | .reapNone =>
    match st.reaper with
    | .reaping r => some { st with reaper := r.next }
    | _ => none
  | .reapFails =>
    match st.reaper with
    | .reaping r => some { st with stop := true, reaper := r.next }
    | _ => none
  | .deliver answer =>
    match st.reaper with
    | .delivering c r =>
      let (delivery, p, dev, _) := st.prefetch.deliver d.backend c.seqnum c.status c.data
        (st.dev, [answer])
      some { st.trackDeliver c with
        prefetch := p
        dev
        reaper := afterDeliver ((st.prefetch.owner? c.seqnum).getD 0) r delivery.reply }
    | _ => none
  | .reaperPost =>
    match st.reaper with
    | .posting out full r =>
      match postTurn st full with
      | .sent => some { st.put .reaper out with reaper := .reaping r }
      | .sawFull => some { st with reaper := .posting out true r }
      | .retry => some { st with reaper := .posting out false r }
      -- out of the reap loop, with the round's own checks still to come
      | .gaveUp => some { st.drop .reaper with stop := true, reaper := r.next }
    | _ => none
  | .leave =>
    match st.reaper with
    | .leaving => some { st with stop := true, reaper := .idle }
    | _ => none
  | .write ok =>
    match st.writer, st.queue with
    | .running, _ :: rest =>
      some { st with queue := rest, writer := if ok then .running else .closing }
    | _, _ => none
  | .hangUp =>
    match st.writer, st.queue with
    | .running, [] =>
      -- the reader's sender is dropped in the teardown, the reaper's when it returns
      if st.main = .shutDown ∧ st.reaper = .idle then some { st with writer := .closing } else none
    | _, _ => none
  | .writerStop =>
    match st.writer with
    | .closing => some { st with stop := true, writer := .idle }
    | _ => none

/-- The states that any interleaving reaches, in any sequence of sessions on one device. -/
abbrev SessionReachable (d : UsbfsDevice) : State → Prop :=
  Reachable (step d) (· = State.initial)

/-- The state an evaluated run of sessions ends in is reachable. -/
theorem exists_session_of_run (d : UsbfsDevice) (as : List Action) (p : State → Bool)
    (hp : (run (step d) State.initial as).any p = true) :
    ∃ st, SessionReachable d st ∧ p st = true :=
  exists_reachable_of_run (· = State.initial) rfl hp

/-- The state an evaluated run of sessions ends in is reached, under a condition checked along
the way. -/
theorem exists_session_of_runIf (d : UsbfsDevice) {ok : State → Action → Prop}
    {check : State → Action → Bool} (hok : ∀ st a, check st a = true → ok st a)
    (as : List Action) (p : State → Bool)
    (hp : (runIf (step d) check State.initial as).any p = true) :
    ∃ st, Reach (step d) (· = State.initial) ok st ∧ p st = true :=
  exists_reach_of_runIf (· = State.initial) hok rfl hp

/-! ### A gamepad -/

/-- A gamepad: one interface with one interrupt IN endpoint. -/
def gamepad : UsbfsDevice where
  epTypes := AList.insert 0x81 .interrupt ∅
  caps := 0
  maxTransfer := 4096
  interfaceNumbers := [0]
  interruptInEndpoints := [(0x81, 64)]

/-- A session begins and its threads run. -/
def begin (prefetch : Bool) : List Action :=
  [.start { prefetch, hotkey := none } [], .spawn true]

/-- The reader reads one command. -/
def receive (pdu : Pdu) : List Action := [.check false, .read pdu.encode]

/-- The reaper wakes up and reaps one URB. -/
def reapOne (seqnum : UInt32) (status : Int32) (data : Bytes) : List Action :=
  [.poll, .wake true false,
    .reap { seqnum, status, actualLength := Int32.ofNat data.length, written := data } 0]

end Padwire
