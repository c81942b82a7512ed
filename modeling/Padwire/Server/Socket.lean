import Padwire.Server.Answers

/-!
# A session and its socket

The pump of `Session` on a stream socket, with the importer at the other end
(`usbfwd-server/src/session.rs`). `step` leaves it to its environment what a read returns and
whether a write succeeds; here the socket decides, and both may wait. `read_pdu` waits until a
command has arrived whole, and `write_all` until the kernel has taken all of a buffer. An importer
that keeps the connection open and neither sends nor reads lets both wait for good, unless one of
the threads shuts the socket down: the reader in its teardown, and the reaper and the writer when
they return. Each of these three calls of `shutdown(Both)` is a step of its own.

`session_of_conn` says that what the threads do is a run of `step`, so that all that is known of
`SessionReachable` holds here.
-/

namespace Padwire

variable {d : UsbfsDevice}

/-- The step that begins the next session. -/
def Action.begins : Action → Bool
  | .start _ _ => true
  | _ => false

/-- A thread that shuts the socket down. -/
inductive Closer
  | reader
  | reaper
  | writer
  deriving DecidableEq, Repr

/-- A session with its socket. -/
structure Conn where
  st : State
  /-- What the importer has sent and the reader has not consumed. -/
  inbox : Bytes
  /-- How many bytes of replies the kernel takes before a write has to wait for the importer. -/
  room : ℕ
  /-- The importer has closed its end, or the keepalive probes have given it up. -/
  gone : Bool
  /-- The socket is shut down in both directions. -/
  shut : Bool
  /-- The threads that are about to shut it down. -/
  closing : Closer → Bool
  /-- Ghost: what the importer has sent in this session. -/
  received : Bytes
  /-- Ghost: the buffers the writer has taken off the channel in this session. The last one may
  have reached the socket in part only. -/
  written : List Bytes

/-- Before the first session. -/
def Conn.initial : Conn where
  st := .initial
  inbox := []
  room := 0
  gone := false
  shut := false
  closing _ := false
  received := []
  written := []

inductive ConnAction
  /-- The importer sends some bytes. -/
  | send (bs : Bytes)
  /-- The importer reads some bytes, and as many more fit in front of it. -/
  | drain (n : ℕ)
  | goAway
  /-- A thread calls `shutdown(Both)`. -/
  | close (t : Closer)
  /-- A thread of the session moves. -/
  | pump (a : Action)

namespace Conn

/-- `read_pdu` returns: the stream has come to its end, or what has arrived is a command or cannot
become one. -/
def canRead (maxTransfer : ℕ) (c : Conn) : Bool :=
  c.shut || c.gone ||
    match (readPdu maxTransfer).run c.inbox with
    | .error .unexpectedEof => false
    | _ => true

/-- The buffer that the writer takes next. -/
def nextBuffer (c : Conn) : Bytes := c.st.queue.headD []

/-- The socket and the other threads let a thread make this step. -/
def allows (d : UsbfsDevice) (c : Conn) : Action → Bool
  -- a connection that was reset loses what has arrived
  | .read input => (input = c.inbox && c.canRead d.maxTransfer) || (input = [] && c.gone)
  | .write true => !c.shut && decide (c.nextBuffer.length ≤ c.room)
  | .write false => c.shut || c.gone
  -- a thread drops its sender, and returns, after it has shut the socket down
  | .hangUp => !c.closing .reader && !c.closing .reaper
  | .join => !c.closing .reader && !c.closing .reaper && !c.closing .writer
  | _ => true

/-- What the reader leaves in the socket. After a failed read the loop returns, and what is left
then is never looked at. -/
def leftover (maxTransfer : ℕ) (c : Conn) (input : Bytes) : Bytes :=
  match (readPdu maxTransfer).run input with
  | .ok (_, rest) => rest
  | .error _ => c.inbox

/-- The socket after a step of a thread that leaves the session in the state `st`. -/
def after (d : UsbfsDevice) (c : Conn) (st : State) : Action → Conn
  -- each session has a connection of its own
  | .start _ _ => { initial with st }
  | .read input => { c with st, inbox := c.leftover d.maxTransfer input }
  | .write ok =>
    { c with
      st
      room := if ok then c.room - c.nextBuffer.length else c.room
      written := c.written ++ c.st.queue.take 1 }
  | .shutdown _ => { c with st, closing := Function.update c.closing .reader true }
  | .leave => { c with st, closing := Function.update c.closing .reaper true }
  | .writerStop => { c with st, closing := Function.update c.closing .writer true }
  | _ => { c with st }

end Conn

/-- One step of the importer or of a thread of the session. -/
def connStep (d : UsbfsDevice) (c : Conn) : ConnAction → Option Conn
  | .send bs => some { c with inbox := c.inbox ++ bs, received := c.received ++ bs }
  | .drain n => some { c with room := c.room + n }
  | .goAway => some { c with gone := true }
  | .close t =>
    if c.closing t then
      some { c with shut := true, closing := Function.update c.closing t false }
    else none
  | .pump a => if c.allows d a then (step d c.st a).map fun st => c.after d st a else none

/-- The states that any interleaving of an importer and the session reaches. -/
abbrev ConnReachable (d : UsbfsDevice) : Conn → Prop :=
  Reachable (connStep d) (· = Conn.initial)

variable {c c' : Conn} {a : Action}

@[simp]
theorem Conn.after_st (st : State) (a : Action) : (c.after d st a).st = st := by
  cases a <;> rfl

/-- A thread of the session moves as `step` says, if the socket lets it. -/
theorem connStep_pump : connStep d c (.pump a) = some c' ↔
    c.allows d a = true ∧ ∃ st', step d c.st a = some st' ∧ c' = c.after d st' a := by
  rw [connStep]
  split_ifs with hallows
  · simp only [Option.map_eq_some_iff, hallows, true_and]
    exact exists_congr fun st' => and_congr_right fun _ => eq_comm
  · exact iff_of_false (by simp) fun h => hallows h.1

theorem step_of_connStep (h : connStep d c (.pump a) = some c') : step d c.st a = some c'.st := by
  obtain ⟨-, st', hst, rfl⟩ := connStep_pump.mp h
  rw [hst, Conn.after_st]

/-- Only the threads change the state of the session. -/
theorem st_of_connStep {x : ConnAction} (h : connStep d c x = some c') :
    c'.st = c.st ∨ ∃ a, x = .pump a ∧ step d c.st a = some c'.st := by
  cases x with
  | pump a => exact .inr ⟨a, rfl, step_of_connStep h⟩
  | close t =>
    rw [connStep] at h
    split_ifs at h
    cases h
    exact .inl rfl
  | send bs | drain n | goAway =>
    cases h
    exact .inl rfl

/-- Under the socket there is a session. -/
theorem session_of_conn (h : ConnReachable d c) : SessionReachable d c.st := by
  refine h.invariant (fun c => SessionReachable d c.st) (fun c hc => ?_) fun c x c' ih _ hstep => ?_
  · rw [hc]
    exact .start rfl
  · rcases st_of_connStep hstep with hsame | ⟨a, -, ha⟩
    · rw [hsame]
      exact ih
    · exact ih.next trivial ha

end Padwire
