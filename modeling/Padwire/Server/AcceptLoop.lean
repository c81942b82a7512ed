import Padwire.Lib.Pool
import Padwire.Lib.Table
import Mathlib.Algebra.Group.Nat.Defs

/-!
# The accept loop and its sessions

`accept_loop` (`usbfwd-server/src/lib.rs`) accepts connections on one thread and gives each of them
a thread of its own, which is detached. The two kinds of threads share the counter `sessions` and
the map `live` of sockets that `drain` shuts down, and every access to one of these is a step here.

A session thread runs `handle`, which is arbitrary code here: it returns `Ok` or `Err`, or it
unwinds, at any time. The two lines after `handle` take the socket out of the map and decrement the
counter; an unwinding panic passes them by, because neither of them is in a guard's `Drop`. No
thread panics while it holds the lock of the map, so that this lock is never poisoned.
-/

namespace Padwire

/-- The cap on the connections that are open at one time. -/
def MAX_SESSIONS : ℕ := 16

namespace AcceptLoop

/-! ### The two kinds of threads -/

/-- `fetch_add(1)` on an atomic of 64 bits. -/
def fetchAdd (n : ℕ) : ℕ := (n + 1) % 2 ^ 64

/-- `fetch_sub(1)` on an atomic of 64 bits. -/
def fetchSub (n : ℕ) : ℕ := (n + 2 ^ 64 - 1) % 2 ^ 64

/-- Where the accept loop is. Inside the `for` loop it carries the listeners with `POLLIN` that
the loop has yet to come to; a connection is named by its number in the order of `accept`. -/
inductive Pc
  | polling
  | scanning (ready : List ℕ)
  /-- A connection was accepted; the counter is not looked at yet. -/
  | accepted (stream : ℕ) (ready : List ℕ)
  /-- The counter was below the cap. -/
  | admitted (stream : ℕ) (ready : List ℕ)
  /-- The counter is incremented. -/
  | counted (stream : ℕ) (ready : List ℕ)
  | numbered (id stream : ℕ) (ready : List ℕ)
  /-- Whatever goes into the map is there; about to spawn. -/
  | spawning (id stream : ℕ) (ready : List ℕ)
  /-- The thread could not be spawned. -/
  | failed (id stream : ℕ) (ready : List ℕ)
  | unregistered (stream : ℕ) (ready : List ℕ)
  | draining
  /-- `drain` waits for the counter or the deadline. -/
  | waiting
  | returned
  deriving DecidableEq, Repr

/-- What the accept loop and the sessions share, and where the accept loop is. -/
structure Acceptor where
  pc : Pc
  sessions : ℕ
  /-- Live connections: the socket under each id. -/
  live : Table ℕ ℕ
  nextId : ℕ
  /-- How many connections were accepted. -/
  streams : ℕ

/-- What the accept loop is answered. -/
inductive Answer
  /-- `stop` asks for the shutdown. -/
  | stop
  /-- `poll` returns the listeners that are ready (none of them on a timeout or `EINTR`), or it
  fails. -/
  | poll (ready : Option (List ℕ))
  | accept (ok : Bool)
  | tryClone (ok : Bool)
  /-- `spawn` fails. -/
  | noThread
  /-- `DRAIN_TIMEOUT` is over. -/
  | deadline
  /-- The next step needs no answer. -/
  | none
  deriving DecidableEq, Repr

/-- One step of the accept loop, the spawning of a thread apart. -/
def accept (s : Acceptor) (answer : Answer) : Option Acceptor :=
  match s.pc, answer with
  | .polling, .stop => some { s with pc := .draining }
  | .polling, .poll none => some { s with pc := .returned }
  | .polling, .poll (some ready) => some { s with pc := .scanning ready }
  | .scanning [], .none => some { s with pc := .polling }
  | .scanning (_ :: ready), .accept false => some { s with pc := .scanning ready }
  | .scanning (_ :: ready), .accept true =>
    some { s with pc := .accepted s.streams ready, streams := s.streams + 1 }
  | .accepted stream ready, .none =>
    if MAX_SESSIONS ≤ s.sessions then some { s with pc := .scanning ready }
    else some { s with pc := .admitted stream ready }
  | .admitted stream ready, .none =>
    some { s with pc := .counted stream ready, sessions := fetchAdd s.sessions }
  | .counted stream ready, .none =>
    some { s with pc := .numbered s.nextId stream ready, nextId := fetchAdd s.nextId }
  | .numbered id stream ready, .tryClone true =>
    some { s with pc := .spawning id stream ready, live := s.live.insert id stream }
  | .numbered id stream ready, .tryClone false => some { s with pc := .spawning id stream ready }
  | .spawning id stream ready, .noThread => some { s with pc := .failed id stream ready }
  | .failed id stream ready, .none =>
    some { s with pc := .unregistered stream ready, live := s.live.erase id }
  | .unregistered _ ready, .none =>
    some { s with pc := .scanning ready, sessions := fetchSub s.sessions }
  | .draining, .none => some { s with pc := if s.sessions = 0 then .returned else .waiting }
  | .waiting, .none => some { s with pc := if 0 < s.sessions then .waiting else .returned }
  | .waiting, .deadline => some { s with pc := .returned }
  | _, _ => none

/-- Where a session thread is. -/
inductive SessionPc
  | handling
  /-- `handle` has returned. -/
  | handled
  /-- The socket is out of the map. -/
  | removed
  | ended
  /-- `handle` has unwound, and with it the thread. -/
  | unwound
  deriving DecidableEq, Repr

/-- The thread of one connection. -/
structure Session where
  id : ℕ
  stream : ℕ
  pc : SessionPc
  deriving DecidableEq, Repr

/-- How `handle` ends. -/
inductive Ending
  | ok | err | panic
  deriving DecidableEq, Repr

inductive SessionAct
  | handle (ending : Ending)
  /-- The next line after `handle`. -/
  | next
  deriving DecidableEq, Repr

/-- One step of a session thread. -/
def serve (s : Acceptor) (t : Session) (a : SessionAct) : Option (Acceptor × Session) :=
  match t.pc, a with
  | .handling, .handle .panic => some (s, { t with pc := .unwound })
  | .handling, .handle _ => some (s, { t with pc := .handled })
  | .handled, .next => some ({ s with live := s.live.erase t.id }, { t with pc := .removed })
  | .removed, .next => some ({ s with sessions := fetchSub s.sessions }, { t with pc := .ended })
  | _, _ => none

/-- The thread of the connection at hand is spawned. -/
def spawn (s : Acceptor) (_ : Unit) : Option (Acceptor × Session) :=
  match s.pc with
  | .spawning id stream ready =>
    some ({ s with pc := .scanning ready }, { id, stream, pc := .handling })
  | _ => none

/-- The accept loop with any number of sessions. -/
def acceptLoop : Program Acceptor Session Unit SessionAct Answer where
  spawn := spawn
  move := serve
  env := accept

def Initial (p : Pool Acceptor Session) : Prop :=
  p = ⟨{ pc := .polling, sessions := 0, live := ∅, nextId := 0, streams := 0 }, []⟩

/-! ### The counter and the map -/

/-- The thread still runs. -/
def Session.running (t : Session) : Bool :=
  match t.pc with
  | .handling | .handled | .removed => true
  | .ended | .unwound => false

/-- The connection that is counted and has no thread yet. -/
def Pc.admitting : Pc → Option ℕ
  | .counted stream _ | .numbered _ stream _ | .spawning _ stream _ | .failed _ stream _
  | .unregistered stream _ => some stream
  | _ => none

/-- How many session threads run. -/
def running (p : Pool Acceptor Session) : ℕ := p.threads.countP Session.running

/-- The counter is the number of sessions that run (the connection that is just being given its
thread is counted already), it keeps to the cap, and every socket in the map is of a session that
runs or is that connection's. -/
structure Balanced (p : Pool Acceptor Session) : Prop where
  counter : p.shared.sessions = running p + p.shared.pc.admitting.toList.length
  cap : p.shared.sessions ≤ MAX_SESSIONS
  live : ∀ id stream, p.shared.live.lookup id = some stream →
    (∃ t ∈ p.threads, t.stream = stream ∧ t.running) ∨ p.shared.pc.admitting = some stream

/-! ### What a step does -/

/-- The socket of the connection may be in the map: its thread has not taken it out. -/
def Session.registered (t : Session) : Bool :=
  match t.pc with
  | .handling | .handled | .unwound => true
  | .removed | .ended => false

/-- The connection that is in the map and has no thread yet, under its id. -/
def Pc.registering : Pc → Option (ℕ × ℕ)
  | .spawning id stream _ | .failed id stream _ => some (id, stream)
  | _ => none

/-- There is room for one more below the cap. -/
def Pc.hasRoom : Pc → Bool
  | .admitted _ _ => true
  | _ => false

variable {s s' : Acceptor} {t t' : Session} {p : Pool Acceptor Session}

/-- The steps of the accept loop: four of them touch what is shared, the others only move on. -/
inductive Effect (s : Acceptor) : Acceptor → Prop
  | quiet {pc : Pc} {nextId streams : ℕ} (hcounts : pc.admitting = s.pc.admitting)
      (hreg : ∀ r, s.pc.registering = some r → pc.registering = some r)
      (hroom : pc.hasRoom → s.sessions < MAX_SESSIONS) :
      Effect s { s with pc, nextId, streams }
  | counted {stream : ℕ} {ready : List ℕ} (hpc : s.pc = .admitted stream ready) :
      Effect s { s with pc := .counted stream ready, sessions := fetchAdd s.sessions }
  | registered {id stream : ℕ} {ready : List ℕ} (hpc : s.pc = .numbered id stream ready) :
      Effect s { s with pc := .spawning id stream ready, live := s.live.insert id stream }
  | unregistered {id stream : ℕ} {ready : List ℕ} (hpc : s.pc = .failed id stream ready) :
      Effect s { s with pc := .unregistered stream ready, live := s.live.erase id }
  | uncounted {stream : ℕ} {ready : List ℕ} (hpc : s.pc = .unregistered stream ready) :
      Effect s { s with pc := .scanning ready, sessions := fetchSub s.sessions }

/-- What an iteration of the accept loop can do. -/
theorem effect_of_accept {answer : Answer} (h : accept s answer = some s') : Effect s s' := by
  unfold accept at h
  split at h
  case h_7 stream ready hpc =>
    -- the load of the counter: refused at the cap, admitted below it
    split_ifs at h with hcap
    · cases h
      exact .quiet (by rw [hpc]; rfl) (by simp [hpc, Pc.registering]) (by simp [Pc.hasRoom])
    · cases h
      exact .quiet (by rw [hpc]; rfl) (by simp [hpc, Pc.registering]) fun _ => not_le.mp hcap
  case h_8 hpc => cases h; exact .counted hpc
  case h_10 hpc => cases h; exact .registered hpc
  case h_13 hpc => cases h; exact .unregistered hpc
  case h_14 hpc => cases h; exact .uncounted hpc
  case h_15 hpc =>
    cases h
    refine .quiet ?_ ?_ ?_ <;> split_ifs <;>
      simp [hpc, Pc.admitting, Pc.registering, Pc.hasRoom]
  case h_16 hpc =>
    cases h
    refine .quiet ?_ ?_ ?_ <;> split_ifs <;>
      simp [hpc, Pc.admitting, Pc.registering, Pc.hasRoom]
  case h_18 => cases h
  all_goals
    next hpc =>
      cases h
      refine .quiet ?_ ?_ ?_ <;> simp [hpc, Pc.admitting, Pc.registering, Pc.hasRoom]

/-- How a session thread steps. -/
inductive SessionEffect (s : Acceptor) (t : Session) : Acceptor → Session → Prop
  | ends {pc : SessionPc} (hpc : t.pc = .handling) (hpc' : pc = .handled ∨ pc = .unwound) :
      SessionEffect s t s { t with pc }
  | removes (hpc : t.pc = .handled) :
      SessionEffect s t { s with live := s.live.erase t.id } { t with pc := .removed }
  | uncounts (hpc : t.pc = .removed) :
      SessionEffect s t { s with sessions := fetchSub s.sessions } { t with pc := .ended }

/-- What a step of a session thread can do. -/
theorem effect_of_serve {a : SessionAct} (h : serve s t a = some (s', t')) :
    SessionEffect s t s' t' := by
  unfold serve at h
  split at h
  case h_1 hpc => cases h; exact .ends hpc (.inr rfl)
  case h_2 hpc => cases h; exact .ends hpc (.inl rfl)
  case h_3 hpc => cases h; exact .removes hpc
  case h_4 hpc => cases h; exact .uncounts hpc
  case h_5 => cases h

/-! ### The balance in every run -/

/-- The thread has not decremented the counter: it runs, or it has unwound and never will. -/
def Session.counted (t : Session) : Bool :=
  match t.pc with
  | .ended => false
  | _ => true

/-- What holds in every run, whichever way the sessions end. -/
structure Inv (p : Pool Acceptor Session) : Prop where
  counter : p.shared.sessions =
    p.threads.countP Session.counted + p.shared.pc.admitting.toList.length
  cap : p.shared.sessions ≤ MAX_SESSIONS
  room : p.shared.pc.hasRoom → p.shared.sessions < MAX_SESSIONS
  live : ∀ id stream, p.shared.live.lookup id = some stream →
    (∃ t ∈ p.threads, t.id = id ∧ t.stream = stream ∧ t.registered) ∨
      p.shared.pc.registering = some (id, stream)

theorem fetchAdd_of_lt {n : ℕ} (h : n < MAX_SESSIONS) : fetchAdd n = n + 1 := by
  rw [MAX_SESSIONS] at h
  rw [fetchAdd]
  omega

theorem fetchSub_of_pos {n : ℕ} (h : 0 < n) (hcap : n ≤ MAX_SESSIONS) : fetchSub n = n - 1 := by
  rw [MAX_SESSIONS] at hcap
  rw [fetchSub]
  omega

/-- The accept loop keeps the counter and the map in step with the threads. -/
theorem Inv.accept (hp : Inv p) (h : Effect p.shared s') : Inv ⟨s', p.threads⟩ := by
  cases h with
  | quiet hcounts hreg hroom =>
    refine ⟨by rw [hcounts]; exact hp.counter, hp.cap, hroom, fun id stream hl => ?_⟩
    exact (hp.live id stream hl).imp_right (hreg _)
  | counted hpc =>
    have hroom := hp.room (by rw [hpc]; rfl)
    have hcounter := hp.counter
    rw [hpc] at hcounter
    rw [fetchAdd_of_lt hroom]
    refine ⟨by rw [hcounter]; rfl, hroom, by simp [Pc.hasRoom], fun id stream hl => ?_⟩
    exact (hp.live id stream hl).imp_right (by simp [hpc, Pc.registering])
  | @registered id stream ready hpc =>
    refine ⟨by rw [hp.counter, hpc]; rfl, hp.cap, by simp [Pc.hasRoom], fun id' stream' hl => ?_⟩
    by_cases hid : id' = id
    · subst hid
      rw [AList.lookup_insert, Option.some.injEq] at hl
      exact .inr (by rw [hl]; rfl)
    · rw [AList.lookup_insert_ne hid] at hl
      exact .inl ((hp.live id' stream' hl).resolve_right (by simp [hpc, Pc.registering]))
  | @unregistered id stream ready hpc =>
    refine ⟨by rw [hp.counter, hpc]; rfl, hp.cap, by simp [Pc.hasRoom], fun id' stream' hl => ?_⟩
    have hid : id' ≠ id := fun heq => by rw [heq, AList.lookup_erase] at hl; cases hl
    rw [AList.lookup_erase_ne hid] at hl
    refine .inl ((hp.live id' stream' hl).resolve_right ?_)
    simpa [hpc, Pc.registering] using fun heq => absurd heq.symm hid
  | uncounted hpc =>
    have hcounter := hp.counter
    simp only [hpc, Pc.admitting, Option.toList_some, List.length_singleton] at hcounter
    have hsub := fetchSub_of_pos (by omega) hp.cap
    have hcap := hp.cap
    refine ⟨by rw [hsub, hcounter]; rfl, by dsimp only; omega, by simp [Pc.hasRoom],
      fun id stream hl => ?_⟩
    exact (hp.live id stream hl).imp_right (by simp [hpc, Pc.registering])

/-- What another thread of the pool was registered with stays registered when one thread moves,
and so does what the moving thread was registered with, if it stays so itself. -/
theorem exists_registered_set {l : List Session} {i id stream : ℕ} (hi : l[i]? = some t)
    (h : ∃ u ∈ l, u.id = id ∧ u.stream = stream ∧ u.registered)
    (hself : t.registered → t.id = id → t'.id = id ∧ t'.stream = t.stream ∧ t'.registered) :
    ∃ u ∈ l.set i t', u.id = id ∧ u.stream = stream ∧ u.registered := by
  obtain ⟨u, hu, hid, hstream, hreg⟩ := h
  obtain ⟨j, hj⟩ := List.getElem?_of_mem hu
  obtain ⟨hlt, -⟩ := List.getElem?_eq_some_iff.mp hi
  by_cases hij : i = j
  · subst hij
    obtain rfl : t = u := Option.some.inj (hi ▸ hj)
    obtain ⟨hid', hstream', hreg'⟩ := hself hreg hid
    exact ⟨t', List.mem_set hlt t', hid', hstream'.trans hstream, hreg'⟩
  · refine ⟨u, List.mem_of_getElem? (i := j) ?_, hid, hstream, hreg⟩
    rw [List.getElem?_set_ne hij, hj]

/-- So does a session thread, wherever it is. -/
theorem Inv.serve (hp : Inv p) {i : ℕ} (hi : p.threads[i]? = some t)
    (h : SessionEffect p.shared t s' t') : Inv ⟨s', p.threads.set i t'⟩ := by
  cases h with
  | @ends pc hpc hpc' =>
    have hcounted : Session.counted { t with pc } = t.counted := by
      rcases hpc' with rfl | rfl <;> simp [Session.counted, hpc]
    refine ⟨by rw [countP_set_of_eq hi hcounted]; exact hp.counter, hp.cap, hp.room,
      fun id stream hl => ?_⟩
    refine (hp.live id stream hl).imp_left fun h => exists_registered_set hi h fun _ hid => ?_
    exact ⟨hid, rfl, by rcases hpc' with rfl | rfl <;> rfl⟩
  | removes hpc =>
    have hcounted : Session.counted { t with pc := .removed } = t.counted := by
      simp [Session.counted, hpc]
    refine ⟨by rw [countP_set_of_eq hi hcounted]; exact hp.counter, hp.cap, hp.room,
      fun id stream hl => ?_⟩
    have hid : id ≠ t.id := fun heq => by rw [heq, AList.lookup_erase] at hl; cases hl
    rw [AList.lookup_erase_ne hid] at hl
    exact (hp.live id stream hl).imp_left fun h =>
      exists_registered_set hi h fun _ heq => absurd heq.symm hid
  | uncounts hpc =>
    have hbefore : t.counted = true := by simp [Session.counted, hpc]
    have hafter : ¬Session.counted { t with pc := .ended } = true := by simp [Session.counted]
    have hcount := countP_set_add hi { t with pc := .ended } Session.counted
    rw [if_pos hbefore, if_neg hafter, Nat.add_zero] at hcount
    have hcounter := hp.counter
    have hcap := hp.cap
    rw [fetchSub_of_pos (by omega) hcap]
    refine ⟨by dsimp only; omega, by dsimp only; omega, fun hroom => ?_, fun id stream hl => ?_⟩
    · have hlt := hp.room hroom
      dsimp only
      omega
    · -- the socket of this thread is out of the map already, so another one answers for it
      refine (hp.live id stream hl).imp_left fun h => exists_registered_set hi h fun hreg => ?_
      simp [Session.registered, hpc] at hreg

/-- And a new thread brings its own place in the counter. -/
theorem Inv.spawn (hp : Inv p) (h : spawn p.shared () = some (s', t')) :
    Inv ⟨s', p.threads ++ [t']⟩ := by
  unfold AcceptLoop.spawn at h
  split at h
  case h_2 => cases h
  case h_1 id stream ready hpc =>
    cases h
    have hcounter := hp.counter
    refine ⟨?_, hp.cap, by simp [Pc.hasRoom], fun id' stream' hl => .inl ?_⟩
    · simpa [hpc, Pc.admitting, Session.counted] using hcounter
    · rcases hp.live id' stream' hl with ⟨u, hu, h⟩ | hreg
      · exact ⟨u, List.mem_append_left _ hu, h⟩
      · simp only [hpc, Pc.registering, Option.some.injEq, Prod.mk.injEq] at hreg
        exact ⟨_, List.mem_append_right _ (List.mem_singleton_self _), hreg.1, hreg.2, rfl⟩

/-- The invariant holds in every interleaving. -/
theorem inv_of_reach {ok : Pool Acceptor Session → Move Unit SessionAct Answer → Prop}
    (h : Reach acceptLoop.step Initial ok p) : Inv p := by
  refine h.invariant Inv ?_ fun p m p' hp _ hstep => ?_
  · rintro _ rfl
    exact ⟨rfl, Nat.zero_le _, by simp [Pc.hasRoom], by simp⟩
  cases acceptLoop.effect_of_step hstep with
  | spawn hs => exact hp.spawn hs
  | act hi hs => exact hp.serve hi (effect_of_serve hs)
  | env hs => exact hp.accept (effect_of_accept hs)

/-- The thread was unwound by a panic. -/
def Session.unwound (t : Session) : Bool := t.pc == .unwound

/-- The threads that count are those that run and those that have unwound. -/
theorem countP_counted (l : List Session) :
    l.countP Session.counted = l.countP Session.running + l.countP Session.unwound := by
  induction l with
  | nil => rfl
  | cons t l ih =>
    obtain ⟨id, stream, pc⟩ := t
    cases pc <;> simp [List.countP_cons, Session.counted, Session.running, Session.unwound, ih] <;>
      omega

theorem Session.running_of_registered (h : t.registered) (hunwound : ¬t.unwound) : t.running := by
  cases hpc : t.pc <;> simp_all [registered, running, Session.unwound]

/-- Whatever the run, the balance holds as long as no session has unwound, and never again after
one has: its share of the counter and its socket stay behind. -/
theorem balanced_iff (h : Reachable acceptLoop.step Initial p) :
    Balanced p ↔ ∀ t ∈ p.threads, ¬t.unwound := by
  have hp := inv_of_reach h
  have hcounter := hp.counter
  rw [countP_counted] at hcounter
  constructor
  · intro hb
    have hb := hb.counter
    rw [running] at hb
    exact List.countP_eq_zero.mp (by omega)
  · intro hnone
    rw [List.countP_eq_zero.mpr hnone, Nat.add_zero] at hcounter
    refine ⟨hcounter, hp.cap, fun id stream hl => ?_⟩
    rcases hp.live id stream hl with ⟨t, ht, -, hstream, hreg⟩ | hreg
    · exact .inl ⟨t, ht, hstream, Session.running_of_registered hreg (hnone t ht)⟩
    · refine .inr ?_
      cases hpc : p.shared.pc <;> simp_all [Pc.registering, Pc.admitting]

/-- In this step no session panics. -/
def NoPanic (_ : Pool Acceptor Session) (m : Move Unit SessionAct Answer) : Prop :=
  ∀ i, m ≠ .act i (.handle .panic)

theorem not_unwound_of_spawn (h : spawn s () = some (s', t')) : ¬t'.unwound := by
  unfold spawn at h
  split at h <;> cases h
  simp [Session.unwound]

/-- Only a panic leaves a thread unwound. -/
theorem not_unwound_of_serve {a : SessionAct} (h : serve s t a = some (s', t'))
    (ha : a ≠ .handle .panic) : ¬t'.unwound := by
  unfold serve at h
  split at h
  case h_1 => exact absurd rfl ha
  case h_5 => cases h
  all_goals
    cases h
    simp [Session.unwound]

/-- Where no handler panics, no thread has unwound. -/
theorem not_unwound_of_reach (h : Reach acceptLoop.step Initial NoPanic p) :
    ∀ t ∈ p.threads, ¬t.unwound := by
  refine h.invariant (fun p => ∀ t ∈ p.threads, ¬t.unwound) ?_ fun p m p' hp hok hstep => ?_
  · rintro _ rfl t ht
    cases ht
  cases acceptLoop.effect_of_step hstep with
  | spawn hs =>
    intro u hu
    rcases List.mem_append.mp hu with hu | hu
    · exact hp u hu
    · rw [List.mem_singleton.mp hu]
      exact not_unwound_of_spawn hs
  | @act i a s t t' hi hs =>
    have hmoved : ¬t'.unwound :=
      not_unwound_of_serve hs fun hpanic => hok i (by rw [hpanic])
    intro u hu
    rcases List.mem_or_eq_of_mem_set hu with hu | rfl
    · exact hp u hu
    · exact hmoved
  | env _ => exact hp

/-- **The sessions are balanced** in every run in which no session panics: the counter is the
number of session threads that run, it never passes the cap, and the map holds sockets of running
sessions only. -/
theorem sessions_balanced (h : Reach acceptLoop.step Initial NoPanic p) : Balanced p :=
  (balanced_iff h.reachable).mpr (not_unwound_of_reach h)

/-- The condition of `sessions_balanced`, as a check along a run. -/
def noPanic (_ : Pool Acceptor Session) : Move Unit SessionAct Answer → Bool
  | .act _ (.handle .panic) => false
  | _ => true

theorem noPanic_sound (p : Pool Acceptor Session) (m : Move Unit SessionAct Answer)
    (h : noPanic p m = true) : NoPanic p m := by
  rintro i rfl
  cases h

/-- The connection of the next ready listener is accepted and given its thread. -/
def acceptOne : List (Move Unit SessionAct Answer) :=
  [.env (.accept true), .env .none, .env .none, .env .none, .env (.tryClone true), .spawn ()]

/-- Two sessions are admitted and one of them ends: one is left, in the counter and in the map. -/
theorem sessions_balanced_one_left : ∃ p, Reach acceptLoop.step Initial NoPanic p ∧
    p.shared.sessions = 1 ∧ running p = 1 ∧ p.shared.live.lookup 1 = some 1 ∧ Balanced p := by
  obtain ⟨p, hp, hf⟩ := acceptLoop.exists_reach noPanic_sound (p := ⟨⟨.polling, 0, ∅, 0, 0⟩, []⟩)
    (show Initial _ from rfl) (.env (.poll (some [0, 1])) :: acceptOne ++ acceptOne ++
      [.act 0 (.handle .err), .act 0 .next, .act 0 .next])
    (fun p => p.shared.sessions == 1 && running p == 1 && p.shared.live.lookup 1 == some 1)
    (by decide)
  simp only [Bool.and_eq_true, beq_iff_eq] at hf
  obtain ⟨⟨hsessions, hrun⟩, hlive⟩ := hf
  exact ⟨p, hp, hsessions, hrun, hlive, sessions_balanced hp⟩

/-- One session panics: no thread runs and none is being started, but the counter says one and
the socket is still in the map. -/
theorem exists_session_leaked : ∃ p, Reachable acceptLoop.step Initial p ∧
    p.shared.pc = .polling ∧ running p = 0 ∧ p.shared.sessions = 1 ∧
    p.shared.live.lookup 0 = some 0 ∧ ¬Balanced p := by
  obtain ⟨p, hp, hf⟩ := acceptLoop.exists_reachable (p := ⟨⟨.polling, 0, ∅, 0, 0⟩, []⟩)
    (show Initial _ from rfl)
    (.env (.poll (some [0])) :: acceptOne ++ [.act 0 (.handle .panic), .env .none])
    (fun p => p.shared.pc == .polling && running p == 0 && p.shared.sessions == 1 &&
      p.shared.live.lookup 0 == some 0) (by decide)
  simp only [Bool.and_eq_true, beq_iff_eq] at hf
  obtain ⟨⟨⟨hpc, hrun⟩, hsessions⟩, hlive⟩ := hf
  refine ⟨p, hp, hpc, hrun, hsessions, hlive, fun hb => ?_⟩
  have hcounter := hb.counter
  rw [hsessions, hrun, hpc] at hcounter
  cases hcounter

end AcceptLoop

end Padwire
