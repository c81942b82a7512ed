import Padwire.Lib.Pool
import Padwire.Server.Binds

/-!
# The Android bridge

On Android the exporter is started and stopped from Java, by any thread at any time
(`usbfwd-jni/src/lib.rs`). `start` puts the exporter it starts into `STATE`, and `stop` takes it
out, tells it to stop and waits for its thread. `start` holds the lock of `STATE` until it returns,
so it is one step here; `stop` holds it only while it takes the exporter out, so that a new one can
be started while the old one winds down. What can panic under the lock is the parsing of the
descriptors that a device sends. That poisons the lock, and no call gets at `STATE` any more; but
`start` only comes to it while `STATE` is empty, so that no exporter is stuck there.

`exporters_owned` says that no exporter is lost that way: whatever is called when, an exporter that
runs is either the one in `STATE` or has exactly one call of `stop` that waits for it.
-/

namespace Padwire.Jni

open Netif Exporter

def ERR_ALREADY_RUNNING : ℤ := -1

def ERR_BAD_DESCRIPTOR : ℤ := -2

def ERR_NOT_A_USB_DEVICE : ℤ := -3

def ERR_BIND_FAILED : ℤ := -4

def ERR_INTERNAL : ℤ := -5

/-! ### Starting -/

structure Request where
  port : ℤ
  bindAny : Bool
  deriving DecidableEq

/-- What becomes of the descriptor in `from_borrowed_fd`. -/
inductive Adopted
  | device
  | invalidData
  | otherError
  /-- The parser panics on its descriptors. -/
  | panics
  deriving DecidableEq

/-- What the host answers to one call of `start`. -/
structure Host where
  adopted : Adopted
  /-- The interfaces when `start` looks for the tailnet itself. -/
  interfaces : Except Netif.Error (List Interface)
  attempt : Attempt
  /-- The accept thread can be spawned. -/
  spawned : Bool

/-- Inbound connections of the tailnet are dialled to loopback again on Android. -/
def localhost : List Bind :=
  [.addr (.v4 ⟨127, 0, 0, 1⟩), .addr (.v6 ⟨#v[0, 0, 0, 0, 0, 0, 0, 0, 0, 0, 0, 0, 0, 0, 0, 1]⟩)]

def Request.listenPort (q : Request) : UInt16 :=
  if 0 < q.port ∧ q.port ≤ 65535 then UInt16.ofNat q.port.toNat else Config.default.port

/-- The tailnet and loopback, or everything if there is no tailnet and the caller says so. -/
def configure (q : Request) (interfaces : Except Netif.Error (List Interface)) :
    Except ℤ Config :=
  let found := match tailscaleAddrs interfaces with
    | .ok addrs => addrs
    | .error _ => []
  if found = [] then
    if q.bindAny then .ok ⟨[.any], q.listenPort⟩ else .error ERR_BIND_FAILED
  else .ok ⟨.tailscale :: localhost, q.listenPort⟩

/-- An exporter, by its accept thread. -/
structure AcceptThread where
  /-- The call that started it, and what the host answered to that call. -/
  request : Request
  host : Host
  listeners : List SocketAddr
  /-- The flag that tells it to stop. -/
  stop : Bool
  /-- The accept loop has returned. -/
  ended : Bool

structure Running where
  thread : ℕ
  port : UInt16

/-- `STATE`, and all accept threads started so far. -/
structure Bridge where
  state : Option Running
  /-- A call has panicked while it held the lock. -/
  poisoned : Bool
  accepts : List AcceptThread

/-- `start`, with what it returns unless it panics. -/
def start (s : Bridge) (q : Request) (h : Host) : Bridge × Option ℤ :=
  if s.poisoned then (s, some ERR_INTERNAL)
  else if s.state.isSome then (s, some ERR_ALREADY_RUNNING)
  else match h.adopted with
    | .invalidData => (s, some ERR_NOT_A_USB_DEVICE)
    | .otherError => (s, some ERR_BAD_DESCRIPTOR)
    | .panics => ({ s with poisoned := true }, none)
    | .device =>
      match configure q h.interfaces with
      | .error code => (s, some code)
      | .ok cfg =>
        match bindAll cfg h.attempt with
        | .error _ => (s, some ERR_BIND_FAILED)
        | .ok listeners =>
          let bound := (listeners.head?.map SocketAddr.port).getD cfg.port
          if h.spawned then
            ({ s with
                state := some ⟨s.accepts.length, bound⟩
                accepts := s.accepts ++ [⟨q, h, listeners, false, false⟩] },
              some bound.toNat)
          else (s, some ERR_INTERNAL)

/-! ### Calls -/

inductive Entry
  | start (q : Request) (h : Host)
  | stop
  | isRunning

/-- Where a call is. -/
inductive Call
  /-- `stop` has taken the exporter out of `STATE`. -/
  | taken (r : Running)
  /-- The exporter is told to stop, and `stop` joins its thread. -/
  | told (r : Running)
  /-- It has returned, with this code unless it panicked. -/
  | returned (code : Option ℤ)

def enter (s : Bridge) : Entry → Option (Bridge × Call)
  | .start q h => some ((start s q h).1, .returned (start s q h).2)
  | .stop =>
    if s.poisoned then some (s, .returned (some 0))
    else match s.state with
      | none => some (s, .returned (some 0))
      | some r => some ({ s with state := none }, .taken r)
  | .isRunning =>
    if s.poisoned then some (s, .returned (some 0))
    else some (s, .returned (some ((s.state.map fun r => (r.port.toNat : ℤ)).getD 0)))

/-- The next step of a call of `stop`. -/
def stopping (s : Bridge) (c : Call) (_ : Unit) : Option (Bridge × Call) :=
  match c with
  | .taken r =>
    some ({ s with accepts := s.accepts.modify r.thread fun t => { t with stop := true } }, .told r)
  | .told r =>
    if s.accepts[r.thread]?.all AcceptThread.ended then some (s, .returned (some 0)) else none
  | .returned _ => none

/-- An accept loop returns: it was told to, or it fails by itself. -/
def finish (s : Bridge) (i : ℕ) : Option Bridge :=
  s.accepts[i]?.map fun _ =>
    { s with accepts := s.accepts.modify i fun t => { t with ended := true } }

def bridge : Program Bridge Call Entry Unit ℕ where
  spawn := enter
  move := stopping
  env := finish

def Initial (p : Pool Bridge Call) : Prop := p = ⟨⟨none, false, []⟩, []⟩

/-! ### Who holds an exporter -/

def Call.hasTaken (i : ℕ) : Call → Bool
  | .taken r => r.thread == i
  | _ => false

def Call.hasTold (i : ℕ) : Call → Bool
  | .told r => r.thread == i
  | _ => false

/-- Whether an exporter is in `STATE`, as a number. -/
def Bridge.inState (s : Bridge) (i : ℕ) : ℕ :=
  if s.state.any (·.thread == i) then 1 else 0

/-- Who could tell an exporter to stop: it is in `STATE` or taken by a call. -/
def holders (p : Pool Bridge Call) (i : ℕ) : ℕ :=
  p.shared.inState i + p.threads.countP (Call.hasTaken i)

/-- The calls that wait for an exporter. -/
def waiters (p : Pool Bridge Call) (i : ℕ) : ℕ := p.threads.countP (Call.hasTold i)

/-- The address of an interface on the tailnet, among those that the host listed when the first of
the binds was resolved. -/
def Host.HasOnTailnet (h : Host) (ip : IpAddr) : Prop :=
  ∃ interfaces, h.attempt.list 0 = .ok interfaces ∧ ∃ i ∈ interfaces, i.addr = ip ∧ i.OnTailnet

/-- The addresses of an exporter: the tailnet's and loopback, or the wildcards if the caller has
said so. -/
def AcceptThread.Sheltered (t : AcceptThread) : Prop :=
  ∀ sa ∈ t.listeners, t.host.HasOnTailnet sa.ip ∨
    Bind.addr sa.ip ∈ localhost ∨ t.request.bindAny = true ∧ sa.ip ∈ unspecified

/-- An exporter has one holder until it is told to stop, and then one waiter until it has ended. -/
def Balanced (holders waiters : ℕ) : Option AcceptThread → Prop
  | none => holders = 0 ∧ waiters = 0
  | some t => holders = (if t.stop then 0 else 1) ∧ waiters ≤ (if t.stop then 1 else 0) ∧
      (t.stop = true → waiters = 0 → t.ended = true)

structure Inv (p : Pool Bridge Call) : Prop where
  balanced : ∀ i, Balanced (holders p i) (waiters p i) p.shared.accepts[i]?
  sheltered : ∀ t ∈ p.shared.accepts, t.Sheltered
  empty : p.shared.poisoned = true → p.shared.state = none

/-- Before the first call nothing is started and nothing is held. -/
theorem inv_initial {p : Pool Bridge Call} (h : Initial p) : Inv p := by
  rw [Initial] at h
  subst h
  exact ⟨fun i => ⟨rfl, rfl⟩, List.forall_mem_nil _, fun _ => rfl⟩

/-! ### Starting an exporter -/

/-- Where an exporter listens follows from what its caller asked for and what the host listed. -/
theorem sheltered_of_configure {q : Request} {h : Host} {cfg : Config}
    (hcfg : configure q h.interfaces = .ok cfg) {listeners : List SocketAddr}
    (hall : bindAll cfg h.attempt = .ok listeners) :
    (⟨q, h, listeners, false, false⟩ : AcceptThread).Sheltered := by
  intro sa hsa
  have hasks := ((listensAt_of_bindAll hall).asked sa hsa).2.1
  rw [configure] at hcfg
  split_ifs at hcfg with hnone hany
  · obtain rfl := Except.ok.inj hcfg
    rcases hasks with haddr | ⟨-, hip⟩ | ⟨hn, -, -, -, -⟩
    · simp at haddr
    · exact .inr (.inr ⟨hany, hip⟩)
    · have hmem := List.mem_of_getElem? hn
      simp at hmem
  · obtain rfl := Except.ok.inj hcfg
    rcases hasks with haddr | ⟨hmem, -⟩ | ⟨hn, hlist, hi, haddr, htailnet⟩
    · rcases List.mem_cons.mp haddr with heq | hmem
      · cases heq
      · exact .inr (.inl hmem)
    · simp [localhost] at hmem
    · rename_i n interfaces i
      cases n with
      | zero => exact .inl ⟨_, hlist, _, hi, haddr, htailnet⟩
      | succ n =>
        have hmem : Bind.tailscale ∈ localhost := List.mem_of_getElem? hn
        simp [localhost] at hmem

/-- A call of `start` leaves everything as it was, or panics over an empty `STATE`, or puts a new
exporter into it. -/
theorem start_cases (s : Bridge) (q : Request) (h : Host) : (start s q h).1 = s ∨
    s.state = none ∧ (start s q h).1 = { s with poisoned := true } ∨
    ∃ listeners port, s.state = none ∧ s.poisoned = false ∧
      (start s q h).1 =
        ⟨some ⟨s.accepts.length, port⟩, s.poisoned,
          s.accepts ++ [⟨q, h, listeners, false, false⟩]⟩ ∧
      (⟨q, h, listeners, false, false⟩ : AcceptThread).Sheltered := by
  rw [start]
  by_cases hpoisoned : s.poisoned = true
  · exact .inl (by rw [if_pos hpoisoned])
  by_cases hstate : s.state.isSome = true
  · exact .inl (by rw [if_neg hpoisoned, if_pos hstate])
  · rw [if_neg hpoisoned, if_neg hstate]
    have hnone := Option.not_isSome_iff_eq_none.mp hstate
    cases h.adopted with
    | invalidData => exact .inl rfl
    | otherError => exact .inl rfl
    | panics => exact .inr (.inl ⟨hnone, rfl⟩)
    | device =>
      cases hcfg : configure q h.interfaces with
      | error code => exact .inl rfl
      | ok cfg =>
        dsimp only
        cases hall : bindAll cfg h.attempt with
        | error e => exact .inl rfl
        | ok listeners =>
          dsimp only
          split_ifs
          · exact .inr (.inr ⟨listeners, _, hnone, Bool.eq_false_of_not_eq_true hpoisoned, rfl,
              sheltered_of_configure hcfg hall⟩)
          · exact .inl rfl

/-! ### What a step keeps -/

variable {p : Pool Bridge Call}

/-- The call that holds an exporter tells it to stop, and waits for it from then on. -/
theorem Balanced.told {w : ℕ} {t : Option AcceptThread} {n : ℕ} (h : Balanced (n + 1) w t) :
    Balanced n (w + 1) (t.map fun t => { t with stop := true }) := by
  cases t with
  | none => exact absurd h.1 (Nat.succ_ne_zero _)
  | some t =>
    obtain ⟨hholders, hwaiters, -⟩ := h
    cases hstop : t.stop with
    | true =>
      rw [hstop] at hholders
      cases hholders
    | false =>
      rw [hstop] at hholders hwaiters
      exact ⟨Nat.succ.inj hholders, Nat.succ_le_succ hwaiters, fun _ hzero => by cases hzero⟩

/-- The wait is over when the accept loop has returned. -/
theorem Balanced.joined {n w : ℕ} {t : Option AcceptThread} (h : Balanced n (w + 1) t)
    (hended : t.all AcceptThread.ended = true) : Balanced n w t := by
  cases t with
  | none => exact absurd h.2 (Nat.succ_ne_zero _)
  | some t =>
    obtain ⟨hholders, hwaiters, -⟩ := h
    exact ⟨hholders, (Nat.le_succ _).trans hwaiters, fun _ _ => hended⟩

/-- An accept loop may return at any time. -/
theorem Balanced.finished {n w : ℕ} {t : Option AcceptThread} (h : Balanced n w t) :
    Balanced n w (t.map fun t => { t with ended := true }) := by
  cases t with
  | none => exact h
  | some t => exact ⟨h.1, h.2.1, fun _ _ => rfl⟩

/-- What happens to a thread afterwards does not change where it listens. -/
theorem sheltered_modify {ts : List AcceptThread} (h : ∀ t ∈ ts, t.Sheltered)
    {f : AcceptThread → AcceptThread} (hf : ∀ t, t.Sheltered → (f t).Sheltered) (i : ℕ) :
    ∀ t ∈ ts.modify i f, t.Sheltered := by
  intro t ht
  obtain ⟨j, hj⟩ := List.mem_iff_getElem?.mp ht
  rw [List.getElem?_modify] at hj
  obtain ⟨u, hu, rfl⟩ := Option.map_eq_some_iff.mp hj
  have hu' : u.Sheltered := h u (List.mem_of_getElem? hu)
  split_ifs
  · exact hf u hu'
  · exact hu'

/-- A call that is over holds nothing. -/
theorem Inv.snoc_returned (h : Inv p) (code : Option ℤ) :
    Inv ⟨p.shared, p.threads ++ [.returned code]⟩ := by
  refine ⟨fun i => ?_, h.sheltered, h.empty⟩
  have hbalanced := h.balanced i
  rw [holders, waiters] at hbalanced ⊢
  simpa [Call.hasTaken, Call.hasTold] using hbalanced

/-- A call of `start` starts an exporter and leaves it in `STATE`, or starts none. -/
theorem Inv.start (h : Inv p) (q : Request) (host : Host) :
    Inv ⟨(start p.shared q host).1, p.threads ++ [.returned (start p.shared q host).2]⟩ := by
  rcases start_cases p.shared q host with hsame | ⟨hnone, hpoisoned⟩ |
    ⟨listeners, port, hnone, hclean, hnew, hsheltered⟩
  · rw [hsame]
    exact h.snoc_returned _
  · rw [hpoisoned]
    exact Inv.snoc_returned (p := ⟨{ p.shared with poisoned := true }, p.threads⟩)
      ⟨h.balanced, h.sheltered, fun _ => hnone⟩ _
  · rw [hnew]
    refine Inv.snoc_returned (p := ⟨_, p.threads⟩) ⟨fun i => ?_, ?_, fun hpoisoned => ?_⟩ _
    · have hbalanced := h.balanced i
      rw [holders, waiters, Bridge.inState] at hbalanced ⊢
      rw [hnone] at hbalanced
      dsimp only
      rcases Nat.lt_trichotomy i p.shared.accepts.length with hlt | rfl | hgt
      · rw [List.getElem?_append_left hlt]
        simpa [hlt.ne'] using hbalanced
      · rw [List.getElem?_eq_none le_rfl] at hbalanced
        rw [List.getElem?_concat_length]
        obtain ⟨hholders, hwaiters⟩ := hbalanced
        refine ⟨?_, hwaiters.le, fun hstop => by cases hstop⟩
        simpa using hholders
      · rw [List.getElem?_eq_none hgt.le] at hbalanced
        rw [List.getElem?_eq_none (List.length_append ▸ Nat.succ_le_of_lt hgt)]
        simpa [hgt.ne] using hbalanced
    · exact List.forall_mem_append.mpr ⟨h.sheltered, List.forall_mem_singleton.mpr hsheltered⟩
    · dsimp only at hpoisoned
      rw [hclean] at hpoisoned
      cases hpoisoned

/-- A call begins: it starts an exporter, takes the one in `STATE`, or only looks. -/
theorem Inv.enter (h : Inv p) {v : Entry} {s : Bridge} {c : Call}
    (hstep : enter p.shared v = some (s, c)) : Inv ⟨s, p.threads ++ [c]⟩ := by
  cases v with
  | start q host =>
    obtain ⟨rfl, rfl⟩ := Prod.mk.inj (Option.some.inj hstep)
    exact h.start q host
  | isRunning =>
    rw [Jni.enter] at hstep
    split_ifs at hstep
    · obtain ⟨rfl, rfl⟩ := Prod.mk.inj (Option.some.inj hstep)
      exact h.snoc_returned _
    · obtain ⟨rfl, rfl⟩ := Prod.mk.inj (Option.some.inj hstep)
      exact h.snoc_returned _
  | stop =>
    rw [Jni.enter] at hstep
    by_cases hpoisoned : p.shared.poisoned = true
    · rw [if_pos hpoisoned] at hstep
      obtain ⟨rfl, rfl⟩ := Prod.mk.inj (Option.some.inj hstep)
      exact h.snoc_returned _
    rw [if_neg hpoisoned] at hstep
    cases hstate : p.shared.state with
    | none =>
      rw [hstate] at hstep
      obtain ⟨rfl, rfl⟩ := Prod.mk.inj (Option.some.inj hstep)
      exact h.snoc_returned _
    | some r =>
      rw [hstate] at hstep
      obtain ⟨rfl, rfl⟩ := Prod.mk.inj (Option.some.inj hstep)
      refine ⟨fun i => ?_, h.sheltered, fun _ => rfl⟩
      have hbalanced := h.balanced i
      rw [holders, waiters, Bridge.inState] at hbalanced ⊢
      rw [hstate] at hbalanced
      -- The exporter has another holder.
      simpa [Call.hasTaken, Call.hasTold, List.countP_singleton, Nat.add_comm] using hbalanced

/-- What remains of a call of `stop`: tell the exporter, and wait for it. -/
theorem Inv.stopping (h : Inv p) {i : ℕ} {c c' : Call} {s : Bridge} (hi : p.threads[i]? = some c)
    (hstep : stopping p.shared c () = some (s, c')) : Inv ⟨s, p.threads.set i c'⟩ := by
  cases c with
  | taken r =>
    obtain ⟨rfl, rfl⟩ := Prod.mk.inj (Option.some.inj hstep)
    refine ⟨fun j => ?_, fun t ht => ?_, h.empty⟩
    · have hbalanced := h.balanced j
      have htaken := countP_set_add hi (.told r) (Call.hasTaken j)
      have htold := countP_set_add hi (.told r) (Call.hasTold j)
      rw [holders, waiters] at hbalanced ⊢
      change Balanced (p.shared.inState j + _) _ (p.shared.accepts.modify _ _)[j]?
      rcases eq_or_ne r.thread j with rfl | hne
      · simp only [Call.hasTaken, Call.hasTold, beq_self_eq_true, if_true, Bool.false_eq_true,
          if_false, Nat.add_zero] at htaken htold
        rw [← htaken, ← Nat.add_assoc] at hbalanced
        rw [htold, List.getElem?_modify_eq]
        exact hbalanced.told
      · simp only [Call.hasTaken, Call.hasTold, beq_eq_false_iff_ne.mpr hne, Bool.false_eq_true,
          if_false, Nat.add_zero] at htaken htold
        rw [htaken, htold, List.getElem?_modify_ne _ _ hne]
        exact hbalanced
    · exact sheltered_modify (f := fun t => { t with stop := true }) h.sheltered (fun _ hu => hu)
        r.thread t ht
  | told r =>
    rw [Jni.stopping] at hstep
    split_ifs at hstep with hended
    obtain ⟨rfl, rfl⟩ := Prod.mk.inj (Option.some.inj hstep)
    refine ⟨fun j => ?_, h.sheltered, h.empty⟩
    have hbalanced := h.balanced j
    have htaken := countP_set_add hi (.returned (some 0)) (Call.hasTaken j)
    have htold := countP_set_add hi (.returned (some 0)) (Call.hasTold j)
    rw [holders, waiters] at hbalanced ⊢
    dsimp only
    rcases eq_or_ne r.thread j with rfl | hne
    · simp only [Call.hasTaken, Call.hasTold, beq_self_eq_true, if_true, Bool.false_eq_true,
        if_false, Nat.add_zero] at htaken htold
      rw [← htold] at hbalanced
      rw [htaken]
      exact hbalanced.joined hended
    · simp only [Call.hasTaken, Call.hasTold, beq_eq_false_iff_ne.mpr hne, Bool.false_eq_true,
        if_false, Nat.add_zero] at htaken htold
      rw [htaken, htold]
      exact hbalanced
  | returned code => cases hstep

theorem Inv.finish (h : Inv p) {i : ℕ} {s : Bridge} (hstep : finish p.shared i = some s) :
    Inv ⟨s, p.threads⟩ := by
  obtain ⟨-, -, rfl⟩ := Option.map_eq_some_iff.mp hstep
  refine ⟨fun j => ?_, sheltered_modify (f := fun t => { t with ended := true }) h.sheltered
    (fun _ hu => hu) i, h.empty⟩
  have hbalanced := h.balanced j
  change Balanced (holders p j) (waiters p j) (p.shared.accepts.modify _ _)[j]?
  rcases eq_or_ne i j with rfl | hne
  · rw [List.getElem?_modify_eq]
    exact hbalanced.finished
  · rw [List.getElem?_modify_ne _ _ hne]
    exact hbalanced

/-- The invariant holds whichever threads call, and in whatever order. -/
theorem inv_of_reachable (h : Reachable bridge.step Initial p) : Inv p := by
  refine h.invariant Inv (fun _ => inv_initial) fun p m p' hp _ hstep => ?_
  cases bridge.effect_of_step hstep with
  | spawn hs => exact hp.enter hs
  | act hi hs => exact hp.stopping hi hs
  | env hs => exact hp.finish hs

/-! ### No exporter is lost -/

/-- The exporter is in `STATE`. -/
def Bridge.Holds (s : Bridge) (i : ℕ) : Prop := ∃ r, s.state = some r ∧ r.thread = i

/-- An exporter that has a holder is in `STATE` or with a call. -/
theorem holds_or_taken {i : ℕ} (h : 0 < holders p i) :
    p.shared.Holds i ∨ ∃ r, Call.taken r ∈ p.threads ∧ r.thread = i := by
  rw [holders, Bridge.inState] at h
  split_ifs at h with hany
  · obtain ⟨r, hr, hthread⟩ := (Option.any_eq_true _ _).mp hany
    exact .inl ⟨r, hr, beq_iff_eq.mp hthread⟩
  · rw [Nat.zero_add] at h
    obtain ⟨c, hc, htaken⟩ := List.countP_pos_iff.mp h
    cases c with
    | taken r => exact .inr ⟨r, hc, beq_iff_eq.mp htaken⟩
    | told r => cases htaken
    | returned code => cases htaken

/-- It has a holder exactly as long as nobody has told it to stop. -/
theorem Balanced.untold {n w : ℕ} {t : AcceptThread} (h : Balanced n w (some t)) :
    n = 1 ↔ t.stop = false := by
  rw [h.1]
  cases t.stop <;> simp

/-- A running exporter has one holder or one call that waits for it. -/
theorem Balanced.running {n w : ℕ} {t : AcceptThread} (h : Balanced n w (some t))
    (hrun : t.ended = false) : n + w = 1 := by
  obtain ⟨hholders, hwaiters, hended⟩ := h
  cases hstop : t.stop with
  | true =>
    rw [hstop] at hholders hwaiters
    have hsome : w ≠ 0 := fun hzero => by
      rw [hended hstop hzero] at hrun
      cases hrun
    simp only [if_true] at hholders hwaiters
    omega
  | false =>
    rw [hstop] at hholders hwaiters
    simp only [Bool.false_eq_true, if_false] at hholders hwaiters
    omega

/-- The call of `stop` is under way. -/
def Call.underWay : Call → Bool
  | .taken _ | .told _ => true
  | .returned _ => false

/-- An exporter that runs is in `STATE`, or one call of `stop` has taken it and no other; only a
call that has not told it to stop yet lets it run on. With no call of `stop` under way, the
exporters that run are the one in `STATE`, which has not been told to stop. If the lock is poisoned
`STATE` is empty. And no exporter listens where it was not allowed to: its addresses are loopback
and those on the tailnet that the host listed when it was started, or the wildcards. -/
theorem exporters_owned (h : Reachable bridge.step Initial p) :
    (∀ i t, p.shared.accepts[i]? = some t → t.ended = false →
      holders p i + waiters p i = 1) ∧
    (∀ i t, p.shared.accepts[i]? = some t → t.stop = false → p.shared.Holds i ∨
      ∃ r, Call.taken r ∈ p.threads ∧ r.thread = i) ∧
    ((∀ c ∈ p.threads, c.underWay = false) → ∀ i t, p.shared.accepts[i]? = some t →
      t.ended = false → p.shared.Holds i ∧ t.stop = false) ∧
    (p.shared.poisoned = true → p.shared.state = none) ∧
    ∀ t ∈ p.shared.accepts, t.Sheltered := by
  have hinv := inv_of_reachable h
  have hbalanced : ∀ i t, p.shared.accepts[i]? = some t →
      Balanced (holders p i) (waiters p i) (some t) := fun i t ht => ht ▸ hinv.balanced i
  refine ⟨fun i t ht hrun => (hbalanced i t ht).running hrun, fun i t ht hstop => ?_,
    fun hquiet i t ht hrun => ?_, hinv.empty, hinv.sheltered⟩
  · have hone := (hbalanced i t ht).untold.mpr hstop
    exact holds_or_taken (hone ▸ Nat.zero_lt_one)
  · have hzero : waiters p i = 0 := by
      refine List.countP_eq_zero.mpr fun c hc htold => ?_
      have hover := hquiet c hc
      cases c with
      | taken r => cases hover
      | told r => cases hover
      | returned code => cases htold
    have hone : holders p i = 1 := by
      have hrunning := (hbalanced i t ht).running hrun
      omega
    refine ⟨?_, (hbalanced i t ht).untold.mp hone⟩
    rcases holds_or_taken (hone ▸ Nat.zero_lt_one) with hholds | ⟨r, hr, -⟩
    · exact hholds
    · cases hquiet _ hr

/-- A tablet with a tailnet. -/
def tablet : Host := ⟨.device, onTailnet.list 0, onTailnet, true⟩

/-- An exporter is started again while the first one is still waited for: two run at once, and each
is held by one. -/
theorem exporters_owned_restart : ∃ p, Reachable bridge.step Initial p ∧
    p.shared.accepts.map (fun t => (t.stop, t.ended)) = [(true, false), (false, false)] ∧
    ∀ i t, p.shared.accepts[i]? = some t → t.ended = false → holders p i + waiters p i = 1 := by
  obtain ⟨p, hp, hf⟩ := bridge.exists_reachable (show Initial ⟨⟨none, false, []⟩, []⟩ from rfl)
    [.spawn (.start ⟨0, false⟩ tablet), .spawn .stop, .act 1 (),
      .spawn (.start ⟨3241, false⟩ tablet)]
    (fun p => p.shared.accepts.map (fun t => (t.stop, t.ended)) = [(true, false), (false, false)])
    (by decide)
  exact ⟨p, hp, of_decide_eq_true hf, (exporters_owned hp).1⟩

end Padwire.Jni
