import Padwire.Attach.Attachments
import Padwire.Attach.Backoff

/-!
# The attach daemon recovers

The daemon is there to attach the controller again after an outage, whatever state the outage left
it in. `daemon_recovers` says that it does. It is about one server of the configuration with
`auto_attach`, and about the answers from some point on: the server is reachable again and offers a
device that is not attached, `usbip attach` works for it, and its port comes up in time. Nothing is
said about the other servers, which may fail in any way. Once the longest delay between two
attempts has passed, the daemon attaches a device within a number of answers that the number of
servers bounds. An answer that only makes the daemon wait on does not count, nor does an attachment
of before.

`Phase.rank` is the potential behind it: how many answers the daemon is away from the attachment.
-/

namespace Padwire.Attach

/-! ### Answers in favour of a server -/

/-- A server of this name that the daemon attaches from by itself. -/
def Server.isFor (s : Server) (name : String) : Bool := s.name == name && s.autoAttach

namespace Run

/-- The answers that a recovery of the server relies on. Where they are about another server, any
answer will do. -/
def cooperates (name : String) (r : Run) : Answer → Bool
  | .prune ports => !(r.daemon.prune ports).satisfied
  | .devlist devices _ =>
    match r.phase with
    | .asking server _ =>
      server.name != name || devices.any fun ds => (r.daemon.candidate server ds).isSome
    | _ => true
  | .usbip _ ok _ =>
    match r.phase with
    | .attaching server _ _ => server.name != name || ok
    | _ => true
  | .poll now _ =>
    match r.phase with
    | .settling server _ _ deadline _ => server.name != name || now.nanos < deadline.nanos
    | _ => true
  | .stop => false
  | _ => true

/-- The answer takes the daemon on: it is neither a poll of the ports that finds nothing, before
the deadline, nor a look at the clock in the middle of a nap. -/
def moves (r : Run) : Answer → Bool
  | .poll now after =>
    match r.phase with
    | .settling _ _ before deadline _ =>
      deadline.nanos ≤ now.nanos || (newlyUsed before (occupiedPorts after)).isSome
    | _ => true
  | .wake now =>
    match r.phase with
    | .napping wake => wake.nanos ≤ now.nanos
    | _ => true
  | _ => true

/-- The step attaches a device: `try_server` returns with its port, and the daemon tracks it from
then on. It is one of the server or, with `stop_after_first`, of any server. -/
def Attaches (name : String) (r r' : Run) : Prop :=
  ∃ t : Tracked, r'.log = r.log ++ [⟨t.server, .attached t.port⟩] ∧
    r'.daemon.attached = r.daemon.attached ++ [t] ∧
    (t.server = name ∨ r.daemon.cfg.attach.stopAfterFirst = true)

/-- Time arithmetic has panicked. -/
def Panicked (r : Run) : Prop := ∃ site, r.phase = .panicked site

end Run

/-! ### How far it is to the attachment -/

/-- How many answers the daemon needs for a list of servers up to the attachment, or for all of
them and then `tail` more. -/
def answersFor (name : String) (tail : ℕ) : List Server → ℕ
  | [] => tail
  | s :: rest => if s.isFor name then 4 else answersFor name tail rest + 4

/-- Each server takes at most four answers. -/
theorem answersFor_le (name : String) (tail : ℕ) (l : List Server) :
    answersFor name tail l ≤ 4 * l.length + tail := by
  induction l with
  | nil => exact Nat.le_add_left _ _
  | cons s l ih =>
    rw [answersFor, List.length_cons]
    split_ifs <;> omega

/-- What comes after the server does not count. -/
theorem answersFor_append {name : String} {l : List Server} (h : ∃ s ∈ l, s.isFor name = true)
    (tail tail' : ℕ) (m : List Server) :
    answersFor name tail (l ++ m) = answersFor name tail' l := by
  induction l with
  | nil => simp at h
  | cons s l ih =>
    rw [List.cons_append, answersFor, answersFor]
    split_ifs with hs
    · rfl
    · obtain ⟨s', hmem, hfor⟩ := h
      rcases List.mem_cons.mp hmem with rfl | hmem
      · exact absurd hfor hs
      · rw [ih ⟨s', hmem, hfor⟩]

/-- How many answers the daemon is away from the attachment. -/
def Phase.rank (cfg : Config) (name : String) : Phase → ℕ
  | .starting => answersFor name 0 cfg.servers + 3
  | .ticking => answersFor name 0 cfg.servers + 2
  | .browsing => answersFor name 0 cfg.servers + 1
  | .serving servers => answersFor name (answersFor name 0 cfg.servers + 5) servers
  | .asking server rest =>
    if server.isFor name then 3
    else answersFor name (answersFor name 0 cfg.servers + 5) rest + 3
  | .attaching server _ rest =>
    if server.isFor name then 2
    else answersFor name (answersFor name 0 cfg.servers + 5) rest + 2
  | .settling server _ _ _ rest =>
    if server.isFor name then 1
    else answersFor name (answersFor name 0 cfg.servers + 5) rest + 1
  | .resting => answersFor name 0 cfg.servers + 4
  | .napping _ => answersFor name 0 cfg.servers + 3
  | .stopped | .panicked _ => 0

/-- The servers that the current tick has not dealt with. -/
def Phase.ahead : Phase → List Server
  | .serving servers => servers
  | .asking server rest | .attaching server _ rest | .settling server _ _ _ rest => server :: rest
  | _ => []

/-- The rank is bounded by what is left of this tick and one more tick. -/
theorem Phase.rank_le (cfg : Config) (name : String) (phase : Phase) :
    phase.rank cfg name ≤ 4 * (phase.ahead.length + cfg.servers.length) + 5 := by
  have htop := answersFor_le name 0 cfg.servers
  have hahead := answersFor_le name (answersFor name 0 cfg.servers + 5)
  cases phase with
  | serving servers =>
    have := hahead servers
    simp only [rank, ahead]
    omega
  | asking server rest | attaching server dev rest | settling server dev before deadline rest =>
    have := hahead rest
    simp only [rank, ahead, List.length_cons]
    split_ifs <;> omega
  | _ =>
    simp only [rank, ahead, List.length_nil]
    omega

/-- All servers of the configuration are endpoints, and they come first. -/
theorem Daemon.exists_endpoints_eq (d : Daemon) (found : List Discovered) :
    ∃ more, d.endpoints found = d.cfg.servers ++ more := by
  have hfold : ∀ (found : List Discovered) (servers : List Server),
      servers <+: found.foldl (fun servers f =>
        if servers.any fun s => eqIgnoreAsciiCase s.host f.endpoint then servers
        else servers ++ [{
          name := "mdns:" ++ f.name, host := f.endpoint, port := f.port
          devices := .default, autoAttach := true }]) servers := by
    intro found
    induction found with
    | nil => exact fun servers => List.prefix_rfl
    | cons f found ih =>
      intro servers
      rw [List.foldl_cons]
      refine List.IsPrefix.trans ?_ (ih _)
      split_ifs
      · exact List.prefix_rfl
      · exact List.prefix_append _ _
  obtain ⟨more, hmore⟩ := hfold found d.cfg.servers
  exact ⟨more, hmore.symm⟩

/-! ### The backoff of a server -/

/-- In this step `record_failure` is called for a server of this name. -/
def Run.Fails (r : Run) (name : String) (a : Answer) : Prop :=
  ∃ server rest now, server.name = name ∧
    (r.phase = .asking server rest ∧ a = .devlist none now ∨
      ∃ dev before, r.phase = .attaching server dev rest ∧ a = .usbip before false now)

section Step

variable {cfg : Config} {name : String} {r r' : Run} {a : Answer}

/-- In favour of a server means, above all, that no attempt at it fails. -/
theorem not_fails_of_cooperates (h : r.cooperates name a = true) : ¬ r.Fails name a := by
  rintro ⟨server, rest, now, rfl, ⟨hp, rfl⟩ | ⟨dev, before, hp, rfl⟩⟩
  · simp [Run.cooperates, hp] at h
  · simp [Run.cooperates, hp] at h

/-- What `record_failure` makes of a backoff. -/
def Backoff.Follows (b e : Backoff) (s : Settings) (now : Instant) : Prop :=
  b.nextTry.nanos = now.nanos + e.delay.nanos ∧ b.delay.nanos ≤ s.retryMax.nanos

/-- A backoff is kept, or left by a failure. -/
def Run.Backs (r : Run) (a : Answer) (r' : Run) : Prop :=
  r'.daemon.cfg = r.daemon.cfg ∧ r'.clock = r.clock ∧
    ∀ name b, r'.daemon.backoff.lookup name = some b → r.daemon.backoff.lookup name = some b ∨
      r.Fails name a ∧ ∃ now, a.time = some now ∧
        b.Follows (r.daemon.entry name now) r.daemon.cfg.attach now

theorem Run.Backs.keep (hcfg : r'.daemon.cfg = r.daemon.cfg) (hclock : r'.clock = r.clock)
    (hbackoff : r'.daemon.backoff = r.daemon.backoff) : r.Backs a r' :=
  ⟨hcfg, hclock, fun _ _ hb => .inl (hbackoff ▸ hb)⟩

/-- Clearing the failure of a server leaves the backoffs of the others. -/
theorem Daemon.lookup_clearFailure {d : Daemon} {server name : String} {b : Backoff}
    (h : (d.clearFailure server).backoff.lookup name = some b) :
    d.backoff.lookup name = some b := by
  rw [clearFailure] at h
  by_cases hname : name = server
  · rw [hname, AList.lookup_erase] at h
    cases h
  · rwa [AList.lookup_erase_ne hname] at h

/-- A failure leaves a backoff that follows the one before it. -/
theorem Run.Backs.fail {server : Server} {stage : Stage} {now : Instant} {rest : List Server}
    (hfails : r.Fails server.name a) (htime : a.time = some now) :
    r.Backs a (r.fail server stage now rest) := by
  rcases r.fail_cases server stage now rest with ⟨site, -, hfail⟩ | ⟨level, next, d, hd, hfail⟩
  · rw [hfail]
    exact .keep rfl rfl rfl
  · obtain ⟨hnext, -, delay, hdelay, rfl⟩ := Daemon.recordFailure_ok hd
    rw [hfail]
    refine ⟨rfl, rfl, fun name b hb => ?_⟩
    by_cases hname : name = server.name
    · subst hname
      obtain rfl := Option.some.inj ((AList.lookup_insert _).symm.trans hb)
      exact .inr ⟨hfails, now, htime, hnext, by rw [hdelay]; exact Nat.min_le_right _ _⟩
    · exact .inl ((AList.lookup_insert_ne hname).symm.trans hb)

/-- A step keeps the backoffs, clears one, or leaves one by a failure. -/
theorem Run.backs_of_advance (h : r.advance a = some r') : r.Backs a r' := by
  have heff := effect_of_advance h
  cases heff with
  | unreachable hp => exact .fail ⟨_, _, _, rfl, .inl ⟨hp, rfl⟩⟩ rfl
  | refused hp => exact .fail ⟨_, _, _, rfl, .inr ⟨_, _, hp, rfl⟩⟩ rfl
  | nothing hp => exact ⟨rfl, rfl, fun _ _ hb => .inl (Daemon.lookup_clearFailure hb)⟩
  | found hp => exact ⟨rfl, rfl, fun _ _ hb => .inl (Daemon.lookup_clearFailure hb)⟩
  | @prune ports phase hp hphase =>
    exact .keep (by cases ports <;> rfl) rfl (by cases ports <;> rfl)
  | _ => exact .keep rfl rfl rfl

/-- No server is put off for longer than the longest delay between two attempts. -/
structure PutOff (cfg : Config) (r : Run) : Prop where
  cfg_eq : r.daemon.cfg = cfg
  bounded : ∀ name b, r.daemon.backoff.lookup name = some b →
    b.delay.nanos ≤ max cfg.attach.retryMin.nanos cfg.attach.retryMax.nanos ∧
      b.nextTry.nanos ≤ r.clock.nanos + max cfg.attach.retryMin.nanos cfg.attach.retryMax.nanos

/-- This holds in every run, whatever the answers are. -/
theorem putOff_of_reach {ok : Run → Answer → Prop} (h : Reach Run.step (Run.Initial cfg) ok r) :
    PutOff cfg r := by
  refine h.invariant (PutOff cfg) ?_ fun r a r' hr _ hstep => ?_
  · rintro _ ⟨clock, rfl⟩
    exact ⟨rfl, nofun⟩
  · obtain ⟨clock, hle, htime, hadvance⟩ := Run.advance_of_step hstep
    obtain ⟨hcfg, hclock, hbackoff⟩ := Run.backs_of_advance hadvance
    refine ⟨hcfg.trans hr.cfg_eq, fun name b hb => ?_⟩
    rw [hclock]
    rcases hbackoff name b hb with hold | ⟨-, now, hnow, hnext, hdelay⟩
    · obtain ⟨hdelay, hnext⟩ := hr.bounded name b hold
      exact ⟨hdelay, hnext.trans (Nat.add_le_add_right hle _)⟩
    · obtain rfl := htime now hnow
      have hentry : (r.daemon.entry name clock).delay.nanos ≤
          max cfg.attach.retryMin.nanos cfg.attach.retryMax.nanos := by
        rw [Daemon.entry]
        cases hlookup : r.daemon.backoff.lookup name with
        | none =>
          rw [Option.getD_none, hr.cfg_eq]
          exact Nat.le_max_left _ _
        | some e => exact (hr.bounded name e hlookup).1
      refine ⟨hdelay.trans ?_, hnext.trans_le (Nat.add_le_add_left hentry _)⟩
      rw [hr.cfg_eq]
      exact Nat.le_max_right _ _

/-! ### A step towards the attachment -/

/-- The daemon with its configuration, and with a backoff of the server that has passed at some
time. -/
structure Due (cfg : Config) (name : String) (time : ℕ) (r : Run) : Prop where
  cfg_eq : r.daemon.cfg = cfg
  due : ∀ b, r.daemon.backoff.lookup name = some b → b.nextTry.nanos ≤ time

/-- A server whose backoff has passed is not put off again while the answers are in its favour. -/
theorem Due.step {time : ℕ} (hr : Due cfg name time r) (hgood : r.cooperates name a = true)
    (h : r.step a = some r') : Due cfg name time r' := by
  obtain ⟨clock, -, -, hadvance⟩ := Run.advance_of_step h
  obtain ⟨hcfg, -, hbackoff⟩ := Run.backs_of_advance hadvance
  refine ⟨hcfg.trans hr.cfg_eq, fun b hb => ?_⟩
  rcases hbackoff name b hb with hold | ⟨hfails, -⟩
  · exact hr.due b hold
  · exact absurd hfails (not_fails_of_cooperates hgood)

theorem Server.isFor_eq_false {s : Server} (h : s.name ≠ name) : s.isFor name = false := by
  rw [isFor, beq_eq_false_iff_ne.mpr h, Bool.false_and]

/-- After a failure of another server the loop goes on. -/
theorem closer_of_fail {server : Server} {stage : Stage} {now : Instant} {rest : List Server}
    {n : ℕ} (hn : answersFor name (answersFor name 0 cfg.servers + 5) rest < n) :
    (r.fail server stage now rest).Panicked ∨
      1 + (r.fail server stage now rest).phase.rank cfg name ≤ n := by
  rcases r.fail_cases server stage now rest with ⟨site, -, hfail⟩ | ⟨level, next, d, hd, hfail⟩
  · rw [hfail]
    exact .inl ⟨site, rfl⟩
  · rw [hfail]
    refine .inr ?_
    change 1 + answersFor name _ rest ≤ n
    omega

/-- **An answer in favour of the server takes the daemon closer to the attachment**, if the backoff
has passed: by one if it takes the daemon on at all, unless it attaches or panics. -/
theorem closer_of_advance (hserver : ∃ s ∈ cfg.servers, s.isFor name = true)
    (hcfg : r.daemon.cfg = cfg)
    (hdue : ∀ b now, r.daemon.backoff.lookup name = some b → a.time = some now →
      b.nextTry.nanos ≤ now.nanos)
    (hgood : r.cooperates name a = true) (h : r.advance a = some r') :
    r.Attaches name r' ∨ r'.Panicked ∨
      (r.moves a).toNat + r'.phase.rank cfg name ≤ r.phase.rank cfg name := by
  have hend : ∀ {servers : List Server}, r.phase = .browsing → r'.phase = .serving servers →
      r'.phase.rank cfg name = answersFor name 0 cfg.servers := by
    intro servers hp hp'
    obtain ⟨found, -, rfl⟩ := Run.endpoints_of_advance h hp hp'
    obtain ⟨more, hmore⟩ := r.daemon.exists_endpoints_eq found
    rw [hp', Phase.rank, hmore, hcfg, answersFor_append hserver]
  have heff := Run.effect_of_advance h
  cases heff with
  | adopt hp =>
    refine .inr (.inr ?_)
    rw [hp]
    simp only [Run.moves, Phase.rank, Bool.toNat_true]
    omega
  | @prune ports phase hp _ =>
    obtain rfl : phase = _ := congrArg Run.phase
      (Option.some.inj (h.symm.trans (Run.advance_prune hp ports)))
    rw [Run.cooperates, Bool.not_eq_true'] at hgood
    refine .inr (.inr ?_)
    rw [hp, hgood]
    simp only [Run.moves, Phase.rank, Bool.toNat_true, Bool.false_eq_true, if_false]
    omega
  | noBrowse _ _ => exact .inr (.inl ⟨_, rfl⟩)
  | browse hp _ =>
    refine .inr (.inr ?_)
    rw [hend hp rfl, hp]
    simp only [Run.moves, Phase.rank, Bool.toNat_true]
    omega
  | endpoints hp =>
    refine .inr (.inr ?_)
    rw [hend hp rfl, hp]
    simp only [Run.moves, Phase.rank, Bool.toNat_true]
    omega
  | @skip _ server rest ha hp =>
    -- the server itself is not skipped
    have hnot : ¬ server.isFor name = true := by
      intro hfor
      rw [Server.isFor, Bool.and_eq_true, beq_iff_eq] at hfor
      obtain ⟨rfl, hauto⟩ := hfor
      rcases ha with rfl | ⟨now, rfl⟩
      · simp only [Run.advance, hp, hauto, if_true] at h
        cases h
      · have hnone : ((r.daemon.backoff.lookup server.name).any fun b =>
            now.nanos < b.nextTry.nanos) = false := by
          cases hb : r.daemon.backoff.lookup server.name with
          | none => rfl
          | some b => exact decide_eq_false (Nat.not_lt.mpr (hdue b now hb rfl))
        rw [Run.advance_check hp, if_pos hauto, hnone] at h
        cases h
    have hone : (r.moves a).toNat ≤ 1 := Bool.toNat_le _
    refine .inr (.inr ?_)
    rw [hp]
    simp only [Phase.rank, answersFor, if_neg hnot]
    omega
  | @ask now server rest hp =>
    refine .inr (.inr ?_)
    rw [hp]
    simp only [Run.moves, Phase.rank, answersFor, Bool.toNat_true]
    split_ifs <;> omega
  | exhausted hp =>
    refine .inr (.inr ?_)
    rw [hp]
    simp only [Run.moves, Phase.rank, answersFor, Bool.toNat_true]
    omega
  | @unreachable now server rest hp =>
    have hne : server.name ≠ name := by simpa [Run.cooperates, hp] using hgood
    refine .inr (closer_of_fail ?_)
    rw [hp]
    simp only [Phase.rank, Server.isFor_eq_false hne, Bool.false_eq_true, if_false]
    omega
  | @nothing now devices server rest hp =>
    have hne : server.name ≠ name := by
      rintro rfl
      simp only [Run.cooperates, hp, bne_self_eq_false, Bool.false_or, Option.any_some] at hgood
      obtain ⟨dev, hdev⟩ := Option.isSome_iff_exists.mp hgood
      have hdev' : (r.daemon.clearFailure server.name).candidate server devices = some dev := hdev
      rw [Run.advance_devlist hp, hdev'] at h
      cases h
    refine .inr (.inr ?_)
    rw [hp]
    simp only [Run.done, Run.moves, Phase.rank, Server.isFor_eq_false hne, Bool.false_eq_true,
      if_false, Bool.toNat_true]
    omega
  | found hp =>
    refine .inr (.inr ?_)
    rw [hp]
    simp only [Run.moves, Phase.rank, Bool.toNat_true]
    split_ifs <;> omega
  | @refused before now server dev rest hp =>
    have hne : server.name ≠ name := by simpa [Run.cooperates, hp] using hgood
    refine .inr (closer_of_fail ?_)
    rw [hp]
    simp only [Phase.rank, Server.isFor_eq_false hne, Bool.false_eq_true, if_false]
    omega
  | noSettle hp => exact .inr (.inl ⟨_, rfl⟩)
  | settle hp =>
    refine .inr (.inr ?_)
    rw [hp]
    simp only [Run.moves, Phase.rank, Bool.toNat_true]
    split_ifs <;> omega
  | @waiting now deadline after before server dev rest hp =>
    -- only a poll that finds nothing, before the deadline, leaves the daemon as it is
    have hrun := Option.some.inj ((Run.advance_poll hp now after).symm.trans h)
    have hlog := congrArg (fun run : Run => run.log.length) hrun
    have hstays : r.moves (.poll now after) = false := by
      by_cases hlt : now.nanos < deadline.nanos
      · cases hport : newlyUsed before (occupiedPorts after) with
        | none => simp [Run.moves, hp, hport, hlt]
        | some port => simp [hlt, hport] at hlog
      · simp [hlt, Run.done] at hlog
    exact .inr (.inr (by rw [hstays, Bool.toNat_false, Nat.zero_add]))
  | @attached now deadline after before port server dev rest phase hp hport _ =>
    by_cases hgoal : server.name = name ∨ r.daemon.cfg.attach.stopAfterFirst = true
    · exact .inl ⟨_, rfl, rfl, hgoal⟩
    · obtain ⟨hne, hstop⟩ := not_or.mp hgoal
      have hphase := Run.phase_of_attached hp hport h List.length_append
      rw [if_neg hstop] at hphase
      refine .inr (.inr ?_)
      have hone : (r.moves (.poll now after)).toNat ≤ 1 := Bool.toNat_le _
      rw [hphase, hp]
      simp only [Phase.rank, Server.isFor_eq_false hne, Bool.false_eq_true, if_false]
      omega
  | @unsettled now deadline after before server dev rest hp =>
    have hrun := Option.some.inj ((Run.advance_poll hp now after).symm.trans h)
    have hne : server.name ≠ name := by
      rintro rfl
      have hlt : now.nanos < deadline.nanos := by simpa [Run.cooperates, hp] using hgood
      rw [if_pos hlt] at hrun
      cases hport : newlyUsed before (occupiedPorts after) with
      | none =>
        have hlog := congrArg (fun run : Run => run.log.length) hrun
        simp [hport, Run.done] at hlog
      | some port =>
        have hattached := congrArg (fun run : Run => run.daemon.attached.length) hrun
        simp [hport, Run.done] at hattached
    have hone : (r.moves (.poll now after)).toNat ≤ 1 := Bool.toNat_le _
    refine .inr (.inr ?_)
    rw [hp]
    simp only [Run.done, Phase.rank, Server.isFor_eq_false hne, Bool.false_eq_true, if_false]
    omega
  | noNap _ _ => exact .inr (.inl ⟨_, rfl⟩)
  | nap hp _ =>
    refine .inr (.inr ?_)
    rw [hp]
    simp only [Run.moves, Phase.rank, Bool.toNat_true]
    omega
  | @wake now wake phase hp _ =>
    have hphase : phase = if wake.nanos ≤ now.nanos then .ticking else .napping wake := by
      simp only [Run.advance, hp] at h
      exact (congrArg Run.phase (Option.some.inj h)).symm
    refine .inr (.inr ?_)
    rw [hphase, hp]
    simp only [Run.moves, hp]
    split_ifs with hle
    · simp only [hle, Phase.rank, decide_true, Bool.toNat_true]
      omega
    · rw [decide_eq_false hle, Bool.toNat_false, Nat.zero_add]
  | stop hp => cases hgood

end Step

/-- **The daemon recovers from an outage.** Take any state of the daemon, and from there on answers
in favour of a server of the configuration that has `auto_attach`. Once the longest delay between
two attempts has passed, no more answers that take the daemon on are needed than four for each
server that is still ahead in this tick and each server of the configuration, and five more: with
one more of them there is one that makes the daemon attach a device of the server, or with
`stop_after_first` of any server, unless time arithmetic panics. What was attached before does not
count. -/
theorem daemon_recovers {cfg : Config} {name : String} {r₀ r₁ r₂ : Run}
    {before answers : List Answer} (h₀ : Reachable Run.step (Run.Initial cfg) r₀)
    (hserver : ∃ s ∈ cfg.servers, s.isFor name = true)
    (h₁ : runIf Run.step (Run.cooperates name) r₀ before = some r₁)
    (hwait : r₀.clock.nanos + max cfg.attach.retryMin.nanos cfg.attach.retryMax.nanos ≤
      r₁.clock.nanos)
    (h₂ : runIf Run.step (Run.cooperates name) r₁ answers = some r₂)
    (hcount : 4 * (r₁.phase.ahead.length + cfg.servers.length) + 5 <
      countSteps Run.step Run.moves r₁ answers) :
    ∃ upTo a t t', upTo ++ [a] <+: answers ∧
      runIf Run.step (Run.cooperates name) r₁ upTo = some t ∧ t.step a = some t' ∧
      (t.Attaches name t' ∨ t'.Panicked) := by
  have hputOff := putOff_of_reach h₀
  have hdue₁ : Due cfg name r₁.clock.nanos r₁ := by
    have hreach : Reach Run.step (· = r₀) (fun r a => r.cooperates name a = true) r₁ :=
      Reach.of_runIf (fun _ _ h => h) (.start rfl) h₁
    refine hreach.invariant (Due cfg name r₁.clock.nanos) ?_ fun r a r' hr hok hstep =>
      hr.step hok hstep
    rintro _ rfl
    exact ⟨hputOff.cfg_eq, fun b hb => (hputOff.bounded name b hb).2.trans hwait⟩
  have hlower : ∀ r a r', Due cfg name r₁.clock.nanos r ∧ r₁.clock.nanos ≤ r.clock.nanos →
      r.cooperates name a = true → r.step a = some r' → (r.Attaches name r' ∨ r'.Panicked) ∨
        (Due cfg name r₁.clock.nanos r' ∧ r₁.clock.nanos ≤ r'.clock.nanos) ∧
          (r.moves a).toNat + r'.phase.rank cfg name ≤ r.phase.rank cfg name := by
    rintro r a r' ⟨hdue, hclock⟩ hgood hstep
    obtain ⟨clock, hle, htime, hadvance⟩ := Run.advance_of_step hstep
    have hclock' : r'.clock = clock := (Run.backs_of_advance hadvance).2.1
    have hlater : ∀ b now, r.daemon.backoff.lookup name = some b → a.time = some now →
        b.nextTry.nanos ≤ now.nanos := by
      intro b now hb hnow
      have hpast := hdue.due b hb
      rw [← htime now hnow]
      omega
    have hcloser : r.Attaches name r' ∨ r'.Panicked ∨
        (r.moves a).toNat + r'.phase.rank cfg name ≤ r.phase.rank cfg name :=
      closer_of_advance (r := { r with clock }) hserver hdue.cfg_eq hlater hgood hadvance
    rcases hcloser with hattached | hpanicked | hlt
    · exact .inl (.inl hattached)
    · exact .inl (.inr hpanicked)
    · exact .inr ⟨⟨hdue.step hgood hstep, by rw [hclock']; omega⟩, hlt⟩
  have hrank := Phase.rank_le cfg name r₁.phase
  exact exists_goal_of_countSteps hlower ⟨hdue₁, le_rfl⟩ h₂ (hrank.trans_lt hcount)

/-- The server is unreachable when the daemon starts. -/
def outage : List Answer :=
  [.adopt none ⟨[], List.nodup_nil⟩, .prune none, .next, .check (.ofSecs 1),
    .devlist none (.ofSecs 1), .next]

/-- A minute later it is back; the controller is attached, and drops off again. -/
def comeback : List Answer :=
  [.prune (some (twoPorts false false)), .next, .check (.ofSecs 62),
    .devlist (some [controller]) (.ofSecs 62),
    .usbip (some (twoPorts false false)) true (.ofSecs 62), .poll (.ofSecs 62) none,
    .poll (.ofSecs 63) (some (twoPorts true false)), .nap (.ofSecs 63), .wake (.ofSecs 64),
    .wake (.ofSecs 68), .prune (some (twoPorts false false)), .next]

theorem daemon_recovers_outage :
    ∃ (r₁ t t' : Run) (upTo : List Answer) (a : Answer), upTo ++ [a] <+: comeback ∧
      runIf Run.step (Run.cooperates "deck") r₁ upTo = some t ∧ t.step a = some t' ∧
      (t.Attaches "deck" t' ∨ t'.Panicked) := by
  obtain ⟨r₀, h₀, hp⟩ := Run.exists_reachable oneServer (.ofSecs 0) outage (fun r₀ =>
    (runIf Run.step (Run.cooperates "deck") r₀ [.nap (.ofSecs 1), .wake (.ofSecs 62)]).any
      fun r₁ => decide (r₀.clock.nanos + 60000000000 ≤ r₁.clock.nanos) &&
        decide (4 * (r₁.phase.ahead.length + 1) + 5 <
          countSteps Run.step Run.moves r₁ comeback) &&
        (runIf Run.step (Run.cooperates "deck") r₁ comeback).isSome) (by decide +kernel)
  obtain ⟨r₁, h₁, hp⟩ := (Option.any_eq_true _ _).mp hp
  simp only [Bool.and_eq_true, decide_eq_true_eq] at hp
  obtain ⟨⟨hwait, hcount⟩, hrun⟩ := hp
  obtain ⟨r₂, h₂⟩ := Option.isSome_iff_exists.mp hrun
  have hserver : ∃ s ∈ oneServer.servers, s.isFor "deck" = true :=
    ⟨deck "deck", List.mem_singleton_self _, by decide⟩
  obtain ⟨upTo, a, t, t', hupTo, ht, hstep, hgoal⟩ :=
    daemon_recovers h₀ hserver h₁ hwait h₂ hcount
  exact ⟨r₁, t, t', upTo, a, hupTo, ht, hstep, hgoal⟩

end Padwire.Attach
