import Padwire.Attach.Daemon

/-!
# Failures in a row

A call of `try_server` that fails schedules the next one: `record_failure` uses the delay in the
backoff of the server and doubles it, up to a ceiling, and reports at `info` only if it has not
done so before. Once the device list is there, `clear_failure` takes the backoff away.

An attempt has two stages that can fail. When `usbip attach` fails, the device list has just been
read, so that the backoff is gone already: the failure starts from the smallest delay, and is
reported again. `backsOff_iff` says that this is the only way in which the failures in a row do not
back off.
-/

namespace Padwire.Attach

/-- How the calls of `try_server` for a server ended, skipped ones apart. -/
def Run.outcomes (r : Run) (server : String) : List Outcome :=
  (r.log.filter (·.server == server)).map Attempt.outcome

/-- The failures back off: each schedules the next attempt at least the doubled delay after it,
and only the first is reported at `info`. -/
def BacksOff (s : Settings) (fails : List Failure) : Prop :=
  ∀ (k : ℕ) f, fails[k]? = some f →
    f.time.nanos + doubling s.retryMin.nanos s.retryMax.nanos k ≤ f.nextTry.nanos ∧
      (f.level = .info → k = 0)

/-! ### The schedule of a failure -/

/-- How long the daemon waits after a failure. -/
def Failure.delay (f : Failure) : ℕ := f.nextTry.nanos - f.time.nanos

/-- The delay and the level of a failure in the given stage, after a call that ended in `last`. -/
def owed (s : Settings) (last : Option Outcome) : Stage → ℕ × Level
  | .attach => (s.retryMin.nanos, .info)
  | .devlist =>
    match last with
    | some (.failed f) => (min (f.delay * 2) s.retryMax.nanos, .debug)
    | _ => (s.retryMin.nanos, .info)

/-- Every failure has the delay and the level that are owed to it. -/
def Scheduled (s : Settings) (os : List Outcome) : Prop :=
  ∀ l f m, os = l ++ .failed f :: m →
    f.nextTry.nanos = f.time.nanos + (owed s l.getLast? f.stage).1 ∧
      f.level = (owed s l.getLast? f.stage).2

/-- The backoff of a server after a call that ended in `last`. -/
def Remembers (s : Settings) (last : Option Outcome) (b : Option Backoff) : Prop :=
  match last with
  | some (.failed f) => ∃ delay : Duration, delay.nanos = min (f.delay * 2) s.retryMax.nanos ∧
      b = some ⟨f.nextTry, delay, true⟩
  | _ => b = none

theorem Scheduled.snoc {s : Settings} {os : List Outcome} (h : Scheduled s os) {o : Outcome}
    (ho : ∀ f, o = .failed f → f.nextTry.nanos = f.time.nanos + (owed s os.getLast? f.stage).1 ∧
      f.level = (owed s os.getLast? f.stage).2) : Scheduled s (os ++ [o]) := by
  intro l f m heq
  rcases List.eq_nil_or_concat m with rfl | ⟨m, o', rfl⟩
  · obtain ⟨rfl, hlast⟩ := List.append_inj' heq rfl
    exact ho f (List.singleton_inj.mp hlast)
  · rw [List.concat_eq_append, ← List.cons_append, ← List.append_assoc] at heq
    exact h l f m (List.append_inj' heq rfl).1

/-! ### Along a run -/

/-- The daemon is between `clear_failure` and the end of the call, for the server. -/
def Phase.attaches (server : String) : Phase → Prop
  | .attaching s _ _ | .settling s _ _ _ _ => s.name = server
  | _ => False

def Phase.dead : Phase → Prop
  | .panicked _ => True
  | _ => False

/-- The backoff of a server goes with its calls. -/
structure Linked (cfg : Config) (server : String) (r : Run) : Prop where
  config : r.daemon.cfg = cfg
  scheduled : Scheduled cfg.attach (r.outcomes server)
  cleared : r.phase.attaches server → r.daemon.backoff.lookup server = none
  remembers : ¬r.phase.attaches server → ¬r.phase.dead →
    Remembers cfg.attach (r.outcomes server).getLast? (r.daemon.backoff.lookup server)

variable {cfg : Config} {server : String} {r r' : Run}

theorem outcomes_snoc {name : String} {o : Outcome} (hlog : r'.log = r.log ++ [⟨name, o⟩]) :
    r'.outcomes server = if name = server then r.outcomes server ++ [o] else r.outcomes server := by
  rw [Run.outcomes, Run.outcomes, hlog, List.filter_append, List.map_append]
  split_ifs with hname
  · rw [List.filter_cons_of_pos (by simpa using hname)]
    rfl
  · rw [List.filter_cons_of_neg (by simpa using hname)]
    exact List.append_nil _

/-- A step that neither ends a call nor touches a backoff. -/
theorem Linked.keep (hr : Linked cfg server r) (hcfg : r'.daemon.cfg = r.daemon.cfg)
    (hbackoff : r'.daemon.backoff = r.daemon.backoff) (hlog : r'.log = r.log)
    (hon : r'.phase.attaches server → r.phase.attaches server)
    (hoff : ¬r'.phase.attaches server → ¬r'.phase.dead →
      ¬r.phase.attaches server ∧ ¬r.phase.dead) : Linked cfg server r' := by
  have hos : r'.outcomes server = r.outcomes server := by rw [Run.outcomes, hlog, Run.outcomes]
  refine ⟨hcfg.trans hr.config, hos ▸ hr.scheduled, ?_, ?_⟩
  · intro h
    rw [hbackoff]
    exact hr.cleared (hon h)
  · intro h hdead
    rw [hbackoff, hos]
    exact hr.remembers (hoff h hdead).1 (hoff h hdead).2

/-- A step that ends a call for the server `name`. -/
theorem Linked.ended (hr : Linked cfg server r) {name : String} {o : Outcome}
    (hcfg : r'.daemon.cfg = r.daemon.cfg) (hlog : r'.log = r.log ++ [⟨name, o⟩])
    (hphase : ¬r'.phase.attaches server)
    (hself : name = server →
      (∀ f, o = .failed f →
        f.nextTry.nanos = f.time.nanos + (owed cfg.attach (r.outcomes server).getLast? f.stage).1 ∧
        f.level = (owed cfg.attach (r.outcomes server).getLast? f.stage).2) ∧
      Remembers cfg.attach (some o) (r'.daemon.backoff.lookup server))
    (hother : name ≠ server →
      r'.daemon.backoff.lookup server = r.daemon.backoff.lookup server ∧
        ¬r.phase.attaches server ∧ ¬r.phase.dead) : Linked cfg server r' := by
  have hos : r'.outcomes server = _ := outcomes_snoc hlog
  by_cases hname : name = server
  · rw [if_pos hname] at hos
    obtain ⟨ho, hrem⟩ := hself hname
    refine ⟨hcfg.trans hr.config, hos ▸ hr.scheduled.snoc ho, fun h => absurd h hphase, ?_⟩
    intro _ _
    rw [hos, List.getLast?_concat]
    exact hrem
  · rw [if_neg hname] at hos
    obtain ⟨hlookup, hnot, hdead⟩ := hother hname
    refine ⟨hcfg.trans hr.config, hos ▸ hr.scheduled, fun h => absurd h hphase, ?_⟩
    intro _ _
    rw [hos, hlookup]
    exact hr.remembers hnot hdead

/-- A step in which a call for the server `s` fails, with the backoff as `owed` has it. -/
theorem Linked.fail (hr : Linked cfg server r) {s : Server} {stage : Stage} {now : Instant}
    {rest : List Server}
    (hself : s.name = server →
      owed cfg.attach (r.outcomes server).getLast? stage =
        ((r.daemon.entry server now).delay.nanos,
          if (r.daemon.entry server now).reported then .debug else .info))
    (hother : s.name ≠ server → ¬r.phase.attaches server ∧ ¬r.phase.dead) :
    Linked cfg server (r.fail s stage now rest) := by
  rcases r.fail_cases s stage now rest with ⟨site, -, hfail⟩ | ⟨level, next, d, hd, hfail⟩
  · rw [hfail]
    exact hr.keep rfl rfl rfl nofun fun _ h => absurd trivial h
  · obtain ⟨hnext, hlevel, delay, hdelay, rfl⟩ := Daemon.recordFailure_ok hd
    rw [hfail]
    refine hr.ended rfl rfl nofun (fun hname => ⟨?_, ?_⟩) fun hname => ⟨?_, hother hname⟩
    · rintro f hf
      cases hf
      subst hname
      rw [hself rfl]
      exact ⟨hnext, hlevel⟩
    · subst hname
      refine ⟨delay, ?_, AList.lookup_insert _⟩
      rw [hdelay, hr.config, Failure.delay, hnext, Nat.add_sub_cancel_left]
    · exact AList.lookup_insert_ne (Ne.symm hname)

/-- A server that was asked for its devices has the backoff that `owed` says. -/
theorem owed_of_remembers {last : Option Outcome} {now : Instant} (hcfg : r.daemon.cfg = cfg)
    (h : Remembers cfg.attach last (r.daemon.backoff.lookup server)) :
    owed cfg.attach last .devlist = ((r.daemon.entry server now).delay.nanos,
      if (r.daemon.entry server now).reported then .debug else .info) := by
  unfold Remembers at h
  split at h
  case h_1 f =>
    obtain ⟨delay, hdelay, hb⟩ := h
    rw [Daemon.entry, hb, Option.getD_some, owed, hdelay]
    rfl
  case h_2 hnot =>
    rw [Daemon.entry, h, Option.getD_none, owed, hcfg]
    · rfl
    · exact fun f hf => hnot f hf

/-- A step from one phase to another, both outside of an attach. -/
theorem Linked.goto (hr : Linked cfg server r) (hcfg : r'.daemon.cfg = r.daemon.cfg)
    (hbackoff : r'.daemon.backoff = r.daemon.backoff) (hlog : r'.log = r.log)
    (hphase : ¬r.phase.attaches server ∧ ¬r.phase.dead) (hphase' : ¬r'.phase.attaches server) :
    Linked cfg server r' :=
  hr.keep hcfg hbackoff hlog (fun h => absurd h hphase') fun _ _ => hphase

theorem Linked.owed_asking (hr : Linked cfg server r) {s : Server} {rest : List Server}
    (hp : r.phase = .asking s rest) (now : Instant) :
    owed cfg.attach (r.outcomes server).getLast? .devlist =
      ((r.daemon.entry server now).delay.nanos,
        if (r.daemon.entry server now).reported then .debug else .info) :=
  owed_of_remembers hr.config (hr.remembers (by rw [hp]; exact id) (by rw [hp]; exact id))

theorem Linked.owed_attaching {s : Server} (hr : Linked cfg s.name r) {dev : UsbDevice}
    {rest : List Server} (hp : r.phase = .attaching s dev rest) (now : Instant) :
    owed cfg.attach (r.outcomes s.name).getLast? .attach =
      ((r.daemon.entry s.name now).delay.nanos,
        if (r.daemon.entry s.name now).reported then .debug else .info) := by
  rw [Daemon.entry, hr.cleared (by rw [hp]; exact rfl), hr.config]
  rfl

theorem Linked.effect {a : Answer} (hr : Linked cfg server r) (h : Run.Effect r a r') :
    Linked cfg server r' := by
  cases h with
  | unreachable hp =>
    exact hr.fail (fun _ => hr.owed_asking hp _) fun _ => by rw [hp]; exact ⟨id, id⟩
  | nothing hp =>
    refine hr.ended rfl rfl id (fun hname => ⟨nofun, ?_⟩) fun hname => ⟨?_, ?_⟩
    · rw [← hname]
      exact AList.lookup_erase _ _
    · exact AList.lookup_erase_ne (Ne.symm hname)
    · rw [hp]
      exact ⟨id, id⟩
  | @found now devices dev s rest hp =>
    refine ⟨hr.config, hr.scheduled, fun hname => ?_, fun hname _ => ?_⟩
    · rw [← (show s.name = server from hname)]
      exact AList.lookup_erase _ _
    · have hlookup : (r.daemon.clearFailure s.name).backoff.lookup server =
          r.daemon.backoff.lookup server := AList.lookup_erase_ne fun heq => hname heq.symm
      rw [hlookup]
      exact hr.remembers (by rw [hp]; exact id) (by rw [hp]; exact id)
  | refused hp =>
    refine hr.fail (fun hname => ?_) fun hname => by rw [hp]; exact ⟨hname, id⟩
    subst hname
    exact hr.owed_attaching hp _
  | attached hp _ hphase =>
    refine hr.ended rfl rfl (by rcases hphase with rfl | rfl <;> exact id)
      (fun hname => ⟨nofun, ?_⟩) fun hname => ⟨rfl, by rw [hp]; exact ⟨hname, id⟩⟩
    exact hr.cleared (by rw [hp]; exact hname)
  | unsettled hp =>
    refine hr.ended rfl rfl id (fun hname => ⟨nofun, ?_⟩)
      fun hname => ⟨rfl, by rw [hp]; exact ⟨hname, id⟩⟩
    exact hr.cleared (by rw [hp]; exact hname)
  | noSettle hp => exact hr.keep rfl rfl rfl nofun fun _ h => absurd trivial h
  | settle hp =>
    exact hr.keep rfl rfl rfl (fun hname => by rw [hp]; exact hname)
      fun hname _ => by rw [hp]; exact ⟨hname, id⟩
  | waiting _ => exact hr
  | @prune ports phase hp hphase =>
    refine hr.goto ?_ ?_ rfl (by rw [hp]; exact ⟨id, id⟩)
      (by rcases hphase with rfl | rfl <;> exact id)
    · cases ports <;> rfl
    · cases ports <;> rfl
  | wake hp hphase =>
    exact hr.goto rfl rfl rfl (by rw [hp]; exact ⟨id, id⟩)
      (by rcases hphase with rfl | rfl <;> exact id)
  | stop hp =>
    refine hr.goto rfl rfl rfl ?_ id
    rcases hp with hp | hp | ⟨wake, hp⟩ <;> rw [hp] <;> exact ⟨id, id⟩
  | skip _ hp => exact hr.goto rfl rfl rfl (by rw [hp]; exact ⟨id, id⟩) id
  | adopt hp | noBrowse hp | endpoints hp | browse hp | ask hp | exhausted hp | noNap hp | nap hp =>
    exact hr.goto rfl rfl rfl (by rw [hp]; exact ⟨id, id⟩) id

theorem linked_of_reach {ok : Run → Answer → Prop}
    (h : Reach Run.step (Run.Initial cfg) ok r) : Linked cfg server r := by
  refine h.invariant (Linked cfg server) ?_ fun r a r' hr _ hstep => ?_
  · rintro _ ⟨clock, rfl⟩
    refine ⟨rfl, fun l f m heq => ?_, nofun, fun _ _ => rfl⟩
    simp [Run.outcomes, Run.start] at heq
  · obtain ⟨clock, -, -, heff⟩ := Run.effect_of_step hstep
    exact Linked.effect (r := { r with clock })
      ⟨hr.config, hr.scheduled, hr.cleared, hr.remembers⟩ heff

/-! ### A block of failures -/

section Block

variable {s : Settings} {os before after : List Outcome} {fails : List Failure}

theorem Scheduled.nextTry_eq (h : Scheduled s os) {l m : List Outcome} {f : Failure}
    (hos : os = l ++ .failed f :: m) :
    f.nextTry.nanos = f.time.nanos + f.delay ∧ f.delay = (owed s l.getLast? f.stage).1 := by
  have hnext := (h l f m hos).1
  rw [Failure.delay, hnext]
  omega

/-- No failure is scheduled sooner than the smallest delay allows. -/
theorem Scheduled.doubling_zero_le (h : Scheduled s os) {l m : List Outcome} {f : Failure}
    (hos : os = l ++ .failed f :: m) :
    doubling s.retryMin.nanos s.retryMax.nanos 0 ≤ f.delay := by
  -- from one failure to the next, along the outcomes before this one
  induction l using List.reverseRecOn generalizing f m with
  | nil =>
    rw [(h.nextTry_eq hos).2, doubling]
    cases f.stage <;> simp [owed]
  | append_singleton l o ih =>
    rw [(h.nextTry_eq hos).2, List.getLast?_concat]
    cases f.stage with
    | attach => simp [owed, doubling]
    | devlist =>
      cases o with
      | failed g =>
        have hle := doubling_succ_le (ih (by rw [hos, List.append_assoc]; rfl))
        rw [doubling_succ] at hle
        simp only [owed]
        rw [doubling] at hle ⊢
        omega
      | _ => simp [owed, doubling]

/-- The `k`-th failure of a block whose later failures are all of device lists. -/
theorem Scheduled.doubling_le (h : Scheduled s os)
    (hos : os = before ++ fails.map .failed ++ after)
    (hstage : ∀ f ∈ fails.tail, f.stage = .devlist) {l m : List Failure} {f : Failure}
    (hfails : fails = l ++ f :: m) :
    doubling s.retryMin.nanos s.retryMax.nanos l.length ≤ f.delay ∧
      (f.level = .info → l = []) := by
  have hsplit : ∀ {l m : List Failure} {f : Failure}, fails = l ++ f :: m →
      os = (before ++ l.map .failed) ++ .failed f :: (m.map .failed ++ after) := by
    intro l m f hfails
    rw [hos, hfails]
    simp
  induction l using List.reverseRecOn generalizing f m with
  | nil => exact ⟨h.doubling_zero_le (hsplit hfails), fun _ => rfl⟩
  | append_singleton l g ih =>
    have hdevlist : f.stage = .devlist := by
      refine hstage f ?_
      rw [hfails]
      cases l <;> simp
    have hfollows : fails = l ++ g :: f :: m := by rw [hfails, List.append_assoc]; rfl
    have howed : owed s (before ++ (l ++ [g]).map Outcome.failed).getLast? f.stage =
        (min (g.delay * 2) s.retryMax.nanos, .debug) := by
      rw [List.map_append, ← List.append_assoc, List.map_singleton, List.getLast?_concat, hdevlist]
      rfl
    have hf := h _ f _ (hsplit hfails)
    rw [(h.nextTry_eq (hsplit hfails)).2, howed, List.length_append]
    refine ⟨doubling_succ_le (ih hfollows).1, fun hinfo => ?_⟩
    rw [howed] at hf
    exact absurd (hinfo.symm.trans hf.2) nofun

private theorem exists_append_of_getElem? {α : Type} {l : List α} {k : ℕ} {a : α}
    (h : l[k]? = some a) : ∃ l₁ l₂, l = l₁ ++ a :: l₂ ∧ l₁.length = k := by
  obtain ⟨hk, rfl⟩ := List.getElem?_eq_some_iff.mp h
  refine ⟨l.take k, l.drop (k + 1), ?_, List.length_take_of_le hk.le⟩
  rw [← List.drop_eq_getElem_cons hk, List.take_append_drop]

theorem Scheduled.backsOff_iff (h : Scheduled s os)
    (hos : os = before ++ fails.map .failed ++ after) :
    BacksOff s fails ↔ ∀ f ∈ fails.tail, f.stage = .devlist := by
  constructor
  · intro hback f hf
    obtain ⟨k, hk⟩ := List.getElem?_of_mem hf
    rw [List.getElem?_tail] at hk
    cases hstage : f.stage with
    | devlist => rfl
    | attach =>
      -- reported once more, though it is not the first
      obtain ⟨l, m, hfails, -⟩ := exists_append_of_getElem? hk
      have hlevel := (h (before ++ l.map .failed) f (m.map .failed ++ after)
        (by rw [hos, hfails]; simp)).2
      rw [hstage] at hlevel
      exact absurd ((hback _ f hk).2 hlevel) (Nat.succ_ne_zero k)
  · intro hstage k f hk
    obtain ⟨l, m, hfails, rfl⟩ := exists_append_of_getElem? hk
    obtain ⟨hdelay, hinfo⟩ := h.doubling_le hos hstage hfails
    have hnext := (h.nextTry_eq (l := before ++ l.map .failed) (m := m.map .failed ++ after)
      (f := f) (by rw [hos, hfails]; simp)).1
    exact ⟨by omega, fun hlevel => by rw [hinfo hlevel]; rfl⟩

end Block

/-- **Failures in a row back off exactly when no attach fails after the first.** In every run, take
any failures of a server that follow each other: the `k`-th schedules the next attempt at least
`min (retry_min * 2 ^ (k - 1)) retry_max` after it and only the first is reported at `info`, if and
only if the later ones are all of device lists. One that does not follow a failure is reported. -/
theorem failures_backOff_iff (h : Reachable Run.step (Run.Initial cfg) r)
    {before after : List Outcome} {fails : List Failure}
    (hlog : r.outcomes server = before ++ fails.map .failed ++ after) :
    (BacksOff cfg.attach fails ↔ ∀ f ∈ fails.tail, f.stage = .devlist) ∧
      ∀ f, fails.head? = some f → (∀ g, before.getLast? ≠ some (.failed g)) →
        f.level = .info := by
  have hsched : Scheduled cfg.attach (r.outcomes server) := (linked_of_reach h).scheduled
  refine ⟨hsched.backsOff_iff hlog, fun f hf hbefore => ?_⟩
  obtain ⟨m, rfl⟩ : ∃ m, fails = f :: m := List.head?_eq_some_iff.mp hf
  have hlevel := (hsched before f (m.map .failed ++ after) (by rw [hlog]; simp)).2
  rw [hlevel]
  cases f.stage with
  | attach => rfl
  | devlist =>
    cases hlast : before.getLast? with
    | none => rfl
    | some o =>
      cases o with
      | failed g => exact absurd hlast (hbefore g)
      | _ => rfl

/-- One server with the default settings. -/
def oneServer : Config := { Config.default with servers := [deck "deck"] }

/-- A tick that tries the server at the given time, with the nap before it. -/
def tryAt (secs : UInt32) (answers : List Answer) : List Answer :=
  [.wake (.ofSecs secs), .prune none, .next, .check (.ofSecs secs)] ++ answers ++ [.next]

/-- Up to the first nap, with the given answers to the first attempt. -/
def firstAttempt (answers : List Answer) : List Answer :=
  [.adopt none ⟨[], List.nodup_nil⟩, .prune none, .next, .check (.ofSecs 0)] ++ answers ++
    [.next, .nap (.ofSecs 0)]

/-- The device list cannot be had, twice. -/
def outages : List Failure :=
  [⟨.devlist, .ofSecs 0, .info, .ofSecs 2⟩, ⟨.devlist, .ofSecs 5, .debug, .ofSecs 9⟩]

theorem failures_backOff_iff_outages : ∃ r, Reachable Run.step (Run.Initial oneServer) r ∧
    r.outcomes "deck" = [] ++ outages.map .failed ++ [] ∧ BacksOff oneServer.attach outages := by
  obtain ⟨r, hr, hf⟩ := Run.exists_reachable oneServer (.ofSecs 0)
    (firstAttempt [.devlist none (.ofSecs 0)] ++ tryAt 5 [.devlist none (.ofSecs 5)])
    (fun r => r.outcomes "deck" = [] ++ outages.map .failed ++ []) (by decide +kernel)
  have hlog := of_decide_eq_true hf
  exact ⟨r, hr, hlog, (failures_backOff_iff hr hlog).1.mpr (by decide)⟩

/-- `usbip attach` fails, twice: the second time like the first. -/
def refusals : List Failure :=
  [⟨.attach, .ofSecs 0, .info, .ofSecs 2⟩, ⟨.attach, .ofSecs 5, .info, .ofSecs 7⟩]

/-- The second attach that fails is reported again, and the next attempt is due after the smallest
delay: half of what it should be. -/
theorem exists_failures_not_backing_off : ∃ r, Reachable Run.step (Run.Initial oneServer) r ∧
    r.outcomes "deck" = refusals.map .failed ∧ ¬BacksOff oneServer.attach refusals := by
  obtain ⟨r, hr, hf⟩ := Run.exists_reachable oneServer (.ofSecs 0)
    (firstAttempt [.devlist (some [controller]) (.ofSecs 0), .usbip none false (.ofSecs 0)] ++
      tryAt 5 [.devlist (some [controller]) (.ofSecs 5), .usbip none false (.ofSecs 5)])
    (fun r => r.outcomes "deck" = refusals.map .failed) (by decide +kernel)
  refine ⟨r, hr, of_decide_eq_true hf, fun hback => ?_⟩
  exact absurd ((hback 1 ⟨.attach, .ofSecs 5, .info, .ofSecs 7⟩ rfl).2 rfl) Nat.one_ne_zero

end Padwire.Attach
