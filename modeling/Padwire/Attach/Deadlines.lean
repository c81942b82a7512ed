import Padwire.Attach.Backoff

/-!
# Time arithmetic

The daemon adds to readings of the clock: the backoff of a server in `record_failure`, the poll
interval in `nap` and the timeout of `browse`. The numbers of seconds come from the configuration,
where any number of 64 bits that is not negative is accepted, so that such a sum can leave the range
of an `Instant`, and the daemon panics. A doubled delay, on the other hand, is always a `Duration`.

The delay of a failure depends on the failures before it: `streak` counts those that came in a row.
-/

namespace Padwire.Attach

/-! ### The delay in use -/

/-- The failures at the end of a list of outcomes, newest first, back to the last device list that
was read. -/
def streakRev : List Outcome → ℕ
  | .failed f :: os => (match f.stage with | .devlist => streakRev os | .attach => 0) + 1
  | _ => 0

/-- How many failures of a server there were since its device list was last read. -/
def streak (os : List Outcome) : ℕ := streakRev os.reverse

theorem streak_snoc (os : List Outcome) (o : Outcome) :
    streak (os ++ [o]) = match o with
      | .failed f => (match f.stage with | .devlist => streak os | .attach => 0) + 1
      | _ => 0 := by
  rw [streak, List.reverse_append]
  cases o <;> rfl

theorem Scheduled.of_snoc {s : Settings} {os : List Outcome} {o : Outcome}
    (h : Scheduled s (os ++ [o])) : Scheduled s os := by
  intro l f m hos
  exact h l f (m ++ [o]) (by rw [hos, List.append_assoc]; rfl)

/-- After a streak of failures the delay in use is the smallest one, doubled as often. -/
theorem Scheduled.owed_devlist {s : Settings} (hs : s.Valid) {os : List Outcome}
    (h : Scheduled s os) :
    (owed s os.getLast? .devlist).1 =
      doubling s.retryMin.nanos s.retryMax.nanos (streak os) := by
  induction os using List.reverseRecOn with
  | nil => exact (doubling_zero hs.retry_le).symm
  | append_singleton os o ih =>
    rw [List.getLast?_concat, streak_snoc]
    cases o with
    | failed f =>
      have hdelay := (h.nextTry_eq (l := os) (m := []) (f := f) rfl).2
      simp only [owed]
      cases hstage : f.stage with
      | devlist => rw [doubling_succ, hdelay, hstage, ih h.of_snoc]
      | attach => rw [doubling_succ, hdelay, hstage, doubling_zero hs.retry_le]; rfl
    | _ => exact (doubling_zero hs.retry_le).symm

/-! ### Sums that fit -/

/-- The time so many nanoseconds after the reading is still an instant. -/
def Room (now : Instant) (nanos : ℕ) : Prop :=
  now.nanos + nanos < 2 ^ 63 * NANOS_PER_SEC

instance (now : Instant) (nanos : ℕ) : Decidable (Room now nanos) :=
  inferInstanceAs (Decidable (_ < _))

/-- The reading of the clock that a step adds to, and what it adds: by the configuration, and by
the failures of the server so far. -/
def Run.sum (r : Run) : Answer → Option (Instant × ℕ)
  | .nap now => some (now, r.daemon.cfg.attach.pollInterval.nanos)
  | .browse (some now) _ => some (now, r.daemon.cfg.discovery.mdnsTimeout.nanos)
  | .devlist none now =>
    match r.phase with
    | .asking server _ => some (now, doubling r.daemon.cfg.attach.retryMin.nanos
        r.daemon.cfg.attach.retryMax.nanos (streak (r.outcomes server.name)))
    | _ => none
  | .usbip _ false now => some (now, r.daemon.cfg.attach.retryMin.nanos)
  | _ => none

/-- The sum of a step fits. -/
def Fits (r : Run) (a : Answer) : Prop :=
  ∀ x ∈ r.sum a, Room x.1 x.2

instance (r : Run) (a : Answer) : Decidable (Fits r a) :=
  inferInstanceAs (Decidable (∀ x ∈ r.sum a, Room x.1 x.2))

theorem fits_iff {r : Run} {a : Answer} {now : Instant} {n : ℕ} (h : r.sum a = some (now, n)) :
    Fits r a ↔ Room now n := by
  simp [Fits, h]

theorem fits_of_sum_eq_none {r : Run} {a : Answer} (h : r.sum a = none) : Fits r a := by
  simp [Fits, h]

/-- The daemon panicked in `record_failure`, `nap` or `browse`. -/
def Overflowed (r : Run) : Prop :=
  ∃ site, r.phase = .panicked site ∧ site ≠ .settle

variable {cfg : Config} {r r' : Run} {a : Answer}

theorem not_overflowed_of {r : Run} (h : ∀ site, r.phase ≠ .panicked site) : ¬Overflowed r :=
  fun ⟨site, hsite, _⟩ => h site hsite

theorem overflowed_fail_iff {server : Server} {stage : Stage} {now : Instant}
    {rest : List Server} {n : ℕ} (hdelay : (r.daemon.entry server.name now).delay.nanos = n)
    (hn : n < 2 ^ 63 * NANOS_PER_SEC) :
    Overflowed (r.fail server stage now rest) ↔ ¬Room now n := by
  rcases r.fail_cases server stage now rest with ⟨site, herr, hfail⟩ | ⟨level, next, d, hd, hfail⟩
  · rw [hfail]
    rcases Daemon.recordFailure_error herr with ⟨rfl, hadd⟩ | ⟨rfl, hdouble⟩
    · refine iff_of_true ⟨.retry, rfl, nofun⟩ ?_
      rw [Instant.add_eq_none_iff, hdelay] at hadd
      exact not_lt.mpr hadd
    · -- a delay from a configuration fits twice into a duration
      rw [Duration.double_eq_none_iff, hdelay] at hdouble
      omega
  · rw [hfail]
    refine iff_of_false (not_overflowed_of nofun) (not_not.mpr ?_)
    have hnext := (Daemon.recordFailure_ok hd).1
    rw [Room, ← hdelay, ← hnext]
    exact next.lt

/-- A step in which the daemon panics over its sum. -/
theorem overflowed_iff_of_panic {site : Site} {now : Instant} {d : Duration}
    (hphase : r'.phase = .panicked site) (hsite : site ≠ .settle)
    (hsum : r.sum a = some (now, d.nanos)) (hadd : now.add d = none) :
    Overflowed r' ↔ ¬Fits r a := by
  rw [fits_iff hsum]
  exact iff_of_true ⟨site, hphase, hsite⟩ (not_lt.mpr (Instant.add_eq_none_iff.mp hadd))

/-- A step in which the daemon goes on, with the sum it has, if any. -/
theorem overflowed_iff_of_fits (hphase : ∀ site, r'.phase ≠ .panicked site) (hfits : Fits r a) :
    Overflowed r' ↔ ¬Fits r a :=
  iff_of_false (not_overflowed_of hphase) (not_not.mpr hfits)

theorem fits_of_add {now : Instant} {d : Duration} (hsum : r.sum a = some (now, d.nanos))
    (hadd : now.add d ≠ none) : Fits r a :=
  (fits_iff hsum).mpr (not_le.mp fun hle => hadd (Instant.add_eq_none_iff.mpr hle))

theorem overflowed_iff_of_effect (hvalid : cfg.attach.Valid)
    (hlinked : ∀ server, Linked cfg server r) (h : Run.Effect r a r') :
    Overflowed r' ↔ ¬Fits r a := by
  have hmax := hvalid.retry_lt
  cases h with
  | noBrowse _ hadd => exact overflowed_iff_of_panic rfl nofun rfl hadd
  | @browse now found servers _ hadd =>
    refine overflowed_iff_of_fits nofun ?_
    cases now with
    | none => exact fits_of_sum_eq_none rfl
    | some now => exact fits_of_add rfl (hadd now rfl)
  | @unreachable now server rest hp =>
    have hr := hlinked server.name
    have hsum : r.sum (.devlist none now) = some (now, doubling cfg.attach.retryMin.nanos
        cfg.attach.retryMax.nanos (streak (r.outcomes server.name))) := by
      simp only [Run.sum, hp, hr.config]
    rw [fits_iff hsum]
    refine overflowed_fail_iff ?_ ((doubling_le _ _ _).trans_lt hmax)
    rw [← hr.scheduled.owed_devlist hvalid, hr.owed_asking hp now]
  | @refused before now server dev rest hp =>
    have hr := hlinked server.name
    have hsum : r.sum (.usbip before false now) = some (now, cfg.attach.retryMin.nanos) := by
      simp only [Run.sum, hr.config]
    rw [fits_iff hsum]
    refine overflowed_fail_iff ?_ (hvalid.retry_le.trans_lt hmax)
    exact congrArg Prod.fst (hr.owed_attaching hp now).symm
  | noSettle _ =>
    refine iff_of_false ?_ (not_not.mpr (fits_of_sum_eq_none rfl))
    rintro ⟨site, hsite, hne⟩
    cases hsite
    exact hne rfl
  | noNap _ hadd => exact overflowed_iff_of_panic rfl nofun rfl hadd
  | @nap now wake _ hadd =>
    refine overflowed_iff_of_fits nofun (fits_of_add rfl ?_)
    rw [hadd]
    exact Option.some_ne_none wake
  | prune _ hphase | wake _ hphase =>
    exact overflowed_iff_of_fits (by rcases hphase with rfl | rfl <;> nofun)
      (fits_of_sum_eq_none rfl)
  | skip ha _ =>
    exact overflowed_iff_of_fits nofun
      (fits_of_sum_eq_none (by rcases ha with rfl | ⟨now, rfl⟩ <;> rfl))
  | waiting hp => exact overflowed_iff_of_fits (by rw [hp]; nofun) (fits_of_sum_eq_none rfl)
  | attached _ _ hphase =>
    exact overflowed_iff_of_fits (by rcases hphase with rfl | rfl <;> nofun)
      (fits_of_sum_eq_none rfl)
  | _ => exact overflowed_iff_of_fits nofun (fits_of_sum_eq_none rfl)

/-- A step makes the daemon overflow exactly when its sum does not fit. -/
theorem overflowed_iff (hvalid : cfg.attach.Valid)
    (h : Reachable Run.step (Run.Initial cfg) r) (hstep : r.step a = some r') :
    Overflowed r' ↔ ¬Fits r a := by
  obtain ⟨clock, -, -, heff⟩ := Run.effect_of_step hstep
  refine overflowed_iff_of_effect (r := { r with clock }) hvalid (fun server => ?_) heff
  have hr : Linked cfg server r := linked_of_reach h
  exact ⟨hr.config, hr.scheduled, hr.cleared, hr.remembers⟩

theorem not_overflowed_of_reach (hvalid : cfg.attach.Valid)
    (h : Reach Run.step (Run.Initial cfg) Fits r) : ¬Overflowed r := by
  induction h with
  | start hs =>
    obtain ⟨clock, rfl⟩ := hs
    exact not_overflowed_of nofun
  | next hr hok hstep _ =>
    rw [overflowed_iff hvalid hr.reachable hstep]
    exact not_not.mpr hok

/-- What can be added to which reading. -/
theorem Run.sum_cases (hvalid : r.daemon.cfg.attach.Valid) {now : Instant} {n : ℕ}
    (h : r.sum a = some (now, n)) :
    a.time = some now ∧ (n = r.daemon.cfg.attach.pollInterval.nanos ∨
      n = r.daemon.cfg.discovery.mdnsTimeout.nanos ∨ n ≤ r.daemon.cfg.attach.retryMax.nanos) := by
  unfold Run.sum at h
  split at h
  case h_1 => cases h; exact ⟨rfl, .inl rfl⟩
  case h_2 => cases h; exact ⟨rfl, .inr (.inl rfl)⟩
  case h_3 =>
    split at h
    · cases h
      exact ⟨rfl, .inr (.inr (doubling_le _ _ _))⟩
    · cases h
  case h_4 => cases h; exact ⟨rfl, .inr (.inr hvalid.retry_le)⟩
  case h_5 => cases h

/-- What a configuration needs: its times fit beside the latest reading of the clock. -/
theorem not_overflowed_of_clock_le {latest : Instant} (hvalid : cfg.attach.Valid)
    (hpoll : Room latest cfg.attach.pollInterval.nanos)
    (hbrowse : Room latest cfg.discovery.mdnsTimeout.nanos)
    (hretry : Room latest cfg.attach.retryMax.nanos)
    (h : Reach Run.step (Run.Initial cfg)
      (fun _ a => ∀ now, a.time = some now → now.nanos ≤ latest.nanos) r) : ¬Overflowed r := by
  induction h with
  | start hs =>
    obtain ⟨clock, rfl⟩ := hs
    exact not_overflowed_of nofun
  | @next r r' a hr hok hstep _ =>
    rw [overflowed_iff hvalid hr.reachable hstep, not_not]
    have hlinked : Linked cfg "" r := linked_of_reach hr
    rintro ⟨now, n⟩ hsum
    obtain ⟨htime, hn⟩ := Run.sum_cases (hlinked.config ▸ hvalid) hsum
    have hle := hok now htime
    rw [hlinked.config] at hn
    rw [Room] at hpoll hbrowse hretry ⊢
    dsimp only
    omega

/-- **Time arithmetic.** With any configuration that is accepted, no sum of times overflows in a run
whose steps all fit, and a step of any run overflows exactly if it does not fit. -/
theorem time_arithmetic_fits {text : String} (htext : parse text = .ok cfg) :
    (∀ r, Reach Run.step (Run.Initial cfg) Fits r → ¬Overflowed r) ∧
    ∀ r a r', Reachable Run.step (Run.Initial cfg) r → r.step a = some r' →
      (Overflowed r' ↔ ¬Fits r a) :=
  ⟨fun _ h => not_overflowed_of_reach (valid_of_parse htext) h,
    fun _ _ _ h hstep => overflowed_iff (valid_of_parse htext) h hstep⟩

/-- A text that sets nothing but a server. -/
def deckText : String := "[[server]]\nhost = \"deck\"\n"

theorem parse_deckText : parse deckText = .ok oneServer := by decide +kernel

theorem time_arithmetic_fits_deck : ∃ r, Reach Run.step (Run.Initial oneServer) Fits r ∧
    r.outcomes "deck" = outages.map .failed ∧ ¬Overflowed r := by
  obtain ⟨r, hr, hf⟩ := Run.exists_reach oneServer (.ofSecs 0)
    (fun r a (h : decide (Fits r a) = true) => of_decide_eq_true h)
    (firstAttempt [.devlist none (.ofSecs 0)] ++ tryAt 5 [.devlist none (.ofSecs 5)])
    (fun r => r.outcomes "deck" = outages.map .failed) (by decide +kernel)
  exact ⟨r, hr, of_decide_eq_true hf, (time_arithmetic_fits parse_deckText).1 r hr⟩

/-- The longest poll interval that is accepted. -/
def longPoll : Config :=
  { oneServer with
    attach := { Settings.default with pollInterval := .fromSecs 9223372036854775807 } }

def longPollText : String :=
  "[[server]]\nhost = \"deck\"\n[attach]\npoll_interval = 9223372036854775807\n"

/-- The daemon panicked over its poll interval. -/
def Run.napPanicked (r : Run) : Bool :=
  match r.phase with
  | .panicked .nap => true
  | _ => false

theorem Run.phase_of_napPanicked {r : Run} (h : r.napPanicked = true) :
    r.phase = .panicked .nap := by
  rw [napPanicked] at h
  split at h
  · assumption
  · cases h

/-- The first nap panics, if the clock is past its first second. -/
theorem exists_overflow : parse longPollText = .ok longPoll ∧
    ∃ r, Reachable Run.step (Run.Initial longPoll) r ∧ r.phase = .panicked .nap ∧
      Overflowed r := by
  refine ⟨by decide +kernel, ?_⟩
  obtain ⟨r, hr, hf⟩ := Run.exists_reachable longPoll (.ofSecs 1)
    [.adopt none ⟨[], List.nodup_nil⟩, .prune none, .next, .check (.ofSecs 1),
      .devlist (some []) (.ofSecs 1), .next, .nap (.ofSecs 1)]
    Run.napPanicked (by decide +kernel)
  have hphase := Run.phase_of_napPanicked hf
  exact ⟨r, hr, hphase, .nap, hphase, nofun⟩

end Padwire.Attach
