import Mathlib.Data.List.Induction
import Padwire.Server.Chord

/-!
# When the chord fires

A `Detector` keeps two things of all the reports it was fed: when the current hold started, and
whether it is armed. `Detector.Summary` says what these stand for. A release is a state report in
which the chord is not held; after the last one, the hold started with the first report in which it
is, and the detector is armed until it fires.

A device is watched in two places: by the reaper of a session, which screens every completion, and
while it is suspended by a `Watched` of the toggle (`usbfwd-server/src/toggle.rs`), which reads its
`hidraw` nodes. Each of them begins with a fresh detector, and a `Watched` takes another one each
time it opens its nodes. `chord_fires_once_per_press` is about any sequence of such shifts: from one
fire to the next, the chord is seen released.
-/

namespace Padwire

/-- The report is a state report with the chord not held. -/
def Chord.upIn (c : Chord) (report : Bytes) : Bool := (buttons report).any fun b => !c.heldIn b

namespace Detector

/-! ### One report -/

variable {d : Detector} {report : Bytes} {now : ℕ}

/-- A report that says nothing about the buttons changes nothing. -/
theorem feed_foreign (hdown : ¬d.chord.downIn report) (hup : ¬d.chord.upIn report) :
    d.feed report now = ({}, d) := by
  rw [Chord.downIn] at hdown
  rw [Chord.upIn] at hup
  rw [feed]
  cases hb : buttons report with
  | none => rfl
  | some b =>
    rw [hb, Option.any_some] at hdown hup
    rw [Bool.not_eq_true, Bool.not_eq_false'] at hup
    exact absurd hup hdown

/-- A release arms the detector. -/
theorem feed_up (hup : d.chord.upIn report) :
    d.feed report now = ({}, { d with since := none, armed := true }) := by
  rw [Chord.upIn, Option.any_eq_true] at hup
  obtain ⟨b, hb, hheld⟩ := hup
  simp only [feed, hb, hheld, if_true]

/-- A report with the chord held starts the hold or goes on with it, and fires if the detector is
armed and the hold is long enough. -/
theorem feed_down (hdown : d.chord.downIn report) :
    d.feed report now = ⟨⟨true, d.armed && decide (d.hold ≤ now - d.since.getD now)⟩,
      { d with
        since := some (d.since.getD now)
        armed := d.armed && decide (now - d.since.getD now < d.hold) }⟩ := by
  rw [Chord.downIn, Option.any_eq_true] at hdown
  obtain ⟨b, hb, hheld⟩ := hdown
  simp only [feed, hb, hheld, Bool.not_true, Bool.false_eq_true, if_false]
  cases harmed : d.armed with
  | false => simp
  | true =>
    by_cases hlt : now - d.since.getD now < d.hold
    · simp [hlt, Nat.not_le.mpr hlt]
    · simp [hlt, Nat.not_lt.mp hlt]

theorem not_down_of_up {c : Chord} (hup : c.upIn report) : ¬c.downIn report := by
  rw [Chord.upIn, Option.any_eq_true] at hup
  obtain ⟨b, hb, hheld⟩ := hup
  simpa [Chord.downIn, hb] using hheld

theorem hold_feed (d : Detector) (report : Bytes) (now : ℕ) :
    (d.feed report now).2.hold = d.hold := by
  unfold feed
  cases buttons report with
  | none => rfl
  | some b =>
    dsimp only
    split_ifs <;> rfl

/-! ### A sequence of reports -/

/-- A detector that has seen nothing. -/
def new (chord : Chord) (hold : ℕ) : Detector := { chord, hold }

/-- A fresh detector after the first `n` of the reports, each with the time it came at. -/
def afterFirst (chord : Chord) (hold : ℕ) (rs : List (Bytes × ℕ)) (n : ℕ) : Detector :=
  (rs.take n).foldl (fun d r => (d.feed r.1 r.2).2) (new chord hold)

/-- What a fresh detector makes of report number `n`. -/
def verdict (chord : Chord) (hold : ℕ) (rs : List (Bytes × ℕ)) (n : ℕ) : Verdict :=
  match rs[n]? with
  | some r => ((afterFirst chord hold rs n).feed r.1 r.2).1
  | none => {}

variable {chord : Chord} {hold : ℕ} {rs : List (Bytes × ℕ)} {n : ℕ} {r : Bytes × ℕ}

theorem afterFirst_succ (hr : rs[n]? = some r) :
    afterFirst chord hold rs (n + 1) = ((afterFirst chord hold rs n).feed r.1 r.2).2 := by
  rw [afterFirst, List.take_add_one, hr, List.foldl_append]
  rfl

theorem chord_afterFirst (chord : Chord) (hold : ℕ) (rs : List (Bytes × ℕ)) (n : ℕ) :
    (afterFirst chord hold rs n).chord = chord ∧ (afterFirst chord hold rs n).hold = hold := by
  refine List.foldlRecOn (motive := fun d : Detector => d.chord = chord ∧ d.hold = hold) _ _
    ⟨rfl, rfl⟩ fun d hd r _ => ?_
  rw [chord_feed, hold_feed]
  exact hd

/-- Report number `n` is a state report with the chord held. -/
def DownAt (chord : Chord) (rs : List (Bytes × ℕ)) (n : ℕ) : Prop :=
  ∃ r, rs[n]? = some r ∧ chord.downIn r.1

/-- Report number `n` is a state report with the chord not held. -/
def UpAt (chord : Chord) (rs : List (Bytes × ℕ)) (n : ℕ) : Prop :=
  ∃ r, rs[n]? = some r ∧ chord.upIn r.1

/-- The time report number `n` came at. -/
def timeAt (rs : List (Bytes × ℕ)) (n : ℕ) : ℕ := (rs[n]?.map Prod.snd).getD 0

/-- Report number `f` is the first one after report number `k` in which the chord is held. -/
structure HoldStarts (chord : Chord) (rs : List (Bytes × ℕ)) (k f : ℕ) : Prop where
  lt : k < f
  down : DownAt chord rs f
  first : ∀ m, k < m → m < f → ¬DownAt chord rs m

/-- Before the first release a fresh detector is not armed. -/
theorem not_armed (hn : n ≤ rs.length) (hup : ∀ m < n, ¬UpAt chord rs m) :
    (afterFirst chord hold rs n).armed = false := by
  induction n with
  | zero => rfl
  | succ n ih =>
    obtain ⟨r, hr⟩ : ∃ r, rs[n]? = some r := ⟨_, List.getElem?_eq_getElem hn⟩
    obtain ⟨hchord, hhold⟩ := chord_afterFirst chord hold rs n
    have harmed := ih (by omega) fun m hm => hup m (by omega)
    have hnot : ¬chord.upIn r.1 := fun h => hup n (by omega) ⟨r, hr, h⟩
    rw [afterFirst_succ hr]
    by_cases hdown : chord.downIn r.1 = true
    · rw [feed_down (by rw [hchord]; exact hdown)]
      simp [harmed]
    · rw [feed_foreign (by rw [hchord]; exact hdown) (by rw [hchord]; exact hnot)]
      exact harmed

/-- What the two fields stand for after the last release: the detector is armed if it has not
fired since, and the hold started with the first report in which the chord is held. -/
structure Summary (chord : Chord) (hold : ℕ) (rs : List (Bytes × ℕ)) (k n : ℕ) : Prop where
  armed : (afterFirst chord hold rs n).armed = true ↔
    ∀ m, k < m → m < n → (verdict chord hold rs m).fired = false
  waiting : (∀ m, k < m → m < n → ¬DownAt chord rs m) → (afterFirst chord hold rs n).since = none
  since : ∀ f < n, HoldStarts chord rs k f →
    (afterFirst chord hold rs n).since = some (timeAt rs f)

theorem verdict_eq (hr : rs[n]? = some r) :
    verdict chord hold rs n = ((afterFirst chord hold rs n).feed r.1 r.2).1 := by
  rw [verdict, hr]

/-- Armed after one more report, if armed before it and it did not fire. -/
theorem armed_succ_iff (hr : rs[n]? = some r) (hup : ¬UpAt chord rs n) :
    (afterFirst chord hold rs (n + 1)).armed = true ↔
      (afterFirst chord hold rs n).armed = true ∧ (verdict chord hold rs n).fired = false := by
  obtain ⟨hchord, -⟩ := chord_afterFirst chord hold rs n
  have hnot : ¬chord.upIn r.1 := fun h => hup ⟨r, hr, h⟩
  rw [afterFirst_succ hr, verdict_eq hr]
  by_cases hdown : chord.downIn r.1 = true
  · rw [feed_down (by rw [hchord]; exact hdown)]
    cases (afterFirst chord hold rs n).armed <;> simp
  · rw [feed_foreign (by rw [hchord]; exact hdown) (by rw [hchord]; exact hnot)]
    simp

theorem since_succ_of_down (hr : rs[n]? = some r) (hdown : DownAt chord rs n) :
    (afterFirst chord hold rs (n + 1)).since =
      some ((afterFirst chord hold rs n).since.getD (timeAt rs n)) := by
  obtain ⟨hchord, -⟩ := chord_afterFirst chord hold rs n
  obtain ⟨r', hr', hdown⟩ := hdown
  obtain rfl : r = r' := Option.some.inj (hr ▸ hr')
  have htime : timeAt rs n = r.2 := by rw [timeAt, hr]; rfl
  rw [afterFirst_succ hr, feed_down (by rw [hchord]; exact hdown), htime]

theorem since_succ_of_foreign (hr : rs[n]? = some r) (hdown : ¬DownAt chord rs n)
    (hup : ¬UpAt chord rs n) :
    (afterFirst chord hold rs (n + 1)).since = (afterFirst chord hold rs n).since := by
  obtain ⟨hchord, -⟩ := chord_afterFirst chord hold rs n
  rw [afterFirst_succ hr, feed_foreign]
  · rw [hchord]
    exact fun h => hdown ⟨r, hr, h⟩
  · rw [hchord]
    exact fun h => hup ⟨r, hr, h⟩

/-- A release starts over. -/
theorem summary_start {k : ℕ} (hup : UpAt chord rs k) : Summary chord hold rs k (k + 1) := by
  obtain ⟨r, hr, hup⟩ := hup
  obtain ⟨hchord, -⟩ := chord_afterFirst chord hold rs k
  have hafter : (afterFirst chord hold rs (k + 1)) =
      { afterFirst chord hold rs k with since := none, armed := true } := by
    rw [afterFirst_succ hr, feed_up (by rw [hchord]; exact hup)]
  refine ⟨?_, fun _ => by rw [hafter], fun f hf hstart => ?_⟩
  · rw [hafter]
    exact iff_of_true rfl fun m hm hlt => absurd hm (by omega)
  · have hlt := hstart.lt
    omega

theorem Summary.next {k : ℕ} (h : Summary chord hold rs k n) (hk : k < n) (hn : n < rs.length)
    (hup : ¬UpAt chord rs n) : Summary chord hold rs k (n + 1) := by
  have hr : rs[n]? = some rs[n] := List.getElem?_eq_getElem hn
  refine ⟨?_, fun hnone => ?_, fun f hf hstart => ?_⟩
  · rw [armed_succ_iff hr hup, h.armed]
    constructor
    · rintro ⟨hbefore, hlast⟩ m hkm hm
      rcases Nat.lt_succ_iff_lt_or_eq.mp hm with hm | rfl
      · exact hbefore m hkm hm
      · exact hlast
    · intro hall
      exact ⟨fun m hkm hm => hall m hkm (by omega), hall n hk (by omega)⟩
  · rw [since_succ_of_foreign hr (hnone n hk (by omega)) hup]
    exact h.waiting fun m hkm hm => hnone m hkm (by omega)
  · rcases Nat.lt_succ_iff_lt_or_eq.mp hf with hf | rfl
    · -- the hold goes on
      have hsince := h.since f hf hstart
      by_cases hdown : DownAt chord rs n
      · rw [since_succ_of_down hr hdown, hsince]
        rfl
      · rw [since_succ_of_foreign hr hdown hup, hsince]
    · -- the hold starts with this report
      rw [since_succ_of_down hr hstart.down, h.waiting hstart.first]
      rfl

/-- After a release and no other, the fields are as `Summary` has it. -/
theorem summary_of_lastUp {k : ℕ} (hup : UpAt chord rs k) (hk : k < n) (hn : n ≤ rs.length)
    (hlast : ∀ m, k < m → m < n → ¬UpAt chord rs m) : Summary chord hold rs k n := by
  induction n with
  | zero => omega
  | succ n ih =>
    rcases Nat.lt_succ_iff_lt_or_eq.mp hk with hkn | rfl
    · exact (ih hkn (by omega) fun m hkm hm => hlast m hkm (by omega)).next hkn hn
        (hlast n hkn (by omega))
    · exact summary_start hup

/-- The last release before a report, if there is any. -/
theorem exists_lastUp {k : ℕ} (hup : UpAt chord rs k) (hk : k < n) :
    ∃ k, UpAt chord rs k ∧ k < n ∧ ∀ m, k < m → m < n → ¬UpAt chord rs m := by
  classical
  have hfind := Nat.findGreatest_spec (P := UpAt chord rs) (show k ≤ n - 1 by omega) hup
  refine ⟨_, hfind, ?_, fun m hlt hm => ?_⟩
  · have hle := Nat.findGreatest_le (P := UpAt chord rs) (n - 1)
    omega
  · exact Nat.findGreatest_is_greatest hlt (by omega)

/-- The first report after a release in which the chord is held. -/
theorem exists_holdStarts {k : ℕ} (hdown : DownAt chord rs n) (hk : k < n) :
    ∃ f ≤ n, HoldStarts chord rs k f := by
  classical
  have hex : ∃ f, k < f ∧ DownAt chord rs f := ⟨n, hk, hdown⟩
  obtain ⟨hlt, hfind⟩ := Nat.find_spec hex
  refine ⟨Nat.find hex, Nat.find_min' hex ⟨hk, hdown⟩, hlt, hfind, fun m hkm hm hdown => ?_⟩
  exact Nat.find_min hex hm ⟨hkm, hdown⟩

theorem fired_of_down (hdown : DownAt chord rs n) :
    (verdict chord hold rs n).fired = true ↔ (afterFirst chord hold rs n).armed = true ∧
      hold ≤ timeAt rs n - (afterFirst chord hold rs n).since.getD (timeAt rs n) := by
  obtain ⟨hchord, hhold⟩ := chord_afterFirst chord hold rs n
  obtain ⟨r, hr, hdown⟩ := hdown
  have htime : timeAt rs n = r.2 := by rw [timeAt, hr]; rfl
  rw [verdict_eq hr, feed_down (by rw [hchord]; exact hdown), htime, hhold]
  simp

/-- The chord fires at report number `n`: it is held there, it was released before, it has been
held long enough since the last release, and it has not fired since. -/
structure FiresAt (chord : Chord) (hold : ℕ) (rs : List (Bytes × ℕ)) (n : ℕ) : Prop where
  down : DownAt chord rs n
  since : ∃ k < n, UpAt chord rs k ∧ (∀ m, k < m → m < n → ¬UpAt chord rs m) ∧
    (∃ f ≤ n, HoldStarts chord rs k f ∧ hold ≤ timeAt rs n - timeAt rs f) ∧
    ∀ m, k < m → m < n → (verdict chord hold rs m).fired = false

theorem swallow_iff (chord : Chord) (hold : ℕ) (rs : List (Bytes × ℕ)) (n : ℕ) :
    (verdict chord hold rs n).swallow = true ↔ DownAt chord rs n := by
  cases hr : rs[n]? with
  | none => simp [verdict, DownAt, hr]
  | some r =>
    rw [verdict_eq hr, feed_swallow, (chord_afterFirst chord hold rs n).1]
    simp [DownAt, hr]

theorem lt_length_of_downAt (h : DownAt chord rs n) : n < rs.length := by
  obtain ⟨r, hr, -⟩ := h
  exact (List.getElem?_eq_some_iff.mp hr).1

/-- After the last release before it, a report fires as `FiresAt` has it. -/
theorem fired_iff_of_lastUp {k : ℕ} (hdown : DownAt chord rs n) (hup : UpAt chord rs k)
    (hk : k < n) (hlast : ∀ m, k < m → m < n → ¬UpAt chord rs m) :
    (verdict chord hold rs n).fired = true ↔
      (∃ f ≤ n, HoldStarts chord rs k f ∧ hold ≤ timeAt rs n - timeAt rs f) ∧
        ∀ m, k < m → m < n → (verdict chord hold rs m).fired = false := by
  have hsum : Summary chord hold rs k n :=
    summary_of_lastUp hup hk (lt_length_of_downAt hdown).le hlast
  have hstarted : ∀ {f}, f ≤ n → HoldStarts chord rs k f →
      (afterFirst chord hold rs n).since.getD (timeAt rs n) = timeAt rs f := by
    intro f hf hstart
    rcases Nat.lt_or_eq_of_le hf with hf | rfl
    · rw [hsum.since f hf hstart, Option.getD_some]
    · rw [hsum.waiting hstart.first, Option.getD_none]
  rw [fired_of_down hdown, hsum.armed]
  constructor
  · rintro ⟨hquiet, hlong⟩
    obtain ⟨f, hf, hstart⟩ := exists_holdStarts hdown hk
    rw [hstarted hf hstart] at hlong
    exact ⟨⟨f, hf, hstart, hlong⟩, hquiet⟩
  · rintro ⟨⟨f, hf, hstart, hlong⟩, hquiet⟩
    rw [hstarted hf hstart]
    exact ⟨hquiet, hlong⟩

theorem fired_iff (chord : Chord) (hold : ℕ) (rs : List (Bytes × ℕ)) (n : ℕ) :
    (verdict chord hold rs n).fired = true ↔ FiresAt chord hold rs n := by
  by_cases hdown : DownAt chord rs n
  swap
  · refine iff_of_false (fun h => ?_) fun h => hdown h.down
    cases hr : rs[n]? with
    | none => simp [verdict, hr] at h
    | some r =>
      rw [verdict_eq hr] at h
      obtain ⟨hchord, -⟩ := chord_afterFirst chord hold rs n
      have hnot : ¬chord.downIn r.1 := fun hd => hdown ⟨r, hr, hd⟩
      by_cases hup : chord.upIn r.1 = true
      · rw [feed_up (by rw [hchord]; exact hup)] at h
        cases h
      · rw [feed_foreign (by rw [hchord]; exact hnot) (by rw [hchord]; exact hup)] at h
        cases h
  constructor
  · intro hfired
    by_cases hup : ∃ k < n, UpAt chord rs k
    · obtain ⟨k, hk, hup⟩ := hup
      obtain ⟨k, hup, hk, hlast⟩ := exists_lastUp hup hk
      obtain ⟨hlong, hquiet⟩ := (fired_iff_of_lastUp hdown hup hk hlast).mp hfired
      exact ⟨hdown, k, hk, hup, hlast, hlong, hquiet⟩
    · -- never released so far
      have harmed : (afterFirst chord hold rs n).armed = false :=
        not_armed (lt_length_of_downAt hdown).le fun m hm h => hup ⟨m, hm, h⟩
      rw [fired_of_down hdown, harmed] at hfired
      cases hfired.1
  · rintro ⟨-, k, hk, hup, hlast, hlong, hquiet⟩
    exact (fired_iff_of_lastUp hdown hup hk hlast).mpr ⟨hlong, hquiet⟩

end Detector

/-! ### Shifts -/

/-- What a session and the toggle need to recognise the chord. -/
structure Hotkey where
  chord : Chord
  hold : ℕ
  deriving DecidableEq, Repr

def Hotkey.detector (h : Hotkey) : Detector := .new h.chord h.hold

/-- A report that some detector was fed, and whether it fired. -/
structure Sighting where
  report : Bytes
  fired : Bool
  deriving DecidableEq, Repr

/-- The reaper takes one completion off the device. Those of cancelled URBs are dropped, and those
without data are not fed to the detector. -/
def Detector.reaped (d : Detector) (c : UrbCompletion) (now : ℕ) : Detector × List Sighting :=
  if c.unlinked then (d, [])
  else
    let (fired, d', _) := screen (some d) c now
    (d'.getD d, if c.status ≠ 0 ∨ c.data = [] then [] else [⟨c.data, fired⟩])

/-- The sightings of a session from its first completion on. -/
def Detector.session (d : Detector) : List (UrbCompletion × ℕ) → List Sighting
  | [] => []
  | (c, now) :: cs => (d.reaped c now).2 ++ (d.reaped c now).1.session cs

/-- A suspended device in the eyes of the toggle: whether its `hidraw` nodes are open. -/
structure Watched where
  tap : Bool
  detector : Detector
  deriving DecidableEq, Repr

def Watched.new (h : Hotkey) : Watched := ⟨false, h.detector⟩

/-- Try to open the nodes. A fresh detector, so that the chord that suspended the device has to be
released before it can resume it. -/
def Watched.attachTap (h : Hotkey) (w : Watched) (opened : Bool) : Watched :=
  if opened then ⟨true, h.detector⟩ else w

/-- Feed the reports of one read, up to the first that fires. -/
def Detector.feedAll (d : Detector) (now : ℕ) : List Bytes → Bool × Detector × List Sighting
  | [] => (false, d, [])
  | r :: rs =>
    let (v, d) := d.feed r now
    if v.fired then (true, d, [⟨r, true⟩])
    else
      let (fired, d, seen) := d.feedAll now rs
      (fired, d, ⟨r, false⟩ :: seen)

/-- What comes of a pass of the watcher. -/
inductive Watched.Step
  /-- The chord fired: resume the device. -/
  | fired
  | polled
  /-- There is nothing to poll. -/
  | idle
  deriving DecidableEq, Repr

/-- What a pass of the watcher meets: whether the nodes can be opened, should they not be, the
reports that are read (`none` if the nodes are gone), and the time. -/
structure Pass where
  opened : Bool
  read : Option (List Bytes)
  now : ℕ

/-- One pass of the watcher, with the reports it has seen. -/
def Watched.step (h : Hotkey) (w : Watched) (p : Pass) : Watched.Step × Watched × List Sighting :=
  let w := if w.tap then w else w.attachTap h p.opened
  if w.tap then
    match p.read with
    | some reports =>
      let (fired, detector, seen) := w.detector.feedAll p.now reports
      (if fired then .fired else .polled, { w with detector }, seen)
    | none => (.idle, { w with tap := false }, [])
  else (.idle, w, [])

/-- The sightings of a watcher, pass by pass. -/
def Watched.passes (h : Hotkey) (w : Watched) : List Pass → List Sighting
  | [] => []
  | p :: ps => (w.step h p).2.2 ++ (w.step h p).2.1.passes h ps

/-- A stretch of time in which one side watches the device. -/
inductive Shift
  | session (completions : List (UrbCompletion × ℕ))
  | watch (passes : List Pass)

/-- Either side begins with a fresh detector. -/
def Shift.sightings (h : Hotkey) : Shift → List Sighting
  | .session cs => h.detector.session cs
  | .watch ps => (Watched.new h).passes h ps

/-- From one fire to the next, the chord is seen released. -/
def Separated (chord : Chord) (log : List Sighting) : Prop :=
  ∀ l f m g n, log = l ++ f :: (m ++ g :: n) → f.fired = true → g.fired = true →
    ∃ s ∈ m, chord.upIn s.report = true

/-- The log so far is separated, and if the detector in use is armed then the chord was seen
released since the last fire. -/
structure Fair (chord : Chord) (log : List Sighting) (armed : Bool) : Prop where
  separated : Separated chord log
  released : armed = true → ∀ l f m, log = l ++ f :: m → f.fired = true →
    ∃ s ∈ m, chord.upIn s.report = true

variable {chord : Chord} {log : List Sighting}

theorem Fair.fresh {armed : Bool} (h : Fair chord log armed) : Fair chord log false :=
  ⟨h.separated, nofun⟩

theorem fair_nil : Fair chord [] false :=
  ⟨fun l f m g n heq => by simp at heq, nofun⟩

/-- Only an armed detector fires. -/
theorem Detector.armed_of_fired {d : Detector} {r : Bytes} {now : ℕ}
    (h : (d.feed r now).1.fired = true) : d.armed = true := by
  by_cases hdown : d.chord.downIn r = true
  · rw [feed_down hdown] at h
    simp only [Bool.and_eq_true] at h
    exact h.1
  · by_cases hup : d.chord.upIn r = true
    · rw [feed_up hup] at h
      cases h
    · rw [feed_foreign hdown hup] at h
      cases h

/-- A detector that is armed after a report was fed a release, or was armed before and did not
fire. -/
theorem Detector.armed_feed {d : Detector} {r : Bytes} {now : ℕ}
    (h : (d.feed r now).2.armed = true) :
    (d.feed r now).1.fired = false ∧ (d.chord.upIn r = true ∨ d.armed = true) := by
  by_cases hdown : d.chord.downIn r = true
  · rw [feed_down hdown] at h ⊢
    simp only [Bool.and_eq_true, decide_eq_true_eq] at h
    simp [h.1, h.2]
  · by_cases hup : d.chord.upIn r = true
    · rw [feed_up hup]
      exact ⟨rfl, .inl hup⟩
    · rw [feed_foreign hdown hup] at h ⊢
      exact ⟨rfl, .inr h⟩

/-- One more report is fed to the detector in use. -/
theorem Fair.feed {d : Detector} (hchord : d.chord = chord) (h : Fair chord log d.armed)
    (r : Bytes) (now : ℕ) :
    Fair chord (log ++ [⟨r, (d.feed r now).1.fired⟩]) (d.feed r now).2.armed := by
  constructor
  · intro l f m g n heq hf hg
    rcases List.eq_nil_or_concat n with rfl | ⟨n, s, rfl⟩
    · -- the later one is the report at hand
      rw [← List.cons_append, ← List.append_assoc] at heq
      obtain ⟨hlog, hlast⟩ := List.append_inj' heq rfl
      rw [← List.singleton_inj.mp hlast] at hg
      exact h.released (Detector.armed_of_fired hg) l f m hlog hf
    · rw [List.concat_eq_append, ← List.cons_append, ← List.append_assoc, ← List.cons_append,
        ← List.append_assoc] at heq
      have hlog := (List.append_inj' heq rfl).1
      rw [List.append_assoc, List.cons_append] at hlog
      exact h.separated l f m g n hlog hf hg
  · intro harmed l f m heq hf
    obtain ⟨hquiet, hwhy⟩ := Detector.armed_feed harmed
    rcases List.eq_nil_or_concat m with rfl | ⟨m, s, rfl⟩
    · obtain ⟨-, hlast⟩ := List.append_inj' heq rfl
      rw [← List.singleton_inj.mp hlast, hquiet] at hf
      cases hf
    · rw [List.concat_eq_append, ← List.cons_append, ← List.append_assoc] at heq
      obtain ⟨hlog, hlast⟩ := List.append_inj' heq rfl
      rw [List.concat_eq_append, ← List.singleton_inj.mp hlast]
      rcases hwhy with hup | hbefore
      · exact ⟨_, List.mem_append_right _ (List.mem_singleton_self _), hchord ▸ hup⟩
      · obtain ⟨s', hs', hup⟩ := h.released hbefore l f m hlog hf
        exact ⟨s', List.mem_append_left _ hs', hup⟩

theorem Detector.feedAll_cons (d : Detector) (now : ℕ) (r : Bytes) (rs : List Bytes) :
    d.feedAll now (r :: rs) =
      if (d.feed r now).1.fired then (true, (d.feed r now).2, [⟨r, true⟩])
      else (((d.feed r now).2.feedAll now rs).1, ((d.feed r now).2.feedAll now rs).2.1,
        ⟨r, false⟩ :: ((d.feed r now).2.feedAll now rs).2.2) :=
  rfl

theorem Fair.feedAll (now : ℕ) {d : Detector} (hchord : d.chord = chord)
    (h : Fair chord log d.armed) (rs : List Bytes) :
    (d.feedAll now rs).2.1.chord = chord ∧
      Fair chord (log ++ (d.feedAll now rs).2.2) (d.feedAll now rs).2.1.armed := by
  induction rs generalizing d log with
  | nil => exact ⟨hchord, by rwa [Detector.feedAll, List.append_nil]⟩
  | cons r rs ih =>
    have hfeed := h.feed hchord r now
    have hchord' : (d.feed r now).2.chord = chord := (d.chord_feed r now).trans hchord
    rw [Detector.feedAll_cons]
    cases hfired : (d.feed r now).1.fired with
    | true =>
      rw [hfired] at hfeed
      rw [if_pos rfl]
      exact ⟨hchord', hfeed⟩
    | false =>
      rw [hfired] at hfeed
      rw [if_neg Bool.false_ne_true]
      obtain ⟨hsame, hfair⟩ := ih hchord' hfeed
      rw [List.append_assoc] at hfair
      exact ⟨hsame, hfair⟩

theorem Fair.step {hk : Hotkey} {w : Watched} (hchord : w.detector.chord = hk.chord)
    (h : Fair hk.chord log w.detector.armed) (p : Pass) :
    (w.step hk p).2.1.detector.chord = hk.chord ∧
      Fair hk.chord (log ++ (w.step hk p).2.2) (w.step hk p).2.1.detector.armed := by
  -- opening the nodes puts a fresh detector in place of the one in use
  have hopen : ∀ w' : Watched, w' = (if w.tap then w else w.attachTap hk p.opened) →
      w'.detector.chord = hk.chord ∧ Fair hk.chord log w'.detector.armed := by
    rintro w' rfl
    unfold Watched.attachTap
    split_ifs
    · exact ⟨hchord, h⟩
    · exact ⟨rfl, h.fresh⟩
    · exact ⟨hchord, h⟩
  rw [Watched.step]
  generalize hw : (if w.tap then w else w.attachTap hk p.opened) = w'
  obtain ⟨hchord', hfair⟩ := hopen w' hw.symm
  dsimp only
  split_ifs
  · cases p.read with
    | none => exact ⟨hchord', by rwa [List.append_nil]⟩
    | some reports => exact hfair.feedAll p.now hchord' reports
  · exact ⟨hchord', by rwa [List.append_nil]⟩

theorem Fair.passes {hk : Hotkey} {w : Watched} (hchord : w.detector.chord = hk.chord)
    (h : Fair hk.chord log w.detector.armed) (ps : List Pass) :
    Fair hk.chord (log ++ w.passes hk ps) false := by
  induction ps generalizing w log with
  | nil => simpa [Watched.passes] using h.fresh
  | cons p ps ih =>
    obtain ⟨hchord', hfair⟩ := h.step hchord p
    have hrest := ih hchord' hfair
    rwa [List.append_assoc] at hrest

theorem Fair.reaped {d : Detector} (hchord : d.chord = chord) (h : Fair chord log d.armed)
    (c : UrbCompletion) (now : ℕ) :
    (d.reaped c now).1.chord = chord ∧
      Fair chord (log ++ (d.reaped c now).2) (d.reaped c now).1.armed := by
  rw [Detector.reaped]
  by_cases hunlinked : c.unlinked = true
  · rw [if_pos hunlinked]
    exact ⟨hchord, by rwa [List.append_nil]⟩
  rw [if_neg hunlinked]
  by_cases hskip : c.status ≠ 0 ∨ c.data = []
  · simp only [screen, if_pos hskip, List.append_nil]
    exact ⟨hchord, h⟩
  · simp only [screen, if_neg hskip]
    exact ⟨(d.chord_feed _ _).trans hchord, h.feed hchord _ _⟩

theorem Fair.session {d : Detector} (hchord : d.chord = chord) (h : Fair chord log d.armed)
    (cs : List (UrbCompletion × ℕ)) : Fair chord (log ++ d.session cs) false := by
  induction cs generalizing d log with
  | nil => simpa [Detector.session] using h.fresh
  | cons c cs ih =>
    obtain ⟨hchord', hfair⟩ := h.reaped hchord c.1 c.2
    have hrest := ih hchord' hfair
    rwa [List.append_assoc] at hrest

/-- Whatever the sequence of shifts. -/
theorem fair_shifts (hk : Hotkey) (shifts : List Shift) :
    Fair hk.chord (shifts.flatMap (·.sightings hk)) false := by
  induction shifts using List.reverseRecOn with
  | nil => exact fair_nil
  | append_singleton shifts shift ih =>
    rw [List.flatMap_append, List.flatMap_singleton]
    cases shift with
    | session cs => exact Fair.session (d := hk.detector) rfl ih cs
    | watch ps => exact Fair.passes (w := .new hk) rfl ih ps

/-- **When the chord fires.** Of any sequence of reports that a fresh detector is fed, it swallows
exactly the state reports with the chord held, and it fires exactly at those which `FiresAt` says.
However sessions and watchers take turns, each with a fresh detector, the chord is seen released
between any two fires. -/
theorem chord_fires_once_per_press (hk : Hotkey) :
    (∀ rs n, ((Detector.verdict hk.chord hk.hold rs n).swallow = true ↔
        Detector.DownAt hk.chord rs n) ∧
      ((Detector.verdict hk.chord hk.hold rs n).fired = true ↔
        Detector.FiresAt hk.chord hk.hold rs n)) ∧
    ∀ shifts : List Shift, Separated hk.chord (shifts.flatMap (·.sightings hk)) :=
  ⟨fun rs n => ⟨Detector.swallow_iff _ _ rs n, Detector.fired_iff _ _ rs n⟩,
    fun shifts => (fair_shifts hk shifts).separated⟩

end Padwire
