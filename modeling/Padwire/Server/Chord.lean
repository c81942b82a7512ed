import Padwire.Backend.Urb

/-!
# The button chord

Recognising a held button combination in the device's input reports
(`usbfwd-server/src/chord.rs`), and the screening of one completion that the reaper applies
(`screen` in `usbfwd-server/src/session.rs`). A point in time is a number of nanoseconds;
`duration_since` saturates at zero, as the truncated subtraction here does.

What a session relies on is `screen_spec`: screening leaves a completion alone or blanks it.
-/

namespace Padwire

/-- `bReportType` of the Deck's controller-state report. -/
def DECK_STATE : UInt8 := 0x09

/-- Offset of the 64-bit button field. -/
def BUTTONS_AT : ℕ := 8

/-- The shortest report that can carry a button field. -/
def MIN_REPORT : ℕ := BUTTONS_AT + 8

/-- The button field of one state report, or `none` if this is not one. -/
def buttons (report : Bytes) : Option UInt64 :=
  if report.length < MIN_REPORT ∨ report.getD 0 0 ≠ 0x01 ∨ report.getD 1 0 ≠ 0x00 then none
  else if report.getD 2 0 ≠ DECK_STATE then none
  -- A shorter variant of the report means something else at the button offset.
  else if (report.getD 3 0).toNat < MIN_REPORT - 4 then none
  else some (UInt64.ofNat (leNat ((report.drop BUTTONS_AT).take 8)))

/-- The buttons that have to be held together. -/
structure Chord where
  mask : UInt64
  deriving DecidableEq, Repr

/-- Subset match: whatever else is pressed does not matter. -/
def Chord.heldIn (c : Chord) (buttons : UInt64) : Bool := buttons &&& c.mask = c.mask

/-- What the caller should do with a report. -/
structure Verdict where
  /-- The chord is down in this report, so it should not reach the importer. -/
  swallow : Bool := false
  /-- The chord has now been held long enough. -/
  fired : Bool := false
  deriving DecidableEq, Repr

/-- Hold-to-fire. A fresh detector is disarmed until it has seen the chord released. -/
structure Detector where
  chord : Chord
  hold : ℕ
  /-- When the current uninterrupted hold started. -/
  since : Option ℕ := none
  armed : Bool := false
  deriving DecidableEq, Repr

/-- Feed one report, received at `now`. -/
def Detector.feed (d : Detector) (report : Bytes) (now : ℕ) : Verdict × Detector :=
  match buttons report with
  | none => ({}, d)
  | some b =>
    if !d.chord.heldIn b then ({}, { d with since := none, armed := true })
    else
      let started := d.since.getD now
      if !d.armed ∨ now - started < d.hold then
        ({ swallow := true }, { d with since := some started })
      else ({ swallow := true, fired := true }, { d with since := some started, armed := false })

/-- A blanked completion: a zero-length transfer in place of the report. -/
def UrbCompletion.blank (c : UrbCompletion) : UrbCompletion :=
  { c with data := [], actualLength := 0 }

/-- Feed one completion to the detector, and blank it if the chord is down. Returns whether the
chord fired. -/
def screen (detector : Option Detector) (c : UrbCompletion) (now : ℕ) :
    Bool × Option Detector × UrbCompletion :=
  match detector with
  | none => (false, none, c)
  | some d =>
    if c.status ≠ 0 ∨ c.data = [] then (false, some d, c)
    else
      let (v, d') := d.feed c.data now
      (v.fired, some d', if v.swallow then c.blank else c)

/-- **Screening** leaves a completion as it is, or blanks one that carries a report. -/
theorem screen_spec (detector : Option Detector) (c : UrbCompletion) (now : ℕ) :
    (screen detector c now).2.2 = c ∨
      c.status = 0 ∧ c.data ≠ [] ∧ (screen detector c now).2.2 = c.blank := by
  unfold screen
  cases detector with
  | none => exact .inl rfl
  | some d =>
    dsimp only
    split_ifs with hskip hswallow
    · exact .inl rfl
    · rw [not_or, not_not] at hskip
      exact .inr ⟨hskip.1, hskip.2, rfl⟩
    · exact .inl rfl

/-! ### The chord in a report -/

/-- The report is a state report with the chord down. -/
def Chord.downIn (c : Chord) (report : Bytes) : Bool := (buttons report).any c.heldIn

@[simp]
theorem Chord.downIn_nil (c : Chord) : c.downIn [] = false := rfl

/-- A truncated report has the button field of the whole one, or none. -/
theorem buttons_take {report : Bytes} {n : ℕ} {b : UInt64} (h : buttons (report.take n) = some b) :
    buttons report = some b := by
  unfold buttons at h
  split_ifs at h with hshort htype hlen
  simp only [List.length_take, not_or, not_not, not_lt, MIN_REPORT, BUTTONS_AT] at hshort
  have hn : 16 ≤ n := by omega
  have hget : ∀ i < 16, (report.take n).getD i 0 = report.getD i 0 := by
    intro i hi
    simp only [List.getD_eq_getElem?_getD, List.getElem?_take_of_lt (show i < n by omega)]
  have hfield : ((report.take n).drop BUTTONS_AT).take 8 = (report.drop BUTTONS_AT).take 8 := by
    rw [List.drop_take, List.take_take, min_eq_left (by simp only [BUTTONS_AT]; omega)]
  rw [hget 0 (by omega), hget 1 (by omega)] at hshort
  rw [hget 2 (by omega)] at htype
  rw [hget 3 (by omega)] at hlen
  rw [hfield] at h
  rw [buttons, if_neg, if_neg htype, if_neg hlen]
  · exact h
  · simp only [MIN_REPORT, BUTTONS_AT, not_or, not_not, not_lt]
    exact ⟨by omega, hshort.2⟩

/-- Truncating a report never makes the chord appear. -/
theorem Chord.downIn_of_prefix {c : Chord} {data report : Bytes} (h : data <+: report)
    (hdown : c.downIn data = true) : c.downIn report = true := by
  rw [List.prefix_iff_eq_take.mp h] at hdown
  rw [downIn, Option.any_eq_true] at hdown ⊢
  obtain ⟨b, hb, hheld⟩ := hdown
  exact ⟨b, buttons_take hb, hheld⟩

/-- A report is swallowed exactly when the chord is down in it. -/
theorem Detector.feed_swallow (d : Detector) (report : Bytes) (now : ℕ) :
    (d.feed report now).1.swallow = d.chord.downIn report := by
  unfold feed Chord.downIn
  cases buttons report with
  | none => rfl
  | some b =>
    dsimp only
    cases hheld : d.chord.heldIn b with
    | false => simp [hheld]
    | true =>
      simp only [Bool.not_true, Bool.false_eq_true, if_false, Option.any_some, hheld]
      split_ifs <;> rfl

theorem Detector.chord_feed (d : Detector) (report : Bytes) (now : ℕ) :
    (d.feed report now).2.chord = d.chord := by
  unfold feed
  cases buttons report with
  | none => rfl
  | some b =>
    dsimp only
    split_ifs <;> rfl

/-- What screening makes of a completion: a successful report with the chord down is blanked. -/
theorem screen_eq (d : Detector) (c : UrbCompletion) (now : ℕ) :
    (screen (some d) c now).2.2 = if c.status = 0 ∧ d.chord.downIn c.data = true then c.blank
      else c := by
  simp only [screen]
  by_cases hskip : c.status ≠ 0 ∨ c.data = []
  · rw [if_pos hskip, if_neg]
    rintro ⟨hstatus, hdown⟩
    rcases hskip with h | h
    · exact h hstatus
    · rw [h, Chord.downIn_nil] at hdown
      cases hdown
  · rw [if_neg hskip]
    rw [not_or, not_not] at hskip
    simp only [d.feed_swallow, hskip.1, true_and]

/-- A completion that has passed the screen with success comes from one that had it, with its
data or, if the chord is down in them, with none. -/
theorem screen_success (d : Detector) (c : UrbCompletion) (now : ℕ)
    (hstatus : (screen (some d) c now).2.2.status = 0) :
    c.status = 0 ∧ (screen (some d) c now).2.2.data <+: c.data ∧
      (d.chord.downIn c.data = true → (screen (some d) c now).2.2.data = [] ∧
        (screen (some d) c now).2.2.actualLength = 0) := by
  rw [screen_eq] at hstatus ⊢
  split_ifs at hstatus ⊢ with hdown
  · exact ⟨hdown.1, List.nil_prefix, fun _ => ⟨rfl, rfl⟩⟩
  · exact ⟨hstatus, List.prefix_rfl, fun h => absurd ⟨hstatus, h⟩ hdown⟩

theorem chord_screen (d : Detector) (c : UrbCompletion) (now : ℕ) :
    ∃ d', (screen (some d) c now).2.1 = some d' ∧ d'.chord = d.chord := by
  simp only [screen]
  split_ifs
  · exact ⟨d, rfl, rfl⟩
  all_goals exact ⟨_, rfl, d.chord_feed _ _⟩

end Padwire
