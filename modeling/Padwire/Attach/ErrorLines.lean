import Padwire.Attach.Toml
import Padwire.Lib.Except

/-!
# The lines of configuration errors

An error of the configuration parser carries the number of a line
(`usbfwd-attach/src/toml.rs`). `parse_error` says what the number means: the line is one of the
file, everything above it parses by itself, and nothing below the line that made the parser stop
changes the error. Only an array that is still open at the end of the file leaves the parser no
such line; it is blamed on the line where the array begins, at every cut below it.
-/

namespace Padwire.Toml

/-! ### Values -/

/-- An escape that is none is blamed on the line of its string. -/
theorem unescape_error_line {line : ℕ} {s : List Char} {e : Error}
    (h : unescape line s = .error e) : e.line = line := by
  fun_induction unescape line s with
  | case1 => cases h
  | case2 => exact Except.error.inj h ▸ rfl
  | case3 cs ih => exact ih (map_eq_error.mp h)
  | case4 cs hn ih => exact ih (map_eq_error.mp h)
  | case5 cs hn ht ih => exact ih (map_eq_error.mp h)
  | case6 c cs hn ht hr hplain ih => exact ih (map_eq_error.mp h)
  | case7 c cs hn ht hr hplain => exact Except.error.inj h ▸ rfl
  | case8 c cs hslash hescape ih => exact ih (map_eq_error.mp h)

/-- So is a string that does not end. -/
theorem parseString_error_line {text : List Char} {line : ℕ} {e : Error}
    (h : parseString text line = .error e) : e.line = line := by
  rw [parseString.eq_def] at h
  split at h
  · split at h
    · exact Except.error.inj h ▸ rfl
    · split_ifs at h
      exact unescape_error_line (map_eq_error.mp h)
  · exact Except.error.inj h ▸ rfl

/-- An element that is no string is blamed on the line of its array. -/
theorem elementString_error_line {line : ℕ} {v : Value} {e : Error}
    (h : elementString line v = .error e) : e.line = line := by
  cases v with
  | str s => cases h
  | int n => exact Except.error.inj h ▸ rfl
  | bool b => exact Except.error.inj h ▸ rfl
  | array a => exact Except.error.inj h ▸ rfl

/-- **Every error of a value** is blamed on the line that the value began on. -/
theorem parseValueTo_error_line {line depth : ℕ} {text : List Char} {e : Error}
    (h : parseValueTo line depth text = .error e) : e.line = line := by
  induction depth generalizing text with
  | zero => exact Except.error.inj h ▸ rfl
  | succ depth ih =>
    rw [parseValueTo.eq_def] at h
    dsimp only at h
    split_ifs at h
    split at h
    · exact Except.error.inj h ▸ rfl
    · split_ifs at h
      · split at h
        · exact Except.error.inj h ▸ rfl
        · obtain ⟨part, -, hpart⟩ := mapM_eq_error (map_eq_error.mp h)
          rcases bind_eq_error.mp hpart with hvalue | ⟨v, -, helement⟩
          · exact ih hvalue
          · exact elementString_error_line helement
      · exact parseString_error_line (map_eq_error.mp h)
      · split at h
        · cases h
        · exact Except.error.inj h ▸ rfl

namespace Parser

variable {p p' : Parser} {e : Error}

theorem set_error_line {key : String} {text : List Char} {line : ℕ}
    (h : p.set key text line = .error e) : e.line = line :=
  parseValueTo_error_line (map_eq_error.mp h)

/-! ### One line -/

/-- The line that an error is blamed on: where the open array begins, or else the next line. -/
def blamed (p : Parser) : ℕ := (p.pending.map Pending.line).getD (p.lineno + 1)

/-- An error of a `key = value` is blamed on the line last read. -/
theorem assign_error_line {line : List Char} (h : p.assign line = .error e) :
    e.line = p.lineno := by
  rw [assign] at h
  split at h
  · exact Except.error.inj h ▸ rfl
  · dsimp only at h
    split_ifs at h
    · exact Except.error.inj h ▸ rfl
    · exact Except.error.inj h ▸ rfl
    · exact set_error_line h

theorem line_error_line {raw : List Char} (h : p.line raw = .error e) : e.line = p.lineno := by
  rw [line.eq_def] at h
  split at h
  · cases h
  · split at h
    · exact Except.error.inj h ▸ rfl
    · cases h
  · split at h
    · exact Except.error.inj h ▸ rfl
    · dsimp only at h
      split_ifs at h
      exact Except.error.inj h ▸ rfl
  · exact assign_error_line h

/-- A step fails on the line of the array that is open, or else on the line it reads. -/
theorem step_error_line {raw : List Char} (h : p.step raw = .error e) : e.line = p.blamed := by
  rw [step] at h
  rw [blamed]
  cases hq : p.pending with
  | none =>
    rw [hq] at h
    exact line_error_line h
  | some q =>
    rw [hq] at h
    dsimp only at h
    rw [more] at h
    dsimp only at h
    split_ifs at h
    exact set_error_line h

/-- At the end of the text only an open array is left to complain about. -/
theorem finish_eq_error : p.finish = .error e ↔
    ∃ q, p.pending = some q ∧ e = ⟨q.line, "unterminated array"⟩ := by
  rw [finish]
  cases p.pending with
  | none => simp
  | some q => simp [eq_comm]

/-- Setting a key neither reads on nor opens an array. -/
theorem set_frame {key : String} {text : List Char} {line : ℕ}
    (h : p.set key text line = .ok p') : p'.lineno = p.lineno ∧ p'.pending = p.pending := by
  obtain ⟨value, -, rfl⟩ := map_eq_ok.mp h
  exact ⟨rfl, rfl⟩

/-- A line outside of an array leaves no array open but one that begins on it. -/
theorem line_frame {raw : List Char} (hp : p.pending = none) (h : p.line raw = .ok p') :
    p'.lineno = p.lineno ∧ ∀ q, p'.pending = some q → q.line = p.lineno := by
  have hnone : ∀ q, p.pending = some q → q.line = p.lineno := fun q hq => by
    rw [hp] at hq
    cases hq
  rw [line.eq_def] at h
  split at h
  · obtain rfl := Except.ok.inj h
    exact ⟨rfl, hnone⟩
  · split at h
    · cases h
    · obtain rfl := Except.ok.inj h
      exact ⟨rfl, hnone⟩
  · split at h
    · cases h
    · dsimp only at h
      split_ifs at h
      obtain rfl := Except.ok.inj h
      exact ⟨rfl, hnone⟩
  · rw [assign] at h
    split at h
    · cases h
    · dsimp only at h
      split_ifs at h
      · obtain rfl := Except.ok.inj h
        exact ⟨rfl, fun q hq => Option.some.inj hq ▸ rfl⟩
      · obtain ⟨hlineno, hpending⟩ := set_frame h
        exact ⟨hlineno, hpending ▸ hnone⟩

/-- A step reads one line, and an array that is open after it was open before or begins on it. -/
theorem step_frame {raw : List Char} (h : p.step raw = .ok p') :
    p'.lineno = p.lineno + 1 ∧ ∀ q, p'.pending = some q → q.line = p.blamed := by
  rw [step] at h
  rw [blamed]
  cases hq : p.pending with
  | none =>
    rw [hq] at h
    exact line_frame rfl h
  | some q =>
    rw [hq] at h
    dsimp only at h
    rw [more] at h
    dsimp only at h
    split_ifs at h
    · obtain ⟨hlineno, hpending⟩ := set_frame h
      refine ⟨hlineno, fun q' hq' => ?_⟩
      rw [hpending] at hq'
      cases hq'
    · obtain rfl := Except.ok.inj h
      exact ⟨rfl, fun q' hq' => Option.some.inj hq' ▸ rfl⟩

end Parser

/-! ### All lines -/

/-- What the parser has read after some lines, if they are read without an error. -/
def reading (ls : List (List Char)) : Except Error Parser := ls.foldlM Parser.step .initial

/-- The lines parse by themselves. -/
def Fine (ls : List (List Char)) : Prop := ∃ p, reading ls = .ok p ∧ p.pending = none

/-- The lines end inside of an array that begins on the given line. -/
def OpenAt (ls : List (List Char)) (line : ℕ) : Prop :=
  ∃ p q, reading ls = .ok p ∧ p.pending = some q ∧ q.line = line

/-- Reading two texts one after the other. -/
theorem reading_append (ls ls' : List (List Char)) :
    reading (ls ++ ls') = reading ls >>= fun p => ls'.foldlM Parser.step p :=
  List.foldlM_append

/-- Reading one more line. -/
theorem reading_concat {ls : List (List Char)} {raw : List Char} {p' : Parser} :
    reading (ls ++ [raw]) = .ok p' ↔ ∃ p, reading ls = .ok p ∧ p.step raw = .ok p' := by
  simp only [reading_append, List.foldlM_cons, List.foldlM_nil, bind_pure, bind_eq_ok]

/-- Where the parser stands after some lines, and what holds of the lines above it. -/
structure Parser.Stands (p : Parser) (ls : List (List Char)) : Prop where
  lineno : p.lineno = ls.length
  pos : 0 < p.blamed
  le : ∀ q, p.pending = some q → q.line ≤ ls.length
  above : Fine (ls.take (p.blamed - 1))
  stillOpen : ∀ q, p.pending = some q → ∀ n, q.line ≤ n → n ≤ ls.length → OpenAt (ls.take n) q.line

theorem Parser.stands_initial : Parser.initial.Stands [] where
  lineno := rfl
  pos := Nat.zero_lt_one
  le q hq := by cases hq
  above := ⟨.initial, rfl, rfl⟩
  stillOpen q hq := by cases hq

/-- Who is blamed next is a line of the text or the line after it. -/
theorem Parser.blamed_le {p : Parser} {ls : List (List Char)} (h : p.Stands ls) :
    p.blamed ≤ ls.length + 1 := by
  rw [blamed]
  cases hq : p.pending with
  | none => exact (congrArg (· + 1) h.lineno).le
  | some q => exact (h.le q hq).trans (Nat.le_succ _)

theorem Parser.blamed_of_pending {p : Parser} {q : Pending} (h : p.pending = some q) :
    p.blamed = q.line := by
  rw [blamed, h]
  rfl

/-- One more line is read: it closes the array that was open, keeps it open, or opens one. -/
theorem Parser.Stands.step {p p' : Parser} {ls : List (List Char)} {raw : List Char}
    (h : p.Stands ls) (hread : reading ls = .ok p) (hstep : p.step raw = .ok p') :
    p'.Stands (ls ++ [raw]) := by
  obtain ⟨hlineno, hpending⟩ := Parser.step_frame hstep
  have hall : reading (ls ++ [raw]) = .ok p' := reading_concat.mpr ⟨p, hread, hstep⟩
  have hlen : (ls ++ [raw]).length = ls.length + 1 := List.length_append
  have hle := p.blamed_le h
  cases hq : p'.pending with
  | none =>
    have hblamed : p'.blamed = ls.length + 2 := by
      rw [Parser.blamed, hq, hlineno, h.lineno]
      rfl
    refine ⟨by rw [hlineno, h.lineno, hlen], by omega, fun q' hq' => ?_, ?_, fun q' hq' => ?_⟩
    · rw [hq] at hq'
      cases hq'
    · rw [hblamed, List.take_of_length_le (by rw [hlen]; omega)]
      exact ⟨p', hall, hq⟩
    · rw [hq] at hq'
      cases hq'
  | some q =>
    -- The array began on the line that was blamed before this one, be it this one or a line above.
    have hline : q.line = p.blamed := hpending q hq
    have hblamed : p'.blamed = p.blamed := (Parser.blamed_of_pending hq).trans hline
    refine ⟨by rw [hlineno, h.lineno, hlen], hblamed ▸ h.pos, fun q' hq' => ?_, ?_,
      fun q' hq' n hn hn' => ?_⟩
    · rw [← Option.some.inj (hq.symm.trans hq'), hline, hlen]
      exact hle
    · rw [hblamed, List.take_append_of_le_length (by omega)]
      exact h.above
    · obtain rfl := Option.some.inj (hq.symm.trans hq')
      rcases Nat.lt_or_ge ls.length n with hlast | hbefore
      · rw [List.take_of_length_le (by rw [hlen]; omega)]
        exact ⟨p', q, hall, hq, rfl⟩
      · rw [List.take_append_of_le_length hbefore]
        cases hold : p.pending with
        | none =>
          -- Then the array begins on this line, which is below the cut.
          have : p.blamed = ls.length + 1 := by
            rw [Parser.blamed, hold, h.lineno]
            rfl
          omega
        | some q₀ =>
          have hq₀ : q₀.line = q.line := by rw [hline, Parser.blamed_of_pending hold]
          exact hq₀ ▸ h.stillOpen q₀ hold n (hq₀ ▸ hn) hbefore

/-- The parser stands where the lines that it has read end. -/
theorem stands_of_reading {ls : List (List Char)} {p : Parser} (h : reading ls = .ok p) :
    p.Stands ls := by
  induction ls using List.reverseRecOn generalizing p with
  | nil => exact Except.ok.inj h ▸ Parser.stands_initial
  | append_singleton ls raw ih =>
    obtain ⟨p₀, hread, hstep⟩ := reading_concat.mp h
    exact (ih hread).step hread hstep

/-! ### The error of a text -/

theorem parse_eq (text : String) : parse text = reading (lines text.toList) >>= Parser.finish := rfl

/-- Lines that are fine by themselves are a text that parses. -/
theorem Fine.parse {text : String} (h : Fine (lines text.toList)) : ∃ ts, parse text = .ok ts := by
  obtain ⟨p, hread, hpending⟩ := h
  have hfinish : p.finish = .ok ((p.tables ++ [p.current]).filter fun t =>
      t.name ≠ "" ∨ t.entries ≠ []) := by rw [Parser.finish, hpending]
  rw [parse_eq, hread]
  exact ⟨_, hfinish⟩

/-- An array that is still open at the end is the error of the text. -/
theorem OpenAt.parse {text : String} {line : ℕ} (h : OpenAt (lines text.toList) line) :
    parse text = .error ⟨line, "unterminated array"⟩ := by
  obtain ⟨p, q, hread, hpending, rfl⟩ := h
  rw [parse_eq, hread]
  exact Parser.finish_eq_error.mpr ⟨q, hpending, rfl⟩

/-- The line of an error is one of the text, and the lines above it parse by themselves. Either no
line after the one that made the parser stop changes the error, or an array that begins on the line
is still open at the end, as it is at the end of any of the lines from there on. -/
theorem parse_error {text : String} {e : Error} (h : parse text = .error e) :
    (0 < e.line ∧ e.line ≤ (lines text.toList).length) ∧
    (∀ above : String, lines above.toList = (lines text.toList).take (e.line - 1) →
      ∃ ts, parse above = .ok ts) ∧
    ((∃ n, e.line ≤ n ∧ n ≤ (lines text.toList).length ∧ ∀ other : String,
        (lines text.toList).take n <+: lines other.toList → parse other = .error e) ∨
      e.message = "unterminated array" ∧ ∀ n, e.line ≤ n → n ≤ (lines text.toList).length →
        ∀ cut : String, lines cut.toList = (lines text.toList).take n → parse cut = .error e) := by
  rw [parse_eq] at h
  generalize lines text.toList = ls at h ⊢
  rcases bind_eq_error.mp h with hstop | ⟨p, hread, hfinish⟩
  · obtain ⟨before, raw, after, p, rfl, hbefore, hstep⟩ := foldlM_eq_error hstop
    have hread : reading before = .ok p := hbefore
    have hstands := stands_of_reading hread
    have hline : e.line = p.blamed := Parser.step_error_line hstep
    have hle := p.blamed_le hstands
    have hpos := hstands.pos
    have hlen : (before ++ raw :: after).length = before.length + 1 + after.length := by
      rw [List.length_append, List.length_cons]
      omega
    refine ⟨⟨by omega, by omega⟩, fun above habove => ?_,
      .inl ⟨before.length + 1, by omega, by omega, fun other hother => ?_⟩⟩
    · rw [List.take_append_of_le_length (by omega), hline] at habove
      exact Fine.parse (habove ▸ hstands.above)
    · rw [List.take_length_add_append, List.take_succ_cons, List.take_zero] at hother
      obtain ⟨rest, hrest⟩ := hother
      have hfold : reading (lines other.toList) = .error e := by
        rw [← hrest, List.append_assoc, reading_append, hread]
        exact bind_eq_error.mpr (.inr ⟨p, rfl, bind_eq_error.mpr (.inl hstep)⟩)
      rw [parse_eq, hfold]
      rfl
  · obtain ⟨q, hpending, rfl⟩ := Parser.finish_eq_error.mp hfinish
    have hstands : p.Stands ls := stands_of_reading hread
    have hblamed := Parser.blamed_of_pending hpending
    have hpos := hblamed ▸ hstands.pos
    refine ⟨⟨hpos, hstands.le q hpending⟩, fun above habove => ?_, .inr ⟨rfl, ?_⟩⟩
    · exact Fine.parse (habove ▸ hblamed ▸ hstands.above)
    · exact fun n hn hn' cut hcut => OpenAt.parse (hcut ▸ hstands.stillOpen q hpending n hn hn')

/-- An array on three lines that holds a number: its first line is named, and what stands above it
parses. -/
theorem parse_error_array : ∃ ts, parse "a = 1" = .ok ts :=
  (@parse_error "a = 1\nb = [\n  2,\n]\nc = 3"
    ⟨2, "arrays may only hold strings, found a integer"⟩ rfl).2.1 "a = 1" rfl

end Padwire.Toml
