import Padwire.Attach.Document
import Padwire.Attach.Quotes

/-!
# What stands outside of strings

Comments, brackets and commas count only outside of quoted strings. So what `strip_comment`,
`brackets_balanced` and `split_array` make of a text depends on the characters that a scan meets
outside of strings, `outside`. A basic string has one such character, the quote that opens it,
whatever its contents; this is how contents of any kind come through all of the scanners unharmed.

The second part says what each value on one line is to the scanners and to `parse_value`.
-/

namespace Padwire.Toml

/-- The characters that a scan meets outside of strings. -/
def outside (q : Quoting) : List Char → List Char
  | [] => []
  | c :: cs => if q = none then c :: outside (q.next c) cs else outside (q.next c) cs

/-- What is outside of quotes, piece by piece. -/
theorem outside_append (q : Quoting) (a b : List Char) :
    outside q (a ++ b) = outside q a ++ outside (scan q a) b := by
  induction a generalizing q with
  | nil => rfl
  | cons c a ih =>
    rw [List.cons_append, outside, outside, scan_cons, ih]
    split_ifs <;> rfl

/-- The depth changes by one at a bracket outside of quotes, and nowhere else. -/
theorem bracketDepth_concat (a : List Char) (c : Char) :
    bracketDepth (a ++ [c]) =
      (if (scan none a).isSome then (bracketDepth a).1
        else if c = '[' then (bracketDepth a).1 + 1
        else if c = ']' then (bracketDepth a).1 - 1
        else (bracketDepth a).1, (scan none a).next c) := by
  rw [← bracketDepth_snd, bracketDepth, List.foldl_append]
  rfl

/-- Without a `#` outside of quotes there is no comment to strip. -/
theorem stripCommentFrom_eq_self {q : Quoting} {a : List Char} (h : '#' ∉ outside q a) :
    stripCommentFrom q a = a := by
  induction a generalizing q with
  | nil => rfl
  | cons c a ih =>
    rw [outside] at h
    rw [stripCommentFrom]
    split_ifs at h with hq
    · rw [List.mem_cons, not_or] at h
      rw [if_neg fun hc => h.1 hc.2.symm, ih h.2]
    · rw [if_neg fun hc => hq (Option.isNone_iff_eq_none.mp hc.1), ih h]

/-- Without a comma outside of quotes there is nothing to split. -/
theorem length_splitArrayFrom {q : Quoting} {current a : List Char} (h : ',' ∉ outside q a) :
    (splitArrayFrom q current a).length = 1 := by
  induction a generalizing q current with
  | nil => rfl
  | cons c a ih =>
    rw [outside] at h
    rw [splitArrayFrom]
    split_ifs at h with hq
    · rw [List.mem_cons, not_or] at h
      rw [if_neg fun hc => h.1 hc.2.symm]
      exact ih h.2
    · rw [if_neg fun hc => hq (Option.isNone_iff_eq_none.mp hc.1)]
      exact ih h

/-- Without a bracket outside of quotes the depth stays. -/
theorem bracketDepth_fst_append {a b : List Char}
    (h : ∀ c ∈ outside (scan none a) b, c ∉ ['[', ']']) :
    (bracketDepth (a ++ b)).1 = (bracketDepth a).1 := by
  induction b generalizing a with
  | nil => rw [List.append_nil]
  | cons c b ih =>
    have hscan : scan none (a ++ [c]) = (scan none a).next c := scan_append none a [c]
    rw [outside, ← hscan] at h
    rw [List.append_cons]
    split_ifs at h with hq
    · obtain ⟨hc, hb⟩ := List.forall_mem_cons.mp h
      rw [List.mem_pair, not_or] at hc
      rw [ih hb, bracketDepth_concat, hq, Option.isSome_none, if_neg Bool.false_ne_true,
        if_neg hc.1, if_neg hc.2]
    · rw [ih h, bracketDepth_concat, if_pos (Option.isSome_iff_ne_none.mpr hq)]

/-- A text that begins and ends outside of strings, with none of the given characters outside. -/
structure Free (bad text : List Char) : Prop where
  closed : scan none text = none
  free : ∀ c ∈ outside none text, c ∉ bad

namespace Free

variable {bad bad' a b : List Char}

theorem nil : Free bad [] := ⟨rfl, List.forall_mem_nil _⟩

/-- Pieces that close their quotes can be put together. -/
theorem append (ha : Free bad a) (hb : Free bad b) : Free bad (a ++ b) where
  closed := by rw [scan_append, ha.closed, hb.closed]
  free := by
    rw [outside_append, ha.closed, List.forall_mem_append]
    exact ⟨ha.free, hb.free⟩

theorem mono (h : Free bad a) (hbad : bad' ⊆ bad) : Free bad' a :=
  ⟨h.closed, fun c hc hmem => h.free c hc (hbad hmem)⟩

theorem of_all (hclosed : scan none a = none)
    (h : ((outside none a).all fun c => decide (c ∉ bad)) = true) : Free bad a :=
  ⟨hclosed, fun c hc => of_decide_eq_true (List.all_eq_true.mp h c hc)⟩

/-- Without quotes, all characters are outside. -/
theorem of_plain (hquote : ∀ c ∈ a, ¬IsQuote c) (h : ∀ c ∈ a, c ∉ bad) : Free bad a := by
  refine ⟨scan_none_of_noQuote hquote, ?_⟩
  suffices houtside : outside none a = a from houtside.symm ▸ h
  clear h
  induction a with
  | nil => rfl
  | cons c a ih =>
    obtain ⟨hc, ha⟩ := List.forall_mem_cons.mp hquote
    have hnext : Quoting.next none c = none := if_neg hc
    rw [outside, if_pos rfl, hnext, ih ha]

theorem singleton {c : Char} (hquote : ¬IsQuote c) (h : c ∉ bad) : Free bad [c] :=
  of_plain (by simpa using hquote) (by simpa using h)

/-- `strip_comment` keeps the text and goes on behind it. -/
theorem stripComment (h : Free ['#'] a) (b : List Char) :
    stripComment (a ++ b) = a ++ stripComment b := by
  have hnot : '#' ∉ outside none a := fun hmem => h.free _ hmem (List.mem_singleton_self _)
  rw [Toml.stripComment, stripCommentFrom_append (stripCommentFrom_eq_self hnot), h.closed]
  rfl

/-- `split_array` does not cut the text. -/
theorem splitArrayFrom (h : Free [','] a) (current b : List Char) :
    splitArrayFrom none current (a ++ b) = splitArrayFrom none (a.reverse ++ current) b := by
  have hnot : ',' ∉ outside none a := fun hmem => h.free _ hmem (List.mem_singleton_self _)
  rw [splitArrayFrom_append (length_splitArrayFrom hnot), h.closed]

/-- `brackets_balanced` counts nothing in the text. -/
theorem bracketDepth (h : Free ['[', ']'] b) (ha : scan none a = none) :
    Toml.bracketDepth (a ++ b) = Toml.bracketDepth a := by
  refine Prod.ext (bracketDepth_fst_append (by rw [ha]; exact h.free)) ?_
  rw [bracketDepth_snd, bracketDepth_snd, scan_append, ha, h.closed]

end Free

/-! ### Blanks, names and fillers -/

/-- The characters that count outside of strings. -/
def special : List Char := ['#', '[', ']', ',']

theorem not_mem_special_of_isWhitespace {c : Char} (h : isWhitespace c = true) : c ∉ special := by
  intro hmem
  have hno : (special.all fun c => !isWhitespace c) = true := by decide
  have hc := List.all_eq_true.mp hno c hmem
  rw [h] at hc
  cases hc

/-- White space has no character with a meaning of its own. -/
theorem free_of_blank {text : List Char} (h : ∀ c ∈ text, isWhitespace c = true) :
    Free special text :=
  .of_plain (noQuote_of_blank h) fun c hc => not_mem_special_of_isWhitespace (h c hc)

theorem Blanks.free (b : Blanks) : Free special b.text := free_of_blank b.blank

/-- Nor does a name have a hash or a bracket. -/
theorem Name.free (n : Name) : Free ['#', '[', ']'] n.chars := by
  refine .of_plain (fun c hc hquote => n.plain c hc ?_) fun c hc hmem => n.plain c hc ?_
  · rcases hquote with rfl | rfl <;> decide
  · exact (by decide : ['#', '[', ']'] ⊆ ['=', '#', doubleQuote, singleQuote, '[', ']', '\n']) hmem

/-- A comment is stripped. -/
theorem stripComment_blank {text : List Char}
    (h : ∀ c ∈ text.takeWhile (· ≠ '#'), isWhitespace c = true) :
    ∀ c ∈ stripComment text, isWhitespace c = true := by
  induction text with
  | nil => exact List.forall_mem_nil _
  | cons c cs ih =>
    rw [stripComment, stripCommentFrom]
    split_ifs with hc
    · exact List.forall_mem_nil _
    · have hc : c ≠ '#' := fun heq => hc ⟨rfl, heq⟩
      rw [List.takeWhile_cons_of_pos (by simpa using hc)] at h
      obtain ⟨hblank, hcs⟩ := List.forall_mem_cons.mp h
      have hnext : Quoting.next none c = none := if_neg (not_isQuote_of_isWhitespace hblank)
      rw [hnext]
      exact List.forall_mem_cons.mpr ⟨hblank, ih hcs⟩

/-- The carriage return that ends a line is white space or belongs to a comment. -/
theorem Filler.stripComment_chomp (f : Filler) :
    ∀ c ∈ stripComment (chomp f.text), isWhitespace c = true := by
  have hsub : (chomp f.text).takeWhile (· ≠ '#') ⊆ f.text.takeWhile (· ≠ '#') := by
    obtain ⟨rest, hrest⟩ := chomp_prefix f.text
    conv_rhs => rw [← hrest, List.takeWhile_append]
    split_ifs with hall
    · exact fun c hc => List.mem_append_left _ (List.takeWhile_subset _ hc)
    · exact List.Subset.refl _
  exact stripComment_blank fun c hc => f.blank c (hsub hc)

/-- A line without its comment. -/
theorem stripComment_line {a : List Char} (ha : Free ['#'] a) (hend : chomp a = a) (f : Filler) :
    ∃ after, (∀ c ∈ after, isWhitespace c = true) ∧
      stripComment (chomp (a ++ f.text)) = a ++ after := by
  have hchomp : chomp (a ++ f.text) = a ++ chomp f.text := by
    by_cases hf : f.text = []
    · rw [hf, List.append_nil, hend]
      exact (List.append_nil a).symm
    · exact chomp_append a hf
  exact ⟨_, f.stripComment_chomp, by rw [hchomp, ha.stripComment]⟩

/-- A line that ends in a mark. -/
theorem stripComment_mark {a : List Char} (ha : Free ['#'] a) {c : Char} (hquote : ¬IsQuote c)
    (hc : c ∉ ['#', '\r']) (f : Filler) : ∃ after, (∀ c ∈ after, isWhitespace c = true) ∧
      stripComment (chomp (a ++ c :: f.text)) = a ++ c :: after := by
  rw [List.mem_pair, not_or] at hc
  have hfree : Free ['#'] (a ++ [c]) := ha.append (.singleton hquote (by simpa using hc.1))
  have hend : chomp (a ++ [c]) = a ++ [c] := by rw [chomp_concat, if_neg hc.2]
  obtain ⟨after, hafter, hline⟩ := stripComment_line hfree hend f
  rw [← List.append_cons, ← List.append_cons] at hline
  exact ⟨after, hafter, hline⟩

/-! ### Brackets -/

theorem trim_brackets (s : List Char) : trim ('[' :: (s ++ [']'])) = '[' :: (s ++ [']']) :=
  trim_append_self (a := ['[']) (b := [']']) (by decide) (by decide) (by decide) (by decide) s

/-- Behind an opening bracket the array is open. -/
theorem Free.depth_open {a inner : List Char} (ha : Free ['[', ']'] a)
    (hinner : Free ['[', ']'] inner) : Toml.bracketDepth (a ++ '[' :: inner) = (1, none) := by
  have hzero : Toml.bracketDepth a = (0, none) := ha.bracketDepth (a := []) rfl
  have hone : Toml.bracketDepth (a ++ ['[']) = (1, none) := by
    rw [bracketDepth_concat, ha.closed, hzero]
    rfl
  have hscan : scan none (a ++ ['[']) = none := by rw [← bracketDepth_snd, hone]
  rw [List.append_cons, hinner.bracketDepth hscan, hone]

/-- Behind the closing one it is not. -/
theorem Free.depth_close {a inner : List Char} (ha : Free ['[', ']'] a)
    (hinner : Free ['[', ']'] inner) :
    Toml.bracketDepth (a ++ '[' :: (inner ++ [']'])) = (0, none) := by
  have hopen := ha.depth_open hinner
  rw [← List.cons_append, ← List.append_assoc, bracketDepth_concat, ← bracketDepth_snd, hopen]
  rfl

/-! ### Basic strings -/

/-- An escaped character reads back. -/
theorem unescape_escape (line : ℕ) (c : Char) (cs : List Char) :
    unescape line (escape c ++ cs) = (unescape line cs).map (c :: ·) := by
  rw [escape]
  split_ifs with hslash hquote hn ht hr
  · subst hslash
    rfl
  · subst hquote
    rfl
  · subst hn
    rfl
  · subst ht
    rfl
  · subst hr
    rfl
  · rw [List.singleton_append, unescape.eq_4]
    · exact fun heq _ => hslash heq
    · exact fun x cs' heq _ => hslash heq

/-- The escapes give the string back. -/
theorem unescape_flatMap_escape (line : ℕ) (cs : List Char) :
    unescape line (cs.flatMap escape) = .ok cs := by
  induction cs with
  | nil => rfl
  | cons c cs ih =>
    rw [List.flatMap_cons, unescape_escape, ih]
    rfl

/-- No character of a string, escaped, closes it. -/
theorem scan_escape (c : Char) :
    scan (some (doubleQuote, false)) (escape c) = some (doubleQuote, false) ∧
      outside (some (doubleQuote, false)) (escape c) = [] := by
  rw [escape]
  split_ifs with hslash hquote hn ht hr
  · decide
  · decide
  · decide
  · decide
  · decide
  · have hnext := doubleQuote_next hslash
    rw [if_neg hquote] at hnext
    exact ⟨hnext, rfl⟩

/-- An escaped string does not end before its closing quote. -/
theorem scan_flatMap_escape (cs : List Char) :
    scan (some (doubleQuote, false)) (cs.flatMap escape) = some (doubleQuote, false) ∧
      outside (some (doubleQuote, false)) (cs.flatMap escape) = [] := by
  induction cs with
  | nil => exact ⟨rfl, rfl⟩
  | cons c cs ih =>
    obtain ⟨hscan, houtside⟩ := scan_escape c
    rw [List.flatMap_cons, scan_append, outside_append, hscan, houtside]
    exact ih

/-- A basic string is one string to all scanners, whatever is in it. -/
theorem free_basic (s : String) : Free special (basic s) := by
  obtain ⟨hscan, houtside⟩ := scan_flatMap_escape s.toList
  refine ⟨?_, ?_⟩
  · have hopen : scan none (basic s) =
        scan (some (doubleQuote, false)) (s.toList.flatMap escape ++ [doubleQuote]) := rfl
    rw [hopen, scan_append, hscan]
    rfl
  · have hopen : outside none (basic s) = doubleQuote ::
        outside (some (doubleQuote, false)) (s.toList.flatMap escape ++ [doubleQuote]) := rfl
    rw [hopen, outside_append, hscan, houtside]
    exact List.forall_mem_singleton.mpr (by decide)

theorem stripSuffix_append (suffix s : List Char) : stripSuffix suffix (s ++ suffix) = some s := by
  rw [stripSuffix, if_pos (List.suffix_append s suffix), List.length_append, Nat.add_sub_cancel,
    List.take_left]

/-- **A string reads back** as it was written. -/
theorem parseString_basic (s : String) (line : ℕ) : parseString (basic s) line = .ok s := by
  rw [basic, parseString, stripSuffix_append]
  dsimp only
  rw [if_neg (by decide), unescape_flatMap_escape]
  exact congrArg Except.ok String.ofList_toList

/-- And so it does as a value. -/
theorem parseValue_basic (s : String) (line : ℕ) : parseValue (basic s) line = .ok (.str s) := by
  have hstring := parseString_basic s line
  have htrue : basic s ≠ "true".toList := fun h => by cases h
  have hfalse : basic s ≠ "false".toList := fun h => by cases h
  rw [basic] at hstring htrue hfalse ⊢
  rw [parseValue, parseValueTo, if_neg htrue, if_neg hfalse, if_neg (by decide),
    if_pos (.inl rfl), hstring]
  rfl

theorem trim_basic (s : String) : trim (basic s) = basic s := by
  rw [trim_eq_self_iff, basic, ← List.cons_append, List.getLast?_concat]
  exact ⟨by simp [isWhitespace, doubleQuote], by simp [isWhitespace, doubleQuote]⟩

theorem filter_map_basic (ss : List String) :
    (ss.map basic).filter (· ≠ []) = ss.map basic := by
  rw [List.filter_eq_self]
  intro part hpart
  obtain ⟨s, -, rfl⟩ := List.mem_map.mp hpart
  exact decide_eq_true (List.cons_ne_nil _ _)

/-! ### Arrays -/

/-- The white space around something is trimmed away. -/
theorem trim_padded {α : Type} (write : α → List Char) (p : Padded α) :
    trim (p.text write) = trim (write p.it) :=
  trim_append p.before.blank p.after.blank _

/-- White space does no harm. -/
theorem Free.padded {α : Type} {write : α → List Char} {p : Padded α} {bad : List Char}
    (hbad : bad ⊆ special) (h : Free bad (write p.it)) : Free bad (p.text write) :=
  (p.before.free.mono hbad).append (h.append (p.after.free.mono hbad))

/-- Commas between the parts of an array separate them. -/
theorem splitArray_intercalate {parts : List (List Char)} (hne : parts ≠ [])
    (h : ∀ part ∈ parts, Free [','] part) : splitArray ([','].intercalate parts) = parts := by
  induction parts with
  | nil => exact absurd rfl hne
  | cons part parts ih =>
    obtain ⟨hpart, hparts⟩ := List.forall_mem_cons.mp h
    cases parts with
    | nil =>
      have hone := hpart.splitArrayFrom [] []
      rw [List.append_nil, List.append_nil, splitArrayFrom, List.reverse_reverse] at hone
      rw [List.intercalate_singleton]
      exact hone
    | cons part' parts =>
      rw [List.intercalate_cons_cons, List.append_assoc, splitArray, hpart.splitArrayFrom,
        List.append_nil, List.singleton_append, splitArrayFrom, if_pos ⟨rfl, rfl⟩,
        List.reverse_reverse]
      exact congrArg (part :: ·) (ih (List.cons_ne_nil _ _) hparts)

/-- Nor do the commas between elements, where only other characters matter. -/
theorem Free.intercalate {bad : List Char} (hcomma : ',' ∉ bad) {parts : List (List Char)}
    (h : ∀ part ∈ parts, Free bad part) : Free bad ([','].intercalate parts) := by
  induction parts with
  | nil => exact .nil
  | cons part parts ih =>
    obtain ⟨hpart, hparts⟩ := List.forall_mem_cons.mp h
    cases parts with
    | nil =>
      rw [List.intercalate_singleton]
      exact hpart
    | cons part' parts =>
      rw [List.intercalate_cons_cons, List.append_assoc]
      exact hpart.append ((Free.singleton (by decide) hcomma).append (ih hparts))

/-- An array whose parts are basic strings between white space, and parts that are blank. -/
theorem parseValue_intercalate {parts : List (List Char)} {ss : List String}
    (hfree : ∀ part ∈ parts, Free [','] part)
    (hparts : (parts.map trim).filter (· ≠ []) = ss.map basic) (line : ℕ) :
    parseValue ('[' :: ([','].intercalate parts ++ [']'])) line = .ok (.array ss) := by
  have hsplit : ((splitArray ([','].intercalate parts)).map trim).filter (· ≠ []) =
      ss.map basic := by
    by_cases hne : parts = []
    · rw [← hparts, hne]
      rfl
    · rw [splitArray_intercalate hne hfree, hparts]
  have hstrings : ∀ ss : List String, (ss.map basic).mapM (fun part =>
      (parseValue part line).bind (elementString line)) = .ok ss := by
    intro ss
    induction ss with
    | nil => rfl
    | cons s ss ih =>
      rw [List.map_cons, List.mapM_cons, ih, parseValue_basic]
      rfl
  rw [parseValue_array line (stripSuffix_append _ _), hsplit, hstrings]
  rfl

/-! ### Values on one line -/

/-- The text of a value on one line, for the scanners and for `parse_value`. -/
structure Reads (text : List Char) (v : Value) : Prop where
  trimmed : trim text = text
  free : Free ['#'] text
  /-- The brackets of an array balance. -/
  array : text.head? = some '[' → ∃ inner, text = '[' :: (inner ++ [']']) ∧ Free ['[', ']'] inner
  value : ∀ line, parseValue text line = .ok v

theorem Reads.ne_nil {text : List Char} {v : Value} (h : Reads text v) : text ≠ [] := by
  rintro rfl
  cases h.value 0

theorem reads_str (s : String) : Reads (basic s) (.str s) where
  trimmed := trim_basic s
  free := (free_basic s).mono (by decide)
  array := fun h => by cases h
  value := parseValue_basic s

theorem reads_bool (b : Bool) : Reads (Inline.bool b).text (.bool b) := by
  cases b with
  | false => exact ⟨by decide, .of_all (by decide) (by decide), nofun, fun _ => rfl⟩
  | true => exact ⟨by decide, .of_all (by decide) (by decide), nofun, fun _ => rfl⟩

/-- A number reads back as it was written. -/
theorem reads_int (n : Int64) : Reads (toString n).toList (.int n) := by
  have hplain : ∀ c ∈ (toString n).toList,
      isWhitespace c = false ∧ ¬IsQuote c ∧ c ∉ ['#', '[', ']', 't', 'f'] := by
    intro c hc
    rcases mem_toList_toString hc with rfl | hdigit
    · decide
    · refine ⟨isWhitespace_of_isDigit hdigit, ?_, fun hmem => ?_⟩
      · rintro (rfl | rfl) <;> cases hdigit
      · have hno : (['#', '[', ']', 't', 'f'].all fun c => !c.isDigit) = true := by decide
        have hc := List.all_eq_true.mp hno c hmem
        rw [hdigit] at hc
        cases hc
  have hvalue := parseInt64_toString n
  generalize (toString n).toList = text at hplain hvalue ⊢
  cases text with
  | nil => cases hvalue
  | cons c rest =>
    have hc := hplain c List.mem_cons_self
    have hne : ∀ d ∈ ['#', '[', ']', 't', 'f'], c ≠ d := fun d hd heq => hc.2.2 (heq ▸ hd)
    have htrue : c :: rest ≠ "true".toList := fun heq =>
      hne 't' (by decide) (Option.some.inj (congrArg List.head? heq))
    have hfalse : c :: rest ≠ "false".toList := fun heq =>
      hne 'f' (by decide) (Option.some.inj (congrArg List.head? heq))
    refine ⟨trim_eq_self_iff.mpr ⟨?_, ?_⟩, .of_plain (fun c hc => (hplain c hc).2.1) ?_, ?_, ?_⟩
    · exact fun c hc => (hplain c (List.mem_of_mem_head? hc)).1
    · exact fun c hc => (hplain c (List.mem_of_getLast? hc)).1
    · exact fun c hc hmem =>
        (hplain c hc).2.2 ((by decide : ['#'] ⊆ ['#', '[', ']', 't', 'f']) hmem)
    · intro h
      exact absurd (Option.some.inj h) (hne '[' (by decide))
    · intro line
      have hquote : ¬(c = doubleQuote ∨ c = singleQuote) := hc.2.1
      rw [parseValue, parseValueTo, if_neg htrue, if_neg hfalse, if_neg (hne '[' (by decide)),
        if_neg hquote, hvalue]

/-- **An array reads back** with all of its elements. -/
theorem reads_array (cells : List (Padded String)) :
    Reads (Inline.array cells).text (.array (cells.map Padded.it)) := by
  have hfree : ∀ part ∈ cells.map (Padded.text basic), Free special part := by
    intro part hpart
    obtain ⟨cell, -, rfl⟩ := List.mem_map.mp hpart
    exact (free_basic cell.it).padded (List.Subset.refl _)
  have hinner : Free ['#', '[', ']'] ([','].intercalate (cells.map (Padded.text basic))) :=
    .intercalate (by decide) fun part hpart => (hfree part hpart).mono (by decide)
  have hparts : ((cells.map (Padded.text basic)).map trim).filter (· ≠ []) =
      (cells.map Padded.it).map basic := by
    rw [List.map_map, List.map_map]
    have hmap : cells.map (trim ∘ Padded.text basic) = cells.map (basic ∘ Padded.it) := by
      refine List.map_congr_left fun cell _ => ?_
      exact (trim_padded basic cell).trans (trim_basic cell.it)
    rw [hmap, ← List.map_map, filter_map_basic]
  have htext : Free ['#'] (Inline.array cells).text :=
    (Free.singleton (by decide) (by decide)).append
      ((hinner.mono (by decide)).append (.singleton (by decide) (by decide)))
  exact ⟨trim_brackets _, htext, fun _ => ⟨_, rfl, hinner.mono (by decide)⟩,
    parseValue_intercalate (fun part hpart => (hfree part hpart).mono (by decide)) hparts⟩

/-- **Values.** Every value on one line is read as what it is. -/
theorem Inline.reads (v : Inline) : Reads v.text v.value := by
  cases v with
  | str s => exact reads_str s
  | int n => exact reads_int n
  | bool b => exact reads_bool b
  | array cells => exact reads_array cells

end Padwire.Toml
