import Padwire.Attach.Sections

/-!
# The bounds of quoted strings

Four functions of `usbfwd-attach/src/toml.rs` go through the same text and each keeps track of
strings by itself: `strip_comment` on every line, `brackets_balanced` on the value, `split_array`
on the inside of an array, and `parse_string`, which takes the first and the last character of its
text for the quotes and does not look for others in between. An array may go on to further lines,
and `brackets_balanced` and `split_array` then see the lines joined by blanks while `strip_comment`
begins anew on each of them.

`agree_of_parse_iff` says for which files all of them see the same strings.
-/

namespace Padwire.Toml

/-- The quoting at the end of a text. The first three of the functions differ in what they do with
a character and not in this. -/
def scan (q : Quoting) (text : List Char) : Quoting := text.foldl Quoting.next q

/-- A scan that has read `before` sees a string that begins and ends with `text`. -/
def SeesBounds (before text : List Char) : Prop :=
  ∀ n ≤ text.length, (scan none (before ++ text.take n)).isSome ↔ 0 < n ∧ n < text.length

/-! ### The strings of a value -/

/-- The parts of an array that are not blank, each with what stands before it in the array. -/
def located (before : List Char) : List (List Char) → List (List Char × List Char)
  | [] => []
  | part :: parts =>
    let rest := located (before ++ part ++ [',']) parts
    if trim part = [] then rest
    else (before ++ part.takeWhile isWhitespace, trim part) :: rest

/-- The text of a string in a value. -/
structure StringText where
  /-- What stands before the value, or before the inside of the array. -/
  head : List Char
  /-- What stands before the text in the array. -/
  before : List Char
  text : List Char
  deriving DecidableEq

/-- What stands before the text of a string, from the `=` on. -/
def StringText.position (s : StringText) : List Char := s.head ++ s.before

/-- The texts that strings are made of: the value itself, or the parts of an array. -/
def Source.strings (src : Source) : List StringText :=
  let blank := src.text.takeWhile isWhitespace
  match trim src.text with
  | [] => []
  | c :: rest =>
    if c = '[' then
      match stripSuffix [']'] rest with
      | none => []
      | some inner =>
        (located [] (splitArray inner)).map fun p => ⟨blank ++ ['['], p.1, p.2⟩
    else if c = doubleQuote ∨ c = singleQuote then [⟨blank, [], trim src.text⟩]
    else []

/-- A value and the texts that its strings are made of. -/
def Source.Yields (src : Source) : Value → Prop
  | .str s => ∃ t, src.strings = [t] ∧ parseString t.text src.line = .ok s
  | .array a => List.Forall₂ (fun t s => parseString t.text src.line = .ok s) src.strings a
  | _ => src.strings = []

/-! ### Agreement -/

/-- A text stands on one of the lines of a value, and `strip_comment` sees the bounds of the string
there. `start` is what `strip_comment` has read before the value begins; on a further line it begins
anew. -/
inductive OnLine (text : List Char) : List Char → List (List Char) → List Char → Prop
  | here {start before after : List Char} {lines : List (List Char)} :
    SeesBounds (start ++ before) text →
      OnLine text start ((before ++ text ++ after) :: lines) before
  | later {start line before : List Char} {lines : List (List Char)} :
    OnLine text [] lines before → OnLine text start (line :: lines) (line ++ ' ' :: before)

/-- A text is one string token, and all see it as this string. -/
structure Source.Agrees (src : Source) (t : StringText) : Prop where
  /-- Its last character is the first quote that closes the string its first character opens, as
  `parse_string` takes it to be. -/
  parseString : SeesBounds [] t.text
  splitArray : SeesBounds t.before t.text
  bracketsBalanced : SeesBounds t.position t.text
  stripComment : OnLine t.text (src.keyText ++ ['=']) (src.first :: src.more) t.position

/-- There is a double quote that no backslash escapes. -/
def hasBareQuote : List Char → Bool
  | [] => false
  | '\\' :: _ :: cs => hasBareQuote cs
  | c :: cs => c == doubleQuote || hasBareQuote cs

/-- There is no third quote in a text that begins and ends with one. -/
def NoThirdQuote : List Char → Prop
  | [] => True
  | quote :: rest =>
    if quote = singleQuote then singleQuote ∉ rest.dropLast else hasBareQuote rest.dropLast = false

/-- The text of a value through its `k`th line. -/
def Source.through (src : Source) (k : ℕ) : List Char :=
  src.first ++ (src.more.take k).flatMap (' ' :: ·)

/-- Nothing in a `key = value` takes a quote for another: the key does not leave a string open when
there is one behind it on its line, no string has a third quote, and no line of an array ends
inside a string. -/
structure Source.Plain (src : Source) : Prop where
  key : (∃ t ∈ src.strings, t.position.length < src.first.length) → scan none src.keyText = none
  quotes : ∀ t ∈ src.strings, NoThirdQuote t.text
  lines : ∀ k < src.more.length, scan none (src.through k) = none

instance (before text : List Char) : Decidable (SeesBounds before text) :=
  inferInstanceAs (Decidable (∀ n ≤ text.length, _))

instance : DecidablePred NoThirdQuote
  | [] => inferInstanceAs (Decidable True)
  | quote :: rest =>
    inferInstanceAs (Decidable (if quote = singleQuote then singleQuote ∉ rest.dropLast
      else hasBareQuote rest.dropLast = false))

instance (src : Source) : Decidable src.Plain :=
  decidable_of_iff
    (((∃ t ∈ src.strings, t.position.length < src.first.length) → scan none src.keyText = none) ∧
      (∀ t ∈ src.strings, NoThirdQuote t.text) ∧
      ∀ k < src.more.length, scan none (src.through k) = none)
    ⟨fun h => ⟨h.1, h.2.1, h.2.2⟩, fun h => ⟨h.key, h.quotes, h.lines⟩⟩

/-! ### Scanning -/

def IsQuote (c : Char) : Prop := c = doubleQuote ∨ c = singleQuote

instance : DecidablePred IsQuote := fun _ => inferInstanceAs (Decidable (_ ∨ _))

@[simp]
theorem scan_nil (q : Quoting) : scan q [] = q := rfl

theorem scan_append (q : Quoting) (a b : List Char) : scan q (a ++ b) = scan (scan q a) b :=
  List.foldl_append

theorem scan_cons (q : Quoting) (c : Char) (cs : List Char) :
    scan q (c :: cs) = scan (q.next c) cs :=
  rfl

/-- The quoting that `brackets_balanced` keeps is a scan. -/
theorem bracketDepth_snd (s : List Char) : (bracketDepth s).2 = scan none s :=
  (List.foldl_hom Prod.snd fun _ _ => rfl).symm

/-- So is the one with which `strip_comment` goes on behind a text it has kept. -/
theorem stripCommentFrom_append {q : Quoting} {a : List Char} (h : stripCommentFrom q a = a)
    (b : List Char) : stripCommentFrom q (a ++ b) = a ++ stripCommentFrom (scan q a) b := by
  induction a generalizing q with
  | nil => rfl
  | cons c a ih =>
    rw [stripCommentFrom] at h
    split_ifs at h with hc
    rw [List.cons_append, stripCommentFrom, if_neg hc, ih (List.cons.inj h).2]
    rfl

theorem splitArrayFrom_ne_nil (q : Quoting) (current cs : List Char) :
    splitArrayFrom q current cs ≠ [] := by
  induction cs generalizing q current with
  | nil => exact List.cons_ne_nil _ _
  | cons c cs ih =>
    rw [splitArrayFrom]
    split_ifs
    · exact List.cons_ne_nil _ _
    · exact ih _ _

/-- And the one with which `split_array` goes on behind a text it has not cut. -/
theorem splitArrayFrom_append {q : Quoting} {current a : List Char}
    (h : (splitArrayFrom q current a).length = 1) (b : List Char) :
    splitArrayFrom q current (a ++ b) = splitArrayFrom (scan q a) (a.reverse ++ current) b := by
  induction a generalizing q current with
  | nil => rfl
  | cons c a ih =>
    rw [splitArrayFrom] at h
    split_ifs at h with hc
    · rw [List.length_cons, Nat.add_eq_right, List.length_eq_zero_iff] at h
      exact absurd h (splitArrayFrom_ne_nil _ _ _)
    · rw [List.cons_append, splitArrayFrom, if_neg hc, ih h, List.reverse_cons, List.append_assoc]
      rfl

theorem IsQuote.ne {c d : Char} (hc : IsQuote c) (hd : ¬IsQuote d) : c ≠ d := fun heq =>
  hd (heq ▸ hc)

theorem scan_none_of_noQuote {text : List Char} (h : ∀ c ∈ text, ¬IsQuote c) :
    scan none text = none := by
  induction text with
  | nil => rfl
  | cons c cs ih =>
    rw [List.forall_mem_cons] at h
    have hnext : Quoting.next none c = none := if_neg h.1
    rw [scan_cons, hnext]
    exact ih h.2

/-- The quote of an open string is one. -/
def Quoting.Valid (q : Quoting) : Prop := ∀ quote escape, q = some (quote, escape) → IsQuote quote

theorem Quoting.Valid.next {q : Quoting} (h : q.Valid) (c : Char) : (q.next c).Valid := by
  intro quote escape heq
  cases q with
  | none =>
    rw [Quoting.next] at heq
    split_ifs at heq with hc
    obtain ⟨rfl, -⟩ := Prod.mk.inj (Option.some.inj heq)
    exact hc
  | some qe =>
    obtain ⟨quote', escape'⟩ := qe
    have hquote := h quote' escape' rfl
    cases escape' with
    | true =>
      obtain ⟨rfl, -⟩ := Prod.mk.inj (Option.some.inj heq)
      exact hquote
    | false =>
      rw [Quoting.next] at heq
      split_ifs at heq
      · obtain ⟨rfl, -⟩ := Prod.mk.inj (Option.some.inj heq)
        exact hquote
      · obtain ⟨rfl, -⟩ := Prod.mk.inj (Option.some.inj heq)
        exact hquote

theorem Quoting.Valid.scan {q : Quoting} (h : q.Valid) (text : List Char) :
    (Toml.scan q text).Valid := by
  induction text generalizing q with
  | nil => exact h
  | cons c cs ih => exact ih (h.next c)

/-- Where there is no quote, an open string stays open. -/
theorem scan_isSome_of_noQuote {q : Quoting} (hvalid : q.Valid) (hq : q.isSome) {text : List Char}
    (h : ∀ c ∈ text, ¬IsQuote c) : (scan q text).isSome := by
  induction text generalizing q with
  | nil => exact hq
  | cons c cs ih =>
    rw [List.forall_mem_cons] at h
    refine ih (hvalid.next c) ?_ h.2
    obtain ⟨⟨quote, escape⟩, rfl⟩ := Option.isSome_iff_exists.mp hq
    have hquote := hvalid quote escape rfl
    cases escape with
    | true => rfl
    | false =>
      have hne : c ≠ quote := fun heq => h.1 (heq ▸ hquote)
      rw [Quoting.next, if_neg hne]
      split_ifs <;> rfl

/-- A key leaves a string open or not whatever follows, up to the next quote. -/
theorem scan_eq_none_of_append {a b : List Char} (hb : ∀ c ∈ b, ¬IsQuote c)
    (h : scan none (a ++ b) = none) : scan none a = none := by
  by_contra hne
  have hvalid : (scan none a).Valid := Quoting.Valid.scan (q := none) nofun a
  have hsome := scan_isSome_of_noQuote hvalid (Option.isSome_iff_ne_none.mpr hne) hb
  rw [← scan_append, h] at hsome
  cases hsome

theorem not_isQuote_of_isWhitespace {c : Char} (h : isWhitespace c = true) : ¬IsQuote c := by
  rintro (rfl | rfl)
  · exact absurd h (by decide)
  · exact absurd h (by decide)

/-! ### Bounds -/

theorem seesBounds_iff {before text : List Char} :
    SeesBounds before text ↔ scan none before = none ∧ SeesBounds [] text := by
  constructor
  · intro h
    have hzero := h 0 (Nat.zero_le _)
    rw [List.take_zero, List.append_nil] at hzero
    have hnone : scan none before = none := by
      by_contra hne
      have hlt := (hzero.mp (Option.isSome_iff_ne_none.mpr hne)).1
      omega
    refine ⟨hnone, fun n hn => ?_⟩
    have hn' := h n hn
    rwa [scan_append, hnone] at hn'
  · rintro ⟨hnone, h⟩ n hn
    rw [scan_append, hnone]
    exact h n hn

theorem SeesBounds.scan_eq_none {text : List Char} (h : SeesBounds [] text) :
    scan none text = none := by
  have hall := h text.length (Nat.le_refl _)
  rw [List.take_length, List.nil_append] at hall
  by_contra hne
  have hlt := (hall.mp (Option.isSome_iff_ne_none.mpr hne)).2
  omega

/-- The string stays open through all of a text. -/
def StaysOpen (q : Quoting) (text : List Char) : Prop :=
  ∀ n ≤ text.length, (scan q (text.take n)).isSome

theorem staysOpen_nil {q : Quoting} : StaysOpen q [] ↔ q.isSome := by
  constructor
  · intro h
    exact h 0 (Nat.le_refl _)
  · intro h n _
    rw [List.take_nil]
    exact h

theorem staysOpen_cons {q : Quoting} {c : Char} {cs : List Char} :
    StaysOpen q (c :: cs) ↔ q.isSome ∧ StaysOpen (q.next c) cs := by
  constructor
  · intro h
    exact ⟨h 0 (Nat.zero_le _), fun n hn => h (n + 1) (Nat.succ_le_succ hn)⟩
  · rintro ⟨hq, h⟩ n hn
    cases n with
    | zero => exact hq
    | succ n => exact h n (Nat.le_of_succ_le_succ hn)

theorem not_staysOpen_none (text : List Char) : ¬StaysOpen none text := fun h =>
  absurd (h 0 (Nat.zero_le _)) (by simp [scan])

/-- The bounds of a text are seen if the string stays open through its body and its last character
closes it. -/
theorem seesBounds_quoted {quote : Char} (hquote : IsQuote quote) {body : List Char} :
    SeesBounds [] (quote :: (body ++ [quote])) ↔
      StaysOpen (some (quote, false)) body ∧
        scan (some (quote, false)) (body ++ [quote]) = none := by
  have hopen : Quoting.next none quote = some (quote, false) := if_pos hquote
  have hlen : (quote :: (body ++ [quote])).length = body.length + 2 := by simp
  constructor
  · intro h
    constructor
    · intro n hn
      have hn' := (h (n + 1) (by omega)).mpr (by omega)
      rw [List.nil_append, List.take_succ_cons, List.take_append_of_le_length hn, scan_cons,
        hopen] at hn'
      exact hn'
    · have hall := h.scan_eq_none
      rwa [scan_cons, hopen] at hall
  · rintro ⟨hbody, hclose⟩ n hn
    rw [hlen] at hn ⊢
    rcases Nat.lt_trichotomy n (body.length + 2) with hlt | rfl | hgt
    · cases n with
      | zero => simp [scan]
      | succ n =>
        have hn' := hbody n (by omega)
        rw [List.nil_append, List.take_succ_cons, List.take_append_of_le_length (by omega),
          scan_cons, hopen]
        exact iff_of_true hn' (by omega)
    · rw [← hlen, List.take_length, List.nil_append, scan_cons, hopen, hclose]
      exact iff_of_false (by simp) (by omega)
    · omega

/-! ### A third quote -/

theorem singleQuote_next (c : Char) : Quoting.next (some (singleQuote, false)) c =
    if c = singleQuote then none else some (singleQuote, false) := by
  rw [Quoting.next, if_neg fun hc => absurd hc.2 (by decide)]

/-- A literal string stays open up to the next quote. -/
theorem staysOpen_literal {body : List Char} :
    StaysOpen (some (singleQuote, false)) body ↔ singleQuote ∉ body := by
  induction body with
  | nil => simp [staysOpen_nil]
  | cons c cs ih =>
    rw [staysOpen_cons, singleQuote_next, List.mem_cons, not_or]
    split_ifs with hc
    · exact iff_of_false (fun h => not_staysOpen_none cs h.2) (fun h => h.1 hc.symm)
    · rw [ih]
      exact ⟨fun h => ⟨fun heq => hc heq.symm, h.2⟩, fun h => ⟨rfl, h.2⟩⟩

theorem scan_literal {body : List Char} (h : singleQuote ∉ body) :
    scan (some (singleQuote, false)) body = some (singleQuote, false) := by
  induction body with
  | nil => rfl
  | cons c cs ih =>
    rw [List.mem_cons, not_or] at h
    rw [scan_cons, singleQuote_next, if_neg fun heq => h.1 heq.symm]
    exact ih h.2

theorem doubleQuote_next {c : Char} (h : c ≠ '\\') :
    Quoting.next (some (doubleQuote, false)) c =
      if c = doubleQuote then none else some (doubleQuote, false) := by
  rw [Quoting.next, if_neg fun hc => h hc.1]

/-- A basic string stays open up to the next quote that is not escaped. -/
theorem staysOpen_basic {body : List Char} :
    StaysOpen (some (doubleQuote, false)) body ↔ hasBareQuote body = false := by
  induction body using hasBareQuote.induct with
  | case1 => simp [staysOpen_nil, hasBareQuote]
  | case2 c cs ih =>
    rw [staysOpen_cons, staysOpen_cons, hasBareQuote, ← ih]
    exact ⟨fun h => h.2.2, fun h => ⟨rfl, rfl, h⟩⟩
  | case3 c cs hescape ih =>
    rw [hasBareQuote.eq_3 c cs hescape, Bool.or_eq_false_iff, beq_eq_false_iff_ne, staysOpen_cons]
    by_cases hc : c = '\\'
    · have hnil : cs = [] := by
        cases cs with
        | nil => rfl
        | cons x cs => exact (hescape x cs hc rfl).elim
      subst hc hnil
      exact iff_of_true ⟨rfl, staysOpen_nil.mpr rfl⟩ ⟨by decide, rfl⟩
    · rw [doubleQuote_next hc]
      split_ifs with hquote
      · exact iff_of_false (fun h => not_staysOpen_none cs h.2) (fun h => h.1 hquote)
      · rw [ih]
        exact ⟨fun h => ⟨hquote, h.2⟩, fun h => ⟨rfl, h.2⟩⟩

/-- What is left of a body behind an escape can be read too. -/
theorem unescape_of_escape {line : ℕ} {c : Char} {cs out : List Char}
    (h : unescape line ('\\' :: c :: cs) = .ok out) : ∃ out', unescape line cs = .ok out' := by
  rw [unescape] at h
  split_ifs at h
  all_goals
    obtain ⟨out', hout, -⟩ := map_eq_ok.mp h
    exact ⟨out', hout⟩

theorem scan_basic {line : ℕ} {body out : List Char} (h : unescape line body = .ok out)
    (hbare : hasBareQuote body = false) :
    scan (some (doubleQuote, false)) body = some (doubleQuote, false) := by
  induction body using hasBareQuote.induct generalizing out with
  | case1 => rfl
  | case2 c cs ih =>
    obtain ⟨out', hout⟩ := unescape_of_escape h
    exact ih hout hbare
  | case3 c cs hescape ih =>
    rw [hasBareQuote.eq_3 c cs hescape, Bool.or_eq_false_iff, beq_eq_false_iff_ne] at hbare
    by_cases hc : c = '\\'
    · cases cs with
      | nil =>
        subst hc
        cases h
      | cons x cs => exact (hescape x cs hc rfl).elim
    · rw [scan_cons, doubleQuote_next hc, if_neg hbare.1]
      have hrest : unescape line (c :: cs) = (unescape line cs).map (c :: ·) := by
        rw [unescape.eq_4]
        · exact fun heq _ => hc heq
        · exact fun x cs' heq _ => hc heq
      rw [hrest] at h
      obtain ⟨out', hout, -⟩ := map_eq_ok.mp h
      exact ih hout hbare.2

theorem eq_append_of_stripSuffix {suffix s rest : List Char}
    (h : stripSuffix suffix s = some rest) : s = rest ++ suffix := by
  rw [stripSuffix] at h
  split_ifs at h with hsuffix
  obtain ⟨pre, rfl⟩ := hsuffix
  have hrest := Option.some.inj h
  rw [List.length_append, Nat.add_sub_cancel, List.take_left] at hrest
  rw [hrest]

/-- **One token.** A text that `parse_string` accepts is one string exactly if it has no third
quote. -/
theorem seesBounds_iff_noThirdQuote {quote : Char} (hquote : IsQuote quote) {rest : List Char}
    {line : ℕ} {s : String} (h : parseString (quote :: rest) line = .ok s) :
    SeesBounds [] (quote :: rest) ↔ NoThirdQuote (quote :: rest) := by
  rw [parseString] at h
  cases hbody : stripSuffix [quote] rest with
  | none =>
    rw [hbody] at h
    cases h
  | some body =>
    rw [hbody] at h
    obtain rfl := eq_append_of_stripSuffix hbody
    rw [seesBounds_quoted hquote, NoThirdQuote, List.dropLast_concat]
    dsimp only at h
    split_ifs at h ⊢ with hsingle
    · subst hsingle
      rw [staysOpen_literal]
      refine ⟨fun hopen => hopen.1, fun hnot => ⟨hnot, ?_⟩⟩
      rw [scan_append, scan_literal hnot]
      rfl
    · obtain rfl : quote = doubleQuote := hquote.resolve_right hsingle
      obtain ⟨out, hout, -⟩ := map_eq_ok.mp h
      rw [staysOpen_basic]
      refine ⟨fun hopen => hopen.1, fun hbare => ⟨hbare, ?_⟩⟩
      rw [scan_append, scan_basic hout hbare]
      rfl

/-! ### The parts of an array -/

/-- A text is blanks, what `trim` leaves of it, and blanks. -/
theorem exists_trim_append (s : List Char) : ∃ after, (∀ c ∈ after, isWhitespace c = true) ∧
    s = s.takeWhile isWhitespace ++ trim s ++ after := by
  refine ⟨(trimStart s).rtakeWhile isWhitespace, fun c hc => List.mem_rtakeWhile_imp hc, ?_⟩
  rw [List.append_assoc, trim, List.rdropWhile_append_rtakeWhile, trimStart,
    List.takeWhile_append_dropWhile]

theorem noQuote_of_blank {s : List Char} (h : ∀ c ∈ s, isWhitespace c = true) :
    ∀ c ∈ s, ¬IsQuote c :=
  fun c hc => not_isQuote_of_isWhitespace (h c hc)

theorem noQuote_takeWhile (s : List Char) : ∀ c ∈ s.takeWhile isWhitespace, ¬IsQuote c :=
  noQuote_of_blank fun _ hc => List.mem_takeWhile_imp hc

/-- The inside of an array that has the given parts. -/
def joinParts : List (List Char) → List Char
  | [] => []
  | part :: parts => part ++ parts.flatMap (',' :: ·)

theorem joinParts_cons_cons (part part' : List Char) (parts : List (List Char)) :
    joinParts (part :: part' :: parts) = part ++ ',' :: joinParts (part' :: parts) := by
  simp [joinParts]

theorem joinParts_splitArrayFrom (q : Quoting) (current cs : List Char) :
    joinParts (splitArrayFrom q current cs) = current.reverse ++ cs := by
  induction cs generalizing q current with
  | nil => simp [splitArrayFrom, joinParts]
  | cons c cs ih =>
    rw [splitArrayFrom]
    split_ifs with hc
    · obtain ⟨part, parts, hparts⟩ := List.exists_cons_of_ne_nil (splitArrayFrom_ne_nil q [] cs)
      have hrest := ih q []
      rw [hparts] at hrest ⊢
      rw [joinParts_cons_cons, hrest, hc.2]
      rfl
    · rw [ih, List.reverse_cons, List.append_assoc]
      rfl

theorem joinParts_splitArray (inner : List Char) : joinParts (splitArray inner) = inner :=
  joinParts_splitArrayFrom none [] inner

theorem located_texts (before : List Char) (parts : List (List Char)) :
    (located before parts).map Prod.snd = (parts.map trim).filter (· ≠ []) := by
  induction parts generalizing before with
  | nil => rfl
  | cons part parts ih =>
    rw [located, List.map_cons]
    split_ifs with hblank
    · rw [ih, List.filter_cons_of_neg (by simpa using hblank)]
    · rw [List.map_cons, ih, List.filter_cons_of_pos (by simpa using hblank)]

/-- What a text is cut out of. -/
theorem exists_of_mem_located {before : List Char} {parts : List (List Char)}
    {x : List Char × List Char} (hx : x ∈ located before parts) :
    ∃ after, before ++ joinParts parts = x.1 ++ x.2 ++ after := by
  induction parts generalizing before with
  | nil => cases hx
  | cons part parts ih =>
    rw [located] at hx
    have hrest : x ∈ located (before ++ part ++ [',']) parts →
        ∃ after, before ++ joinParts (part :: parts) = x.1 ++ x.2 ++ after := by
      intro hmem
      obtain ⟨after, hafter⟩ := ih hmem
      cases parts with
      | nil => cases hmem
      | cons part' parts =>
        refine ⟨after, ?_⟩
        rw [joinParts_cons_cons, ← hafter]
        simp
    split_ifs at hx
    · exact hrest hx
    · rcases List.mem_cons.mp hx with rfl | hmem
      · obtain ⟨after, -, hpart⟩ := exists_trim_append part
        refine ⟨after ++ parts.flatMap (',' :: ·), ?_⟩
        dsimp only
        rw [joinParts]
        nth_rewrite 1 [hpart]
        simp
      · exact hrest hmem

/-- A place in a part that is not inside of its string is outside of strings. -/
theorem scan_take_part {part : List Char} (h : trim part ≠ [] → SeesBounds [] (trim part)) {n : ℕ}
    (hn : trim part ≠ [] → n ≤ (part.takeWhile isWhitespace).length ∨
      (part.takeWhile isWhitespace).length + (trim part).length ≤ n) :
    scan none (part.take n) = none := by
  obtain ⟨after, hafter, hpart⟩ := exists_trim_append part
  have hblanks : ∀ b : List Char, (∀ c ∈ b, ¬IsQuote c) → ∀ k, scan none (b.take k) = none :=
    fun b hb k => scan_none_of_noQuote fun c hc => hb c (List.mem_of_mem_take hc)
  generalize hws : part.takeWhile isWhitespace = ws at hpart hn
  have hwsq : ∀ c ∈ ws, ¬IsQuote c := hws ▸ noQuote_takeWhile part
  rw [hpart, List.take_append, List.take_append, scan_append, scan_append, hblanks ws hwsq]
  have hmid : scan none ((trim part).take (n - ws.length)) = none := by
    by_cases hblank : trim part = []
    · rw [hblank, List.take_nil]
      rfl
    · rcases hn hblank with hle | hge
      · rw [Nat.sub_eq_zero_of_le hle, List.take_zero]
        rfl
      · rw [List.take_of_length_le (by omega)]
        exact (h hblank).scan_eq_none
  rw [hmid]
  exact hblanks after (noQuote_of_blank hafter) _

/-- The scan is outside of strings behind a part and the comma that ends it. -/
theorem scan_part_comma {before part : List Char} (hbefore : scan none before = none)
    (h : trim part ≠ [] → SeesBounds [] (trim part)) :
    scan none (before ++ part ++ [',']) = none := by
  have hpart : scan none (part.take part.length) = none := by
    refine scan_take_part h fun _ => .inr ?_
    obtain ⟨after, -, hpart⟩ := exists_trim_append part
    have hlen := congrArg List.length hpart
    simp only [List.length_append] at hlen
    omega
  rw [List.take_length] at hpart
  rw [scan_append, scan_append, hbefore, hpart]
  rfl

section

variable {before : List Char} {parts : List (List Char)}

/-- The scan of `split_array` is outside of strings where a part begins. -/
theorem scan_of_mem_located (hbefore : scan none before = none)
    (h : ∀ x ∈ located before parts, SeesBounds [] x.2) :
    ∀ x ∈ located before parts, scan none x.1 = none := by
  induction parts generalizing before with
  | nil => exact nofun
  | cons part parts ih =>
    intro x hx
    rw [located] at h hx
    split_ifs at h hx with hblank
    · exact ih (scan_part_comma hbefore fun hne => absurd hblank hne) h x hx
    · rw [List.forall_mem_cons] at h
      rcases List.mem_cons.mp hx with rfl | hmem
      · rw [scan_append, hbefore]
        exact scan_none_of_noQuote (noQuote_takeWhile part)
      · exact ih (scan_part_comma hbefore fun _ => h.1) h.2 x hmem

/-- **Gaps.** A place in an array that is not inside of the text of a string is outside of strings,
if each of these texts is one string. -/
theorem scan_take_joinParts (hbefore : scan none before = none)
    (h : ∀ x ∈ located before parts, SeesBounds [] x.2) {n : ℕ} (hn : n ≤ (joinParts parts).length)
    (hgap : ∀ x ∈ located before parts, before.length + n ≤ x.1.length ∨
      x.1.length + x.2.length ≤ before.length + n) :
    scan none (before ++ (joinParts parts).take n) = none := by
  induction parts generalizing before n with
  | nil =>
    rw [joinParts, List.take_nil, List.append_nil]
    exact hbefore
  | cons part parts ih =>
    rw [located] at h hgap
    have hpart : trim part ≠ [] → SeesBounds [] (trim part) := by
      intro hne
      rw [if_neg hne, List.forall_mem_cons] at h
      exact h.1
    have hrest : ∀ x ∈ located (before ++ part ++ [',']) parts, SeesBounds [] x.2 ∧
        (before.length + n ≤ x.1.length ∨ x.1.length + x.2.length ≤ before.length + n) := by
      intro x hx
      split_ifs at h hgap
      · exact ⟨h x hx, hgap x hx⟩
      · exact ⟨h x (List.mem_cons_of_mem _ hx), hgap x (List.mem_cons_of_mem _ hx)⟩
    rcases Nat.lt_or_ge part.length n with hlt | hle
    · -- the place is behind this part
      cases parts with
      | nil =>
        simp only [joinParts, List.flatMap_nil, List.append_nil] at hn
        omega
      | cons part' parts =>
        obtain ⟨m, rfl⟩ : ∃ m, n = part.length + (m + 1) := ⟨n - part.length - 1, by omega⟩
        have hlen : (before ++ part ++ [',']).length + m =
            before.length + (part.length + (m + 1)) := by
          simp only [List.length_append, List.length_singleton]
          omega
        have hm := ih (n := m) (scan_part_comma hbefore hpart) (fun x hx => (hrest x hx).1)
          (by rw [joinParts_cons_cons, List.length_append, List.length_cons] at hn; omega)
          (fun x hx => by rw [hlen]; exact (hrest x hx).2)
        rw [joinParts_cons_cons, List.take_length_add_append, List.take_succ_cons]
        simpa using hm
    · have htake : (joinParts (part :: parts)).take n = part.take n := by
        rw [joinParts, List.take_append_of_le_length hle]
      rw [htake, scan_append, hbefore]
      refine scan_take_part hpart fun hne => ?_
      rw [if_neg hne, List.forall_mem_cons] at hgap
      have hfirst := hgap.1
      simp only [List.length_append] at hfirst
      omega

theorem le_of_mem_located {x : List Char × List Char} (hx : x ∈ located before parts) :
    before.length ≤ x.1.length := by
  induction parts generalizing before with
  | nil => cases hx
  | cons part parts ih =>
    rw [located] at hx
    have hrest : x ∈ located (before ++ part ++ [',']) parts → before.length ≤ x.1.length := by
      intro hmem
      have hle := ih hmem
      simp only [List.length_append] at hle
      omega
    split_ifs at hx
    · exact hrest hx
    · rcases List.mem_cons.mp hx with rfl | hmem
      · simp
      · exact hrest hmem

/-- The first of the texts has no quote in front of it, and all others are behind it. -/
theorem located_eq_cons {x : List Char × List Char} {xs : List (List Char × List Char)}
    (h : located before parts = x :: xs) :
    (∃ gap, (∀ c ∈ gap, ¬IsQuote c) ∧ x.1 = before ++ gap) ∧
      ∀ y ∈ xs, x.1.length ≤ y.1.length := by
  induction parts generalizing before with
  | nil => cases h
  | cons part parts ih =>
    rw [located] at h
    obtain ⟨after, hafter, hpart⟩ := exists_trim_append part
    split_ifs at h with hblank
    · obtain ⟨⟨gap, hgap, hx⟩, hxs⟩ := ih h
      refine ⟨⟨part ++ ',' :: gap, ?_, by rw [hx]; simp⟩, hxs⟩
      have hpartq : ∀ c ∈ part, ¬IsQuote c := by
        rw [hblank, List.append_nil] at hpart
        rw [hpart, List.forall_mem_append]
        exact ⟨noQuote_takeWhile part, noQuote_of_blank hafter⟩
      rw [List.forall_mem_append, List.forall_mem_cons]
      exact ⟨hpartq, by decide, hgap⟩
    · obtain ⟨rfl, rfl⟩ := List.cons.inj h
      refine ⟨⟨_, noQuote_takeWhile part, rfl⟩, fun y hy => ?_⟩
      have hle := le_of_mem_located hy
      have hws := (List.takeWhile_prefix (l := part) isWhitespace).length_le
      simp only [List.length_append] at hle ⊢
      omega

end

/-! ### Lines -/

/-- The text of a value is its lines joined by blanks. -/
def joinLines : List Char → List (List Char) → List Char
  | first, [] => first
  | first, line :: lines => first ++ ' ' :: joinLines line lines

theorem append_flatMap_eq_joinLines (first : List Char) (lines : List (List Char)) :
    first ++ lines.flatMap (' ' :: ·) = joinLines first lines := by
  induction lines generalizing first with
  | nil => exact List.append_nil _
  | cons line lines ih =>
    rw [joinLines, ← ih]
    simp

theorem length_le_joinLines (first : List Char) (lines : List (List Char)) :
    first.length ≤ (joinLines first lines).length := by
  rw [← append_flatMap_eq_joinLines, List.length_append]
  exact Nat.le_add_right _ _

/-- A text on the key's line is seen there by `strip_comment`. -/
theorem OnLine.seesBounds {text start first before : List Char} {more : List (List Char)}
    (h : OnLine text start (first :: more) before) (hlt : before.length < first.length) :
    SeesBounds (start ++ before) text := by
  cases h with
  | here hsees => exact hsees
  | later h =>
    simp only [List.length_append] at hlt
    omega

/-- The end of a line is not inside of a text that stands on one line. -/
theorem OnLine.not_inside {text start before : List Char} {lines : List (List Char)}
    (h : OnLine text start lines before) : ∀ first more, lines = first :: more →
      ∀ k < more.length, (joinLines first (more.take k)).length ≤ before.length ∨
        before.length + text.length ≤ (joinLines first (more.take k)).length := by
  induction h with
  | here hsees =>
    rename_i start before after lines
    rintro first more heq k -
    obtain ⟨rfl, rfl⟩ := List.cons.inj heq
    refine .inr ((Nat.le_trans ?_ (length_le_joinLines _ _)))
    simp only [List.length_append]
    omega
  | later h ih =>
    rename_i start line before lines
    rintro first more heq k hk
    obtain ⟨rfl, rfl⟩ := List.cons.inj heq
    cases k with
    | zero =>
      left
      rw [List.take_zero, joinLines, List.length_append]
      omega
    | succ k =>
      cases lines with
      | nil => exact absurd hk (Nat.not_lt_zero _)
      | cons line' lines =>
        have hk' := ih line' lines rfl k (Nat.lt_of_succ_lt_succ hk)
        rw [List.take_succ_cons, joinLines]
        simp only [List.length_append, List.length_cons]
        omega

/-- A string within the first line. -/
theorem onLine_first {text start before after : List Char} (more : List (List Char))
    (hne : text ≠ []) (hsees : SeesBounds [] text) (hbefore : scan none before = none)
    (hstart : before.length < (before ++ text ++ after).length → scan none start = none) :
    OnLine text start ((before ++ text ++ after) :: more) before := by
  have hlt : before.length < (before ++ text ++ after).length := by
    have hpos := List.length_pos_iff.mpr hne
    simp only [List.length_append]
    omega
  refine .here (seesBounds_iff.mpr ⟨?_, hsees⟩)
  rw [scan_append, hstart hlt, hbefore]

/-- A string stands on one line if no line ends inside of a string. -/
theorem onLine_of_seesBounds {quote : Char} {rest : List Char} (hquote : IsQuote quote)
    (hsees : SeesBounds [] (quote :: rest)) {start first before after : List Char}
    {more : List (List Char)} (htext : joinLines first more = before ++ (quote :: rest) ++ after)
    (hbefore : scan none before = none)
    (hlines : ∀ k < more.length, scan none (joinLines first (more.take k)) = none)
    (hstart : before.length < first.length → scan none start = none) :
    OnLine (quote :: rest) start (first :: more) before := by
  have hne : quote :: rest ≠ [] := List.cons_ne_nil _ _
  induction more generalizing start first before with
  | nil =>
    rw [joinLines] at htext
    subst htext
    exact onLine_first [] hne hsees hbefore hstart
  | cons line lines ih =>
    have hfirst : scan none first = none := hlines 0 (Nat.zero_lt_succ _)
    rw [joinLines] at htext
    have hblank : ' ' ≠ quote := (hquote.ne (by decide)).symm
    rcases List.append_eq_append_iff.mp htext with ⟨mid, hmid, hrest⟩ | ⟨mid, rfl, -⟩
    · rcases List.append_eq_append_iff.mp hmid with ⟨pre, rfl, hsplit⟩ | ⟨pre, rfl, rfl⟩
      · -- the line ends behind a part of the text: it is outside of strings, so this is all of it
        rw [scan_append, hbefore] at hfirst
        have hpre := hsees pre.length (by rw [hsplit, List.length_append]; omega)
        rw [hsplit, List.take_left, List.nil_append, hfirst] at hpre
        have hends : ¬(0 < pre.length ∧ pre.length < (pre ++ mid).length) :=
          fun h => absurd (hpre.mpr h) (by simp)
        cases pre with
        | nil =>
          rw [← (show quote :: rest = mid from hsplit), List.cons_append] at hrest
          exact absurd (List.cons.inj hrest).1 hblank
        | cons c pre =>
          have hmid : mid = [] := by
            refine List.eq_nil_of_length_eq_zero ?_
            simp only [List.length_append, List.length_cons] at hends
            omega
          rw [hmid, List.append_nil] at hsplit
          have hline : before ++ c :: pre = before ++ (quote :: rest) ++ [] := by
            rw [hsplit, List.append_nil]
          rw [hline] at hstart ⊢
          exact onLine_first _ hne hsees hbefore hstart
      · cases pre with
        | nil =>
          rw [List.nil_append, List.cons_append] at hrest
          exact absurd (List.cons.inj hrest).1 hblank
        | cons c pre =>
          rw [List.cons_append, List.cons_append] at hrest
          obtain ⟨rfl, hjoin⟩ := List.cons.inj hrest
          have hnext : ∀ a : List Char, scan none (first ++ ' ' :: a) = scan none a := by
            intro a
            rw [scan_append, hfirst]
            rfl
          refine .later (ih hjoin (by rwa [hnext] at hbefore) (fun k hk => ?_) fun _ => rfl)
          have hk' := hlines (k + 1) (Nat.succ_lt_succ hk)
          rwa [List.take_succ_cons, joinLines, hnext] at hk'
    · exact onLine_first _ hne hsees hbefore hstart

theorem Source.text_eq (src : Source) : src.text = joinLines src.first src.more :=
  append_flatMap_eq_joinLines _ _

theorem Source.through_eq (src : Source) (k : ℕ) :
    src.through k = joinLines src.first (src.more.take k) :=
  append_flatMap_eq_joinLines _ _

/-! ### Values -/

/-- What a value can be. -/
theorem parseValue_cases {text : List Char} {line : ℕ} {v : Value}
    (h : parseValue text line = .ok v) :
    (∃ rest inner ss, text = '[' :: rest ∧ stripSuffix [']'] rest = some inner ∧ v = .array ss ∧
      (((splitArray inner).map trim).filter (· ≠ [])).mapM
        (fun part => (parseValue part line).bind (elementString line)) = .ok ss) ∨
    (∃ quote rest s, text = quote :: rest ∧ IsQuote quote ∧ v = .str s ∧
      parseString text line = .ok s) ∨
    (∃ c rest, text = c :: rest ∧ c ≠ '[' ∧ ¬IsQuote c ∧ (∀ s, v ≠ .str s) ∧
      ∀ a, v ≠ .array a) := by
  by_cases htrue : text = "true".toList
  · subst htrue
    obtain rfl := Except.ok.inj h
    exact .inr (.inr ⟨_, _, rfl, by decide, by decide, by simp, by simp⟩)
  by_cases hfalse : text = "false".toList
  · subst hfalse
    obtain rfl := Except.ok.inj h
    exact .inr (.inr ⟨_, _, rfl, by decide, by decide, by simp, by simp⟩)
  cases text with
  | nil => cases h
  | cons c rest =>
    by_cases hbracket : c = '['
    · subst hbracket
      cases hinner : stripSuffix [']'] rest with
      | none =>
        rw [parseValue, parseValueTo, if_neg htrue, if_neg hfalse, if_pos rfl, hinner] at h
        cases h
      | some inner =>
        rw [parseValue_array line hinner] at h
        obtain ⟨ss, hss, rfl⟩ := map_eq_ok.mp h
        exact .inl ⟨rest, inner, ss, rfl, hinner, rfl, hss⟩
    · rw [parseValue, parseValueTo, if_neg htrue, if_neg hfalse, if_neg hbracket] at h
      by_cases hquote : c = doubleQuote ∨ c = singleQuote
      · rw [if_pos hquote] at h
        obtain ⟨s, hs, rfl⟩ := map_eq_ok.mp h
        exact .inr (.inl ⟨c, rest, s, rfl, hquote, rfl, hs⟩)
      · rw [if_neg hquote] at h
        split at h
        · obtain rfl := Except.ok.inj h
          exact .inr (.inr ⟨c, rest, rfl, hbracket, hquote, by simp, by simp⟩)
        · cases h

theorem exists_of_forall₂ {α β : Type} {R : α → β → Prop} {l : List α} {l' : List β}
    (h : List.Forall₂ R l l') {a : α} (ha : a ∈ l) : ∃ b, R a b := by
  induction h with
  | nil => cases ha
  | cons hr _ ih =>
    rcases List.mem_cons.mp ha with rfl | ha
    · exact ⟨_, hr⟩
    · exact ih ha

/-- The parts of an array are strings. -/
theorem forall₂_of_mapM {line : ℕ} {parts : List (List Char)} {ss : List String}
    (h : parts.mapM (fun part => (parseValue part line).bind (elementString line)) = .ok ss) :
    List.Forall₂ (fun part s => (∃ quote rest, part = quote :: rest ∧ IsQuote quote) ∧
      parseString part line = .ok s) parts ss := by
  induction parts generalizing ss with
  | nil =>
    rw [List.mapM_nil] at h
    rw [← Except.ok.inj h]
    exact .nil
  | cons part parts ih =>
    rw [List.mapM_cons] at h
    obtain ⟨s, hs, h⟩ := bind_eq_ok.mp h
    obtain ⟨ss', hss, h⟩ := bind_eq_ok.mp h
    rw [← Except.ok.inj h]
    refine .cons ?_ (ih hss)
    obtain ⟨v, hv, helement⟩ := bind_eq_ok.mp hs
    cases v with
    | str s' =>
      obtain rfl : s' = s := Except.ok.inj helement
      rcases parseValue_cases hv with ⟨_, _, _, _, _, hbad, _⟩ |
        ⟨quote, rest, s, hpart, hquote, hstr, hparse⟩ | ⟨_, _, _, _, _, hbad, _⟩
      · cases hbad
      · obtain rfl := Value.str.inj hstr
        exact ⟨⟨quote, rest, hpart, hquote⟩, hparse⟩
      · exact absurd rfl (hbad s')
    | int n => cases helement
    | bool b => cases helement
    | array a => cases helement

/-! ### The strings of an accepted value -/

/-- Where the strings of a value are. -/
structure Source.Laid (src : Source) : Prop where
  /-- Every text is cut out of the value. -/
  cut : ∀ t ∈ src.strings, ∃ after, src.text = t.position ++ t.text ++ after
  quoted : ∀ t ∈ src.strings, ∃ quote rest s,
    t.text = quote :: rest ∧ IsQuote quote ∧ parseString t.text src.line = .ok s
  /-- The first text has no quote in front of it, and all others are behind it. -/
  first : ∀ t ts, src.strings = t :: ts → (∀ c ∈ t.position, ¬IsQuote c) ∧
    ∀ u ∈ ts, t.position.length ≤ u.position.length
  /-- If each text is one string, then every one begins outside of strings, -/
  outside : (∀ t ∈ src.strings, SeesBounds [] t.text) →
    ∀ t ∈ src.strings, scan none t.before = none ∧ scan none t.position = none
  /-- and so is every place of an array that is inside of none. -/
  gaps : src.more ≠ [] → (∀ t ∈ src.strings, SeesBounds [] t.text) → ∀ n ≤ src.text.length,
    (∀ t ∈ src.strings, n ≤ t.position.length ∨ t.position.length + t.text.length ≤ n) →
      scan none (src.text.take n) = none

namespace Source

variable {src : Source}

theorem strings_of_array {rest inner : List Char} (htrim : trim src.text = '[' :: rest)
    (hinner : stripSuffix [']'] rest = some inner) :
    src.strings = (located [] (splitArray inner)).map fun p =>
      ⟨src.text.takeWhile isWhitespace ++ ['['], p.1, p.2⟩ := by
  rw [strings, htrim]
  dsimp only
  rw [if_pos rfl, hinner]

theorem strings_of_quote {quote : Char} {rest : List Char} (hquote : IsQuote quote)
    (htrim : trim src.text = quote :: rest) :
    src.strings = [⟨src.text.takeWhile isWhitespace, [], quote :: rest⟩] := by
  rw [strings, htrim]
  dsimp only
  rw [if_neg (hquote.ne (by decide))]
  exact if_pos hquote

theorem strings_of_other {c : Char} {rest : List Char} (hbracket : c ≠ '[') (hquote : ¬IsQuote c)
    (htrim : trim src.text = c :: rest) : src.strings = [] := by
  rw [strings, htrim]
  dsimp only
  rw [if_neg hbracket]
  exact if_neg hquote

/-- A value that goes on to further lines begins like an array. -/
theorem trim_of_opensArray (h : src.opensArray) : ∃ rest, trim src.text = '[' :: rest := by
  rw [opensArray, decide_eq_true_eq] at h
  obtain ⟨x, hx⟩ := List.head?_eq_some_iff.mp h
  have hstart : trimStart src.text = '[' :: (x ++ src.more.flatMap (' ' :: ·)) := by
    rw [trimStart] at hx
    rw [trimStart, text, List.dropWhile_append, hx]
    rfl
  have hne : trim src.text ≠ [] := by
    intro hnil
    have hall := List.rdropWhile_eq_nil_iff.mp hnil
    rw [hstart] at hall
    exact absurd (hall '[' List.mem_cons_self) (by decide)
  obtain ⟨c, rest, hrest⟩ := List.exists_cons_of_ne_nil hne
  refine ⟨rest, ?_⟩
  have hpre : trim src.text <+: trimStart src.text := List.rdropWhile_prefix _ _
  rw [hrest, hstart, List.cons_prefix_cons] at hpre
  rw [hrest, hpre.1]

/-- The inside of an array between what is in front of it and what is behind it. -/
theorem laid_of_parts {head tail : List Char} {parts : List (List Char)}
    (hstrings : src.strings = (located [] parts).map fun p => ⟨head, p.1, p.2⟩)
    (htext : src.text = head ++ joinParts parts ++ tail) (hhead : ∀ c ∈ head, ¬IsQuote c)
    (htail : ∀ c ∈ tail, ¬IsQuote c)
    (hquoted : ∀ p ∈ located [] parts, ∃ quote rest s,
      p.2 = quote :: rest ∧ IsQuote quote ∧ parseString p.2 src.line = .ok s) : src.Laid := by
  have hcut : ∀ p ∈ located [] parts, ∃ after, joinParts parts = p.1 ++ p.2 ++ after :=
    fun p hp => exists_of_mem_located hp
  have hone : (∀ t ∈ src.strings, SeesBounds [] t.text) →
      ∀ p ∈ located [] parts, SeesBounds [] p.2 := by
    intro h p hp
    exact h ⟨head, p.1, p.2⟩ (hstrings ▸ List.mem_map_of_mem hp)
  have hscan : scan none head = none := scan_none_of_noQuote hhead
  constructor
  · intro t ht
    rw [hstrings] at ht
    obtain ⟨p, hp, rfl⟩ := List.mem_map.mp ht
    obtain ⟨after, hafter⟩ := hcut p hp
    refine ⟨after ++ tail, ?_⟩
    rw [htext, hafter, StringText.position]
    simp
  · intro t ht
    rw [hstrings] at ht
    obtain ⟨p, hp, rfl⟩ := List.mem_map.mp ht
    exact hquoted p hp
  · intro t ts hts
    rw [hstrings] at hts
    obtain ⟨p, ps, hps, rfl, rfl⟩ := List.map_eq_cons_iff.mp hts
    obtain ⟨⟨gap, hgap, hp⟩, hle⟩ := located_eq_cons hps
    constructor
    · rw [StringText.position, hp]
      exact List.forall_mem_append.mpr ⟨hhead, hgap⟩
    · intro u hu
      obtain ⟨q, hq, rfl⟩ := List.mem_map.mp hu
      have hlen := hle q hq
      simp only [StringText.position, List.length_append]
      omega
  · intro h t ht
    rw [hstrings] at ht
    obtain ⟨p, hp, rfl⟩ := List.mem_map.mp ht
    have hp' := scan_of_mem_located (scan_nil none) (hone h) p hp
    refine ⟨hp', ?_⟩
    rw [StringText.position, scan_append, hscan]
    exact hp'
  · intro _ h n hn hgap
    have hgap' : ∀ p ∈ located [] parts, n ≤ head.length + p.1.length ∨
        head.length + p.1.length + p.2.length ≤ n := by
      intro p hp
      have hp' := hgap ⟨head, p.1, p.2⟩ (hstrings ▸ List.mem_map_of_mem hp)
      simpa only [StringText.position, List.length_append] using hp'
    rw [htext, List.take_append, List.take_append, scan_append, scan_append]
    have hheadn : scan none (head.take n) = none :=
      scan_none_of_noQuote fun c hc => hhead c (List.mem_of_mem_take hc)
    have hinner : scan none ((joinParts parts).take (n - head.length)) = none := by
      rcases Nat.lt_or_ge (joinParts parts).length (n - head.length) with hlt | hle
      · rw [List.take_of_length_le hlt.le, ← List.take_length (l := joinParts parts)]
        refine scan_take_joinParts (scan_nil none) (hone h) (Nat.le_refl _) fun p hp => ?_
        obtain ⟨after, hafter⟩ := hcut p hp
        right
        rw [hafter, List.length_nil]
        simp only [List.length_append]
        omega
      · refine scan_take_joinParts (scan_nil none) (hone h) hle fun p hp => ?_
        have hp' := hgap' p hp
        rw [List.length_nil]
        omega
    rw [hheadn, hinner]
    exact scan_none_of_noQuote fun c hc => htail c (List.mem_of_mem_take hc)

/-- An array that is accepted. -/
theorem laid_of_array {rest inner : List Char} {ss : List String}
    (htrim : trim src.text = '[' :: rest) (hinner : stripSuffix [']'] rest = some inner)
    (hparts : (((splitArray inner).map trim).filter (· ≠ [])).mapM
      (fun part => (parseValue part src.line).bind (elementString src.line)) = .ok ss) :
    src.Laid ∧ src.Yields (.array ss) := by
  have hstrings := strings_of_array htrim hinner
  have hall := forall₂_of_mapM hparts
  rw [← located_texts [], List.forall₂_map_left_iff] at hall
  obtain ⟨after, hafter, htext⟩ := exists_trim_append src.text
  have hwhole : src.text = src.text.takeWhile isWhitespace ++ ['['] ++
      joinParts (splitArray inner) ++ ']' :: after := by
    rw [joinParts_splitArray]
    nth_rewrite 1 [htext]
    rw [htrim, eq_append_of_stripSuffix hinner]
    simp
  refine ⟨laid_of_parts hstrings hwhole ?_ ?_ ?_, ?_⟩
  · rw [List.forall_mem_append, List.forall_mem_singleton]
    exact ⟨noQuote_takeWhile _, by decide⟩
  · rw [List.forall_mem_cons]
    exact ⟨by decide, noQuote_of_blank hafter⟩
  · intro p hp
    obtain ⟨s, ⟨quote, rest', hp', hquote⟩, hparse⟩ := exists_of_forall₂ hall hp
    exact ⟨quote, rest', s, hp', hquote, hparse⟩
  · rw [Yields, hstrings, List.forall₂_map_left_iff]
    exact hall.imp fun _ _ h => h.2

/-- A string that is accepted. -/
theorem laid_of_string {quote : Char} {rest : List Char} {s : String} (hquote : IsQuote quote)
    (htrim : trim src.text = quote :: rest) (hmore : src.more = [])
    (hparse : parseString (quote :: rest) src.line = .ok s) :
    src.Laid ∧ src.Yields (.str s) := by
  have hstrings := strings_of_quote hquote htrim
  obtain ⟨after, -, htext⟩ := exists_trim_append src.text
  have hposition : (StringText.mk (src.text.takeWhile isWhitespace) [] (quote :: rest)).position =
      src.text.takeWhile isWhitespace := List.append_nil _
  refine ⟨?_, _, hstrings, hparse⟩
  constructor
  · rw [hstrings, List.forall_mem_singleton, hposition, ← htrim]
    exact ⟨after, htext⟩
  · rw [hstrings, List.forall_mem_singleton]
    exact ⟨quote, rest, s, rfl, hquote, hparse⟩
  · intro t ts hts
    rw [hstrings] at hts
    obtain ⟨rfl, rfl⟩ := List.cons.inj hts
    rw [hposition]
    exact ⟨noQuote_takeWhile _, nofun⟩
  · rw [hstrings, List.forall_mem_singleton, List.forall_mem_singleton, hposition]
    exact fun _ => ⟨rfl, scan_none_of_noQuote (noQuote_takeWhile _)⟩
  · exact fun hne => absurd hmore hne

/-- A value that does not begin like an array stands on one line. -/
theorem Complete.more_eq_nil (h : src.Complete) {c : Char} {rest : List Char}
    (htrim : trim src.text = c :: rest) (hc : c ≠ '[') : src.more = [] := by
  by_contra hne
  obtain ⟨rest', hrest⟩ := trim_of_opensArray (h.opens hne)
  rw [htrim] at hrest
  exact hc (List.cons.inj hrest).1

/-- **The strings of a value.** -/
theorem laid_of_value {v : Value} (hcomplete : src.Complete) (hvalue : src.value = .ok v) :
    src.Laid ∧ src.Yields v := by
  rcases parseValue_cases hvalue with ⟨rest, inner, ss, htrim, hinner, rfl, hparts⟩ |
    ⟨quote, rest, s, htrim, hquote, rfl, hparse⟩ | ⟨c, rest, htrim, hbracket, hquote, hstr, harray⟩
  · exact laid_of_array htrim hinner hparts
  · rw [htrim] at hparse
    have hmore := hcomplete.more_eq_nil htrim (hquote.ne (by decide))
    exact laid_of_string hquote htrim hmore hparse
  · have hnil := strings_of_other hbracket hquote htrim
    have hmore := hcomplete.more_eq_nil htrim hbracket
    constructor
    · constructor
      all_goals simp [hnil, hmore]
    · cases v with
      | str s => exact absurd rfl (hstr s)
      | array a => exact absurd rfl (harray a)
      | int n => exact hnil
      | bool b => exact hnil

/-! ### When all agree -/

theorem Laid.seesBounds_iff (h : src.Laid) {t : StringText} (ht : t ∈ src.strings) :
    SeesBounds [] t.text ↔ NoThirdQuote t.text := by
  obtain ⟨quote, rest, s, htext, hquote, hparse⟩ := h.quoted t ht
  rw [htext] at hparse ⊢
  exact seesBounds_iff_noThirdQuote hquote hparse

theorem through_prefix (src : Source) (k : ℕ) : src.through k <+: src.text := by
  refine ⟨(src.more.drop k).flatMap (' ' :: ·), ?_⟩
  rw [through, text, List.append_assoc, ← List.flatMap_append, List.take_append_drop]

/-- The key does not leave a string open if `strip_comment` sees the first one behind it. -/
theorem Laid.key_of_agrees (h : src.Laid) (hagrees : ∀ t ∈ src.strings, src.Agrees t)
    {t : StringText} (ht : t ∈ src.strings) (hlt : t.position.length < src.first.length) :
    scan none src.keyText = none := by
  obtain ⟨t₀, ts, hts⟩ := List.exists_cons_of_ne_nil (List.ne_nil_of_mem ht)
  obtain ⟨hquotes, hle⟩ := h.first t₀ ts hts
  have hlt₀ : t₀.position.length < src.first.length := by
    rw [hts] at ht
    rcases List.mem_cons.mp ht with rfl | ht
    · exact hlt
    · exact (hle t ht).trans_lt hlt
  have ht₀ := hagrees t₀ (hts ▸ List.mem_cons_self)
  have hscan := (Toml.seesBounds_iff.mp (ht₀.stripComment.seesBounds hlt₀)).1
  rw [List.append_assoc] at hscan
  refine scan_eq_none_of_append ?_ hscan
  rw [List.forall_mem_append, List.forall_mem_singleton]
  exact ⟨by decide, hquotes⟩

/-- No line ends inside of a string if every string stands on one line. -/
theorem Laid.lines_of_agrees (h : src.Laid) (hagrees : ∀ t ∈ src.strings, src.Agrees t) {k : ℕ}
    (hk : k < src.more.length) : scan none (src.through k) = none := by
  have hpre := src.through_prefix k
  have hgap := h.gaps (List.ne_nil_of_length_pos (by omega))
    (fun t ht => (hagrees t ht).parseString) (src.through k).length hpre.length_le ?_
  · rwa [← List.prefix_iff_eq_take.mp hpre] at hgap
  · intro t ht
    rw [through_eq]
    exact (hagrees t ht).stripComment.not_inside src.first src.more rfl k hk

/-- **Agreement.** The texts of the strings of a value are one token each, on one line, and all see
the same bounds, exactly if nothing in it takes a quote for another. -/
theorem Laid.agrees_iff (h : src.Laid) : (∀ t ∈ src.strings, src.Agrees t) ↔ src.Plain := by
  constructor
  · intro hagrees
    refine ⟨?_, fun t ht => ?_, fun k hk => h.lines_of_agrees hagrees hk⟩
    · rintro ⟨t, ht, hlt⟩
      exact h.key_of_agrees hagrees ht hlt
    · exact (h.seesBounds_iff ht).mp (hagrees t ht).parseString
  · intro hplain t ht
    have hone : ∀ t ∈ src.strings, SeesBounds [] t.text :=
      fun t ht => (h.seesBounds_iff ht).mpr (hplain.quotes t ht)
    have hsees := hone t ht
    obtain ⟨hbefore, hposition⟩ := h.outside hone t ht
    obtain ⟨quote, rest, -, htext, hquote, -⟩ := h.quoted t ht
    obtain ⟨after, hafter⟩ := h.cut t ht
    refine ⟨hsees, Toml.seesBounds_iff.mpr ⟨hbefore, hsees⟩,
      Toml.seesBounds_iff.mpr ⟨hposition, hsees⟩, ?_⟩
    rw [text_eq, htext] at hafter
    rw [htext] at hsees ⊢
    refine onLine_of_seesBounds hquote hsees hafter hposition (fun k hk => ?_) fun hlt => ?_
    · rw [← through_eq]
      exact hplain.lines k hk
    · rw [scan_append, hplain.key ⟨t, ht, hlt⟩]
      rfl

end Source

/-- **Quoted strings.** The tables of an accepted file are its sections, and its strings come from
the texts that are listed for each `key = value`. All of these texts are string tokens, each on one
line, that `strip_comment`, `brackets_balanced`, `split_array` and `parse_string` see the same
bounds of, exactly if every `key = value` is plain. -/
theorem agree_of_parse_iff {input : String} {tables : List Table} : parse input = .ok tables →
    List.Forall₂ Section.Gives (sections input) tables ∧
    (∀ sec ∈ sections input, ∀ src ∈ sec.sources, ∃ v, src.value = .ok v ∧ src.Yields v) ∧
    ((∀ sec ∈ sections input, ∀ src ∈ sec.sources, ∀ t ∈ src.strings, src.Agrees t) ↔
      ∀ sec ∈ sections input, ∀ src ∈ sec.sources, src.Plain) := by
  intro h
  have hsections := parse_sections h
  have hvalue : ∀ sec ∈ sections input, ∀ src ∈ sec.sources,
      ∃ v, src.value = .ok v ∧ src.Laid ∧ src.Yields v := by
    intro sec hsec src hsrc
    obtain ⟨t, ht⟩ := exists_of_forall₂ hsections hsec
    obtain ⟨e, he⟩ := exists_of_forall₂ ht.entries hsrc
    exact ⟨e.value, he.value, Source.laid_of_value (complete_of_mem_sections hsec hsrc) he.value⟩
  refine ⟨hsections, fun sec hsec src hsrc => ?_, ?_⟩
  · obtain ⟨v, hv, -, hyields⟩ := hvalue sec hsec src hsrc
    exact ⟨v, hv, hyields⟩
  · refine forall₂_congr fun sec hsec => forall₂_congr fun src hsrc => ?_
    obtain ⟨v, -, hlaid, -⟩ := hvalue sec hsec src hsrc
    exact hlaid.agrees_iff

/-- A string with an escaped quote, and an array over two lines with a comment in between. -/
def plainFile : String :=
  "[[server]]\nhost = \"a\\\"b\"\ndevices = [\"28de:*\", # pads\n  '045e:\"']\n"

theorem agree_of_parse_iff_plainFile :
    (∃ tables, parse plainFile = .ok tables) ∧
      ∀ sec ∈ sections plainFile, ∀ src ∈ sec.sources, ∀ t ∈ src.strings, src.Agrees t := by
  have hplain : ∀ sec ∈ sections plainFile, ∀ src ∈ sec.sources, src.Plain := by decide +kernel
  obtain ⟨tables, htables⟩ : ∃ tables, parse plainFile = .ok tables := by
    cases hparse : parse plainFile with
    | ok tables => exact ⟨tables, rfl⟩
    | error e =>
      have hok : (parse plainFile).toOption.isSome := by decide +kernel
      rw [hparse] at hok
      cases hok
  exact ⟨⟨tables, htables⟩, (agree_of_parse_iff htables).2.2.mpr hplain⟩

/-- Two strings where there should be one. -/
def twoStrings : String := "x = \"a\" \"b\"\n"

/-- They are accepted as one string, with two quotes inside. -/
theorem two_strings_accepted :
    parse twoStrings = .ok [⟨"", 0, [⟨"x", .str "a\" \"b", 1⟩]⟩] ∧
      ¬∀ sec ∈ sections twoStrings, ∀ src ∈ sec.sources, ∀ t ∈ src.strings, src.Agrees t := by
  refine ⟨by decide +kernel, fun h => ?_⟩
  have hbounds : ¬∀ sec ∈ sections twoStrings, ∀ src ∈ sec.sources, ∀ t ∈ src.strings,
      SeesBounds [] t.text := by decide +kernel
  exact hbounds fun sec hsec src hsrc t ht => (h sec hsec src hsrc t ht).parseString

end Padwire.Toml
