import Mathlib.Algebra.Group.Int.Defs
import Mathlib.Data.List.DropRight

/-!
# Scanning text

The string methods that hand-written parsers are made of, on lists of characters: trimming, lines,
cutting at a separator, and numbers in a given radix. They follow the standard library of the
language of the source: white space is that of Unicode, a line ends in a line feed with or without
a carriage return before it, and a number is a sign and at least one ASCII digit.
-/

namespace Padwire

/-- The `White_Space` property of Unicode. -/
def isWhitespace (c : Char) : Bool :=
  let n := c.toNat
  (9 ≤ n && n ≤ 13) || n == 0x20 || n == 0x85 || n == 0xa0 || n == 0x1680 ||
    (0x2000 ≤ n && n ≤ 0x200a) || n == 0x2028 || n == 0x2029 || n == 0x202f || n == 0x205f ||
    n == 0x3000

def trimStart (s : List Char) : List Char := s.dropWhile isWhitespace

def trim (s : List Char) : List Char := (trimStart s).rdropWhile isWhitespace

/-- What stands before the given end of a text. -/
def stripSuffix (suffix s : List Char) : Option (List Char) :=
  if suffix <:+ s then some (s.take (s.length - suffix.length)) else none

/-- What stands after the given start of a text. -/
def stripPrefix (start s : List Char) : Option (List Char) :=
  if start <+: s then some (s.drop start.length) else none

/-- Cut a text at the first occurrence of a character, which is dropped. -/
def splitOnce (sep : Char) : List Char → Option (List Char × List Char)
  | [] => none
  | c :: cs => if c = sep then some ([], cs) else (splitOnce sep cs).map fun r => (c :: r.1, r.2)

/-- `lines`, with the characters of the current line read so far in reverse. -/
def linesFrom (current : List Char) : List Char → List (List Char)
  | [] => if current = [] then [] else [current.reverse]
  | c :: cs =>
    if c = '\n' then
      (match current with
        | '\r' :: line => line
        | line => line).reverse :: linesFrom [] cs
    else linesFrom (c :: current) cs

/-- The lines of a text, without their ends. -/
def lines (s : List Char) : List (List Char) := linesFrom [] s

/-! ### Cutting -/

theorem splitOnce_append {sep : Char} {a : List Char} (h : sep ∉ a) (b : List Char) :
    splitOnce sep (a ++ sep :: b) = some (a, b) := by
  induction a with
  | nil => rw [List.nil_append, splitOnce, if_pos rfl]
  | cons c a ih =>
    rw [List.mem_cons, not_or] at h
    rw [List.cons_append, splitOnce, if_neg (Ne.symm h.1), ih h.2]
    rfl

/-- No piece has a separator in it. -/
theorem not_sep_of_mem_splitOnP {p : Char → Bool} {s piece : List Char}
    (h : piece ∈ s.splitOnP p) : ∀ c ∈ piece, p c = false := by
  induction s generalizing piece with
  | nil =>
    rw [List.splitOnP_nil, List.mem_singleton] at h
    rw [h]
    exact nofun
  | cons c s ih =>
    rw [List.splitOnP_cons_eq_if_modifyHead] at h
    split_ifs at h with hc
    · rcases List.mem_cons.mp h with rfl | h
      · exact nofun
      · exact ih h
    · cases hs : s.splitOnP p with
      | nil =>
        rw [hs] at h
        cases h
      | cons first rest =>
        rw [hs, List.modifyHead_cons] at h
        rcases List.mem_cons.mp h with rfl | h
        · rw [List.forall_mem_cons]
          exact ⟨by simpa using hc, ih (hs ▸ List.mem_cons_self)⟩
        · exact ih (hs ▸ List.mem_cons_of_mem first h)

/-! ### Case -/

def toAsciiLowercase (tok : List Char) : List Char := tok.map Char.toLower

def eqIgnoreAsciiCase (s t : String) : Bool :=
  s.toList.map Char.toLower == t.toList.map Char.toLower

/-- What is no lower-case letter comes from itself only. -/
theorem eq_of_toLower_eq {c d : Char} (h : c.toLower = d) (hd : d.isLower = false) : c = d := by
  delta Char.toLower at h
  split_ifs at h with hupper
  · have hval : c.val + ('a'.val - 'A'.val) = d.val := congrArg Char.val h
    have hnat := congrArg UInt32.toNat hval
    have hle := UInt32.le_iff_toNat_le.mp hupper.1
    have hge := UInt32.le_iff_toNat_le.mp hupper.2
    have hlow : ¬ (97 ≤ d.val.toNat ∧ d.val.toNat ≤ 122) := by
      rintro ⟨hlo, hhi⟩
      have hlower : d.isLower = true :=
        Bool.and_eq_true_iff.mpr ⟨decide_eq_true hlo, decide_eq_true hhi⟩
      rw [hd] at hlower
      cases hlower
    rw [UInt32.toNat_add] at hnat
    change (c.val.toNat + 32) % 4294967296 = d.val.toNat at hnat
    change 65 ≤ c.val.toNat at hle
    change c.val.toNat ≤ 90 at hge
    omega
  · exact h

/-! ### Numbers -/

/-- The value of a digit in the given radix, at most 36. -/
def toDigit (radix : ℕ) (c : Char) : Option ℕ :=
  let n := c.toNat
  let value :=
    if c.isDigit then some (n - '0'.toNat)
    else if c.isLower then some (n - 'a'.toNat + 10)
    else if c.isUpper then some (n - 'A'.toNat + 10)
    else none
  value.filter (· < radix)

/-- The number that a non-empty list of digits stands for. -/
def ofDigits (radix : ℕ) : List Char → Option ℕ
  | [] => none
  | cs => cs.foldlM (fun n c => (toDigit radix c).map fun d => n * radix + d) 0

/-- `from_str_radix` of an unsigned type with the given largest value. -/
def parseUnsigned (radix max : ℕ) (s : List Char) : Option ℕ :=
  let digits := match s with
    | '+' :: cs => cs
    | cs => cs
  (ofDigits radix digits).filter (· ≤ max)

theorem parseUnsigned_of_not_mem {radix max : ℕ} {s : List Char} (h : '+' ∉ s) :
    parseUnsigned radix max s = (ofDigits radix s).filter (· ≤ max) := by
  unfold parseUnsigned
  split
  · exact absurd List.mem_cons_self h
  · rfl

theorem toDigit_eq_zero {radix : ℕ} (hradix : 0 < radix) {c : Char} :
    toDigit radix c = some 0 ↔ c = '0' := by
  constructor
  · intro h
    have hvalue := (Option.filter_eq_some_iff.mp h).1
    split_ifs at hvalue with hdigit
    · have hle := Option.some.inj hvalue
      simp only [Char.isDigit, ge_iff_le, Bool.and_eq_true, decide_eq_true_eq,
        UInt32.le_iff_toNat_le] at hdigit
      have hnat : c.toNat = '0'.toNat := by
        change c.toNat - 48 = 0 at hle
        change 48 ≤ c.toNat ∧ c.toNat ≤ 57 at hdigit
        change c.toNat = 48
        omega
      exact Char.toNat_inj.mp hnat
    all_goals
      have hle := Option.some.inj hvalue
      omega
  · rintro rfl
    change (some 0).filter (fun d => decide (d < radix)) = some 0
    rw [Option.filter_some, if_pos (decide_eq_true hradix)]

/-- A number is zero if all its digits are. -/
theorem ofDigits_eq_zero {radix : ℕ} (hradix : 0 < radix) {cs : List Char} :
    ofDigits radix cs = some 0 ↔ cs ≠ [] ∧ ∀ c ∈ cs, c = '0' := by
  have hfold : ∀ (cs : List Char) (n : ℕ),
      cs.foldlM (fun n c => (toDigit radix c).map fun d => n * radix + d) n = some 0 ↔
        n = 0 ∧ ∀ c ∈ cs, c = '0' := by
    intro cs
    induction cs with
    | nil => simp
    | cons c cs ih =>
      intro n
      rw [List.foldlM_cons, Option.bind_eq_bind, Option.bind_eq_some_iff, List.forall_mem_cons,
        ← toDigit_eq_zero hradix]
      simp only [ih, Option.map_eq_some_iff]
      constructor
      · rintro ⟨_, ⟨d, hd, rfl⟩, hzero, hcs⟩
        rw [Nat.add_eq_zero_iff, Nat.mul_eq_zero] at hzero
        exact ⟨hzero.1.resolve_right hradix.ne', hzero.2 ▸ hd, hcs⟩
      · rintro ⟨rfl, hd, hcs⟩
        exact ⟨0, ⟨0, hd, by simp⟩, rfl, hcs⟩
  cases cs with
  | nil => simp [ofDigits]
  | cons c cs =>
    have heq : ofDigits radix (c :: cs) =
        (c :: cs).foldlM (fun n c => (toDigit radix c).map fun d => n * radix + d) 0 := rfl
    rw [heq, hfold]
    exact ⟨fun h => ⟨by simp, h.2⟩, fun h => ⟨rfl, h.2⟩⟩

/-- `parse` of the signed type of 64 bits. -/
def parseInt64 (s : List Char) : Option Int64 :=
  let value : Option ℤ := match s with
    | '-' :: cs => (ofDigits 10 cs).map fun n => -(n : ℤ)
    | '+' :: cs => (ofDigits 10 cs).map (↑)
    | cs => (ofDigits 10 cs).map (↑)
  (value.filter fun n => -2 ^ 63 ≤ n ∧ n < 2 ^ 63).map Int64.ofInt

/-! ### Decimal numbers -/

theorem toDigit_of_isDigit {c : Char} (h : c.isDigit = true) :
    toDigit 10 c = some (c.toNat - '0'.toNat) := by
  have hlt : c.toNat - '0'.toNat < 10 := by
    simp only [Char.isDigit, ge_iff_le, Bool.and_eq_true, decide_eq_true_eq,
      UInt32.le_iff_toNat_le] at h
    change 48 ≤ c.toNat ∧ c.toNat ≤ 57 at h
    change c.toNat - 48 < 10
    omega
  rw [toDigit, if_pos h, Option.filter_some, if_pos (decide_eq_true hlt)]

/-- The digits that a number is written with stand for it. -/
theorem ofDigits_toDigits (n : ℕ) : ofDigits 10 (Nat.toDigits 10 n) = some n := by
  have hfold : ∀ (cs : List Char) (m : ℕ), (∀ c ∈ cs, c.isDigit = true) →
      cs.foldlM (fun n c => (toDigit 10 c).map fun d => n * 10 + d) m =
        some (Nat.ofDigitChars 10 cs m) := by
    intro cs
    induction cs with
    | nil => exact fun m _ => congrArg some Nat.ofDigitChars_nil.symm
    | cons c cs ih =>
      intro m hcs
      obtain ⟨hc, hcs⟩ := List.forall_mem_cons.mp hcs
      rw [List.foldlM_cons, toDigit_of_isDigit hc, Nat.ofDigitChars_cons, Nat.mul_comm 10]
      exact ih _ hcs
  have hdigits : ∀ c ∈ Nat.toDigits 10 n, c.isDigit = true := fun c hc =>
    Nat.isDigit_of_mem_toDigits (by decide) (by decide) hc
  have hwhole := hfold _ 0 hdigits
  rw [Nat.ofDigitChars_ten_toDigits] at hwhole
  obtain ⟨c, cs, heq⟩ := List.exists_cons_of_ne_nil (Nat.toDigits_ne_nil (n := n) (b := 10))
  rw [heq] at hwhole ⊢
  exact hwhole

/-- How a number is written. -/
theorem toList_toString (n : Int64) : (toString n).toList = match n.toInt with
    | .ofNat m => Nat.toDigits 10 m
    | .negSucc m => '-' :: Nat.toDigits 10 (m + 1) := by
  have htext : toString n = Int.repr n.toInt := rfl
  rw [htext]
  cases n.toInt with
  | ofNat m => exact Nat.toList_repr
  | negSucc m =>
    rw [Int.repr, String.toList_append, Nat.toList_repr]
    rfl

theorem mem_toList_toString {n : Int64} {c : Char} (hc : c ∈ (toString n).toList) :
    c = '-' ∨ c.isDigit = true := by
  have hdigit : ∀ {m : ℕ}, c ∈ Nat.toDigits 10 m → c.isDigit = true := fun h =>
    Nat.isDigit_of_mem_toDigits (by decide) (by decide) h
  rw [toList_toString] at hc
  split at hc
  · exact .inr (hdigit hc)
  · exact (List.mem_cons.mp hc).imp_right hdigit

theorem isWhitespace_of_isDigit {c : Char} (h : c.isDigit = true) : isWhitespace c = false := by
  simp only [Char.isDigit, ge_iff_le, Bool.and_eq_true, decide_eq_true_eq,
    UInt32.le_iff_toNat_le] at h
  change 48 ≤ c.toNat ∧ c.toNat ≤ 57 at h
  simp only [isWhitespace, Bool.or_eq_false_iff, Bool.and_eq_false_iff, decide_eq_false_iff_not,
    beq_eq_false_iff_ne]
  omega

/-- **A number is read as it was written.** -/
theorem parseInt64_toString (n : Int64) : parseInt64 (toString n).toList = some n := by
  have hbounds : -2 ^ 63 ≤ n.toInt ∧ n.toInt < 2 ^ 63 := ⟨n.le_toInt, n.toInt_lt⟩
  have hvalue : ∀ value : Option ℤ, value = some n.toInt →
      (value.filter fun n => -2 ^ 63 ≤ n ∧ n < 2 ^ 63).map Int64.ofInt = some n := by
    rintro _ rfl
    rw [Option.filter_some, if_pos (decide_eq_true hbounds), Option.map_some, Int64.ofInt_toInt]
  have hnot : ∀ {c : Char} {m : ℕ}, c.isDigit = false → c ∉ Nat.toDigits 10 m :=
    fun hc hmem => by
      rw [Nat.isDigit_of_mem_toDigits (by decide) (by decide) hmem] at hc
      cases hc
  cases hn : n.toInt with
  | ofNat m =>
    have hlist : (toString n).toList = Nat.toDigits 10 m := by rw [toList_toString, hn]
    rw [hlist]
    unfold parseInt64
    refine hvalue _ ?_
    split
    · next heq => exact absurd (heq ▸ List.mem_cons_self) (hnot (m := m) (c := '-') rfl)
    · next heq => exact absurd (heq ▸ List.mem_cons_self) (hnot (m := m) (c := '+') rfl)
    · rw [ofDigits_toDigits, hn]
      rfl
  | negSucc m =>
    have hlist : (toString n).toList = '-' :: Nat.toDigits 10 (m + 1) := by
      rw [toList_toString, hn]
    rw [hlist]
    refine hvalue _ ?_
    simp only [ofDigits_toDigits]
    rw [hn]
    rfl

/-! ### Blanks and lines -/

theorem trimStart_append {blanks : List Char} (h : ∀ c ∈ blanks, isWhitespace c = true)
    (s : List Char) : trimStart (blanks ++ s) = trimStart s :=
  List.dropWhile_append_of_pos h

theorem rdropWhile_append {p : Char → Bool} {s after : List Char} (h : ∀ c ∈ after, p c = true) :
    (s ++ after).rdropWhile p = s.rdropWhile p := by
  rw [List.rdropWhile, List.reverse_append, List.dropWhile_append_of_pos (by simpa using h)]
  rfl

theorem trim_append_left {before : List Char} (h : ∀ c ∈ before, isWhitespace c = true)
    (s : List Char) : trim (before ++ s) = trim s := by
  rw [trim, trimStart_append h, trim]

theorem trim_append_right {after : List Char} (h : ∀ c ∈ after, isWhitespace c = true)
    (s : List Char) : trim (s ++ after) = trim s := by
  by_cases hs : trimStart s = []
  · have hblank : ∀ c ∈ s ++ after, isWhitespace c = true := by
      rw [List.forall_mem_append]
      exact ⟨List.dropWhile_eq_nil_iff.mp hs, h⟩
    have hall : trimStart (s ++ after) = [] := List.dropWhile_eq_nil_iff.mpr hblank
    rw [trim, trim, hall, hs]
  · have hstart : trimStart (s ++ after) = trimStart s ++ after := by
      rw [trimStart, List.dropWhile_append, if_neg]
      · rfl
      · simpa [trimStart] using hs
    rw [trim, trim, hstart, rdropWhile_append h]

/-- Blanks before and after a text are trimmed. -/
theorem trim_append {before after : List Char} (hbefore : ∀ c ∈ before, isWhitespace c = true)
    (hafter : ∀ c ∈ after, isWhitespace c = true) (s : List Char) :
    trim (before ++ (s ++ after)) = trim s := by
  rw [trim_append_left hbefore, trim_append_right hafter]

theorem trim_blank {s : List Char} (h : ∀ c ∈ s, isWhitespace c = true) : trim s = [] := by
  have hstart : trimStart s = [] := List.dropWhile_eq_nil_iff.mpr h
  rw [trim, hstart]
  rfl

theorem trimStart_of_trim {s : List Char} (h : trim s = s) : trimStart s = s := by
  have hprefix : s <+: trimStart s := by
    conv_lhs => rw [← h]
    exact List.rdropWhile_prefix _ _
  exact (List.dropWhile_suffix isWhitespace).eq_of_length_le hprefix.length_le

/-- What neither begins nor ends with white space is trimmed. -/
theorem trim_eq_self_iff {s : List Char} : trim s = s ↔
    (∀ c ∈ s.head?, isWhitespace c = false) ∧ ∀ c ∈ s.getLast?, isWhitespace c = false := by
  have hstart : trimStart s = s ↔ ∀ c ∈ s.head?, isWhitespace c = false := by
    cases s with
    | nil => simp [trimStart]
    | cons c cs => simp [trimStart, List.dropWhile_eq_self_iff]
  have hend : s.rdropWhile isWhitespace = s ↔ ∀ c ∈ s.getLast?, isWhitespace c = false := by
    rcases List.eq_nil_or_concat s with rfl | ⟨cs, c, rfl⟩
    · simp
    · simp [List.rdropWhile_eq_self_iff]
  rw [← hstart, ← hend]
  constructor
  · intro h
    have heq := trimStart_of_trim h
    exact ⟨heq, by rw [trim, heq] at h; exact h⟩
  · rintro ⟨h, hend⟩
    rw [trim, h, hend]

/-- What has no white space in it is trimmed. -/
theorem trim_of_solid {s : List Char} (h : ∀ c ∈ s, isWhitespace c = false) : trim s = s :=
  trim_eq_self_iff.mpr ⟨fun c hc => h c (List.mem_of_mem_head? hc),
    fun c hc => h c (List.mem_of_mem_getLast? hc)⟩

/-- A text is trimmed if its beginning and its end are. -/
theorem trim_append_self {a b : List Char} (ha : trim a = a) (ha' : a ≠ []) (hb : trim b = b)
    (hb' : b ≠ []) (s : List Char) : trim (a ++ (s ++ b)) = a ++ (s ++ b) := by
  rw [trim_eq_self_iff] at ha hb ⊢
  rw [List.head?_append_of_ne_nil _ ha', ← List.append_assoc,
    List.getLast?_append_of_ne_nil _ hb']
  exact ⟨ha.1, hb.2⟩

/-- A line without the carriage return at its end. -/
def chomp (line : List Char) : List Char :=
  (match line.reverse with
    | '\r' :: rest => rest
    | rest => rest).reverse

theorem chomp_concat (l : List Char) (c : Char) :
    chomp (l ++ [c]) = if c = '\r' then l else l ++ [c] := by
  rw [chomp, List.reverse_concat]
  split_ifs with hc
  · subst hc
    exact List.reverse_reverse l
  · split
    · next heq => exact absurd (List.cons.inj heq).1 hc
    · rw [List.reverse_cons, List.reverse_reverse]

theorem chomp_prefix (l : List Char) : chomp l <+: l := by
  rcases List.eq_nil_or_concat l with rfl | ⟨l, c, rfl⟩
  · exact List.prefix_rfl
  · rw [List.concat_eq_append, chomp_concat]
    split_ifs
    · exact List.prefix_append l [c]
    · exact List.prefix_rfl

/-- What stands in front of the last character stays. -/
theorem chomp_append (a : List Char) {b : List Char} (hb : b ≠ []) :
    chomp (a ++ b) = a ++ chomp b := by
  rcases List.eq_nil_or_concat b with rfl | ⟨b, c, rfl⟩
  · exact absurd rfl hb
  · rw [List.concat_eq_append, ← List.append_assoc, chomp_concat, chomp_concat]
    split_ifs
    · rfl
    · rw [List.append_assoc]

theorem chomp_of_trim {s : List Char} (h : trim s = s) : chomp s = s := by
  rcases List.eq_nil_or_concat s with rfl | ⟨cs, c, rfl⟩
  · rfl
  · rw [List.concat_eq_append] at h ⊢
    rw [chomp_concat, if_neg]
    rintro rfl
    have hend := (trim_eq_self_iff.mp h).2 '\r' (by rw [List.getLast?_concat]; rfl)
    exact absurd hend (by decide)

theorem linesFrom_newline (current cs : List Char) :
    linesFrom current ('\n' :: cs) = chomp current.reverse :: linesFrom [] cs := by
  rw [linesFrom.eq_def, chomp, List.reverse_reverse]
  dsimp only
  rw [if_pos rfl]

theorem linesFrom_cons {c : Char} (h : c ≠ '\n') (current cs : List Char) :
    linesFrom current (c :: cs) = linesFrom (c :: current) cs := by
  rw [linesFrom.eq_def]
  dsimp only
  rw [if_neg h]

theorem linesFrom_append {current l : List Char} (h : '\n' ∉ l) (cs : List Char) :
    linesFrom current (l ++ '\n' :: cs) = chomp (current.reverse ++ l) :: linesFrom [] cs := by
  induction l generalizing current with
  | nil => rw [List.nil_append, linesFrom_newline, List.append_nil]
  | cons c l ih =>
    rw [List.mem_cons, not_or] at h
    obtain ⟨hc, hl⟩ := h
    rw [List.cons_append, linesFrom_cons (Ne.symm hc), ih hl, List.reverse_cons,
      List.append_assoc]
    rfl

/-- The lines of a text that consists of lines. -/
theorem lines_flatMap {ls : List (List Char)} (h : ∀ l ∈ ls, '\n' ∉ l) :
    lines (ls.flatMap (· ++ ['\n'])) = ls.map chomp := by
  induction ls with
  | nil => rfl
  | cons l ls ih =>
    obtain ⟨hl, hls⟩ := List.forall_mem_cons.mp h
    rw [List.flatMap_cons, List.append_assoc, lines, List.singleton_append, linesFrom_append hl]
    exact congrArg (chomp l :: ·) (ih hls)

end Padwire
