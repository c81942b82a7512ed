import Padwire.Lib.Scan

/-!
# The configuration language

The parser for the slice of TOML that the attach daemon reads (`usbfwd-attach/src/toml.rs`):
comments, `[table]`, `[[array-of-tables]]` and `key = value`, where a value is a quoted string, an
integer, a boolean, or an array of strings that may span lines.

The parser goes through the lines one by one. Its loop pulls further lines while the brackets of an
array do not balance; here such an array is kept as `Parser.pending` from one line to the next, so
that a line is one step.
-/

namespace Padwire.Toml

inductive Value
  | str (s : String)
  | int (n : Int64)
  | bool (b : Bool)
  | array (a : List String)
  deriving DecidableEq

def Value.typeName : Value → String
  | .str _ => "string"
  | .int _ => "integer"
  | .bool _ => "boolean"
  | .array _ => "array"

/-- A key with its value and the line it stands on. -/
structure Entry where
  key : String
  value : Value
  line : ℕ
  deriving DecidableEq

structure Table where
  name : String
  line : ℕ
  entries : List Entry
  deriving DecidableEq

namespace Table

def get (t : Table) (key : String) : Option Value :=
  (t.entries.find? (·.key == key)).map (·.value)

def lineOf (t : Table) (key : String) : ℕ :=
  ((t.entries.find? (·.key == key)).map (·.line)).getD t.line

/-- Keys that are not in `known`, so a typo does not silently do nothing. -/
def unknownKeys (t : Table) (known : List String) : List (String × ℕ) :=
  (t.entries.filter fun e => !known.contains e.key).map fun e => (e.key, e.line)

end Table

structure Error where
  line : ℕ
  message : String
  deriving DecidableEq

protected def Error.toString (e : Error) : String :=
  "line " ++ toString e.line ++ ": " ++ e.message

/-! ### Quotes, comments and brackets -/

def doubleQuote : Char := Char.ofNat 34

def singleQuote : Char := Char.ofNat 39

/-- Where a scan is with respect to quoted strings: outside, or inside with the quote that opened
the string and whether the character before was an escaping backslash. -/
abbrev Quoting := Option (Char × Bool)

/-- The quoting after one more character. -/
def Quoting.next : Quoting → Char → Quoting
  | some (quote, true), _ => some (quote, false)
  | some (quote, false), c =>
    if c = '\\' ∧ quote = doubleQuote then some (quote, true)
    else if c = quote then none
    else some (quote, false)
  | none, c => if c = doubleQuote ∨ c = singleQuote then some (c, false) else none

/-- The depth of brackets outside strings, and the quoting, at the end of a text. -/
def bracketDepth (s : List Char) : ℤ × Quoting :=
  s.foldl (fun (depth, q) c =>
    (if q.isSome then depth
      else if c = '[' then depth + 1
      else if c = ']' then depth - 1
      else depth, q.next c)) (0, none)

def bracketsBalanced (s : List Char) : Bool :=
  bracketDepth s = (0, none)

def stripCommentFrom (q : Quoting) : List Char → List Char
  | [] => []
  | c :: cs => if q.isNone ∧ c = '#' then [] else c :: stripCommentFrom (q.next c) cs

/-- Remove a `#` comment, respecting quoted strings. -/
def stripComment (line : List Char) : List Char := stripCommentFrom none line

/-- The parts of an array, with the part read so far in reverse. -/
def splitArrayFrom (q : Quoting) (current : List Char) : List Char → List (List Char)
  | [] => [current.reverse]
  | c :: cs =>
    if q.isNone ∧ c = ',' then current.reverse :: splitArrayFrom q [] cs
    else splitArrayFrom (q.next c) (c :: current) cs

/-- Cut the inside of an array at the commas outside strings. -/
def splitArray (inner : List Char) : List (List Char) := splitArrayFrom none [] inner

/-! ### Values -/

/-- The body of a basic string with its escapes replaced. -/
def unescape (line : ℕ) : List Char → Except Error (List Char)
  | [] => .ok []
  | '\\' :: [] => .error ⟨line, "string ends in a backslash"⟩
  | '\\' :: c :: cs =>
    if c = 'n' then (unescape line cs).map ('\n' :: ·)
    else if c = 't' then (unescape line cs).map ('\t' :: ·)
    else if c = 'r' then (unescape line cs).map ('\r' :: ·)
    else if c = doubleQuote ∨ c = '\\' then (unescape line cs).map (c :: ·)
    else .error ⟨line, "unsupported escape `\\" ++ String.ofList [c] ++ "`"⟩
  | c :: cs => (unescape line cs).map (c :: ·)

/-- A text that begins with a quote, as a string. -/
def parseString (text : List Char) (line : ℕ) : Except Error String :=
  match text with
  | quote :: rest =>
    match stripSuffix [quote] rest with
    | none => .error ⟨line, "unterminated string"⟩
    | some body =>
      if quote = singleQuote then .ok (String.ofList body)
      else (unescape line body).map String.ofList
  | [] => .error ⟨line, "unterminated string"⟩

/-- An array holds strings only. -/
def elementString (line : ℕ) : Value → Except Error String
  | .str s => .ok s
  | other => .error ⟨line, "arrays may only hold strings, found a " ++ other.typeName⟩

/-- `parse_value` for arrays nested at most `depth` deep. -/
def parseValueTo (line : ℕ) : ℕ → List Char → Except Error Value
  | 0, _ => .error ⟨line, "arrays are nested too deep"⟩
  | depth + 1, text =>
    if text = "true".toList then .ok (.bool true)
    else if text = "false".toList then .ok (.bool false)
    else match text with
      | [] => .error ⟨line, "missing value"⟩
      | c :: rest =>
        if c = '[' then
          match stripSuffix [']'] rest with
          | none => .error ⟨line, "unterminated array"⟩
          | some inner =>
            (((splitArray inner).map trim).filter (· ≠ [])).mapM (fun part =>
              (parseValueTo line depth part).bind (elementString line)) |>.map .array
        else if c = doubleQuote ∨ c = singleQuote then (parseString text line).map .str
        else match parseInt64 text with
          | some n => .ok (.int n)
          | none =>
            .error ⟨line, "`" ++ String.ofList text ++ "` is not a string, integer or boolean"⟩

/-- A value. An array's parts are shorter than the array, so no text is nested too deep. -/
def parseValue (text : List Char) (line : ℕ) : Except Error Value :=
  parseValueTo line (text.length + 1) text

theorem length_trim_le (s : List Char) : (trim s).length ≤ s.length :=
  (List.rdropWhile_prefix _ _).length_le.trans (List.dropWhile_suffix _).length_le

theorem length_le_of_mem_splitArrayFrom {q : Quoting} {current cs part : List Char}
    (h : part ∈ splitArrayFrom q current cs) : part.length ≤ current.length + cs.length := by
  induction cs generalizing q current with
  | nil =>
    rw [splitArrayFrom, List.mem_singleton] at h
    simp [h]
  | cons c cs ih =>
    rw [splitArrayFrom] at h
    split_ifs at h
    · rcases List.mem_cons.mp h with rfl | h
      · simp
      · have := ih h
        simp only [List.length_nil, List.length_cons] at this ⊢
        omega
    · have := ih h
      simp only [List.length_cons] at this ⊢
      omega

/-- The parts of an array are shorter than the array. -/
theorem length_lt_of_mem_parts {rest inner part : List Char}
    (hinner : stripSuffix [']'] rest = some inner)
    (h : part ∈ ((splitArray inner).map trim).filter (· ≠ [])) : part.length < rest.length := by
  obtain ⟨hmem, -⟩ := List.mem_filter.mp h
  obtain ⟨raw, hraw, rfl⟩ := List.mem_map.mp hmem
  have htrim := length_trim_le raw
  have hle := length_le_of_mem_splitArrayFrom hraw
  rw [stripSuffix] at hinner
  split_ifs at hinner with hsuffix
  have hlen := hsuffix.length_le
  obtain rfl := Option.some.inj hinner
  simp only [List.length_nil, List.length_singleton, List.length_take] at hle hlen
  omega

private theorem mapM_congr {α β ε : Type} {f g : α → Except ε β} {l : List α}
    (h : ∀ a ∈ l, f a = g a) : l.mapM f = l.mapM g := by
  induction l with
  | nil => rfl
  | cons a l ih =>
    rw [List.mapM_cons, List.mapM_cons, h a List.mem_cons_self,
      ih fun b hb => h b (List.mem_cons_of_mem a hb)]

/-- Any depth beyond the length of the text gives the same value. -/
theorem parseValueTo_eq (line : ℕ) {d e : ℕ} {text : List Char} (hd : text.length < d)
    (he : text.length < e) : parseValueTo line d text = parseValueTo line e text := by
  induction d generalizing e text with
  | zero => omega
  | succ d ih =>
    obtain ⟨e, rfl⟩ : ∃ e', e = e' + 1 := ⟨e - 1, by omega⟩
    cases text with
    | nil => rfl
    | cons c rest =>
      simp only [List.length_cons] at hd he
      simp only [parseValueTo]
      cases hinner : stripSuffix [']'] rest with
      | none => rfl
      | some inner =>
        have hparts : (((splitArray inner).map trim).filter (· ≠ [])).mapM (fun part =>
              (parseValueTo line d part).bind (elementString line)) =
            (((splitArray inner).map trim).filter (· ≠ [])).mapM (fun part =>
              (parseValueTo line e part).bind (elementString line)) := by
          refine mapM_congr fun part hpart => ?_
          have hlt := length_lt_of_mem_parts hinner hpart
          rw [ih (e := e) (by omega) (by omega)]
        dsimp only
        rw [hparts]

/-- The recursion of `parse_value`. -/
theorem parseValue_array {rest inner : List Char} (line : ℕ)
    (hinner : stripSuffix [']'] rest = some inner) :
    parseValue ('[' :: rest) line =
      ((((splitArray inner).map trim).filter (· ≠ [])).mapM fun part =>
        (parseValue part line).bind (elementString line)).map .array := by
  have hparts : (((splitArray inner).map trim).filter (· ≠ [])).mapM (fun part =>
        (parseValueTo line ('[' :: rest).length part).bind (elementString line)) =
      (((splitArray inner).map trim).filter (· ≠ [])).mapM fun part =>
        (parseValue part line).bind (elementString line) := by
    refine mapM_congr fun part hpart => ?_
    have hlt := length_lt_of_mem_parts hinner hpart
    rw [parseValue, parseValueTo_eq line (by rw [List.length_cons]; omega) (Nat.lt_succ_self _)]
  have htrue : '[' :: rest ≠ "true".toList := nofun
  have hfalse : '[' :: rest ≠ "false".toList := nofun
  rw [parseValue, parseValueTo, if_neg htrue, if_neg hfalse, if_pos rfl, hinner]
  dsimp only
  rw [hparts]

/-! ### Lines -/

/-- An array whose brackets do not balance yet: its key, the line that set it and its text. -/
structure Pending where
  key : String
  line : ℕ
  text : List Char

/-- What the parser has read. -/
structure Parser where
  lineno : ℕ
  tables : List Table
  current : Table
  pending : Option Pending

/-- Begin a table. -/
def Parser.open (p : Parser) (name : String) : Parser :=
  { p with tables := p.tables ++ [p.current], current := ⟨name, p.lineno, []⟩ }

/-- Set a key of the current table. -/
def Parser.set (p : Parser) (key : String) (text : List Char) (line : ℕ) : Except Error Parser :=
  (parseValue (trim text) line).map fun value =>
    { p with current := { p.current with entries := p.current.entries ++ [⟨key, value, line⟩] } }

/-- A line that is neither empty nor a header. -/
def Parser.assign (p : Parser) (line : List Char) : Except Error Parser :=
  match splitOnce '=' line with
  | none => .error ⟨p.lineno, "expected `key = value`, found `" ++ String.ofList line ++ "`"⟩
  | some (key, text) =>
    let key := String.ofList (trim key)
    if key = "" then .error ⟨p.lineno, "empty key"⟩
    else if p.current.entries.any (·.key == key) then
      .error ⟨p.lineno, "`" ++ key ++ "` is set twice in the same table"⟩
    else if (trimStart text).head? = some '[' ∧ ¬bracketsBalanced text then
      .ok { p with pending := some ⟨key, p.lineno, text⟩ }
    else p.set key text p.lineno

/-- A line outside of an array. -/
def Parser.line (p : Parser) (raw : List Char) : Except Error Parser :=
  match trim (stripComment raw) with
  | [] => .ok p
  | '[' :: '[' :: rest =>
    match stripSuffix [']', ']'] rest with
    | none => .error ⟨p.lineno, "unterminated [[table]] header"⟩
    | some name => .ok (p.open (String.ofList (trim name)))
  | '[' :: rest =>
    match stripSuffix [']'] rest with
    | none => .error ⟨p.lineno, "unterminated [table] header"⟩
    | some name =>
      let name := String.ofList (trim name)
      if (p.tables ++ [p.current]).any (·.name == name) then
        .error ⟨p.lineno, "[" ++ name ++ "] appears more than once"⟩
      else .ok (p.open name)
  | line => p.assign line

/-- A line inside of an array. -/
def Parser.more (p : Parser) (q : Pending) (raw : List Char) : Except Error Parser :=
  let text := q.text ++ ' ' :: stripComment raw
  if bracketsBalanced text then { p with pending := none }.set q.key text q.line
  else .ok { p with pending := some { q with text } }

def Parser.step (p : Parser) (raw : List Char) : Except Error Parser :=
  let p := { p with lineno := p.lineno + 1 }
  match p.pending with
  | some q => p.more q raw
  | none => p.line raw

/-- The end of the text. The root table is dropped unless something was written into it. -/
def Parser.finish (p : Parser) : Except Error (List Table) :=
  match p.pending with
  | some q => .error ⟨q.line, "unterminated array"⟩
  | none => .ok ((p.tables ++ [p.current]).filter fun t => t.name ≠ "" ∨ t.entries ≠ [])

/-- Before the first line: keys before any header belong to a root table without a name. -/
def Parser.initial : Parser := ⟨0, [], ⟨"", 0, []⟩, none⟩

/-- Parse into a flat, ordered list of tables. -/
def parse (input : String) : Except Error (List Table) :=
  (lines input.toList).foldlM Parser.step .initial >>= Parser.finish

end Padwire.Toml
