import Padwire.Attach.Toml

/-!
# Writing a configuration file

The other direction of `Toml.parse`: a configuration together with the way it is written down.
A `Document` has its tables in order and everything that a writer is free to choose, so that
`Document.render` is a function of the document alone: comments and blank lines, white space,
whether a table is an array of tables, and for each array whether it stands on one line or has a
line for each element.

A document carries what makes it one as fields: a name has no character with a meaning of its own,
no key is set twice in a table, and `[name]` is written only where no table before it has the name.
-/

namespace Padwire.Toml

/-- The tables of a file in order, each with its keys and their values. -/
abbrev Content := List (String × List (String × Value))

/-! ### White space, comments and names -/

/-- White space within a line. -/
structure Blanks where
  text : List Char
  blank : ∀ c ∈ text, isWhitespace c = true
  line : '\n' ∉ text

/-- A line, or the rest of one, with nothing in it but white space and a comment. -/
structure Filler where
  text : List Char
  blank : ∀ c ∈ text.takeWhile (· ≠ '#'), isWhitespace c = true
  line : '\n' ∉ text

/-- The name of a table, or a key. -/
structure Name where
  text : String
  ne_nil : text.toList ≠ []
  trimmed : trim text.toList = text.toList
  plain : ∀ c ∈ text.toList, c ∉ ['=', '#', doubleQuote, singleQuote, '[', ']', '\n']

/-- Something with white space around it. -/
structure Padded (α : Type) where
  before : Blanks
  it : α
  after : Blanks

def Padded.text {α : Type} (write : α → List Char) (p : Padded α) : List Char :=
  p.before.text ++ (write p.it ++ p.after.text)

def Name.chars (n : Name) : List Char := n.text.toList

/-! ### Values -/

/-- A character of a string between double quotes. -/
def escape (c : Char) : List Char :=
  if c = '\\' then ['\\', '\\']
  else if c = doubleQuote then ['\\', doubleQuote]
  else if c = '\n' then ['\\', 'n']
  else if c = '\t' then ['\\', 't']
  else if c = '\r' then ['\\', 'r']
  else [c]

/-- A basic string. -/
def basic (s : String) : List Char := doubleQuote :: (s.toList.flatMap escape ++ [doubleQuote])

/-- A value on one line. -/
inductive Inline
  | str (s : String)
  | int (n : Int64)
  | bool (b : Bool)
  | array (cells : List (Padded String))

namespace Inline

def value : Inline → Value
  | str s => .str s
  | int n => .int n
  | bool b => .bool b
  | array cells => .array (cells.map Padded.it)

def text : Inline → List Char
  | str s => basic s
  | int n => (toString n).toList
  | bool true => "true".toList
  | bool false => "false".toList
  | array cells => '[' :: ([','].intercalate (cells.map (Padded.text basic)) ++ [']'])

end Inline

/-- The line of an element, with the lines that have no element in front of it. -/
structure Row where
  gap : List Filler
  cell : Padded String
  tail : Filler

def Row.lines (r : Row) : List (List Char) :=
  r.gap.map Filler.text ++ [r.cell.text basic ++ ',' :: r.tail.text]

/-- How a value is written. -/
inductive Form
  | inline (v : Inline)
  /-- An array with a line for each element. Something may stand behind the opening bracket, and
  before the closing one. -/
  | spread (opening : Filler) (rows : List Row) (gap : List Filler) (indent : Blanks)

namespace Form

def value : Form → Value
  | inline v => v.value
  | spread _ rows _ _ => .array (rows.map (·.cell.it))

/-- The lines of a value between what stands before it and what stands behind it. -/
def lines (before after : List Char) : Form → List (List Char)
  | inline v => [before ++ (v.text ++ after)]
  | spread opening rows gap indent =>
    (before ++ '[' :: opening.text) ::
      (rows.flatMap Row.lines ++ (gap.map Filler.text ++ [indent.text ++ ']' :: after]))

end Form

/-! ### Documents -/

/-- A `key = value`, with the lines in front of it that have none. -/
structure Setting where
  gap : List Filler
  key : Padded Name
  blanks : Blanks
  form : Form
  tail : Filler

namespace Setting

def content (s : Setting) : String × Value := (s.key.it.text, s.form.value)

def lines (s : Setting) : List (List Char) :=
  s.gap.map Filler.text ++
    s.form.lines (s.key.text Name.chars ++ '=' :: s.blanks.text) s.tail.text

end Setting

/-- A table with its header, which is `[[name]]` or `[name]`. -/
structure Block where
  gap : List Filler
  indent : Blanks
  double : Bool
  name : Padded Name
  tail : Filler
  settings : List Setting
  distinct : (settings.map (·.key.it.text)).Nodup

namespace Block

def content (b : Block) : String × List (String × Value) :=
  (b.name.it.text, b.settings.map Setting.content)

def header (b : Block) : List Char :=
  if b.double then '[' :: '[' :: (b.name.text Name.chars ++ [']', ']'])
  else '[' :: (b.name.text Name.chars ++ [']'])

def lines (b : Block) : List (List Char) :=
  b.gap.map Filler.text ++ (b.indent.text ++ (b.header ++ b.tail.text)) ::
    b.settings.flatMap Setting.lines

end Block

structure Document where
  blocks : List Block
  gap : List Filler
  /-- `[name]` stands only where no table before has the name. -/
  single : blocks.Pairwise fun b b' => b'.double = false → b.name.it.text ≠ b'.name.it.text

namespace Document

def content (doc : Document) : Content :=
  doc.blocks.map Block.content

def lines (doc : Document) : List (List Char) :=
  doc.blocks.flatMap Block.lines ++ doc.gap.map Filler.text

/-- The text of a file. -/
def render (doc : Document) : String :=
  String.ofList (doc.lines.flatMap (· ++ ['\n']))

end Document

/-- A table without its line numbers. -/
def Table.content (t : Table) : String × List (String × Value) :=
  (t.name, t.entries.map fun e => (e.key, e.value))

/-! ### Every configuration can be written -/

def Blanks.none : Blanks := ⟨[], List.forall_mem_nil _, List.not_mem_nil⟩

def Filler.none : Filler := ⟨[], List.forall_mem_nil _, List.not_mem_nil⟩

def Padded.bare {α : Type} (a : α) : Padded α := ⟨.none, a, .none⟩

/-- A value without white space, on one line. -/
def Inline.ofValue : Value → Inline
  | .str s => .str s
  | .int n => .int n
  | .bool b => .bool b
  | .array a => .array (a.map Padded.bare)

/-- Any value can be written on one line. -/
theorem Inline.value_ofValue (v : Value) : (Inline.ofValue v).value = v := by
  cases v with
  | array a =>
    rw [Inline.ofValue, Inline.value, List.map_map]
    exact congrArg Value.array (List.map_id a)
  | _ => rfl

def Setting.bare (e : Name × Value) : Setting :=
  ⟨[], .bare e.1, .none, .inline (.ofValue e.2), .none⟩

/-- What a bare setting says is the key and the value it was made of. -/
theorem Setting.content_bare (e : Name × Value) : (Setting.bare e).content = (e.1.text, e.2) :=
  congrArg (Prod.mk e.1.text) (Inline.value_ofValue e.2)

/-- A table with nothing but its entries, as one of an array of tables. -/
def Block.bare (t : Name × List (Name × Value)) (hkeys : (t.2.map (·.1.text)).Nodup) : Block where
  gap := []
  indent := .none
  double := true
  name := .bare t.1
  tail := .none
  settings := t.2.map Setting.bare
  distinct := by
    rw [List.map_map]
    exact hkeys

/-- What a bare table says is what it was made of. -/
theorem Block.content_bare {t : Name × List (Name × Value)}
    (hkeys : (t.2.map (·.1.text)).Nodup) :
    (Block.bare t hkeys).content = (t.1.text, t.2.map fun e => (e.1.text, e.2)) := by
  have hsettings : (t.2.map Setting.bare).map Setting.content =
      t.2.map fun e => (e.1.text, e.2) := by
    rw [List.map_map]
    exact List.map_congr_left fun e _ => Setting.content_bare e
  exact congrArg (Prod.mk t.1.text) hsettings

/-- Whatever the tables, the keys and the values are, there is a document of them. -/
theorem exists_document (tables : List (Name × List (Name × Value)))
    (hkeys : ∀ t ∈ tables, (t.2.map (·.1.text)).Nodup) :
    ∃ doc : Document,
      doc.content = tables.map fun t => (t.1.text, t.2.map fun e => (e.1.text, e.2)) := by
  refine ⟨⟨tables.attach.map fun t => .bare t.1 (hkeys t.1 t.2), [], ?_⟩, ?_⟩
  · refine List.pairwise_of_forall_mem_list fun b _ b' hb' hsingle => ?_
    obtain ⟨t, -, rfl⟩ := List.mem_map.mp hb'
    cases hsingle
  · rw [Document.content, List.map_map]
    conv_rhs => rw [← List.attach_map_subtype_val tables, List.map_map]
    exact List.map_congr_left fun t _ => Block.content_bare _

/-! ### Lines

Nothing that a document consists of has a line feed in it, so its lines are lines. -/

/-- A line feed in a string is written as an escape. -/
theorem escape_line (c : Char) : '\n' ∉ escape c := by
  rw [escape]
  split_ifs with _ _ hn
  · decide
  · decide
  · decide
  · decide
  · decide
  · exact fun hmem => hn (List.mem_singleton.mp hmem).symm

theorem basic_line (s : String) : '\n' ∉ basic s := by
  rw [basic, List.mem_cons, List.mem_append, List.mem_flatMap, not_or, not_or]
  exact ⟨by decide, fun ⟨c, _, hc⟩ => escape_line c hc, by decide⟩

/-- White space around something adds no line feed. -/
theorem Padded.line {α : Type} {write : α → List Char} {p : Padded α}
    (h : '\n' ∉ write p.it) : '\n' ∉ p.text write := by
  rw [Padded.text, List.mem_append, List.mem_append, not_or, not_or]
  exact ⟨p.before.line, h, p.after.line⟩

theorem Name.line (n : Name) : '\n' ∉ n.chars := fun hmem => n.plain _ hmem (by decide)

/-- Nor do the commas between the elements of an array. -/
theorem intercalate_line {parts : List (List Char)} (h : ∀ part ∈ parts, '\n' ∉ part) :
    '\n' ∉ [','].intercalate parts := by
  induction parts with
  | nil => exact List.not_mem_nil
  | cons part parts ih =>
    obtain ⟨hpart, hparts⟩ := List.forall_mem_cons.mp h
    cases parts with
    | nil =>
      rw [List.intercalate_singleton]
      exact hpart
    | cons part' parts =>
      rw [List.intercalate_cons_cons, List.mem_append, List.mem_append, not_or, not_or]
      exact ⟨⟨hpart, by decide⟩, ih hparts⟩

/-- A value on one line stays on it. -/
theorem Inline.line (v : Inline) : '\n' ∉ v.text := by
  cases v with
  | str s => exact basic_line s
  | int n =>
    intro hmem
    rcases mem_toList_toString hmem with heq | hdigit
    · exact absurd heq (by decide)
    · cases hdigit
  | bool b => cases b <;> decide
  | array cells =>
    have hcells : '\n' ∉ [','].intercalate (cells.map (Padded.text basic)) := by
      refine intercalate_line fun part hpart => ?_
      obtain ⟨cell, -, rfl⟩ := List.mem_map.mp hpart
      exact Padded.line (basic_line cell.it)
    rw [Inline.text, List.mem_cons, List.mem_append, not_or, not_or]
    exact ⟨by decide, hcells, by decide⟩

theorem gap_line {gap : List Filler} : ∀ l ∈ gap.map Filler.text, '\n' ∉ l := by
  intro l hl
  obtain ⟨f, -, rfl⟩ := List.mem_map.mp hl
  exact f.line

/-- The lines of an element are lines, the blank ones in front of it included. -/
theorem Row.line (r : Row) : ∀ l ∈ r.lines, '\n' ∉ l := by
  rw [Row.lines, List.forall_mem_append, List.forall_mem_singleton, List.mem_append, List.mem_cons,
    not_or, not_or]
  exact ⟨gap_line, Padded.line (basic_line _), by decide, r.tail.line⟩

/-- The lines of a value are lines, if what stands before it and behind it has no line feed. -/
theorem Form.line {before after : List Char} (hbefore : '\n' ∉ before) (hafter : '\n' ∉ after)
    (form : Form) : ∀ l ∈ form.lines before after, '\n' ∉ l := by
  cases form with
  | inline v =>
    rw [Form.lines, List.forall_mem_singleton, List.mem_append, List.mem_append, not_or, not_or]
    exact ⟨hbefore, v.line, hafter⟩
  | spread opening rows gap indent =>
    have hrows : ∀ l ∈ rows.flatMap Row.lines, '\n' ∉ l := by
      intro l hl
      obtain ⟨r, -, hl⟩ := List.mem_flatMap.mp hl
      exact r.line l hl
    rw [Form.lines, List.forall_mem_cons, List.forall_mem_append, List.forall_mem_append,
      List.forall_mem_singleton, List.mem_append, List.mem_append, List.mem_cons, List.mem_cons]
    simp only [not_or]
    exact ⟨⟨hbefore, by decide, opening.line⟩, hrows, gap_line, indent.line, by decide, hafter⟩

theorem Setting.line (s : Setting) : ∀ l ∈ s.lines, '\n' ∉ l := by
  have hstart : '\n' ∉ s.key.text Name.chars ++ '=' :: s.blanks.text := by
    rw [List.mem_append, List.mem_cons, not_or, not_or]
    exact ⟨Padded.line s.key.it.line, by decide, s.blanks.line⟩
  rw [Setting.lines, List.forall_mem_append]
  exact ⟨gap_line, s.form.line hstart s.tail.line⟩

/-- The header and the settings of a table are lines. -/
theorem Block.line (b : Block) : ∀ l ∈ b.lines, '\n' ∉ l := by
  have hname : '\n' ∉ b.name.text Name.chars := Padded.line b.name.it.line
  have hheader : '\n' ∉ b.header := by
    rw [Block.header]
    split_ifs
    · simpa using hname
    · simpa using hname
  have hsettings : ∀ l ∈ b.settings.flatMap Setting.lines, '\n' ∉ l := by
    intro l hl
    obtain ⟨s, -, hl⟩ := List.mem_flatMap.mp hl
    exact s.line l hl
  rw [Block.lines, List.forall_mem_append, List.forall_mem_cons, List.mem_append, List.mem_append,
    not_or, not_or]
  exact ⟨gap_line, ⟨b.indent.line, hheader, b.tail.line⟩, hsettings⟩

/-- **A document consists of lines**: none of them has a line feed in it. -/
theorem Document.line (doc : Document) : ∀ l ∈ doc.lines, '\n' ∉ l := by
  rw [Document.lines, List.forall_mem_append]
  refine ⟨fun l hl => ?_, gap_line⟩
  obtain ⟨b, -, hl⟩ := List.mem_flatMap.mp hl
  exact b.line l hl

end Padwire.Toml
