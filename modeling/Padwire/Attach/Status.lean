import Padwire.Attach.Vhci
import Padwire.Lib.Numeral

/-!
# The status tables of `vhci-hcd`

What the attach daemon knows about the ports it reads from the text files of the virtual host
controller (`parse_status` and `ports` in `usbfwd-attach/src/vhci.rs`): a table with a header and a
row a port, in columns of decimal and hexadecimal numbers with zeros in front. Lines that are no
such row are passed over.

`ports_printed` is the way there and back: whatever rows the controllers print, among whatever
other lines, `ports` returns these rows and nothing else, in the order of the files.
-/

namespace Padwire.Attach

/-- A row of a status table, with all of its columns. -/
structure PortRow where
  hub : String
  port : UInt32
  status : UInt32
  speed : UInt32
  devid : UInt32
  sockfd : UInt32
  localBusid : String
  deriving DecidableEq

namespace PortRow

/-- What the daemon looks at. -/
def toPort (r : PortRow) : Port := ⟨r.port, r.status⟩

/-- `parse` of an unsigned type of 32 bits. -/
def parseU32 (radix : ℕ) (field : List Char) : Option UInt32 :=
  (parseUnsigned radix 0xffffffff field).map UInt32.ofNat

/-- One line of a table. -/
def parse (line : List Char) : Option PortRow :=
  match splitWhitespace line with
  | hub :: port :: status :: speed :: devid :: sockfd :: busid :: _ =>
    match parseU32 10 port, parseU32 10 status, parseU32 10 speed with
    | some port, some status, some speed => some {
        hub := String.ofList hub, port, status, speed
        devid := (parseU32 16 devid).getD 0
        sockfd := (parseU32 10 sockfd).getD 0
        localBusid := String.ofList busid }
    | _, _, _ => none
  | _ => none

end PortRow

def parseStatus (text : String) : List PortRow :=
  (lines text.toList).filterMap PortRow.parse

/-- The files that a read of the ports goes through. -/
def isStatusFile (name : String) : Bool :=
  name == "status" || "status.".toList.isPrefixOf name.toList

/-- Every port, from the files of a directory with their text if it can be read. -/
def ports (dir : List (String × Option String)) : List PortRow :=
  ((dir.filter fun file => isStatusFile file.1).mergeSort fun f g => f.1 ≤ g.1).flatMap
    fun file => (file.2.map parseStatus).getD []

/-! ### Words -/

theorem splitWhitespace_blanks {blanks : List Char} (h : ∀ c ∈ blanks, isWhitespace c = true)
    (s : List Char) : splitWhitespace (blanks ++ s) = splitWhitespace s := by
  induction blanks with
  | nil => rfl
  | cons c blanks ih =>
    obtain ⟨hc, hblanks⟩ := List.forall_mem_cons.mp h
    rw [← ih hblanks, List.cons_append, splitWhitespace, List.splitOnP_cons_eq_if_modifyHead,
      if_pos hc]
    rfl

/-- A run of characters without blanks. -/
structure IsWord (w : List Char) : Prop where
  ne_nil : w ≠ []
  solid : ∀ c ∈ w, isWhitespace c = false

theorem splitWhitespace_word {w : List Char} (hw : IsWord w) : splitWhitespace w = [w] := by
  rw [splitWhitespace, List.splitOnP_eq_singleton hw.solid]
  simp [hw.ne_nil]

/-- The first word of a text, and the rest behind the blank that ends it. -/
theorem splitWhitespace_cons {w : List Char} (hw : IsWord w) {blank : Char}
    (hblank : isWhitespace blank = true) (s : List Char) :
    splitWhitespace (w ++ blank :: s) = w :: splitWhitespace s := by
  rw [splitWhitespace, List.splitOnP_append_cons w s hblank, List.filter_append]
  exact congrArg (· ++ splitWhitespace s) (splitWhitespace_word hw)

theorem splitWhitespace_concat {blank : Char} (hblank : isWhitespace blank = true)
    (s : List Char) : splitWhitespace (s ++ [blank]) = splitWhitespace s := by
  rw [splitWhitespace, List.splitOnP_append_cons s [] hblank, List.filter_append,
    List.splitOnP_nil]
  exact List.append_nil _

/-- The carriage return that a line may end with makes no difference to its words. -/
theorem splitWhitespace_chomp (s : List Char) :
    splitWhitespace (chomp s) = splitWhitespace s := by
  rcases List.eq_nil_or_concat s with rfl | ⟨l, c, rfl⟩
  · rfl
  · rw [List.concat_eq_append, chomp_concat]
    split_ifs with hc
    · rw [hc, splitWhitespace_concat (by decide)]
    · rfl

theorem isWord_padded {radix : ℕ} (hradix : 1 < radix) (hmax : radix ≤ 16) (width n : ℕ) :
    IsWord (padded radix width n) where
  ne_nil := List.append_ne_nil_of_right_ne_nil _ Nat.toDigits_ne_nil
  solid := forall_mem_padded hradix hmax (by decide) width n

/-! ### Tables as they are printed -/

namespace PortRow

/-- A row as the controller prints it. -/
def print (r : PortRow) : List Char :=
  r.hub.toList ++ ' ' :: ' ' :: (padded 10 4 r.port.toNat ++ ' ' ::
    (padded 10 3 r.status.toNat ++ ' ' :: (padded 10 3 r.speed.toNat ++ ' ' ::
      (padded 16 8 r.devid.toNat ++ ' ' :: (padded 10 6 r.sockfd.toNat ++ ' ' ::
        r.localBusid.toList)))))

theorem parseU32_padded {radix : ℕ} (hradix : 1 < radix) (hmax : radix ≤ 16) (width : ℕ)
    (n : UInt32) : parseU32 radix (padded radix width n.toNat) = some n := by
  rw [parseU32, parseUnsigned_padded hradix hmax width (Nat.le_of_lt_succ n.toNat_lt),
    Option.map_some, UInt32.ofNat_toNat]

/-- **A row is read as it was printed**, if its names are words. -/
theorem parse_print {r : PortRow} (hhub : IsWord r.hub.toList)
    (hbusid : IsWord r.localBusid.toList) : parse r.print = some r := by
  have hwords : splitWhitespace r.print = [r.hub.toList, padded 10 4 r.port.toNat,
      padded 10 3 r.status.toNat, padded 10 3 r.speed.toNat, padded 16 8 r.devid.toNat,
      padded 10 6 r.sockfd.toNat, r.localBusid.toList] := by
    have hdec : ∀ width n, IsWord (padded 10 width n) := isWord_padded (by decide) (by decide)
    have hhex : ∀ width n, IsWord (padded 16 width n) := isWord_padded (by decide) (by decide)
    have hblank : isWhitespace ' ' = true := by decide
    have hpad : ∀ s, splitWhitespace (' ' :: s) = splitWhitespace s := fun s =>
      splitWhitespace_blanks (List.forall_mem_singleton.mpr hblank) s
    rw [print, splitWhitespace_cons hhub hblank, hpad, splitWhitespace_cons (hdec _ _) hblank,
      splitWhitespace_cons (hdec _ _) hblank, splitWhitespace_cons (hdec _ _) hblank,
      splitWhitespace_cons (hhex _ _) hblank, splitWhitespace_cons (hdec _ _) hblank,
      splitWhitespace_word hbusid]
  have hdec : ∀ width (n : UInt32), parseU32 10 (padded 10 width n.toNat) = some n :=
    parseU32_padded (by decide) (by decide)
  have hhex : ∀ width (n : UInt32), parseU32 16 (padded 16 width n.toNat) = some n :=
    parseU32_padded (by decide) (by decide)
  rw [parse, hwords]
  simp only [hdec, hhex, Option.getD_some, String.ofList_toList]

/-- What is passed over: a line of less than seven words, or with a word for the port, the status
or the speed that is no number. -/
def Skipped (text : List Char) : Prop :=
  (splitWhitespace text).length < 7 ∨
    ∃ i ∈ [1, 2, 3], (splitWhitespace text)[i]?.bind (parseU32 10) = none

theorem parse_of_skipped {text : List Char} (h : Skipped text) : parse text = none := by
  rw [parse]
  split
  · next hub port status speed devid sockfd busid more hwords =>
    rw [Skipped, hwords] at h
    rcases h with hlen | ⟨i, hi, hnone⟩
    · simp only [List.length_cons] at hlen
      omega
    · simp only [List.mem_cons, List.not_mem_nil, or_false] at hi
      rcases hi with rfl | rfl | rfl
      · have hport : parseU32 10 port = none := hnone
        rw [hport]
      · have hstatus : parseU32 10 status = none := hnone
        rw [hstatus]
        cases parseU32 10 port <;> rfl
      · have hspeed : parseU32 10 speed = none := hnone
        rw [hspeed]
        cases parseU32 10 port <;> cases parseU32 10 status <;> rfl
  · rfl

end PortRow

/-- A line of a status file: a row of a table, or anything that is passed over. -/
inductive StatusLine
  | row (r : PortRow) (hub : IsWord r.hub.toList) (busid : IsWord r.localBusid.toList)
  | other (text : List Char) (line : '\n' ∉ text) (skipped : PortRow.Skipped text)

namespace StatusLine

def text : StatusLine → List Char
  | row r _ _ => r.print
  | other text _ _ => text

def row? : StatusLine → Option PortRow
  | row r _ _ => some r
  | other _ _ _ => none

/-- The text of a file. -/
def file (ls : List StatusLine) : String :=
  String.ofList ((ls.map text).flatMap (· ++ ['\n']))

theorem not_mem_text (l : StatusLine) : '\n' ∉ l.text := by
  cases l with
  | other text line skipped => exact line
  | row r hub busid =>
    have hword : ∀ {w : List Char}, IsWord w → '\n' ∉ w := fun hw hmem => by
      have hsolid := hw.solid _ hmem
      cases hsolid
    have hdec : ∀ width n, '\n' ∉ padded 10 width n := fun width n =>
      hword (isWord_padded (by decide) (by decide) width n)
    have hhex : ∀ width n, '\n' ∉ padded 16 width n := fun width n =>
      hword (isWord_padded (by decide) (by decide) width n)
    simp only [text, PortRow.print, List.mem_append, List.mem_cons, hword hub, hword busid, hdec,
      hhex, or_false, false_or]
    decide

theorem parse_text (l : StatusLine) : PortRow.parse l.text = l.row? := by
  cases l with
  | row r hub busid => exact PortRow.parse_print hub busid
  | other text line skipped => exact PortRow.parse_of_skipped skipped

/-- A table is read to the rows in it. -/
theorem parseStatus_file (ls : List StatusLine) : parseStatus (file ls) = ls.filterMap row? := by
  have hlines : ∀ l ∈ ls.map text, '\n' ∉ l := by
    rw [List.forall_mem_map]
    exact fun l _ => l.not_mem_text
  have hparse : ∀ l : StatusLine, PortRow.parse (chomp l.text) = l.row? := by
    intro l
    have hwords := splitWhitespace_chomp l.text
    rw [← l.parse_text, PortRow.parse, PortRow.parse, hwords]
  rw [parseStatus, file, String.toList_ofList, lines_flatMap hlines, List.map_map,
    List.filterMap_map]
  exact List.filterMap_congr fun l _ => hparse l

end StatusLine

/-- **The ports are read as they were printed.** Take the files of a directory, each of which
cannot be read or is lines of a status table. A read of the ports returns the rows of the tables
that are in files called `status` or `status.` and something, in the order of the names of the
files, and of each file in the order of its lines; headers and other lines are passed over. -/
theorem ports_printed (dir : List (String × Option (List StatusLine))) :
    ports (dir.map fun f => (f.1, f.2.map StatusLine.file)) =
      ((dir.filter fun f => isStatusFile f.1).mergeSort fun f g => f.1 ≤ g.1).flatMap
        fun f => (f.2.getD []).filterMap StatusLine.row? := by
  have hsort : ((dir.filter fun f => isStatusFile f.1).map
        fun f => (f.1, f.2.map StatusLine.file)).mergeSort (fun f g => f.1 ≤ g.1) =
      ((dir.filter fun f => isStatusFile f.1).mergeSort fun f g => f.1 ≤ g.1).map
        fun f => (f.1, f.2.map StatusLine.file) := by
    refine (List.map_mergeSort ?_).symm
    exact fun _ _ _ _ => rfl
  rw [ports, List.filter_map]
  simp only [Function.comp_def]
  rw [hsort, List.flatMap_map]
  refine List.flatMap_congr fun f _ => ?_
  cases hf : f.2 with
  | none => rfl
  | some ls => exact StatusLine.parseStatus_file ls

/-- The snapshot that the daemon goes by, if the rows are of different ports. -/
def Snapshot.ofRows (rows : List PortRow) (h : (rows.map PortRow.port).Nodup) : Snapshot where
  ports := rows.map PortRow.toPort
  nodup := by rwa [List.map_map]

/-- Its ports in use are those of the rows that are not free, in their order. -/
theorem occupiedPorts_ofRows {rows : List PortRow} (h : (rows.map PortRow.port).Nodup) :
    occupiedPorts (some (Snapshot.ofRows rows h)) =
      (rows.filter fun r => r.status != VDEV_ST_NULL).map PortRow.port := by
  rw [occupiedPorts, Snapshot.ofRows, List.filter_map, List.map_map]
  rfl

end Padwire.Attach
