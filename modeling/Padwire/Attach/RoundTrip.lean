import Padwire.Attach.Outside

/-!
# What is written is read back

`parse_render`: the tables, keys and values of a document are what `Toml.parse` reads from its
text, in order.

The parser is followed by an abstract reader, whose state `Held` has no line numbers and no text:
the tables so far and, inside of an array that is under way, its key and its strings so far. Each
written line moves the reader by one step, `Parses`, and a document is a composition of such steps.
-/

namespace Padwire.Toml

/-! ### Arrays under way -/

/-- The text of an array whose strings so far are `ss`: each is in a part of its own, followed by a
comma, and behind the last comma there is white space. -/
def UnderWay (text : List Char) (ss : List String) : Prop :=
  ∃ (before : List Char) (parts : List (List Char)) (last : List Char),
    text = before ++ '[' :: (parts.flatMap (· ++ [',']) ++ last) ∧
      (∀ c ∈ before, isWhitespace c = true) ∧ (∀ part ∈ parts, Free special part) ∧
      parts.map trim = ss.map basic ∧ ∀ c ∈ last, isWhitespace c = true

theorem blank_cons {blanks : List Char} (h : ∀ c ∈ blanks, isWhitespace c = true) :
    ∀ c ∈ ' ' :: blanks, isWhitespace c = true :=
  List.forall_mem_cons.mpr ⟨rfl, h⟩

/-- The inside of an array that is under way. -/
theorem free_flatMap {parts : List (List Char)} (hparts : ∀ part ∈ parts, Free special part)
    {last : List Char} (hlast : ∀ c ∈ last, isWhitespace c = true) :
    Free ['[', ']'] (parts.flatMap (· ++ [',']) ++ last) := by
  refine Free.append ?_ ((free_of_blank hlast).mono (by decide))
  induction parts with
  | nil => exact .nil
  | cons part parts ih =>
    obtain ⟨hpart, hparts⟩ := List.forall_mem_cons.mp hparts
    rw [List.flatMap_cons]
    exact ((hpart.mono (by decide)).append (.singleton (by decide) (by decide))).append (ih hparts)

theorem intercalate_concat (parts : List (List Char)) (last : List Char) :
    [','].intercalate (parts ++ [last]) = parts.flatMap (· ++ [',']) ++ last := by
  induction parts with
  | nil => exact List.intercalate_singleton
  | cons part parts ih =>
    rw [List.cons_append, List.intercalate_cons_of_ne_nil (List.append_ne_nil_of_right_ne_nil _
      (List.cons_ne_nil _ _)), ih, List.flatMap_cons]
    simp only [List.append_assoc]

namespace UnderWay

variable {text : List Char} {ss : List String}

theorem opened {before : List Char} (h : ∀ c ∈ before, isWhitespace c = true) :
    UnderWay (before ++ ['[']) [] :=
  ⟨before, [], [], rfl, h, List.forall_mem_nil _, rfl, List.forall_mem_nil _⟩

/-- White space goes behind the last comma. -/
theorem blank (h : UnderWay text ss) {blanks : List Char}
    (hblanks : ∀ c ∈ blanks, isWhitespace c = true) : UnderWay (text ++ ' ' :: blanks) ss := by
  obtain ⟨before, parts, last, rfl, hbefore, hparts, hss, hlast⟩ := h
  refine ⟨before, parts, last ++ ' ' :: blanks, ?_, hbefore, hparts, hss,
    List.forall_mem_append.mpr ⟨hlast, blank_cons hblanks⟩⟩
  rw [List.append_assoc, List.cons_append, List.append_assoc]

/-- A string and a comma are one more part. -/
theorem row (h : UnderWay text ss) (cell : Padded String) {after : List Char}
    (hafter : ∀ c ∈ after, isWhitespace c = true) :
    UnderWay (text ++ ' ' :: (cell.text basic ++ ',' :: after)) (ss ++ [cell.it]) := by
  obtain ⟨before, parts, last, rfl, hbefore, hparts, hss, hlast⟩ := h
  have hstart : ∀ c ∈ last ++ ' ' :: cell.before.text, isWhitespace c = true :=
    List.forall_mem_append.mpr ⟨hlast, blank_cons cell.before.blank⟩
  have hpart : last ++ ' ' :: cell.text basic =
      (last ++ ' ' :: cell.before.text) ++ (basic cell.it ++ cell.after.text) := by
    rw [Padded.text, List.append_assoc, List.cons_append]
  refine ⟨before, parts ++ [last ++ ' ' :: cell.text basic], after, ?_, hbefore, ?_, ?_, hafter⟩
  · simp
  · rw [List.forall_mem_append, List.forall_mem_singleton, hpart]
    exact ⟨hparts, (free_of_blank hstart).append ((free_basic _).append cell.after.free)⟩
  · rw [List.map_append, List.map_append, hss, List.map_singleton, List.map_singleton, hpart,
      trim_append hstart cell.after.blank, trim_basic]

/-- The array goes on. -/
theorem not_balanced (h : UnderWay text ss) : bracketsBalanced text = false := by
  obtain ⟨before, parts, last, rfl, hbefore, hparts, -, hlast⟩ := h
  have hdepth := ((free_of_blank hbefore).mono (by decide)).depth_open (free_flatMap hparts hlast)
  rw [bracketsBalanced, hdepth]
  decide

/-- The closing bracket ends the array, which is its strings. -/
theorem close (h : UnderWay text ss) {indent after : List Char}
    (hindent : ∀ c ∈ indent, isWhitespace c = true) (hafter : ∀ c ∈ after, isWhitespace c = true) :
    bracketsBalanced (text ++ ' ' :: (indent ++ ']' :: after)) = true ∧
      ∀ line, parseValue (trim (text ++ ' ' :: (indent ++ ']' :: after))) line =
        .ok (.array ss) := by
  obtain ⟨before, parts, last, htext, hbefore, hparts, hss, hlast⟩ := h.blank hindent
  have hend : text ++ ' ' :: (indent ++ ']' :: after) =
      before ++ ('[' :: (parts.flatMap (· ++ [',']) ++ last ++ [']']) ++ after) := by
    have happend := congrArg (· ++ ']' :: after) htext
    simpa using happend
  have hbalanced := ((free_of_blank hbefore).mono (by decide)).depth_close
    (free_flatMap hparts hlast)
  have hclosed := bracketDepth_snd (before ++ '[' :: (parts.flatMap (· ++ [',']) ++ last ++ [']']))
  rw [hbalanced] at hclosed
  rw [hend]
  refine ⟨?_, fun line => ?_⟩
  · rw [bracketsBalanced, ← List.append_assoc,
      ((free_of_blank hafter).mono (by decide)).bracketDepth hclosed.symm, hbalanced]
    rfl
  · have hfree : ∀ part ∈ parts ++ [last], Free [','] part := by
      rw [List.forall_mem_append, List.forall_mem_singleton]
      exact ⟨fun part hpart => (hparts part hpart).mono (by decide),
        (free_of_blank hlast).mono (by decide)⟩
    have hstrings : ((parts ++ [last]).map trim).filter (· ≠ []) = ss.map basic := by
      have htrim : trim last = [] := trim_blank hlast
      rw [List.map_append, hss, List.filter_append, filter_map_basic, List.map_singleton, htrim]
      exact List.append_nil _
    rw [trim_append hbefore hafter, trim_brackets, ← intercalate_concat]
    exact parseValue_intercalate hfree hstrings line

end UnderWay

/-! ### The abstract reader -/

/-- What has been read: the tables, and the key and the strings of an array that is under way. -/
structure Held where
  content : Content
  array : Option (String × List String)

/-- A parser and what it has read. -/
structure Parser.Holds (p : Parser) (h : Held) : Prop where
  content : (p.tables ++ [p.current]).map Table.content = h.content
  pending : Option.Rel (fun q a => q.key = a.1 ∧ UnderWay q.text a.2) p.pending h.array

/-- The lines lead every parser from the one to the other. -/
def Parses (ls : List (List Char)) (h h' : Held) : Prop :=
  ∀ p : Parser, p.Holds h → ∃ p', (ls.map chomp).foldlM Parser.step p = .ok p' ∧ p'.Holds h'

theorem Parses.nil (h : Held) : Parses [] h h := fun p hp => ⟨p, rfl, hp⟩

theorem Parses.append {ls ls' : List (List Char)} {h h' h'' : Held} (hls : Parses ls h h')
    (hls' : Parses ls' h' h'') : Parses (ls ++ ls') h h'' := by
  intro p hp
  obtain ⟨p', hfold, hp'⟩ := hls p hp
  obtain ⟨p'', hfold', hp''⟩ := hls' p' hp'
  refine ⟨p'', ?_, hp''⟩
  rw [List.map_append, List.foldlM_append, hfold]
  exact hfold'

/-- One line outside of an array. -/
theorem parses_line {raw : List Char} {x : Content} {h : Held}
    (hline : ∀ p : Parser, p.Holds ⟨x, none⟩ → ∃ p', p.line (chomp raw) = .ok p' ∧ p'.Holds h) :
    Parses [raw] ⟨x, none⟩ h := by
  rintro ⟨lineno, tables, current, pending⟩ ⟨hcontent, hpending⟩
  cases hpending
  obtain ⟨p', hp', hholds⟩ := hline ⟨lineno + 1, tables, current, none⟩ ⟨hcontent, .none⟩
  have hstep : Parser.step ⟨lineno, tables, current, none⟩ (chomp raw) = .ok p' := hp'
  refine ⟨p', ?_, hholds⟩
  rw [List.map_singleton, List.foldlM_cons, hstep]
  rfl

/-- One line inside of an array. -/
theorem parses_more {raw : List Char} {x : Content} {key : String} {ss : List String} {h : Held}
    (hmore : ∀ (p : Parser) (line : ℕ) (text : List Char),
      (p.tables ++ [p.current]).map Table.content = x → UnderWay text ss →
        ∃ p', p.more ⟨key, line, text⟩ (chomp raw) = .ok p' ∧ p'.Holds h) :
    Parses [raw] ⟨x, some (key, ss)⟩ h := by
  rintro ⟨lineno, tables, current, pending⟩ ⟨hcontent, hpending⟩
  cases hpending with
  | @some q _ hq =>
    obtain ⟨key', line, text⟩ := q
    obtain ⟨rfl, htext⟩ := hq
    obtain ⟨p', hp', hholds⟩ :=
      hmore ⟨lineno + 1, tables, current, some ⟨_, line, text⟩⟩ line text hcontent htext
    have hstep : Parser.step ⟨lineno, tables, current, some ⟨_, line, text⟩⟩ (chomp raw) = .ok p' :=
      hp'
    refine ⟨p', ?_, hholds⟩
    rw [List.map_singleton, List.foldlM_cons, hstep]
    rfl

/-! ### Comments and blank lines -/

theorem Parser.Holds.pending_none {p : Parser} {x : Content} (h : p.Holds ⟨x, none⟩) :
    p.pending = none := by
  obtain ⟨lineno, tables, current, pending⟩ := p
  cases h.pending
  rfl

/-- A line that has nothing in it changes nothing, outside of an array and inside. -/
theorem parses_filler (f : Filler) (h : Held) : Parses [f.text] h h := by
  obtain ⟨x, array⟩ := h
  have hblank := f.stripComment_chomp
  cases array with
  | none =>
    refine parses_line fun p hp => ⟨p, ?_, hp⟩
    rw [Parser.line, trim_blank hblank]
  | some a =>
    obtain ⟨key, ss⟩ := a
    refine parses_more fun p line text hx htext => ?_
    have hmore := htext.blank hblank
    refine ⟨{ p with pending := some ⟨key, line, _⟩ }, ?_, hx, .some ⟨rfl, hmore⟩⟩
    rw [Parser.more]
    dsimp only
    rw [hmore.not_balanced, if_neg Bool.false_ne_true]

theorem parses_gap (gap : List Filler) (h : Held) : Parses (gap.map Filler.text) h h := by
  induction gap with
  | nil => exact .nil h
  | cons f gap ih => exact (parses_filler f h).append ih

/-- The line of an element. -/
theorem parses_row (r : Row) (x : Content) (key : String) (ss : List String) :
    Parses r.lines ⟨x, some (key, ss)⟩ ⟨x, some (key, ss ++ [r.cell.it])⟩ := by
  refine (parses_gap r.gap _).append (parses_more fun p line text hx htext => ?_)
  have hfree : Free special (r.cell.text basic) := (free_basic _).padded (List.Subset.refl _)
  obtain ⟨after, hafter, hline⟩ := stripComment_mark (hfree.mono (by decide)) (c := ',')
    (by decide) (by decide) r.tail
  have hrow := htext.row r.cell hafter
  rw [← hline] at hrow
  refine ⟨{ p with pending := some ⟨key, line, _⟩ }, ?_, hx, .some ⟨rfl, hrow⟩⟩
  rw [Parser.more]
  dsimp only
  rw [hrow.not_balanced, if_neg Bool.false_ne_true]

theorem parses_rows (rows : List Row) (x : Content) (key : String) (ss : List String) :
    Parses (rows.flatMap Row.lines) ⟨x, some (key, ss)⟩
      ⟨x, some (key, ss ++ rows.map (·.cell.it))⟩ := by
  induction rows generalizing ss with
  | nil =>
    rw [List.map_nil, List.append_nil]
    exact .nil _
  | cons r rows ih =>
    rw [List.map_cons, List.append_cons]
    exact (parses_row r x key ss).append (ih _)

/-! ### Lines of a setting -/

section

variable {x : Content} {n : String} {es : List (String × Value)}

theorem Parser.Holds.current {p : Parser} (hp : p.Holds ⟨x ++ [(n, es)], none⟩) :
    p.tables.map Table.content = x ∧ p.current.content = (n, es) := by
  have hcontent := hp.content
  rw [List.map_append, List.map_singleton] at hcontent
  obtain ⟨htables, hcurrent⟩ := List.append_inj' hcontent rfl
  exact ⟨htables, (List.cons.inj hcurrent).1⟩

theorem Parser.Holds.set {p : Parser} (hp : p.Holds ⟨x ++ [(n, es)], none⟩) (key : String)
    {text : List Char} {line : ℕ} {v : Value} (hv : parseValue (trim text) line = .ok v) :
    ∃ p', p.set key text line = .ok p' ∧ p'.Holds ⟨x ++ [(n, es ++ [(key, v)])], none⟩ := by
  obtain ⟨htables, hcurrent⟩ := hp.current
  obtain ⟨hname, hentries⟩ := Prod.mk.inj hcurrent
  refine ⟨{ p with
    current := { p.current with entries := p.current.entries ++ [⟨key, v, line⟩] } }, ?_, ?_,
    hp.pending⟩
  · rw [Parser.set, hv]
    rfl
  · rw [List.map_append, htables, List.map_singleton, Table.content, hname, List.map_append,
      hentries, List.map_singleton]

theorem Parser.line_assign {p : Parser} {raw cs : List Char} {c : Char}
    (h : trim (stripComment raw) = c :: cs) (hc : c ≠ '[') : p.line raw = p.assign (c :: cs) := by
  rw [Parser.line, h]
  split
  · next heq => cases heq
  · next heq => exact absurd (List.cons.inj heq).1 hc
  · next heq => exact absurd (List.cons.inj heq).1 hc
  · rfl

/-- A key is no other key of its table. -/
theorem Parser.assign_setting {p : Parser} (hp : p.Holds ⟨x ++ [(n, es)], none⟩) {key : Name}
    (hkey : key.text ∉ es.map Prod.fst) (after : Blanks) (text : List Char) :
    p.assign (key.chars ++ after.text ++ '=' :: text) =
      if (trimStart text).head? = some '[' ∧ ¬bracketsBalanced text then
        .ok { p with pending := some ⟨key.text, p.lineno, text⟩ }
      else p.set key.text text p.lineno := by
  have hequals : '=' ∉ key.chars ++ after.text := by
    rw [List.mem_append, not_or]
    refine ⟨fun hmem => key.plain _ hmem (by decide), fun hmem => ?_⟩
    exact absurd (after.blank _ hmem) (by decide)
  have htrim : trim (key.chars ++ after.text) = key.chars :=
    (trim_append_right after.blank _).trans key.trimmed
  have hname : String.ofList key.chars = key.text := String.ofList_toList
  have hempty : key.text ≠ "" := fun h => key.ne_nil (h ▸ rfl)
  have htwice : ¬p.current.entries.any (·.key == key.text) = true := by
    obtain ⟨-, hentries⟩ := Prod.mk.inj hp.current.2
    intro hany
    obtain ⟨e, he, heq⟩ := List.any_eq_true.mp hany
    refine hkey ?_
    rw [← hentries, List.map_map]
    exact List.mem_map.mpr ⟨e, he, beq_iff_eq.mp heq⟩
  rw [Parser.assign, splitOnce_append hequals]
  dsimp only
  rw [htrim, hname, if_neg hempty, if_neg htwice]

/-- The first line of a setting. -/
theorem line_setting {p : Parser} (hp : p.Holds ⟨x ++ [(n, es)], none⟩) {key : Padded Name}
    (hkey : key.it.text ∉ es.map Prod.fst) (blanks : Blanks) {v : List Char} (hv : trim v = v)
    (hne : v ≠ []) (hfree : Free ['#'] v) (f : Filler) :
    p.line (chomp (key.text Name.chars ++ '=' :: blanks.text ++ (v ++ f.text))) =
      if v.head? = some '[' ∧ ¬bracketsBalanced (blanks.text ++ v) then
        .ok { p with pending := some ⟨key.it.text, p.lineno, blanks.text ++ v⟩ }
      else p.set key.it.text (blanks.text ++ v) p.lineno := by
  have hstart : Free ['#'] (key.text Name.chars ++ '=' :: blanks.text) :=
    ((key.it.free.mono (by decide)).padded (by decide)).append
      ((Free.singleton (by decide) (by decide)).append (blanks.free.mono (by decide)))
  have hend : chomp (key.text Name.chars ++ '=' :: blanks.text ++ v) =
      key.text Name.chars ++ '=' :: blanks.text ++ v := by
    rw [chomp_append _ hne, chomp_of_trim hv]
  obtain ⟨after, hafter, hline⟩ := stripComment_line (hstart.append hfree) hend f
  have htrim : trim (stripComment
      (chomp (key.text Name.chars ++ '=' :: blanks.text ++ v ++ f.text))) =
        key.it.chars ++ (key.after.text ++ '=' :: blanks.text ++ v) := by
    have hparts : key.text Name.chars ++ '=' :: blanks.text ++ v ++ after =
        key.before.text ++
          (key.it.chars ++ (key.after.text ++ '=' :: blanks.text ++ v) ++ after) := by
      simp [Padded.text]
    rw [hline, hparts, trim_append key.before.blank hafter,
      trim_append_self (a := key.it.chars) key.it.trimmed key.it.ne_nil hv hne]
  have hassign : p.line (chomp (key.text Name.chars ++ '=' :: blanks.text ++ v ++ f.text)) =
      p.assign (key.it.chars ++ (key.after.text ++ '=' :: blanks.text ++ v)) := by
    obtain ⟨c, cs, hcs⟩ := List.exists_cons_of_ne_nil key.it.ne_nil
    have hc : c ≠ '[' := by
      rintro rfl
      exact key.it.plain _ (hcs ▸ List.mem_cons_self) (by decide)
    rw [Name.chars, hcs, List.cons_append] at htrim ⊢
    exact Parser.line_assign htrim hc
  have htext : key.it.chars ++ (key.after.text ++ '=' :: blanks.text ++ v) =
      key.it.chars ++ key.after.text ++ '=' :: (blanks.text ++ v) := by
    simp
  have hhead : (trimStart (blanks.text ++ v)).head? = v.head? := by
    rw [trimStart_append blanks.blank, trimStart_of_trim hv]
  rw [← List.append_assoc, hassign, htext, Parser.assign_setting hp hkey, hhead]

/-- A setting on one line. -/
theorem parses_inline {key : Padded Name} (hkey : key.it.text ∉ es.map Prod.fst) (blanks : Blanks)
    (v : Inline) (f : Filler) :
    Parses [key.text Name.chars ++ '=' :: blanks.text ++ (v.text ++ f.text)]
      ⟨x ++ [(n, es)], none⟩ ⟨x ++ [(n, es ++ [(key.it.text, v.value)])], none⟩ := by
  have hv := v.reads
  refine parses_line fun p hp => ?_
  have hone : ¬(v.text.head? = some '[' ∧ ¬bracketsBalanced (blanks.text ++ v.text)) := by
    rintro ⟨hhead, hbalanced⟩
    obtain ⟨inner, htext, hinner⟩ := hv.array hhead
    have hdepth := (blanks.free.mono (by decide)).depth_close hinner
    rw [bracketsBalanced, htext, hdepth] at hbalanced
    exact hbalanced rfl
  have hvalue : parseValue (trim (blanks.text ++ v.text)) p.lineno = .ok v.value := by
    rw [trim_append_left blanks.blank, hv.trimmed, hv.value]
  rw [line_setting hp hkey blanks hv.trimmed hv.ne_nil hv.free, if_neg hone]
  exact hp.set key.it.text hvalue

/-- The line on which an array begins that is spread over several lines. -/
theorem parses_opening {key : Padded Name} (hkey : key.it.text ∉ es.map Prod.fst) (blanks : Blanks)
    (opening : Filler) :
    Parses [key.text Name.chars ++ '=' :: blanks.text ++ '[' :: opening.text]
      ⟨x ++ [(n, es)], none⟩ ⟨x ++ [(n, es)], some (key.it.text, [])⟩ := by
  refine parses_line fun p hp => ?_
  have hopened : UnderWay (blanks.text ++ ['[']) [] := .opened blanks.blank
  refine ⟨_, (line_setting hp hkey blanks (v := ['[']) (by decide) (by decide)
    (.singleton (by decide) (by decide)) opening).trans (if_pos ⟨rfl, ?_⟩), hp.content,
    .some ⟨rfl, hopened⟩⟩
  rw [hopened.not_balanced]
  exact Bool.false_ne_true

/-- The line on which it ends. -/
theorem parses_closing (key : String) (ss : List String) (indent : Blanks) (f : Filler) :
    Parses [indent.text ++ ']' :: f.text] ⟨x ++ [(n, es)], some (key, ss)⟩
      ⟨x ++ [(n, es ++ [(key, .array ss)])], none⟩ := by
  refine parses_more fun p line text hx htext => ?_
  obtain ⟨after, hafter, hline⟩ := stripComment_mark (indent.free.mono (by decide)) (c := ']')
    (by decide) (by decide) f
  have hclose := htext.close indent.blank hafter
  rw [← hline] at hclose
  have hp : Parser.Holds { p with pending := none } ⟨x ++ [(n, es)], none⟩ := ⟨hx, .none⟩
  obtain ⟨p', hset, hp'⟩ := hp.set key (hclose.2 line)
  refine ⟨p', ?_, hp'⟩
  rw [Parser.more]
  dsimp only
  rw [hclose.1, if_pos rfl]
  exact hset

/-- **One setting.** -/
theorem parses_setting (s : Setting) (hkey : s.key.it.text ∉ es.map Prod.fst) :
    Parses s.lines ⟨x ++ [(n, es)], none⟩ ⟨x ++ [(n, es ++ [s.content])], none⟩ := by
  refine (parses_gap s.gap _).append ?_
  rw [Setting.content]
  cases s.form with
  | inline v => exact parses_inline hkey s.blanks v s.tail
  | spread opening rows gap indent =>
    have hopening := parses_opening (x := x) (n := n) hkey s.blanks opening
    have hrows := parses_rows rows (x ++ [(n, es)]) s.key.it.text []
    have hclosing : Parses [indent.text ++ ']' :: s.tail.text]
        ⟨x ++ [(n, es)], some (s.key.it.text, rows.map (·.cell.it))⟩
        ⟨x ++ [(n, es ++ [(s.key.it.text, .array (rows.map (·.cell.it)))])], none⟩ :=
      parses_closing _ _ indent s.tail
    exact hopening.append (hrows.append ((parses_gap gap _).append hclosing))

theorem parses_settings (settings : List Setting)
    (hkeys : (es.map Prod.fst ++ settings.map (·.key.it.text)).Nodup) :
    Parses (settings.flatMap Setting.lines) ⟨x ++ [(n, es)], none⟩
      ⟨x ++ [(n, es ++ settings.map Setting.content)], none⟩ := by
  induction settings generalizing es with
  | nil =>
    rw [List.map_nil, List.append_nil]
    exact .nil _
  | cons s settings ih =>
    have hkey : s.key.it.text ∉ es.map Prod.fst := fun hmem =>
      (List.nodup_append.mp hkeys).2.2 _ hmem _ List.mem_cons_self rfl
    have hrest : ((es ++ [s.content]).map Prod.fst ++ settings.map (·.key.it.text)).Nodup := by
      rw [List.map_append, List.append_assoc]
      exact hkeys
    have hlines := (parses_setting (x := x) (n := n) s hkey).append (ih hrest)
    rw [List.append_assoc] at hlines
    exact hlines

end

/-! ### Headers -/

theorem Parser.line_double {p : Parser} {raw name : List Char}
    (h : trim (stripComment raw) = '[' :: '[' :: (name ++ [']', ']'])) :
    p.line raw = .ok (p.open (String.ofList (trim name))) := by
  rw [Parser.line, h]
  split
  · next heq => cases heq
  · next rest heq =>
    obtain rfl := (List.cons.inj (List.cons.inj heq).2).2
    rw [stripSuffix_append]
  · next hdouble heq => exact (hdouble _ (List.cons.inj heq).2.symm).elim
  · next hdouble _ => exact (hdouble _ rfl).elim

theorem Parser.line_single {p : Parser} {raw name : List Char}
    (h : trim (stripComment raw) = '[' :: (name ++ [']'])) (hname : '[' ∉ name)
    (hnew : ∀ t ∈ p.tables ++ [p.current], t.name ≠ String.ofList (trim name)) :
    p.line raw = .ok (p.open (String.ofList (trim name))) := by
  rw [Parser.line, h]
  split
  · next heq => cases heq
  · next rest heq =>
    have hmem : '[' ∈ name ++ [']'] := (List.cons.inj heq).2 ▸ List.mem_cons_self
    rcases List.mem_append.mp hmem with hmem | hmem
    · exact absurd hmem hname
    · exact absurd hmem (by decide)
  · next rest _ heq =>
    obtain rfl := (List.cons.inj heq).2
    rw [stripSuffix_append]
    dsimp only
    rw [if_neg]
    intro hany
    obtain ⟨t, ht, heq⟩ := List.any_eq_true.mp hany
    exact hnew t ht (beq_iff_eq.mp heq)
  · next _ _ hsingle => exact (hsingle _ rfl).elim

theorem Padded.not_bracket (n : Padded Name) : '[' ∉ n.text Name.chars := by
  have hblank : ∀ b : Blanks, '[' ∉ b.text := fun b hmem => absurd (b.blank _ hmem) (by decide)
  rw [Padded.text, List.mem_append, List.mem_append, not_or, not_or]
  exact ⟨hblank n.before, fun hmem => n.it.plain _ hmem (by decide), hblank n.after⟩

theorem Block.trim_header (b : Block) : trim b.header = b.header := by
  rw [Block.header]
  split_ifs
  · exact trim_append_self (a := ['[', '[']) (b := [']', ']']) (by decide) (by decide) (by decide)
      (by decide) _
  · exact trim_brackets _

theorem Block.header_ne_nil (b : Block) : b.header ≠ [] := by
  rw [Block.header]
  split_ifs
  · exact List.cons_ne_nil _ _
  · exact List.cons_ne_nil _ _

theorem Block.free_header (b : Block) : Free ['#'] b.header := by
  have hname : Free ['#'] (b.name.text Name.chars) :=
    (b.name.it.free.mono (by decide)).padded (by decide)
  have hmark : ∀ {c : Char}, ¬IsQuote c → c ≠ '#' → Free ['#'] [c] := fun hquote hc =>
    .singleton hquote (by simpa using hc)
  have hopen := hmark (c := '[') (by decide) (by decide)
  have hclose := hmark (c := ']') (by decide) (by decide)
  rw [Block.header]
  split_ifs
  · exact hopen.append (hopen.append (hname.append (hclose.append hclose)))
  · exact hopen.append (hname.append hclose)

/-- **One header.** -/
theorem parses_header (b : Block) {x : Content}
    (hnew : b.double = false → ∀ t ∈ x, t.1 ≠ b.name.it.text) :
    Parses [b.indent.text ++ (b.header ++ b.tail.text)] ⟨x, none⟩
      ⟨x ++ [(b.name.it.text, [])], none⟩ := by
  have hend : chomp (b.indent.text ++ b.header) = b.indent.text ++ b.header := by
    rw [chomp_append _ b.header_ne_nil, chomp_of_trim b.trim_header]
  obtain ⟨after, hafter, hline⟩ :=
    stripComment_line ((b.indent.free.mono (by decide)).append b.free_header) hend b.tail
  have hraw : trim (stripComment (chomp (b.indent.text ++ (b.header ++ b.tail.text)))) =
      b.header := by
    rw [← List.append_assoc, hline, List.append_assoc, trim_append b.indent.blank hafter,
      b.trim_header]
  have hname : String.ofList (trim (b.name.text Name.chars)) = b.name.it.text := by
    rw [trim_padded, Name.chars, b.name.it.trimmed]
    exact String.ofList_toList
  refine parses_line fun p hp => ⟨p.open b.name.it.text, ?_, ?_, hp.pending⟩
  · cases hdouble : b.double with
    | true =>
      have hheader : b.header = '[' :: '[' :: (b.name.text Name.chars ++ [']', ']']) :=
        if_pos hdouble
      rw [Parser.line_double (hraw.trans hheader), hname]
    | false =>
      have hheader : b.header = '[' :: (b.name.text Name.chars ++ [']']) :=
        if_neg (by rw [hdouble]; exact Bool.false_ne_true)
      have hfresh : ∀ t ∈ p.tables ++ [p.current],
          t.name ≠ String.ofList (trim (b.name.text Name.chars)) := by
        intro t ht
        have hmem := List.mem_map_of_mem (f := Table.content) ht
        rw [hp.content] at hmem
        rw [hname]
        exact hnew hdouble _ hmem
      rw [Parser.line_single (hraw.trans hheader) b.name.not_bracket hfresh, hname]
  · have hopen : (p.open b.name.it.text).tables ++ [(p.open b.name.it.text).current] =
        p.tables ++ [p.current] ++ [⟨b.name.it.text, p.lineno, []⟩] := rfl
    rw [hopen, List.map_append, hp.content]
    rfl

/-! ### Documents -/

/-- **One table.** -/
theorem parses_block (b : Block) {x : Content}
    (hnew : b.double = false → ∀ t ∈ x, t.1 ≠ b.name.it.text) :
    Parses b.lines ⟨x, none⟩ ⟨x ++ [b.content], none⟩ := by
  have hsettings : Parses (b.settings.flatMap Setting.lines) ⟨x ++ [(b.name.it.text, [])], none⟩
      ⟨x ++ [b.content], none⟩ := parses_settings b.settings b.distinct
  exact (parses_gap b.gap _).append ((parses_header b hnew).append hsettings)

theorem parses_blocks {blocks : List Block}
    (hsingle : blocks.Pairwise fun b b' => b'.double = false → b.name.it.text ≠ b'.name.it.text)
    {x : Content} (hnew : ∀ b ∈ blocks, b.double = false → ∀ t ∈ x, t.1 ≠ b.name.it.text) :
    Parses (blocks.flatMap Block.lines) ⟨x, none⟩ ⟨x ++ blocks.map Block.content, none⟩ := by
  induction blocks generalizing x with
  | nil =>
    rw [List.map_nil, List.append_nil]
    exact .nil _
  | cons b blocks ih =>
    obtain ⟨hb, hblocks⟩ := List.pairwise_cons.mp hsingle
    obtain ⟨hfirst, hrest⟩ := List.forall_mem_cons.mp hnew
    have hnext : ∀ b' ∈ blocks, b'.double = false → ∀ t ∈ x ++ [b.content],
        t.1 ≠ b'.name.it.text := by
      intro b' hb' hdouble
      rw [List.forall_mem_append, List.forall_mem_singleton]
      exact ⟨hrest b' hb' hdouble, hb b' hb' hdouble⟩
    have hlines := (parses_block b hfirst).append (ih hblocks hnext)
    rw [List.append_assoc] at hlines
    exact hlines

/-- The root table is empty and is dropped, and no other is. -/
theorem Parser.Holds.finish {p : Parser} {tables : Content}
    (hp : p.Holds ⟨("", []) :: tables, none⟩) (hnames : ∀ t ∈ tables, t.1 ≠ "") :
    ∃ ts, p.finish = .ok ts ∧ ts.map Table.content = tables := by
  have hfinish : p.finish =
      .ok ((p.tables ++ [p.current]).filter fun t => t.name ≠ "" ∨ t.entries ≠ []) := by
    rw [Parser.finish, hp.pending_none]
  have hkept : tables.filter (fun t => t.1 ≠ "" ∨ t.2 ≠ []) = tables :=
    List.filter_eq_self.mpr fun t ht => decide_eq_true (.inl (hnames t ht))
  have hfilter : ((p.tables ++ [p.current]).filter fun t => t.name ≠ "" ∨ t.entries ≠ []).map
      Table.content =
        ((p.tables ++ [p.current]).map Table.content).filter (fun t => t.1 ≠ "" ∨ t.2 ≠ []) := by
    rw [List.filter_map]
    refine congrArg (List.map Table.content) (List.filter_congr fun t _ => ?_)
    exact decide_eq_decide.mpr (by simp [Table.content])
  refine ⟨_, hfinish, ?_⟩
  rw [hfilter, hp.content, List.filter_cons_of_neg (by decide), hkept]

/-- **Round trip.** The tables of a document, with their keys and values, are what is read from its
text, in order and whatever the strings, the comments and the white space. -/
theorem parse_render (doc : Document) :
    ∃ ts, parse doc.render = .ok ts ∧ ts.map Table.content = doc.content := by
  have hlines : lines doc.render.toList = doc.lines.map chomp := by
    rw [Document.render, String.toList_ofList, lines_flatMap doc.line]
  have hinitial : Parser.initial.Holds ⟨[("", [])], none⟩ := ⟨rfl, .none⟩
  have hname : ∀ n : Name, n.text ≠ "" := fun n h => n.ne_nil (h ▸ rfl)
  have hroot : ∀ b ∈ doc.blocks, b.double = false → ∀ t ∈ [("", ([] : List (String × Value)))],
      t.1 ≠ b.name.it.text := by
    intro b _ _
    rw [List.forall_mem_singleton]
    exact (hname b.name.it).symm
  have hblocks := parses_blocks doc.single hroot
  obtain ⟨p, hfold, hp⟩ := hblocks.append (parses_gap doc.gap _) _ hinitial
  have hnames : ∀ t ∈ doc.content, t.1 ≠ "" := by
    intro t ht
    obtain ⟨b, -, rfl⟩ := List.mem_map.mp ht
    exact hname b.name.it
  obtain ⟨ts, hfinish, hts⟩ := hp.finish hnames
  refine ⟨ts, ?_, hts⟩
  rw [parse, hlines]
  exact bind_eq_ok.mpr ⟨p, hfold, hfinish⟩

end Padwire.Toml
