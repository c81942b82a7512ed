import Mathlib.Data.List.Forall2
import Padwire.Attach.Toml
import Padwire.Lib.Except

/-!
# A configuration file as it is written

`Toml.parse` gives values and forgets where they came from. Here the same lines are read for their
outline only: which sections there are, and for each `key = value` what stands before the `=` and
what stands behind it, line by line. The outline has no errors and no values; a line that the
parser refuses is passed over.

`parse_sections` says that the tables of an accepted file are its sections, one for one and in
order, with one entry for each `key = value`.
-/

namespace Padwire.Toml

/-- A `key = value` as it is written. Comments are left out. -/
structure Source where
  line : ℕ
  /-- What stands before the `=`. -/
  keyText : List Char
  /-- What stands behind it on the same line. -/
  first : List Char
  /-- The lines an array goes on to. -/
  more : List (List Char)
  deriving DecidableEq

namespace Source

def key (src : Source) : String := String.ofList (trim src.keyText)

/-- The text of the value, in which a blank stands for the end of a line. -/
def text (src : Source) : List Char := src.first ++ src.more.flatMap (' ' :: ·)

def value (src : Source) : Except Error Value := parseValue (trim src.text) src.line

/-- The value begins like an array. -/
def opensArray (src : Source) : Bool := (trimStart src.first).head? = some '['

/-- One more line of an array. -/
def extend (src : Source) (line : List Char) : Source := { src with more := src.more ++ [line] }

/-- A further line of an array stands behind the others, after a space. -/
theorem text_extend (src : Source) (line : List Char) :
    (src.extend line).text = src.text ++ ' ' :: line := by
  simp [extend, text]

/-- Only an array goes on to further lines, and it ends where its brackets balance. -/
structure Complete (src : Source) : Prop where
  opens : src.more ≠ [] → src.opensArray
  balanced : src.opensArray → bracketsBalanced src.text

/-- A `key = value` and the entry it is read as. -/
structure Gives (src : Source) (e : Entry) : Prop where
  key : src.key = e.key
  line : src.line = e.line
  value : src.value = .ok e.value

end Source

/-- A header with what stands under it. -/
structure Section where
  name : String
  line : ℕ
  sources : List Source
  deriving DecidableEq

/-- A section and the table it is read as. -/
structure Section.Gives (sec : Section) (t : Table) : Prop where
  name : sec.name = t.name
  line : sec.line = t.line
  entries : List.Forall₂ Source.Gives sec.sources t.entries

/-- What has been found in the lines so far. -/
structure Outline where
  lineno : ℕ
  closed : List Section
  current : Section
  /-- An array whose brackets do not balance yet. -/
  pending : Option Source

namespace Outline

def header (o : Outline) (name : String) : Outline :=
  { o with closed := o.closed ++ [o.current], current := ⟨name, o.lineno, []⟩ }

def add (o : Outline) (src : Source) : Outline :=
  { o with current := { o.current with sources := o.current.sources ++ [src] } }

def assign (o : Outline) (line : List Char) : Outline :=
  match splitOnce '=' line with
  | none => o
  | some (keyText, first) =>
    let src : Source := ⟨o.lineno, keyText, first, []⟩
    if src.opensArray ∧ ¬bracketsBalanced src.text then { o with pending := some src }
    else o.add src

/-- A header, if its brackets are closed. -/
def headerOf (o : Outline) (close rest : List Char) : Outline :=
  match stripSuffix close rest with
  | none => o
  | some name => o.header (String.ofList (trim name))

def line (o : Outline) (raw : List Char) : Outline :=
  let text := trim (stripComment raw)
  if text = [] then o
  else if ['[', '['] <+: text then o.headerOf [']', ']'] (text.drop 2)
  else if ['['] <+: text then o.headerOf [']'] (text.drop 1)
  else o.assign text

def more (o : Outline) (src : Source) (raw : List Char) : Outline :=
  let src := src.extend (stripComment raw)
  if bracketsBalanced src.text then { o with pending := none }.add src
  else { o with pending := some src }

def step (o : Outline) (raw : List Char) : Outline :=
  let o := { o with lineno := o.lineno + 1 }
  match o.pending with
  | some src => o.more src raw
  | none => o.line raw

def initial : Outline := ⟨0, [], ⟨"", 0, []⟩, none⟩

/-- The sections, without the part before the first header if nothing stands there. -/
def sections (o : Outline) : List Section :=
  (o.closed ++ [o.current]).filter fun sec => sec.name ≠ "" ∨ sec.sources ≠ []

end Outline

/-- The sections of a file. -/
def sections (input : String) : List Section :=
  ((lines input.toList).foldl Outline.step .initial).sections

/-! ### The outline and the parser -/

/-- What has been found and what has been read. -/
structure Outline.Tracks (o : Outline) (p : Parser) : Prop where
  lineno : o.lineno = p.lineno
  closed : List.Forall₂ Section.Gives o.closed p.tables
  current : o.current.Gives p.current
  pending : Option.Rel (fun src q => src.key = q.key ∧ src.line = q.line ∧ src.text = q.text)
    o.pending p.pending

namespace Outline

theorem initial_tracks : initial.Tracks .initial where
  lineno := rfl
  closed := .nil
  current := ⟨rfl, rfl, .nil⟩
  pending := .none

variable {o : Outline} {p p' : Parser}

/-- A header opens a section in the outline as it does a table in the parser. -/
theorem Tracks.header (h : o.Tracks p) (name : String) : (o.header name).Tracks (p.open name) where
  lineno := h.lineno
  closed := List.rel_append h.closed (.cons h.current .nil)
  current := ⟨rfl, h.lineno, .nil⟩
  pending := h.pending

/-- A key that the parser has set goes to the section that is open. -/
theorem Tracks.add (h : o.Tracks p) {src : Source} {key : String} {text : List Char} {line : ℕ}
    (hkey : src.key = key) (htext : src.text = text) (hline : src.line = line)
    (hset : p.set key text line = .ok p') : (o.add src).Tracks p' := by
  obtain ⟨value, hvalue, rfl⟩ := map_eq_ok.mp hset
  have hgives : src.Gives ⟨key, value, line⟩ :=
    ⟨hkey, hline, by rw [Source.value, htext, hline, hvalue]⟩
  exact ⟨h.lineno, h.closed, ⟨h.current.name, h.current.line,
    List.rel_append h.current.entries (.cons hgives .nil)⟩, h.pending⟩

/-- A line with `key = value` sets the key, or opens an array in both. -/
theorem Tracks.assign (h : o.Tracks p) {line : List Char}
    (hstep : p.assign line = .ok p') : (o.assign line).Tracks p' := by
  rw [Parser.assign] at hstep
  rw [Outline.assign]
  cases hsplit : splitOnce '=' line with
  | none =>
    rw [hsplit] at hstep
    cases hstep
  | some kt =>
    obtain ⟨keyText, first⟩ := kt
    rw [hsplit] at hstep
    dsimp only at hstep ⊢
    have htext : (⟨o.lineno, keyText, first, []⟩ : Source).text = first := List.append_nil _
    rw [htext]
    split_ifs at hstep with hempty htwice harray
    · obtain rfl := Except.ok.inj hstep
      rw [if_pos (by simpa [Source.opensArray] using harray)]
      exact ⟨h.lineno, h.closed, h.current, .some ⟨rfl, h.lineno, htext⟩⟩
    · rw [if_neg (by simpa [Source.opensArray] using harray)]
      exact h.add rfl htext h.lineno hstep

/-- The outline goes along with the parser on a line outside of an array. -/
theorem Tracks.line (h : o.Tracks p) {raw : List Char} (hstep : p.line raw = .ok p') :
    (o.line raw).Tracks p' := by
  unfold Parser.line at hstep
  rw [Outline.line]
  generalize trim (stripComment raw) = text at hstep ⊢
  split at hstep
  · rw [if_pos rfl]
    exact Except.ok.inj hstep ▸ h
  · rename_i rest
    have hpre : ['[', '['] <+: '[' :: '[' :: rest := ⟨rest, rfl⟩
    rw [if_neg (List.cons_ne_nil _ _), if_pos hpre, List.drop_succ_cons, List.drop_succ_cons,
      List.drop_zero, headerOf]
    cases hname : stripSuffix [']', ']'] rest with
    | none =>
      rw [hname] at hstep
      cases hstep
    | some name =>
      rw [hname] at hstep
      exact Except.ok.inj hstep ▸ h.header _
  · rename_i rest hsingle
    have hpre : ['['] <+: '[' :: rest := ⟨rest, rfl⟩
    have hnot : ¬['[', '['] <+: '[' :: rest := by
      rintro ⟨rest', heq⟩
      exact hsingle rest' (List.cons.inj heq).2.symm
    rw [if_neg (List.cons_ne_nil _ _), if_neg hnot, if_pos hpre, List.drop_succ_cons,
      List.drop_zero, headerOf]
    cases hname : stripSuffix [']'] rest with
    | none =>
      rw [hname] at hstep
      cases hstep
    | some name =>
      rw [hname] at hstep
      dsimp only at hstep
      split_ifs at hstep
      exact Except.ok.inj hstep ▸ h.header _
  · rename_i hnil hdouble hsingle
    have hnil' : text ≠ [] := fun heq => hnil heq
    have hdouble' : ¬['[', '['] <+: text := by
      rintro ⟨rest, heq⟩
      exact hdouble rest heq.symm
    have hsingle' : ¬['['] <+: text := by
      rintro ⟨rest, heq⟩
      exact hsingle rest heq.symm
    rw [if_neg hnil', if_neg hdouble', if_neg hsingle']
    exact h.assign hstep

/-- And on a further line of an array. -/
theorem Tracks.more (h : o.Tracks p) {src : Source} {q : Pending} {raw : List Char}
    (hkey : src.key = q.key) (hline : src.line = q.line) (htext : src.text = q.text)
    (hstep : p.more q raw = .ok p') : (o.more src raw).Tracks p' := by
  rw [Parser.more] at hstep
  rw [Outline.more]
  have hmore : (src.extend (stripComment raw)).text = q.text ++ ' ' :: stripComment raw := by
    rw [Source.text_extend, htext]
  rw [hmore]
  split_ifs at hstep ⊢ with hbalanced
  · have hnone : ({ o with pending := none } : Outline).Tracks { p with pending := none } :=
      ⟨h.lineno, h.closed, h.current, .none⟩
    exact hnone.add hkey hmore hline hstep
  · obtain rfl := Except.ok.inj hstep
    exact ⟨h.lineno, h.closed, h.current, .some ⟨hkey, hline, hmore⟩⟩

theorem Tracks.step (h : o.Tracks p) {raw : List Char} (hstep : p.step raw = .ok p') :
    (o.step raw).Tracks p' := by
  have hnext : ({ o with lineno := o.lineno + 1 } : Outline).Tracks
      { p with lineno := p.lineno + 1 } :=
    ⟨congrArg (· + 1) h.lineno, h.closed, h.current, h.pending⟩
  rw [Parser.step] at hstep
  rw [Outline.step]
  dsimp only at hstep ⊢
  have hpending := h.pending
  cases hp : p.pending with
  | none =>
    rw [hp] at hpending
    cases ho : o.pending with
    | none =>
      rw [hp] at hnext hstep
      rw [ho] at hnext
      exact hnext.line hstep
    | some src =>
      rw [ho] at hpending
      cases hpending
  | some q =>
    rw [hp] at hpending
    cases ho : o.pending with
    | none =>
      rw [ho] at hpending
      cases hpending
    | some src =>
      rw [hp] at hnext hstep
      rw [ho] at hnext hpending
      cases hpending with
      | some hq => exact hnext.more hq.1 hq.2.1 hq.2.2 hstep

/-- **The outline follows the parser** through any lines that the parser accepts. -/
theorem Tracks.foldl (h : o.Tracks p) {ls : List (List Char)}
    (hfold : ls.foldlM Parser.step p = .ok p') : (ls.foldl Outline.step o).Tracks p' := by
  induction ls generalizing o p with
  | nil =>
    rw [List.foldlM_nil] at hfold
    exact Except.ok.inj hfold ▸ h
  | cons raw ls ih =>
    rw [List.foldlM_cons] at hfold
    obtain ⟨p₁, hstep, hfold⟩ := bind_eq_ok.mp hfold
    exact ih (h.step hstep) hfold

/-! ### Complete sources -/

/-- Every `key = value` that has been found is complete, and an array that is not is under way. -/
structure Sound (o : Outline) : Prop where
  found : ∀ sec ∈ o.closed ++ [o.current], ∀ src ∈ sec.sources, src.Complete
  pending : ∀ src, o.pending = some src → src.opensArray

theorem initial_sound : initial.Sound where
  found := by simp [initial]
  pending := nofun

/-- A header adds nothing to what was found. -/
theorem Sound.header (h : o.Sound) (name : String) : (o.header name).Sound where
  found sec hsec := by
    rcases List.mem_append.mp hsec with hold | hnew
    · exact h.found sec hold
    · rw [List.mem_singleton.mp hnew]
      exact fun src hsrc => nomatch hsrc
  pending := h.pending

/-- A complete `key = value` may be added. -/
theorem Sound.add (h : o.Sound) {src : Source} (hsrc : src.Complete) : (o.add src).Sound where
  found sec hsec := by
    rcases List.mem_append.mp hsec with hold | hnew
    · exact h.found sec (List.mem_append_left _ hold)
    · rw [List.mem_singleton.mp hnew]
      intro src' hsrc'
      rcases List.mem_append.mp hsrc' with hold | hnew
      · exact h.found o.current (List.mem_append_right _ List.mem_cons_self) src' hold
      · exact List.mem_singleton.mp hnew ▸ hsrc
  pending := h.pending

/-- A `key = value` is complete on its line, unless it opens an array. -/
theorem Sound.assign (h : o.Sound) (line : List Char) : (o.assign line).Sound := by
  rw [Outline.assign]
  cases splitOnce '=' line with
  | none => exact h
  | some kt =>
    dsimp only
    split_ifs with harray
    · exact ⟨h.found, fun src hsrc => Option.some.inj hsrc ▸ harray.1⟩
    · refine h.add ⟨fun hmore => absurd rfl hmore, fun hopens => ?_⟩
      by_contra hbalanced
      exact harray ⟨hopens, hbalanced⟩

theorem Sound.headerOf (h : o.Sound) (close rest : List Char) : (o.headerOf close rest).Sound := by
  rw [Outline.headerOf]
  cases stripSuffix close rest with
  | none => exact h
  | some name => exact h.header _

/-- Any line keeps an outline sound, whether the parser accepts it or not. -/
theorem Sound.line (h : o.Sound) (raw : List Char) : (o.line raw).Sound := by
  rw [Outline.line]
  split_ifs
  · exact h
  · exact h.headerOf _ _
  · exact h.headerOf _ _
  · exact h.assign _

theorem Sound.step (h : o.Sound) (raw : List Char) : (o.step raw).Sound := by
  have hnext : ({ o with lineno := o.lineno + 1 } : Outline).Sound := ⟨h.found, h.pending⟩
  unfold Outline.step
  cases hpending : o.pending with
  | none =>
    rw [hpending] at hnext
    exact hnext.line raw
  | some src =>
    have hopens := h.pending src hpending
    have hnone : ({ o with lineno := o.lineno + 1, pending := none } : Outline).Sound :=
      ⟨h.found, nofun⟩
    dsimp only
    rw [Outline.more]
    split_ifs with hbalanced
    · exact hnone.add ⟨fun _ => hopens, fun _ => hbalanced⟩
    · exact ⟨h.found, fun src' hsrc' => Option.some.inj hsrc' ▸ hopens⟩

/-- And so do all lines of a text. -/
theorem Sound.foldl (h : o.Sound) (ls : List (List Char)) : (ls.foldl Outline.step o).Sound := by
  induction ls generalizing o with
  | nil => exact h
  | cons raw ls ih => exact ih (h.step raw)

end Outline

/-- Whatever is in a file, its arrays end where their brackets balance. -/
theorem complete_of_mem_sections {input : String} {sec : Section} (hsec : sec ∈ sections input)
    {src : Source} (hsrc : src ∈ sec.sources) : src.Complete :=
  (Outline.initial_sound.foldl _).found sec (List.mem_of_mem_filter hsec) src hsrc

/-- **The tables of a file are its sections**, one for one and in order, with one entry for each
`key = value`. -/
theorem parse_sections {input : String} {tables : List Table} (h : parse input = .ok tables) :
    List.Forall₂ Section.Gives (sections input) tables := by
  obtain ⟨p, hfold, hfinish⟩ := bind_eq_ok.mp h
  have htracks := Outline.initial_tracks.foldl hfold
  rw [Parser.finish] at hfinish
  cases hpending : p.pending with
  | some q =>
    rw [hpending] at hfinish
    cases hfinish
  | none =>
    rw [hpending] at hfinish
    obtain rfl := Except.ok.inj hfinish
    refine List.rel_filter ?_ (List.rel_append htracks.closed (.cons htracks.current .nil))
    intro sec t ht
    have hempty : sec.sources = [] ↔ t.entries = [] := by
      rw [← List.length_eq_zero_iff, ht.entries.length_eq, List.length_eq_zero_iff]
    simp only [decide_eq_true_eq, ne_eq]
    rw [ht.name, hempty]

/-! ### Keys -/

namespace Parser

variable {p p' : Parser}

/-- What a line outside of an array can do. -/
theorem line_cases {raw : List Char} (h : p.line raw = .ok p') :
    p' = p ∨ (∃ name, p' = p.open name) ∨ ∃ line, p.assign line = .ok p' := by
  unfold Parser.line at h
  split at h
  · exact .inl (Except.ok.inj h).symm
  · split at h
    · cases h
    · exact .inr (.inl ⟨_, (Except.ok.inj h).symm⟩)
  · split at h
    · cases h
    · dsimp only at h
      split_ifs at h
      exact .inr (.inl ⟨_, (Except.ok.inj h).symm⟩)
  · exact .inr (.inr ⟨_, h⟩)

/-- No key is set twice in a table, the one of an array under way included. -/
structure Distinct (p : Parser) : Prop where
  keys : ∀ t ∈ p.tables ++ [p.current], (t.entries.map Entry.key).Nodup
  pending : ∀ q, p.pending = some q → q.key ∉ p.current.entries.map Entry.key

theorem initial_distinct : initial.Distinct where
  keys := by simp [initial]
  pending := nofun

/-- A new table has no keys. -/
theorem Distinct.open (h : p.Distinct) (hnone : p.pending = none) (name : String) :
    (p.open name).Distinct where
  keys t ht := by
    rcases List.mem_append.mp ht with hold | hnew
    · exact h.keys t hold
    · rw [List.mem_singleton.mp hnew]
      exact List.nodup_nil
  pending q hq := nomatch hnone.symm.trans hq

/-- A key that is not in the table yet may be set. -/
theorem Distinct.set (h : p.Distinct) {key : String} (hkey : key ∉ p.current.entries.map Entry.key)
    (hnone : p.pending = none) {text : List Char} {line : ℕ}
    (hset : p.set key text line = .ok p') : p'.Distinct := by
  obtain ⟨value, -, rfl⟩ := map_eq_ok.mp hset
  refine ⟨fun t ht => ?_, fun q hq => nomatch hnone.symm.trans hq⟩
  rcases List.mem_append.mp ht with hold | hnew
  · exact h.keys t (List.mem_append_left _ hold)
  · rw [List.mem_singleton.mp hnew]
    dsimp only
    rw [List.map_append, List.nodup_append]
    refine ⟨h.keys p.current (List.mem_append_right _ List.mem_cons_self), by simp, ?_⟩
    rintro a ha b hb rfl
    have heq : a = key := List.mem_singleton.mp hb
    exact hkey (heq ▸ ha)

/-- The parser checks for this before it sets the key of a line. -/
theorem Distinct.assign (h : p.Distinct) (hnone : p.pending = none) {line : List Char}
    (hstep : p.assign line = .ok p') : p'.Distinct := by
  rw [Parser.assign] at hstep
  split at hstep
  · cases hstep
  · dsimp only at hstep
    split_ifs at hstep with hempty htwice harray
    all_goals
      have hkey := htwice
      simp only [List.any_eq_true, beq_iff_eq, not_exists, not_and] at hkey
    · obtain rfl := Except.ok.inj hstep
      refine ⟨h.keys, fun q hq => ?_⟩
      obtain rfl := Option.some.inj hq
      simpa using hkey
    · exact h.set (by simpa using hkey) hnone hstep

/-- **No table gets a key twice.** A step keeps the keys of each table distinct. -/
theorem Distinct.step (h : p.Distinct) {raw : List Char} (hstep : p.step raw = .ok p') :
    p'.Distinct := by
  have hnext : ({ p with lineno := p.lineno + 1 } : Parser).Distinct := ⟨h.keys, h.pending⟩
  rw [Parser.step] at hstep
  dsimp only at hstep
  cases hpending : p.pending with
  | none =>
    rw [hpending] at hstep hnext
    rcases line_cases hstep with rfl | ⟨name, rfl⟩ | ⟨line, hassign⟩
    · exact hnext
    · exact hnext.open rfl name
    · exact hnext.assign rfl hassign
  | some q =>
    rw [hpending] at hstep hnext
    have hkey := hnext.pending q rfl
    simp only [Parser.more] at hstep
    split_ifs at hstep
    · have hnone : ({ p with lineno := p.lineno + 1, pending := none } : Parser).Distinct :=
        ⟨h.keys, nofun⟩
      exact hnone.set hkey rfl hstep
    · obtain rfl := Except.ok.inj hstep
      exact ⟨h.keys, fun q' hq' => Option.some.inj hq' ▸ hkey⟩

end Parser

/-- No table of an accepted file has a key twice. -/
theorem nodup_keys_of_parse {input : String} {tables : List Table} (h : parse input = .ok tables)
    {t : Table} (ht : t ∈ tables) : (t.entries.map Entry.key).Nodup := by
  obtain ⟨p, hfold, hfinish⟩ := bind_eq_ok.mp h
  have hdistinct : p.Distinct := foldlM_ok_invariant Parser.Distinct
    (fun _ _ _ hp hstep => hp.step hstep) Parser.initial_distinct hfold
  rw [Parser.finish] at hfinish
  split at hfinish
  · cases hfinish
  · obtain rfl := Except.ok.inj hfinish
    exact hdistinct.keys t (List.mem_of_mem_filter ht)

/-- What a table has for the key of one of its entries. -/
theorem get_of_mem {t : Table} (hkeys : (t.entries.map Entry.key).Nodup) {e : Entry}
    (he : e ∈ t.entries) : t.get e.key = some e.value := by
  have hfind : t.entries.find? (·.key == e.key) = some e := by
    generalize t.entries = es at hkeys he
    induction es with
    | nil => cases he
    | cons e' es ih =>
      rw [List.map_cons, List.nodup_cons] at hkeys
      rcases List.mem_cons.mp he with rfl | he
      · exact List.find?_cons_of_pos (beq_self_eq_true _)
      · have hne : e'.key ≠ e.key := fun heq => hkeys.1 (heq ▸ List.mem_map_of_mem he)
        rw [List.find?_cons_of_neg (by simpa using hne), ih hkeys.2 he]
  rw [Table.get, hfind, Option.map_some]

end Padwire.Toml
