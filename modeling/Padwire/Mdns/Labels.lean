import Padwire.Mdns.Name

/-!
# Which names are read as they are written

`encode_name` changes a name: an empty label is dropped, and of a long one 63 bytes are sent, so
that a character may be cut in two and comes out as U+FFFD. Reading and writing once more changes
nothing (`received_received`). A name is read as it was written exactly if each of its labels is
`Kept`, and the case of its letters makes no difference for that
(`toAsciiLowercase_received_iff`).
-/

namespace Padwire.Mdns

/-- What is read of a label. -/
def receivedLabel (label : List Char) : List Char := fromUtf8Lossy (sentLabel label)

/-- The label is sent as it is: it is not empty and has at most 63 bytes, or what is cut off is the
end of a U+FFFD, which is read again from what is left of it. -/
def Kept (label : List Char) : Prop :=
  label ≠ [] ∧ ((encodeUtf8 label).length ≤ 63 ∨
    (encodeUtf8 label).length ≤ 65 ∧ label.getLast? = some replacementChar)

instance (label : List Char) : Decidable (Kept label) :=
  inferInstanceAs (Decidable (_ ∧ _))

/-! ### One label -/

theorem receivedLabel_of_le {label : List Char} (h : (encodeUtf8 label).length ≤ 63) :
    receivedLabel label = label := by
  rw [receivedLabel, sentLabel, List.take_of_length_le h, fromUtf8Lossy_encodeUtf8]

theorem receivedLabel_ne_nil {label : List Char} (h : label ≠ []) : receivedLabel label ≠ [] :=
  fromUtf8Lossy_ne_nil (sentLabel_ne_nil h)

theorem encodeUtf8_append (cs ds : List Char) :
    encodeUtf8 (cs ++ ds) = encodeUtf8 cs ++ encodeUtf8 ds :=
  List.flatMap_append

theorem length_encodeUtf8_singleton (c : Char) : (encodeUtf8 [c]).length = c.utf8Size := by
  rw [encodeUtf8, List.flatMap_singleton, String.length_utf8EncodeChar]

/-- What becomes of a label: it is sent whole, or it is cut off between two characters, or in
the middle of one. -/
theorem receivedLabel_cases (label : List Char) :
    (encodeUtf8 label).length ≤ 63 ∧ receivedLabel label = label ∨
      ∃ pre c rest, label = pre ++ c :: rest ∧
        ((encodeUtf8 pre).length = 63 ∧ receivedLabel label = pre ∨
          (encodeUtf8 pre).length < 63 ∧ 63 < (encodeUtf8 pre).length + c.utf8Size ∧
            receivedLabel label = pre ++ [replacementChar]) := by
  rcases exists_cut label 63 with hle | ⟨pre, c, rest, rfl, hle, hlt⟩
  · exact .inl ⟨hle, receivedLabel_of_le hle⟩
  · refine .inr ⟨pre, c, rest, rfl, ?_⟩
    rw [receivedLabel, sentLabel, fromUtf8Lossy_cut hle hlt]
    split_ifs with heq
    · exact .inl ⟨heq, rfl⟩
    · exact .inr ⟨by omega, hlt, rfl⟩

theorem utf8Size_replacementChar : replacementChar.utf8Size = 3 := rfl

/-- A label that was cut in the middle of a character is cut there again. -/
theorem receivedLabel_append_replacementChar {pre : List Char}
    (hlt : (encodeUtf8 pre).length < 63) :
    receivedLabel (pre ++ [replacementChar]) = pre ++ [replacementChar] := by
  by_cases hle : (encodeUtf8 (pre ++ [replacementChar])).length ≤ 63
  · exact receivedLabel_of_le hle
  · rw [encodeUtf8_append, List.length_append, length_encodeUtf8_singleton] at hle
    rw [receivedLabel, sentLabel, fromUtf8Lossy_cut hlt.le (by omega), if_neg hlt.ne]

theorem receivedLabel_receivedLabel (label : List Char) :
    receivedLabel (receivedLabel label) = receivedLabel label := by
  rcases receivedLabel_cases label with
    ⟨-, heq⟩ | ⟨pre, c, rest, -, ⟨hlen, heq⟩ | ⟨hlt, -, heq⟩⟩
  · rw [heq, heq]
  · rw [heq, receivedLabel_of_le hlen.le]
  · rw [heq, receivedLabel_append_replacementChar hlt]

/-- A long label is only `Kept` if the cut is in its last character. -/
theorem eq_of_kept {pre rest : List Char} {c : Char}
    (hcut : 63 < (encodeUtf8 pre).length + c.utf8Size) (h : Kept (pre ++ c :: rest)) :
    rest = [] ∧ c = replacementChar ∧ (encodeUtf8 pre).length ≤ 62 := by
  have hlen : ∀ ds, (encodeUtf8 (pre ++ c :: ds)).length =
      (encodeUtf8 pre).length + c.utf8Size + (encodeUtf8 ds).length := by
    intro ds
    rw [List.append_cons, encodeUtf8_append, encodeUtf8_append, List.length_append,
      List.length_append, length_encodeUtf8_singleton]
  obtain ⟨-, hle | ⟨hle, hlast⟩⟩ := h
  · rw [hlen] at hle
    omega
  rcases List.eq_nil_or_concat' rest with rfl | ⟨rest, d, rfl⟩
  · rw [List.getLast?_concat, Option.some.injEq] at hlast
    rw [hlen, hlast, utf8Size_replacementChar] at hle
    exact ⟨rfl, hlast, by omega⟩
  · rw [← List.cons_append, ← List.append_assoc, List.getLast?_concat, Option.some.injEq] at hlast
    rw [hlen, encodeUtf8_append, List.length_append, length_encodeUtf8_singleton, hlast,
      utf8Size_replacementChar] at hle
    omega

/-- Only a label that is `Kept` is read as it was written, up to the case of its letters. -/
theorem toAsciiLowercase_receivedLabel_iff {label : List Char} (hne : label ≠ []) :
    toAsciiLowercase (receivedLabel label) = toAsciiLowercase label ↔ Kept label := by
  rcases receivedLabel_cases label with
    ⟨hle, heq⟩ | ⟨pre, c, rest, rfl, ⟨hlen, heq⟩ | ⟨hlt, hcut, heq⟩⟩
  · exact iff_of_true (by rw [heq]) ⟨hne, .inl hle⟩
  · -- cut off between two characters
    have hpos := c.utf8Size_pos
    refine iff_of_false ?_ ?_
    · intro h
      have hlength := congrArg List.length h
      rw [heq, toAsciiLowercase, toAsciiLowercase, List.length_map, List.length_map,
        List.length_append, List.length_cons] at hlength
      omega
    · intro h
      have hle := (eq_of_kept (by omega) h).2.2
      omega
  · -- cut in the middle of `c`
    rw [heq, toAsciiLowercase, toAsciiLowercase, List.map_append, List.map_append,
      List.append_cancel_left_eq]
    constructor
    · intro h
      obtain ⟨hc, hrest⟩ := List.cons.inj h
      have hlower : replacementChar.toLower = replacementChar := rfl
      rw [hlower] at hc
      obtain rfl := eq_of_toLower_eq hc.symm rfl
      obtain rfl := List.map_eq_nil_iff.mp hrest.symm
      refine ⟨hne, .inr ⟨?_, List.getLast?_concat⟩⟩
      rw [encodeUtf8_append, List.length_append, length_encodeUtf8_singleton,
        utf8Size_replacementChar]
      omega
    · intro h
      obtain ⟨rfl, rfl, -⟩ := eq_of_kept hcut h
      rfl

theorem receivedLabel_of_kept {label : List Char} (h : Kept label) :
    receivedLabel label = label := by
  rcases receivedLabel_cases label with
    ⟨-, heq⟩ | ⟨pre, c, rest, rfl, ⟨hlen, heq⟩ | ⟨hlt, hcut, heq⟩⟩
  · exact heq
  · have hpos := c.utf8Size_pos
    have hle := (eq_of_kept (by omega) h).2.2
    omega
  · obtain ⟨rfl, rfl, -⟩ := eq_of_kept hcut h
    exact heq

/-! ### Whole names -/

/-- What stands between the dots of a name. -/
def pieces (name : String) : List (List Char) := name.toList.splitOn '.'

theorem intercalate_pieces (name : String) : ['.'].intercalate (pieces name) = name.toList :=
  List.intercalate_splitOn '.'

theorem dot_not_mem_of_mem_splitOn {s piece : List Char} (h : piece ∈ s.splitOn '.') :
    '.' ∉ piece := by
  intro hmem
  rw [List.splitOn_eq_splitOnP] at h
  exact absurd (not_sep_of_mem_splitOnP h '.' hmem) (by decide)

theorem dot_not_mem_receivedLabel {label : List Char} (h : '.' ∉ label) :
    '.' ∉ receivedLabel label := by
  rcases receivedLabel_cases label with
    ⟨-, heq⟩ | ⟨pre, c, rest, rfl, ⟨-, heq⟩ | ⟨-, -, heq⟩⟩
  · rwa [heq]
  · rw [heq]
    exact fun hmem => h (List.mem_append_left _ hmem)
  · rw [heq, List.mem_append, List.mem_singleton]
    rintro (hmem | hdot)
    · exact h (List.mem_append_left _ hmem)
    · cases hdot

theorem pushLabel_of_ne {out : String} (h : out ≠ "") (l : Bytes) :
    (pushLabel out l).toList = out.toList ++ '.' :: fromUtf8Lossy l := by
  rw [pushLabel, if_neg (by simpa using h), String.toList_append, String.toList_push,
    String.toList_ofList, List.append_assoc]
  rfl

theorem toList_foldl_pushLabel {out : String} (h : out ≠ "") (ls : List Bytes) :
    (ls.foldl pushLabel out).toList =
      ['.'].intercalate (out.toList :: ls.map fromUtf8Lossy) := by
  induction ls generalizing out with
  | nil => exact List.intercalate_singleton.symm
  | cons l ls ih =>
    have hpush := pushLabel_of_ne h l
    have hne : pushLabel out l ≠ "" := by
      intro hempty
      rw [hempty] at hpush
      exact absurd hpush.symm (List.append_ne_nil_of_right_ne_nil _ (List.cons_ne_nil _ _))
    rw [List.foldl_cons, ih hne, hpush, List.map_cons]
    cases ls with
    | nil =>
      rw [List.map_nil, List.intercalate_singleton, List.intercalate_cons_cons,
        List.intercalate_singleton, List.append_assoc]
      rfl
    | cons l' ls =>
      rw [List.map_cons, List.intercalate_cons_cons, List.intercalate_cons_cons,
        List.intercalate_cons_cons]
      simp only [List.append_assoc, List.cons_append, List.nil_append]

/-- Labels that are not empty are joined by dots. -/
theorem toList_foldl_pushLabel_empty {ls : List Bytes} (hne : ∀ l ∈ ls, l ≠ []) :
    (ls.foldl pushLabel "").toList = ['.'].intercalate (ls.map fromUtf8Lossy) := by
  cases ls with
  | nil => rfl
  | cons l ls =>
    have hlist : (pushLabel "" l).toList = fromUtf8Lossy l := by
      rw [pushLabel, if_pos (by decide), String.toList_append]
      exact String.toList_ofList
    have hout : pushLabel "" l ≠ "" := by
      intro hempty
      rw [hempty] at hlist
      exact fromUtf8Lossy_ne_nil (hne l List.mem_cons_self) hlist.symm
    rw [List.foldl_cons, toList_foldl_pushLabel hout, hlist, List.map_cons]

/-- What is read is made of what is read of the labels. -/
theorem toList_received (name : String) :
    (received name).toList = ['.'].intercalate ((labels name).map receivedLabel) := by
  have hmap (ls : List (List Char)) :
      ls.map receivedLabel = (ls.map sentLabel).map fromUtf8Lossy := List.map_map.symm
  rw [received, hmap]
  exact toList_foldl_pushLabel_empty fun l hl => (sent_of_mem_labels l hl).1

/-- The labels of what is read, for a name that has any. -/
theorem pieces_received {name : String} (hne : labels name ≠ []) :
    pieces (received name) = (labels name).map receivedLabel := by
  have hdot : ∀ l ∈ (labels name).map receivedLabel, '.' ∉ l := by
    intro l hl
    obtain ⟨label, hlabel, rfl⟩ := List.mem_map.mp hl
    exact dot_not_mem_receivedLabel (dot_not_mem_of_mem_splitOn (List.mem_filter.mp hlabel).1)
  rw [pieces, toList_received, List.splitOn_intercalate _ hdot (by simpa using hne)]

theorem labels_received (name : String) :
    labels (received name) = (labels name).map receivedLabel := by
  by_cases hne : labels name = []
  · rw [received, hne]
    rfl
  · have hpieces := pieces_received hne
    rw [pieces] at hpieces
    rw [labels, hpieces, List.filter_eq_self]
    intro l hl
    obtain ⟨label, hlabel, rfl⟩ := List.mem_map.mp hl
    have hlabel := of_decide_eq_true (List.mem_filter.mp hlabel).2
    exact decide_eq_true (receivedLabel_ne_nil hlabel)

/-- **What was read once is read again as it is.** -/
theorem received_received (name : String) : received (received name) = received name := by
  have hmap : (labels (received name)).map receivedLabel = (labels name).map receivedLabel := by
    rw [labels_received, List.map_map]
    exact List.map_congr_left fun label _ => receivedLabel_receivedLabel label
  have hlist := toList_received (received name)
  rw [hmap, ← toList_received] at hlist
  exact String.toList_injective hlist

/-- Every label of the name is `Kept`. -/
def KeptName (name : String) : Prop := ∀ piece ∈ pieces name, Kept piece

instance (name : String) : Decidable (KeptName name) :=
  inferInstanceAs (Decidable (∀ piece ∈ pieces name, Kept piece))

theorem labels_of_keptName {name : String} (h : KeptName name) : labels name = pieces name := by
  rw [labels, pieces, List.filter_eq_self]
  exact fun l hl => decide_eq_true (h l hl).1

/-- A name whose labels are all `Kept` is read as it was written. -/
theorem received_of_keptName {name : String} (h : KeptName name) : received name = name := by
  have hmap : (labels name).map receivedLabel = pieces name := by
    rw [labels_of_keptName h]
    exact (List.map_congr_left fun label hl => receivedLabel_of_kept (h label hl)).trans
      (List.map_id _)
  have hlist := toList_received name
  rw [hmap, intercalate_pieces] at hlist
  exact String.toList_injective hlist

/-- The name consists of labels of at most 63 bytes, none of them empty. -/
def Labelled (name : String) : Prop :=
  ∀ piece ∈ pieces name, piece ≠ [] ∧ (encodeUtf8 piece).length ≤ 63

instance (name : String) : Decidable (Labelled name) :=
  inferInstanceAs (Decidable (∀ piece ∈ pieces name, _))

theorem Labelled.keptName {name : String} (h : Labelled name) : KeptName name :=
  fun piece hpiece => ⟨(h piece hpiece).1, .inl (h piece hpiece).2⟩

/-! ### Names put together -/

variable {name a b : String}

theorem pieces_of_append (h : name.toList = a.toList ++ '.' :: b.toList) :
    pieces name = pieces a ++ pieces b := by
  rw [pieces, h, List.splitOn_append_cons_self]
  rfl

theorem keptName_of_append (h : name.toList = a.toList ++ '.' :: b.toList) :
    KeptName name ↔ KeptName a ∧ KeptName b := by
  rw [KeptName, pieces_of_append h, List.forall_mem_append]
  rfl

theorem labels_of_append (h : name.toList = a.toList ++ '.' :: b.toList) :
    labels name = labels a ++ labels b := by
  have hpieces := pieces_of_append h
  rw [pieces] at hpieces
  rw [labels, hpieces, List.filter_append]
  rfl

theorem length_encodeName_of_append (h : name.toList = a.toList ++ '.' :: b.toList) :
    (encodeName name).length + 1 = (encodeName a).length + (encodeName b).length := by
  rw [encodeName, encodeName, encodeName, labels_of_append h, List.flatMap_append,
    List.length_append, List.length_append, List.length_append, List.length_append,
    List.length_singleton]
  omega

/-! ### The case of the letters -/

theorem toAsciiLowercase_intercalate (ls : List (List Char)) :
    toAsciiLowercase (['.'].intercalate ls) = ['.'].intercalate (ls.map toAsciiLowercase) := by
  induction ls with
  | nil => rfl
  | cons l ls ih =>
    cases ls with
    | nil => rw [List.map_singleton, List.intercalate_singleton, List.intercalate_singleton]
    | cons l' ls =>
      rw [List.map_cons, List.map_cons, List.intercalate_cons_cons, List.intercalate_cons_cons,
        ← List.map_cons, ← ih, toAsciiLowercase, List.map_append, List.map_append]
      rfl

theorem dot_not_mem_toAsciiLowercase {l : List Char} (h : '.' ∉ l) : '.' ∉ toAsciiLowercase l := by
  intro hmem
  obtain ⟨c, hc, hlower⟩ := List.mem_map.mp hmem
  exact h (eq_of_toLower_eq hlower rfl ▸ hc)

/-- Two texts that are the same but for the case of their letters have the same pieces. -/
theorem map_toAsciiLowercase_inj {xs ys : List (List Char)} (hx : xs ≠ []) (hy : ys ≠ [])
    (hxdot : ∀ l ∈ xs, '.' ∉ l) (hydot : ∀ l ∈ ys, '.' ∉ l)
    (h : toAsciiLowercase (['.'].intercalate xs) = toAsciiLowercase (['.'].intercalate ys)) :
    xs.map toAsciiLowercase = ys.map toAsciiLowercase := by
  have hsplit : ∀ {zs : List (List Char)}, zs ≠ [] → (∀ l ∈ zs, '.' ∉ l) →
      (toAsciiLowercase (['.'].intercalate zs)).splitOn '.' = zs.map toAsciiLowercase := by
    intro zs hne hdot
    rw [toAsciiLowercase_intercalate, List.splitOn_intercalate]
    · intro l hl
      obtain ⟨l₀, hl₀, rfl⟩ := List.mem_map.mp hl
      exact dot_not_mem_toAsciiLowercase (hdot l₀ hl₀)
    · simpa using hne
  rw [← hsplit hx hxdot, ← hsplit hy hydot, h]

/-- **A name is read as it was written**, up to the case of its letters, exactly if all its labels
are `Kept`. -/
theorem toAsciiLowercase_received_iff {name : String} (hne : labels name ≠ []) :
    toAsciiLowercase (received name).toList = toAsciiLowercase name.toList ↔ KeptName name := by
  constructor
  · intro h
    rw [← intercalate_pieces (received name), ← intercalate_pieces name] at h
    have hmap : (pieces (received name)).map toAsciiLowercase =
        (pieces name).map toAsciiLowercase :=
      map_toAsciiLowercase_inj (List.splitOn_ne_nil _ _) (List.splitOn_ne_nil _ _)
        (fun l hl => dot_not_mem_of_mem_splitOn hl) (fun l hl => dot_not_mem_of_mem_splitOn hl) h
    rw [pieces_received hne] at hmap
    -- no label is dropped, since there are as many as there are pieces
    have hlength := congrArg List.length hmap
    rw [List.length_map, List.length_map, List.length_map] at hlength
    have hlabels : labels name = pieces name := List.filter_sublist.eq_of_length hlength
    rw [hlabels, List.map_map] at hmap
    intro piece hpiece
    have hnil : piece ≠ [] := by
      rw [← hlabels] at hpiece
      exact of_decide_eq_true (List.mem_filter.mp hpiece).2
    exact (toAsciiLowercase_receivedLabel_iff hnil).mp (List.map_inj_left.mp hmap piece hpiece)
  · intro h
    rw [received_of_keptName h]

end Padwire.Mdns
