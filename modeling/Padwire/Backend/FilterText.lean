import Padwire.Backend.Filter
import Padwire.Lib.Numeral

/-!
# Allow-lists as text

An allow-list is printed in the log, in the listing of a server's devices and in what the exporter
advertises, and it is read from the command line and from the configuration
(`usb-backend/src/filter.rs`). `fromStr_display` says that any allow-list reads back as it was
printed, the empty one included, which is printed as nothing.
-/

namespace Padwire

/-- One half of a pattern: four hexadecimal digits, or a star. -/
def Pattern.displayPart : Option UInt16 → List Char
  | some v => padded 16 4 v.toNat
  | none => ['*']

protected def Pattern.display (p : Pattern) : List Char :=
  displayPart p.vendor ++ ':' :: displayPart p.product

protected def DeviceFilter.display (f : DeviceFilter) : String :=
  String.ofList ([','].intercalate (f.patterns.map Pattern.display))

/-! ### Reading a pattern back -/

namespace Pattern

/-- Half a pattern is made of hexadecimal digits, or it is a star. -/
theorem forall_mem_displayPart {q : Char → Prop} (hdigit : ∀ d < 16, q d.digitChar) (hstar : q '*')
    (part : Option UInt16) : ∀ c ∈ displayPart part, q c := by
  cases part with
  | none => exact List.forall_mem_singleton.mpr hstar
  | some v => exact forall_mem_padded (by decide) (by decide) hdigit 4 v.toNat

theorem displayPart_ne_nil (part : Option UInt16) : displayPart part ≠ [] := by
  cases part with
  | none => exact List.cons_ne_nil _ _
  | some v => exact List.append_ne_nil_of_right_ne_nil _ Nat.toDigits_ne_nil

/-- Half a pattern reads back as it was printed. -/
theorem parsePart_displayPart (part : Option UInt16) (whole : List Char) :
    parsePart (displayPart part) whole = .ok part := by
  have htrim : trim (displayPart part) = displayPart part :=
    trim_of_solid (forall_mem_displayPart (by decide) (by decide) part)
  rw [parsePart, htrim]
  cases part with
  | none => rfl
  | some v =>
    have hnot : ¬ (displayPart (some v) = ['*'] ∨ displayPart (some v) = []) := by
      rintro (hstar | hnil)
      · have hmem : '*' ∈ displayPart (some v) := hstar ▸ List.mem_singleton_self _
        exact forall_mem_padded (by decide) (by decide) (p := (· ≠ '*')) (by decide) 4 v.toNat '*'
          hmem rfl
      · exact displayPart_ne_nil _ hnil
    have hread : parseUnsigned 16 65535 (displayPart (some v)) = some v.toNat :=
      parseUnsigned_padded (by decide) (by decide) 4 (Nat.le_of_lt_succ v.toNat_lt)
    simp only [if_neg hnot, hread, UInt16.ofNat_toNat]

/-- There is no white space in a pattern, so trimming leaves it as it is. -/
theorem solid_display (p : Pattern) : ∀ c ∈ p.display, isWhitespace c = false := by
  rw [Pattern.display, List.forall_mem_append, List.forall_mem_cons]
  exact ⟨forall_mem_displayPart (by decide) (by decide) _, by decide,
    forall_mem_displayPart (by decide) (by decide) _⟩

/-- There is no comma in a pattern, so the list is split where its patterns were joined. -/
theorem comma_not_mem_display (p : Pattern) : ',' ∉ p.display := by
  have hne : ∀ c ∈ p.display, c ≠ ',' := by
    rw [Pattern.display, List.forall_mem_append, List.forall_mem_cons]
    exact ⟨forall_mem_displayPart (by decide) (by decide) _, by decide,
      forall_mem_displayPart (by decide) (by decide) _⟩
  exact fun h => hne ',' h rfl

theorem display_ne_nil (p : Pattern) : p.display ≠ [] :=
  List.append_ne_nil_of_left_ne_nil (displayPart_ne_nil _) _

/-- The one colon of a pattern stands between its halves. -/
theorem colon_not_mem_displayPart (part : Option UInt16) : ':' ∉ displayPart part :=
  fun h => forall_mem_displayPart (q := (· ≠ ':')) (by decide) (by decide) part ':' h rfl

/-- A pattern reads back as it was printed. -/
theorem fromStr_of_display (p : Pattern) : fromStr p.display = .ok p := by
  have hsplit : splitOnce ':' p.display = some (displayPart p.vendor, displayPart p.product) :=
    splitOnce_append (colon_not_mem_displayPart _) _
  rw [fromStr, trim_of_solid p.solid_display, hsplit]
  dsimp only
  rw [parsePart_displayPart, parsePart_displayPart]
  rfl

end Pattern

/-! ### Reading an allow-list back -/

namespace DeviceFilter

/-- The pieces between the commas are the patterns, each as it was printed. -/
theorem pieces_display (f : DeviceFilter) :
    ((f.display.toList.splitOn ',').map trim).filter (· ≠ []) = f.patterns.map Pattern.display := by
  rw [DeviceFilter.display, String.toList_ofList]
  cases f.patterns with
  | nil => rfl
  | cons p ps =>
    have hcomma : ∀ piece ∈ (p :: ps).map Pattern.display, ',' ∉ piece :=
      List.forall_mem_map.mpr fun q _ => q.comma_not_mem_display
    have htrim : ((p :: ps).map Pattern.display).map trim = (p :: ps).map Pattern.display := by
      rw [List.map_map]
      exact List.map_congr_left fun q _ => trim_of_solid q.solid_display
    rw [List.splitOn_intercalate _ hcomma (List.cons_ne_nil _ _), htrim, List.filter_eq_self]
    exact List.forall_mem_map.mpr fun q _ => decide_eq_true q.display_ne_nil

/-- All patterns of a list read back. -/
theorem mapM_fromStr (ps : List Pattern) :
    (ps.map Pattern.display).mapM Pattern.fromStr = .ok ps := by
  induction ps with
  | nil => rfl
  | cons p ps ih =>
    rw [List.map_cons, List.mapM_cons, p.fromStr_of_display, ih]
    rfl

/-- Any allow-list reads back as it was printed. -/
theorem fromStr_display (f : DeviceFilter) : DeviceFilter.fromStr f.display = .ok f := by
  rw [DeviceFilter.fromStr, pieces_display, mapM_fromStr]
  rfl

end DeviceFilter

end Padwire
