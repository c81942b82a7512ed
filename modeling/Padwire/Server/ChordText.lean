import Padwire.Lib.Except
import Padwire.Lib.Scan
import Padwire.Server.Handover

/-!
# The chord as the user writes it

`Chord::from_str` (`usbfwd-server/src/chord.rs`) reads a list of tokens: names of buttons, bit
numbers and raw masks. It asks for at least one token, and a raw mask need not have a bit in it. A
chord without buttons is held in every report: no report arms its detector, and the screen blanks
every state report.
-/

namespace Padwire

/-- Bit positions in the button field. -/
def BUTTONS : List (String × UInt8) :=
  [("r2", 0), ("l2", 1), ("r1", 2), ("l1", 3), ("y", 4), ("b", 5), ("x", 6), ("a", 7), ("up", 8),
    ("right", 9), ("left", 10), ("down", 11), ("view", 12), ("steam", 13), ("menu", 14),
    ("l5", 15), ("r5", 16), ("lpad", 17), ("rpad", 18), ("lpadtouch", 19), ("rpadtouch", 20),
    ("l3", 22), ("r3", 26), ("l4", 41), ("r4", 42), ("qam", 50)]

/-- The digits of a bit number. -/
def bitDigits (tok : List Char) : Option (List Char) :=
  ((stripPrefix ['b', 'i', 't'] tok).or (stripPrefix ['b'] tok)).filter fun n =>
    n.all Char.isDigit && !n.isEmpty

/-- The mask of one token, which is in lower case. -/
def parseToken (tok : List Char) : Except String UInt64 :=
  match stripPrefix ['0', 'x'] tok with
  | some hex =>
    match parseUnsigned 16 0xffffffffffffffff hex with
    | some mask => .ok (UInt64.ofNat mask)
    | none => .error ("`" ++ String.ofList tok ++ "` is not a 64-bit hex mask")
  | none =>
    match bitDigits tok with
    | some digits =>
      match parseUnsigned 10 0xffffffff digits with
      | none => .error ("`" ++ String.ofList tok ++ "` is not a bit")
      | some n =>
        if 63 < n then .error ("bit " ++ toString n ++ " is outside the 64-bit button field")
        else .ok (1 <<< UInt64.ofNat n)
    | none =>
      match BUTTONS.find? fun button => button.1.toList == tok with
      | some button => .ok (1 <<< button.2.toUInt64)
      | none =>
        .error ("`" ++ String.ofList tok ++ "` is not a known button. Known: " ++
          ", ".intercalate (BUTTONS.map Prod.fst) ++
          ". Bit numbers (`b41`) and raw masks (`0x...`) also work — " ++
          "`--chord-probe` prints what the device actually sends.")

/-- What a text lists, separated by `+` or `,`. -/
def chordTokens (s : String) : List (List Char) :=
  ((s.toList.splitOnP fun c => c == '+' || c == ',').map trim).filter (· ≠ [])

def Chord.fromStr (s : String) : Except String Chord := do
  let mask ← (chordTokens s).foldlM
    (fun mask tok => (parseToken (toAsciiLowercase tok)).map (mask ||| ·)) 0
  if chordTokens s = [] then .error "a chord needs at least one button" else .ok ⟨mask⟩

/-! ### The mask of a chord -/

/-- The token is a raw mask with no bit in it: `0x` and zeros. -/
def isZeroMask (tok : List Char) : Bool :=
  match stripPrefix ['0', 'x'] (toAsciiLowercase tok) with
  | some hex => hex.all (· == '0')
  | none => false

/-- A prefix is stripped exactly where it stands. -/
theorem stripPrefix_eq_some {start s rest : List Char} :
    stripPrefix start s = some rest ↔ s = start ++ rest := by
  rw [stripPrefix]
  constructor
  · intro h
    split_ifs at h with hprefix
    obtain ⟨rest', rfl⟩ := hprefix
    rw [List.drop_left, Option.some.injEq] at h
    rw [h]
  · rintro rfl
    rw [if_pos (List.prefix_append _ _), List.drop_left]

theorem one_shiftLeft_ne_zero {n : ℕ} (hn : n ≤ 63) : (1 : UInt64) <<< UInt64.ofNat n ≠ 0 := by
  have hall : ∀ n : Fin 64, (1 : UInt64) <<< UInt64.ofNat n.val ≠ 0 := by decide
  exact hall ⟨n, by omega⟩

/-- No button of the table is the empty mask. -/
theorem button_ne_zero {button : String × UInt8} (h : button ∈ BUTTONS) :
    (1 : UInt64) <<< button.2.toUInt64 ≠ 0 := by
  have hall : BUTTONS.all fun b => (1 : UInt64) <<< b.2.toUInt64 != 0 := by decide
  exact bne_iff_ne.mp (List.all_eq_true.mp hall button h)

/-- A token has no plus sign, which is where the text was split. -/
theorem plus_not_mem_of_chordTokens {s : String} {tok : List Char} (h : tok ∈ chordTokens s) :
    '+' ∉ toAsciiLowercase tok := by
  intro hplus
  obtain ⟨c, hc, hlower⟩ := List.mem_map.mp hplus
  obtain ⟨piece, hpiece, rfl⟩ := List.mem_map.mp (List.mem_filter.mp h).1
  have hmem : c ∈ piece :=
    (List.dropWhile_sublist _).subset ((List.rdropWhile_prefix _ _).subset hc)
  have hsep := not_sep_of_mem_splitOnP hpiece c hmem
  rw [eq_of_toLower_eq hlower rfl] at hsep
  cases hsep

/-- A token stands for no button only if it is a raw mask of zeros. -/
theorem parseToken_eq_zero_iff {tok : List Char} {mask : UInt64}
    (hplus : '+' ∉ toAsciiLowercase tok) (h : parseToken (toAsciiLowercase tok) = .ok mask) :
    mask = 0 ↔ isZeroMask tok = true := by
  rw [isZeroMask]
  rw [parseToken] at h
  cases hhex : stripPrefix ['0', 'x'] (toAsciiLowercase tok) with
  | some hex =>
    rw [hhex] at h
    dsimp only at h ⊢
    split at h
    · rename_i n hn
      obtain rfl := Except.ok.inj h
      have hsign : '+' ∉ hex := by
        rw [stripPrefix_eq_some.mp hhex] at hplus
        exact fun hmem => hplus (List.mem_append_right _ hmem)
      rw [parseUnsigned_of_not_mem hsign] at hn
      obtain ⟨hdigits, hle⟩ := Option.filter_eq_some_iff.mp hn
      have hne : hex ≠ [] := by
        rintro rfl
        cases hdigits
      have hzero : UInt64.ofNat n = 0 ↔ n = 0 := by
        have hlt : n < UInt64.size := Nat.lt_succ_of_le (of_decide_eq_true hle)
        rw [← UInt64.toNat_inj, UInt64.toNat_ofNat_of_lt' hlt]
        rfl
      have hiff : ofDigits 16 hex = some 0 ↔ hex ≠ [] ∧ ∀ c ∈ hex, c = '0' :=
        ofDigits_eq_zero (by decide)
      rw [hdigits, Option.some.injEq] at hiff
      rw [hzero, hiff]
      simp [hne]
    · cases h
  | none =>
    rw [hhex] at h
    dsimp only at h ⊢
    refine iff_of_false ?_ (by simp)
    split at h
    · split at h
      · cases h
      · split_ifs at h with hn
        obtain rfl := Except.ok.inj h
        exact one_shiftLeft_ne_zero (by omega)
    · split at h
      · rename_i button hbutton
        obtain rfl := Except.ok.inj h
        exact button_ne_zero (List.mem_of_find?_eq_some hbutton)
      · cases h

/-- The mask of a text is empty if all its tokens are masks of zeros. -/
theorem foldlM_mask_eq_zero_iff {toks : List (List Char)} {start mask : UInt64}
    (hplus : ∀ tok ∈ toks, '+' ∉ toAsciiLowercase tok)
    (h : toks.foldlM (fun mask tok => (parseToken (toAsciiLowercase tok)).map (mask ||| ·)) start =
      .ok mask) :
    mask = 0 ↔ start = 0 ∧ ∀ tok ∈ toks, isZeroMask tok = true := by
  induction toks generalizing start with
  | nil =>
    obtain rfl := Except.ok.inj h
    simp
  | cons tok toks ih =>
    rw [List.forall_mem_cons] at hplus
    rw [List.foldlM_cons] at h
    obtain ⟨next, hnext, h⟩ := bind_eq_ok.mp h
    obtain ⟨bits, hbits, rfl⟩ := map_eq_ok.mp hnext
    rw [ih hplus.2 h, UInt64.or_eq_zero_iff, parseToken_eq_zero_iff hplus.1 hbits,
      List.forall_mem_cons, and_assoc]

/-- **A chord is empty exactly if each of its tokens is a mask of zero.** -/
theorem Chord.mask_eq_zero_iff {s : String} {c : Chord} (h : fromStr s = .ok c) :
    c.mask = 0 ↔ ∀ tok ∈ chordTokens s, isZeroMask tok = true := by
  obtain ⟨mask, hmask, h⟩ := bind_eq_ok.mp h
  split_ifs at h
  obtain rfl := Except.ok.inj h
  rw [foldlM_mask_eq_zero_iff (fun tok htok => plus_not_mem_of_chordTokens htok) hmask]
  exact ⟨fun h => h.2, fun h => ⟨rfl, h⟩⟩

/-! ### A chord that can be used -/

/-- A whole state report with the given button field. -/
def deckReport (b : UInt64) : Bytes :=
  [0x01, 0x00, DECK_STATE, 60] ++ leBytes 4 7 ++ (leBytes 8 b.toNat ++ List.replicate 48 0)

@[simp]
theorem buttons_deckReport (b : UInt64) : buttons (deckReport b) = some b := by
  have hfield : ((deckReport b).drop BUTTONS_AT).take 8 = leBytes 8 b.toNat := by
    rw [deckReport, List.drop_left' (by rfl), List.take_left' (length_leBytes _ _)]
  have hlength : (deckReport b).length = 64 := by simp [deckReport]
  have hlt : b.toNat < 256 ^ 8 := b.toNat_lt
  rw [buttons, if_neg, if_neg, if_neg, hfield, leNat_leBytes hlt, UInt64.ofNat_toNat]
  · simp [deckReport, MIN_REPORT, BUTTONS_AT]
  · simp [deckReport]
  · rw [hlength]
    simp [deckReport, MIN_REPORT, BUTTONS_AT]

/-- What a chord is for: it is not held in some button word, some report arms a detector for it,
and a session that screens for it lets some state report through. -/
structure Chord.Usable (c : Chord) : Prop where
  released : ∃ b, c.heldIn b = false
  arms : ∀ (d : Detector) (now : ℕ), d.chord = c →
    ∃ report, c.upIn report = true ∧ (d.feed report now).2.armed = true
  passes : ∀ (d : Detector) (now : ℕ), d.chord = c →
    ∃ comp : UrbCompletion, comp.status = 0 ∧ (buttons comp.data).isSome ∧
      (screen (some d) comp now).2.2 = comp

/-- An empty chord is held whatever is pressed. -/
theorem Chord.heldIn_of_mask_eq_zero {c : Chord} (h : c.mask = 0) (b : UInt64) :
    c.heldIn b = true := by
  rw [heldIn, h]
  simp

/-- A chord is of use exactly if it is not empty. -/
theorem Chord.usable_iff {c : Chord} : c.Usable ↔ c.mask ≠ 0 := by
  constructor
  · rintro ⟨⟨b, hb⟩, -, -⟩ hzero
    rw [heldIn_of_mask_eq_zero hzero] at hb
    cases hb
  · intro hmask
    have hrest : c.heldIn 0 = false := by
      rw [heldIn, UInt64.zero_and]
      exact decide_eq_false hmask.symm
    have hup : c.upIn (deckReport 0) = true := by simp [upIn, hrest]
    refine ⟨⟨0, hrest⟩, fun d now hd => ⟨deckReport 0, hup, ?_⟩, fun d now hd => ?_⟩
    · rw [Detector.feed_up (by rw [hd]; exact hup)]
    · refine ⟨⟨1, 0, 64, deckReport 0, false, .client⟩, rfl, by simp, ?_⟩
      rw [screen_eq, if_neg]
      rintro ⟨-, hdown⟩
      rw [hd] at hdown
      exact Detector.not_down_of_up hup hdown

/-- **A chord that was read is of use** if and only if one of its tokens is not a mask of
zeros. -/
theorem usable_of_fromStr_iff {s : String} {c : Chord} (h : Chord.fromStr s = .ok c) :
    c.Usable ↔ ∃ tok ∈ chordTokens s, isZeroMask tok = false := by
  rw [Chord.usable_iff, ne_eq, Chord.mask_eq_zero_iff h]
  simp

theorem usable_of_fromStr_iff_l4_r4 : Chord.fromStr "L4+R4" = .ok ⟨0x60000000000⟩ ∧
    Chord.Usable ⟨0x60000000000⟩ := by
  have hread : Chord.fromStr "L4+R4" = .ok ⟨0x60000000000⟩ := by decide +kernel
  exact ⟨hread, (usable_of_fromStr_iff hread).mpr (by decide +kernel)⟩

/-- The mask `0x0` is accepted: it is held in every button word, and every state report is
swallowed. -/
theorem zero_mask_swallows_everything : ∃ c, Chord.fromStr "0x0" = .ok c ∧ ¬c.Usable ∧
    (∀ b, c.heldIn b = true) ∧
    ∀ (d : Detector) (comp : UrbCompletion) (now : ℕ), d.chord = c → comp.status = 0 →
      (buttons comp.data).isSome → (screen (some d) comp now).2.2 = comp.blank := by
  have hheld : ∀ b, Chord.heldIn ⟨0⟩ b = true := Chord.heldIn_of_mask_eq_zero rfl
  refine ⟨⟨0⟩, by decide +kernel, fun h => Chord.usable_iff.mp h rfl, hheld,
    fun d comp now hd hstatus hstate => ?_⟩
  obtain ⟨b, hb⟩ := Option.isSome_iff_exists.mp hstate
  rw [screen_eq, if_pos]
  exact ⟨hstatus, by simp [Chord.downIn, hb, hd, hheld]⟩

end Padwire
