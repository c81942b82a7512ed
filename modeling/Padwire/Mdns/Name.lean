import Padwire.Lib.Loop
import Padwire.Lib.Lossy
import Padwire.Lib.Scan

/-!
# Names on the wire

A name of mDNS is a list of labels (`usbfwd-common/src/mdns.rs`). `encode_name` cuts a name at its
dots, drops what is empty and truncates a label to 63 bytes; `read_name` follows compression
pointers, at most 16 of them, and puts the labels together again.

The loop of `read_name` may jump backwards. It ends because a jump uses up one of the hops and a
label goes on towards the end of the packet (`readName_ends`). What is read where `encode_name` has
written a name is `received name` (`readName_of_eq`): the name itself, if its labels are neither
empty nor longer than 63 bytes.
-/

namespace Padwire.Mdns

open Checked

/-- The part of a name that stands between two dots. -/
def labels (name : String) : List (List Char) := (name.toList.splitOn '.').filter (· ≠ [])

/-- A label of at most 255 bytes behind its length. -/
def lengthPrefixed (b : Bytes) : Bytes := UInt8.ofNat b.length :: b

def encodeLabel (label : List Char) : Bytes :=
  let b := encodeUtf8 label
  let n := min b.length 63
  lengthPrefixed (b.take n)

def encodeName (name : String) : Bytes := (labels name).flatMap encodeLabel ++ [0]

/-- Put a label behind a name that is read so far. -/
def pushLabel (out : String) (label : Bytes) : String :=
  (if out.isEmpty then out else out.push '.') ++ String.ofList (fromUtf8Lossy label)

/-- The loop of `read_name`: `pos` is where the caller goes on, once a pointer is followed. -/
structure NameReader where
  pos : ℕ
  p : ℕ
  out : String
  jumped : Bool
  hops : ℕ

def NameReader.start (pos : ℕ) : NameReader := ⟨pos, pos, "", false, 0⟩

/-- A round of `read_name`, which is done with the name and where the caller goes on. -/
def readNameRound (buf : Bytes) (s : NameReader) :
    Checked Unit (LoopRound NameReader (String × ℕ)) := do
  let len ← ofOption () buf[s.p]?
  if len &&& 0xc0 = 0xc0 then
    let lo ← ofOption () buf[s.p + 1]?
    -- a pointer loop would otherwise hang the responder
    if 16 < s.hops + 1 then err ()
    else
      pure (.again { s with
        pos := if s.jumped then s.pos else s.p + 2
        p := (len &&& 0x3f).toNat <<< 8 ||| lo.toNat
        jumped := true
        hops := s.hops + 1 })
  else if len = 0 then
    pure (.done (s.out, if s.jumped then s.pos else s.p + 1))
  else
    let label ← ofOption () (slice? buf (s.p + 1) (s.p + 1 + len.toNat))
    pure (.again { s with p := s.p + 1 + len.toNat, out := pushLabel s.out label })

/-- `read_name`: the name at `pos` and where the next thing begins. -/
def readName (buf : Bytes) (pos : ℕ) : Checked Unit (String × ℕ) :=
  loopWithin (17 * (buf.length + 1)) (readNameRound buf) (.start pos)

/-! ### Reading a name ends -/

/-- The hops that are left, and then the bytes that are left. -/
def NameReader.measure (buf : Bytes) (s : NameReader) : ℕ :=
  (16 - s.hops) * (buf.length + 1) + (buf.length - s.p)

/-- What a round does, if there is something to read: it follows a pointer, is done, or reads
a label. -/
theorem readNameRound_cases {buf : Bytes} {s : NameReader}
    {round : LoopRound NameReader (String × ℕ)} (h : readNameRound buf s = ok round) :
    (∃ p, s.p + 1 < buf.length ∧ s.hops < 16 ∧
      round = .again ⟨if s.jumped then s.pos else s.p + 2, p, s.out, true, s.hops + 1⟩) ∨
    (s.p < buf.length ∧ round = .done (s.out, if s.jumped then s.pos else s.p + 1)) ∨
    ∃ p label, s.p < p ∧ p ≤ buf.length ∧
      round = .again ⟨s.pos, p, pushLabel s.out label, s.jumped, s.hops⟩ := by
  obtain ⟨len, hlen, h⟩ := Checked.bind_eq_ok.mp h
  obtain ⟨hp, -⟩ := List.getElem?_eq_some_iff.mp (ofOption_eq_ok.mp hlen)
  by_cases hptr : len &&& 0xc0 = 0xc0
  · rw [if_pos hptr] at h
    obtain ⟨lo, hlo, h⟩ := Checked.bind_eq_ok.mp h
    obtain ⟨hlo, -⟩ := List.getElem?_eq_some_iff.mp (ofOption_eq_ok.mp hlo)
    by_cases hhops : 16 < s.hops + 1
    · rw [if_pos hhops] at h
      cases h
    · rw [if_neg hhops] at h
      injection h with h
      exact .inl ⟨_, hlo, by omega, h.symm⟩
  rw [if_neg hptr] at h
  by_cases hzero : len = 0
  · rw [if_pos hzero] at h
    injection h with h
    exact .inr (.inl ⟨hp, h.symm⟩)
  · rw [if_neg hzero] at h
    obtain ⟨label, hlabel, h⟩ := Checked.bind_eq_ok.mp h
    have hbound := (slice?_eq_some (ofOption_eq_ok.mp hlabel)).1
    injection h with h
    exact .inr (.inr ⟨_, label, by omega, hbound, h.symm⟩)

/-- A further round uses up a hop or goes on towards the end of the packet. -/
theorem readNameRound_measure {buf : Bytes} {s s' : NameReader}
    (h : readNameRound buf s = ok (.again s')) : s'.measure buf < s.measure buf := by
  rw [NameReader.measure, NameReader.measure]
  rcases readNameRound_cases h with ⟨p, hp, hhops, heq⟩ | ⟨-, heq⟩ | ⟨p, label, hp, hle, heq⟩
  · injection heq with heq
    subst heq
    have hleft : 16 - s.hops = 16 - (s.hops + 1) + 1 := by omega
    rw [hleft, Nat.add_mul, Nat.one_mul]
    dsimp only
    omega
  · cases heq
  · injection heq with heq
    subst heq
    dsimp only
    omega

theorem readNameRound_safe (buf : Bytes) (s : NameReader) : (readNameRound buf s).Safe := by
  refine safe_bind (safe_ofOption _ _) fun len _ => safe_ite (fun _ => ?_) fun _ => ?_
  · exact safe_bind (safe_ofOption _ _) fun lo _ =>
      safe_ite (fun _ => safe_err _) fun _ => safe_ok _
  · refine safe_ite (fun _ => safe_ok _) fun _ => ?_
    exact safe_bind (safe_ofOption _ _) fun label _ => safe_ok _

/-- **`read_name` ends**, whatever the packet and wherever it starts. -/
theorem readName_ends (buf : Bytes) (s : NameReader) : Ends (readNameRound buf) s :=
  ends_of_measure (NameReader.measure buf) (fun _ _ => readNameRound_measure) s

theorem readName_safe (buf : Bytes) (pos : ℕ) : (readName buf pos).Safe := by
  refine safe_loopWithin (NameReader.measure buf) (fun _ _ => readNameRound_measure)
    (readNameRound_safe buf) ?_
  rw [NameReader.measure]
  change 16 * (buf.length + 1) + (buf.length - pos) < 17 * (buf.length + 1)
  omega

/-- The caller goes on inside the packet or at its end. -/
theorem readName_le {buf : Bytes} {pos : ℕ} {r : String × ℕ} (h : readName buf pos = ok r) :
    r.2 ≤ buf.length := by
  refine loopWithin_invariant (fun s => s.jumped = true → s.pos ≤ buf.length)
    (fun r => r.2 ≤ buf.length) ?_ ?_ (s := NameReader.start pos) nofun h
  · intro s s' hinv hround hjumped
    rcases readNameRound_cases hround with ⟨p, hp, -, heq⟩ | ⟨-, heq⟩ | ⟨p, label, -, -, heq⟩
    · injection heq with heq
      subst heq
      dsimp only
      split_ifs with hj
      · exact hinv hj
      · exact hp
    · cases heq
    · injection heq with heq
      subst heq
      exact hinv hjumped
  · intro s r hinv hround
    rcases readNameRound_cases hround with ⟨p, -, -, heq⟩ | ⟨hp, heq⟩ | ⟨p, label, -, -, heq⟩
    · cases heq
    · injection heq with heq
      subst heq
      dsimp only
      split_ifs with hj
      · exact hinv hj
      · exact hp
    · cases heq

/-! ### Reading back what was written -/

/-- The bytes of a label that are sent. -/
def sentLabel (label : List Char) : Bytes := (encodeUtf8 label).take 63

/-- What is read where `encode_name` has written `name`. -/
def received (name : String) : String := ((labels name).map sentLabel).foldl pushLabel ""

theorem encodeLabel_eq (label : List Char) :
    encodeLabel label = lengthPrefixed (sentLabel label) := by
  have htake : (encodeUtf8 label).take (min (encodeUtf8 label).length 63) = sentLabel label := by
    rw [← List.take_take, sentLabel, List.take_of_length_le (List.length_take_le' _ _)]
  rw [encodeLabel, htake]

theorem encodeName_eq (name : String) :
    encodeName name = ((labels name).map sentLabel).flatMap lengthPrefixed ++ [0] := by
  rw [encodeName, List.flatMap_map, funext encodeLabel_eq]

/-- A length below 64 is no pointer. -/
theorem ofNat_not_pointer {n : ℕ} (h : n ≤ 63) : UInt8.ofNat n &&& 0xc0 ≠ 0xc0 := by
  have hall : ∀ n : Fin 64, UInt8.ofNat n.val &&& 0xc0 ≠ 0xc0 := by decide
  exact hall ⟨n, by omega⟩

theorem readNameRound_label {buf pre post l : Bytes} {s : NameReader} (hne : l ≠ [])
    (hlen : l.length ≤ 63) (hbuf : buf = pre ++ (lengthPrefixed l ++ post))
    (hp : s.p = pre.length) :
    readNameRound buf s =
      ok (.again { s with p := pre.length + (l.length + 1), out := pushLabel s.out l }) := by
  have hget : buf[s.p]? = some (UInt8.ofNat l.length) := by
    rw [hbuf, hp, List.getElem?_append_right le_rfl, Nat.sub_self]
    rfl
  have hnat : (UInt8.ofNat l.length).toNat = l.length :=
    UInt8.toNat_ofNat_of_lt' (Nat.lt_of_le_of_lt hlen (by decide))
  have hzero : UInt8.ofNat l.length ≠ 0 := by
    intro h
    rw [h] at hnat
    exact hne (List.length_eq_zero_iff.mp hnat.symm)
  have hslice : slice? buf (s.p + 1) (s.p + 1 + l.length) = some l := by
    have hsplit : buf = (pre ++ [UInt8.ofNat l.length]) ++ (l ++ post) := by
      rw [hbuf, lengthPrefixed, List.append_assoc]
      rfl
    have hpos : s.p + 1 = (pre ++ [UInt8.ofNat l.length]).length := by
      rw [hp, List.length_append]
      rfl
    rw [hsplit, hpos]
    exact slice?_append
  rw [readNameRound, hget, ofOption_some, ok_bind, if_neg (ofNat_not_pointer hlen), if_neg hzero,
    hnat, hslice, hp, Nat.add_assoc, Nat.add_comm 1]
  rfl

theorem readNameRound_end {buf pre post : Bytes} {s : NameReader} (hbuf : buf = pre ++ 0 :: post)
    (hp : s.p = pre.length) (hjumped : s.jumped = false) :
    readNameRound buf s = ok (.done (s.out, pre.length + 1)) := by
  have hget : buf[s.p]? = some 0 := by
    rw [hbuf, hp, List.getElem?_append_right le_rfl, Nat.sub_self]
    rfl
  rw [readNameRound, hget, ofOption_some, ok_bind, if_neg (by decide), if_pos rfl, hjumped, hp]
  rfl

/-- The labels of a name are read one after the other. -/
theorem rounds_readName {buf pre post : Bytes} {ls : List Bytes} {s : NameReader}
    (hls : ∀ l ∈ ls, l ≠ [] ∧ l.length ≤ 63)
    (hbuf : buf = pre ++ (ls.flatMap lengthPrefixed ++ 0 :: post)) (hp : s.p = pre.length)
    (hjumped : s.jumped = false) :
    rounds (readNameRound buf) (ls.length + 1) s =
      some (ok (ls.foldl pushLabel s.out,
        pre.length + ((ls.flatMap lengthPrefixed).length + 1))) := by
  induction ls generalizing pre s with
  | nil =>
    rw [List.length_nil, rounds_done (readNameRound_end hbuf hp hjumped)]
    rfl
  | cons l ls ih =>
    obtain ⟨hl, hls⟩ := List.forall_mem_cons.mp hls
    rw [List.flatMap_cons, List.append_assoc] at hbuf
    have hround := readNameRound_label hl.1 hl.2 hbuf hp
    have hpre : pre.length + (l.length + 1) = (pre ++ lengthPrefixed l).length := by
      rw [List.length_append]
      rfl
    rw [← List.append_assoc] at hbuf
    have hrest := ih (s := { s with
      p := pre.length + (l.length + 1), out := pushLabel s.out l }) hls hbuf hpre hjumped
    rw [List.length_cons, rounds_again hround, hrest, List.foldl_cons, List.flatMap_cons,
      List.length_append, List.length_append]
    simp only [Nat.add_assoc]

theorem sentLabel_ne_nil {label : List Char} (h : label ≠ []) : sentLabel label ≠ [] := by
  obtain ⟨c, cs, rfl⟩ := List.exists_cons_of_ne_nil h
  obtain ⟨b, bs, hb⟩ := List.exists_cons_of_ne_nil (String.utf8EncodeChar_ne_nil (c := c))
  rw [sentLabel, encodeUtf8, List.flatMap_cons, hb]
  exact List.cons_ne_nil _ _

theorem sent_of_mem_labels {name : String} :
    ∀ l ∈ (labels name).map sentLabel, l ≠ [] ∧ l.length ≤ 63 := by
  intro l hl
  obtain ⟨label, hlabel, rfl⟩ := List.mem_map.mp hl
  have hne := of_decide_eq_true (List.mem_filter.mp hlabel).2
  exact ⟨sentLabel_ne_nil hne, List.length_take_le _ _⟩

theorem length_le_length_flatMap (ls : List Bytes) :
    ls.length ≤ (ls.flatMap lengthPrefixed).length := by
  induction ls with
  | nil => exact le_rfl
  | cons l ls ih =>
    rw [List.flatMap_cons, List.length_append, lengthPrefixed, List.length_cons, List.length_cons]
    omega

/-- **`read_name` reads back what `encode_name` has written**, wherever it stands. -/
theorem readName_of_eq {buf pre post : Bytes} {name : String} {pos : ℕ}
    (hbuf : buf = pre ++ (encodeName name ++ post)) (hpos : pos = pre.length) :
    readName buf pos = ok (received name, pos + (encodeName name).length) := by
  subst hpos
  rw [encodeName_eq, List.append_assoc] at hbuf
  have hrounds := rounds_readName (s := .start pre.length) sent_of_mem_labels hbuf rfl rfl
  have hle := length_le_length_flatMap ((labels name).map sentLabel)
  have hbound : ((labels name).map sentLabel).length + 1 ≤ 17 * (buf.length + 1) := by
    rw [hbuf, List.length_append, List.length_append]
    omega
  rw [encodeName_eq, List.length_append]
  exact loopWithin_of_rounds hrounds hbound

end Padwire.Mdns
