import Padwire.Mdns.Labels

/-!
# Compressed names

What a packet spells at a position: labels, each behind its length, up to a zero or to a pointer,
which stands for the name at another position. `Spelled` is this definition, with no bound on the
number of pointers, and so a packet may spell nothing at a position where pointers go round in a
circle. It is that of DNS but for the length bytes from 0x40 to 0xBF, which DNS keeps for other
kinds of labels: `read_name` does not tell them apart from shorter ones, and here they begin a label
of that many bytes too.

`readName_iff` says that the loop of `read_name`, with its position, its flag and its count,
reads exactly the names that are spelled with at most 16 pointers, and goes on behind the first
of the pointers.
-/

namespace Padwire.Mdns

open Checked

/-- The position a pointer points at. -/
def pointee (hi lo : UInt8) : ℕ := (hi &&& 0x3f).toNat <<< 8 ||| lo.toNat

/-- At a position the packet spells a name made of these labels, by following so many pointers;
behind what stands there comes `next`. Every length byte but 0 that is not the first byte of a
pointer begins a label, also those from 0x40 to 0xBF. -/
inductive Spelled (buf : Bytes) : ℕ → List Bytes → ℕ → ℕ → Prop
  | root {p : ℕ} : buf[p]? = some 0 → Spelled buf p [] 0 (p + 1)
  | label {p pointers next : ℕ} {len : UInt8} {l : Bytes} {ls : List Bytes} :
      buf[p]? = some len → len &&& 0xc0 ≠ 0xc0 → len ≠ 0 →
      slice? buf (p + 1) (p + 1 + len.toNat) = some l →
      Spelled buf (p + 1 + len.toNat) ls pointers next →
      Spelled buf p (l :: ls) pointers next
  | pointer {p pointers next : ℕ} {hi lo : UInt8} {ls : List Bytes} :
      buf[p]? = some hi → hi &&& 0xc0 = 0xc0 → buf[p + 1]? = some lo →
      Spelled buf (pointee hi lo) ls pointers next →
      Spelled buf p ls (pointers + 1) (p + 2)

variable {buf : Bytes} {p pointers next : ℕ} {ls : List Bytes}

namespace Spelled

/-- A packet spells one name at a position. -/
theorem unique {ls' : List Bytes} {pointers' next' : ℕ} (h : Spelled buf p ls pointers next)
    (h' : Spelled buf p ls' pointers' next') :
    ls = ls' ∧ pointers = pointers' ∧ next = next' := by
  induction h generalizing ls' pointers' next' with
  | root hget =>
    cases h' with
    | root _ => exact ⟨rfl, rfl, rfl⟩
    | label hget' _ hzero _ _ =>
      rw [hget] at hget'
      exact absurd (Option.some.inj hget').symm hzero
    | pointer hget' hptr _ _ =>
      rw [hget] at hget'
      rw [← Option.some.inj hget'] at hptr
      exact absurd hptr (by decide)
  | label hget hnot hzero hslice _ ih =>
    cases h' with
    | root hget' =>
      rw [hget] at hget'
      exact absurd (Option.some.inj hget') hzero
    | label hget' _ _ hslice' h' =>
      rw [hget] at hget'
      obtain rfl := Option.some.inj hget'
      rw [hslice] at hslice'
      obtain rfl := Option.some.inj hslice'
      obtain ⟨rfl, rfl, rfl⟩ := ih h'
      exact ⟨rfl, rfl, rfl⟩
    | pointer hget' hptr _ _ =>
      rw [hget] at hget'
      exact absurd (Option.some.inj hget' ▸ hptr) hnot
  | pointer hget hptr hlo _ ih =>
    cases h' with
    | root hget' =>
      rw [hget] at hget'
      rw [Option.some.inj hget'] at hptr
      exact absurd hptr (by decide)
    | label hget' hnot _ _ _ =>
      rw [hget] at hget'
      exact absurd (Option.some.inj hget' ▸ hptr) hnot
    | pointer hget' _ hlo' h' =>
      rw [hget] at hget'
      obtain rfl := Option.some.inj hget'
      rw [hlo] at hlo'
      obtain rfl := Option.some.inj hlo'
      obtain ⟨rfl, rfl, rfl⟩ := ih h'
      exact ⟨rfl, rfl, rfl⟩

/-- The labels of a name are not empty. -/
theorem ne_nil (h : Spelled buf p ls pointers next) : ∀ l ∈ ls, l ≠ [] := by
  induction h with
  | root _ => exact List.forall_mem_nil _
  | label _ _ hzero hslice _ ih =>
    refine List.forall_mem_cons.mpr ⟨?_, ih⟩
    rintro rfl
    have hlen := (slice?_eq_some hslice).2
    rw [Nat.add_sub_cancel_left, List.length_nil] at hlen
    exact hzero (UInt8.toNat_inj.mp hlen.symm)
  | pointer _ _ _ _ ih => exact ih

end Spelled

/-! ### The rounds of the loop -/

variable {s : NameReader}

theorem readNameRound_root (h : buf[s.p]? = some 0) :
    readNameRound buf s = ok (.done (s.out, if s.jumped then s.pos else s.p + 1)) := by
  rw [readNameRound, h, ofOption_some, ok_bind, if_neg (by decide), if_pos rfl]
  rfl

theorem readNameRound_slice {len : UInt8} {l : Bytes} (h : buf[s.p]? = some len)
    (hnot : len &&& 0xc0 ≠ 0xc0) (hzero : len ≠ 0)
    (hslice : slice? buf (s.p + 1) (s.p + 1 + len.toNat) = some l) :
    readNameRound buf s =
      ok (.again { s with p := s.p + 1 + len.toNat, out := pushLabel s.out l }) := by
  rw [readNameRound, h, ofOption_some, ok_bind, if_neg hnot, if_neg hzero, hslice]
  rfl

theorem readNameRound_pointer {hi lo : UInt8} (h : buf[s.p]? = some hi)
    (hptr : hi &&& 0xc0 = 0xc0) (hlo : buf[s.p + 1]? = some lo) (hhops : s.hops < 16) :
    readNameRound buf s =
      ok (.again
        ⟨if s.jumped then s.pos else s.p + 2, pointee hi lo, s.out, true, s.hops + 1⟩) := by
  rw [readNameRound, h, ofOption_some, ok_bind, if_pos hptr, hlo, ofOption_some, ok_bind,
    if_neg (by omega)]
  rfl

/-- What a round has seen, if it is not the last in vain. -/
inductive RoundSaw (buf : Bytes) (s : NameReader) : LoopRound NameReader (String × ℕ) → Prop
  | root : buf[s.p]? = some 0 →
      RoundSaw buf s (.done (s.out, if s.jumped then s.pos else s.p + 1))
  | label {len : UInt8} {l : Bytes} : buf[s.p]? = some len → len &&& 0xc0 ≠ 0xc0 → len ≠ 0 →
      slice? buf (s.p + 1) (s.p + 1 + len.toNat) = some l →
      RoundSaw buf s (.again { s with p := s.p + 1 + len.toNat, out := pushLabel s.out l })
  | pointer {hi lo : UInt8} : buf[s.p]? = some hi → hi &&& 0xc0 = 0xc0 →
      buf[s.p + 1]? = some lo → s.hops < 16 →
      RoundSaw buf s (.again
        ⟨if s.jumped then s.pos else s.p + 2, pointee hi lo, s.out, true, s.hops + 1⟩)

theorem roundSaw {round : LoopRound NameReader (String × ℕ)}
    (h : readNameRound buf s = ok round) : RoundSaw buf s round := by
  obtain ⟨len, hlen, h⟩ := Checked.bind_eq_ok.mp h
  have hget := ofOption_eq_ok.mp hlen
  by_cases hptr : len &&& 0xc0 = 0xc0
  · rw [if_pos hptr] at h
    obtain ⟨lo, hlo, h⟩ := Checked.bind_eq_ok.mp h
    by_cases hhops : 16 < s.hops + 1
    · rw [if_pos hhops] at h
      cases h
    · rw [if_neg hhops] at h
      injection h with h
      subst h
      exact .pointer hget hptr (ofOption_eq_ok.mp hlo) (by omega)
  rw [if_neg hptr] at h
  by_cases hzero : len = 0
  · rw [if_pos hzero] at h
    injection h with h
    subst h
    exact .root (hzero ▸ hget)
  · rw [if_neg hzero] at h
    obtain ⟨l, hl, h⟩ := Checked.bind_eq_ok.mp h
    injection h with h
    subst h
    exact .label hget hptr hzero (ofOption_eq_ok.mp hl)

/-- What the loop comes to has been spelled, with the pointers that were left. -/
theorem spelled_of_rounds {n : ℕ} {r : String × ℕ}
    (h : rounds (readNameRound buf) n s = some (ok r)) (hhops : s.hops ≤ 16) :
    ∃ ls pointers next, Spelled buf s.p ls pointers next ∧ s.hops + pointers ≤ 16 ∧
      r = (ls.foldl pushLabel s.out, if s.jumped then s.pos else next) := by
  induction n generalizing s with
  | zero => cases h
  | succ n ih =>
    cases hround : readNameRound buf s with
    | ok round =>
      cases roundSaw hround with
      | root hget =>
        rw [rounds_done hround] at h
        obtain rfl : _ = r := by injection Option.some.inj h
        exact ⟨[], 0, _, .root hget, hhops, rfl⟩
      | label hget hnot hzero hslice =>
        rw [rounds_again hround] at h
        obtain ⟨ls, pointers, next, hls, hle, rfl⟩ := ih h hhops
        exact ⟨_ :: ls, pointers, next, .label hget hnot hzero hslice hls, hle, rfl⟩
      | pointer hget hptr hlo hlt =>
        rw [rounds_again hround] at h
        obtain ⟨ls, pointers, next, hls, hle, rfl⟩ := ih h hlt
        refine ⟨ls, pointers + 1, _, .pointer hget hptr hlo hls, ?_, ?_⟩
        · dsimp only at hle
          omega
        · rw [if_pos rfl]
    | err e =>
      rw [rounds, hround] at h
      cases Option.some.inj h
    | panic =>
      rw [rounds, hround] at h
      cases Option.some.inj h

/-- The loop gets through what is spelled, if the pointers that are left suffice. -/
theorem rounds_of_spelled (h : Spelled buf p ls pointers next) (hp : s.p = p)
    (hhops : s.hops + pointers ≤ 16) :
    ∃ n, rounds (readNameRound buf) n s =
      some (ok (ls.foldl pushLabel s.out, if s.jumped then s.pos else next)) := by
  induction h generalizing s with
  | root hget =>
    subst hp
    exact ⟨1, rounds_done (readNameRound_root hget) 0⟩
  | label hget hnot hzero hslice _ ih =>
    subst hp
    obtain ⟨n, hn⟩ := ih (s := { s with p := s.p + 1 + _, out := pushLabel s.out _ }) rfl hhops
    exact ⟨n + 1, (rounds_again (readNameRound_slice hget hnot hzero hslice) n).trans hn⟩
  | pointer hget hptr hlo _ ih =>
    subst hp
    obtain ⟨n, hn⟩ := ih
      (s := ⟨if s.jumped then s.pos else s.p + 2, _, s.out, true, s.hops + 1⟩) rfl
      (by dsimp only; omega)
    exact ⟨n + 1, (rounds_again (readNameRound_pointer hget hptr hlo (by omega)) n).trans hn⟩

theorem readName_eq_iff (buf : Bytes) (pos : ℕ) (x : Checked Unit (String × ℕ)) :
    readName buf pos = x ↔ ∃ n, rounds (readNameRound buf) n (.start pos) = some x := by
  refine loopWithin_eq_iff (NameReader.measure buf) (fun _ _ => readNameRound_measure) ?_
  rw [NameReader.measure]
  change 16 * (buf.length + 1) + (buf.length - pos) < 17 * (buf.length + 1)
  omega

theorem readName_of_spelled {pos : ℕ} (h : Spelled buf pos ls pointers next)
    (hle : pointers ≤ 16) : readName buf pos = ok (ls.foldl pushLabel "", next) :=
  (readName_eq_iff _ _ _).mpr (rounds_of_spelled h rfl ((Nat.zero_add _).trans_le hle))

theorem spelled_of_readName {pos : ℕ} {r : String × ℕ} (h : readName buf pos = ok r) :
    ∃ ls pointers next, Spelled buf pos ls pointers next ∧ pointers ≤ 16 ∧
      r = (ls.foldl pushLabel "", next) := by
  obtain ⟨n, hn⟩ := (readName_eq_iff _ _ _).mp h
  obtain ⟨ls, pointers, next, hls, hle, heq⟩ := spelled_of_rounds hn (Nat.zero_le 16)
  exact ⟨ls, pointers, next, hls, (Nat.zero_add _).symm.trans_le hle, heq⟩

/-- **`read_name` reads what is spelled.** From any packet and any position it reads a name, and
goes on at a position, exactly if the packet spells that name there with at most 16 pointers:
its labels joined by dots, each as lossy UTF-8, and the next thing behind the zero or the first
pointer. It refuses exactly what is not spelled at all or with more pointers than that. -/
theorem readName_iff (buf : Bytes) (pos : ℕ) :
    (∀ name next, readName buf pos = ok (name, next) ↔
      ∃ ls pointers, Spelled buf pos ls pointers next ∧ pointers ≤ 16 ∧
        name.toList = ['.'].intercalate (ls.map fromUtf8Lossy)) ∧
    (readName buf pos = err () ↔
      (¬ ∃ ls pointers next, Spelled buf pos ls pointers next) ∨
        ∃ ls pointers next, Spelled buf pos ls pointers next ∧ 16 < pointers) := by
  refine ⟨fun name next => ⟨fun h => ?_, ?_⟩, fun h => ?_, fun h => ?_⟩
  · obtain ⟨ls, pointers, next', hls, hle, heq⟩ := spelled_of_readName h
    obtain ⟨rfl, rfl⟩ := Prod.mk.inj heq
    exact ⟨ls, pointers, hls, hle, toList_foldl_pushLabel_empty hls.ne_nil⟩
  · rintro ⟨ls, pointers, hls, hle, hname⟩
    rw [readName_of_spelled hls hle, String.toList_injective
      (hname.trans (toList_foldl_pushLabel_empty hls.ne_nil).symm)]
  · by_cases hex : ∃ ls pointers next, Spelled buf pos ls pointers next
    · obtain ⟨ls, pointers, next, hls⟩ := hex
      refine .inr ⟨ls, pointers, next, hls, Nat.lt_of_not_le fun hle => ?_⟩
      rw [readName_of_spelled hls hle] at h
      cases h
    · exact .inl hex
  · cases hx : readName buf pos with
    | ok r =>
      obtain ⟨ls, pointers, next, hls, hle, -⟩ := spelled_of_readName hx
      rcases h with hno | ⟨ls', pointers', next', hls', hlt⟩
      · exact absurd ⟨ls, pointers, next, hls⟩ hno
      · obtain ⟨-, rfl, -⟩ := hls.unique hls'
        exact absurd hlt (Nat.not_lt.mpr hle)
    | err e => rfl
    | panic => exact absurd hx (readName_safe buf pos)

end Padwire.Mdns
