import Mathlib.Data.List.Basic
import Mathlib.Data.List.Forall2
import Padwire.Lib.Endian

/-!
# Parsers over a byte string

A `Parse ε α` consumes a prefix of a byte string and returns a value and the bytes left, or
fails with an error. Everything proved about one goes through `Parse.Accepts p buf a rest`
("`p` reads `a` from `buf` and leaves `rest`"): its laws for `pure`, `bind`, `throw` and the
block reader `take` turn the acceptance of a whole `do` block into a chain of existentials.

`Parse.repeat n p` runs one parser `n` times; `Parse.accepts_repeat` is the framing law: if
`p` reads every `a` that satisfies `good` back from its encoding, then `n` runs of `p` read a
list of `n` such values back from the concatenation of their encodings.
-/

namespace Padwire

/-- A parser over a byte string, with errors in `ε`. -/
abbrev Parse (ε α : Type) := StateT Bytes (Except ε) α

namespace Parse

variable {ε α β : Type}

/-- The parser reads `a` from `buf` and leaves `rest`. -/
def Accepts (p : Parse ε α) (buf : Bytes) (a : α) (rest : Bytes) : Prop :=
  p.run buf = .ok (a, rest)

instance [DecidableEq ε] [DecidableEq α] (p : Parse ε α) (buf : Bytes) (a : α) (rest : Bytes) :
    Decidable (p.Accepts buf a rest) :=
  inferInstanceAs (Decidable (_ = _))

@[simp]
theorem accepts_pure {a b : α} {buf rest : Bytes} :
    Accepts (pure a : Parse ε α) buf b rest ↔ b = a ∧ rest = buf := by
  change (Except.ok (a, buf) : Except ε (α × Bytes)) = .ok (b, rest) ↔ _
  rw [Except.ok.injEq, Prod.mk.injEq, eq_comm (a := a), eq_comm (a := buf)]

@[simp]
theorem not_accepts_throw {e : ε} {b : α} {buf rest : Bytes} :
    ¬ Accepts (throw e : Parse ε α) buf b rest := by
  simp [Accepts, throw, throwThe, MonadExceptOf.throw, StateT.run, StateT.lift, bind,
    Except.bind]

/-- A `do` block is accepted exactly when its first parser is, and the rest of it is on what
that one left. -/
@[simp]
theorem accepts_bind {p : Parse ε α} {f : α → Parse ε β} {b : β} {buf rest : Bytes} :
    Accepts (p >>= f) buf b rest ↔
      ∃ a mid, Accepts p buf a mid ∧ Accepts (f a) mid b rest := by
  simp only [Accepts, StateT.run_bind]
  cases hp : p.run buf with
  | error e => simp [bind, Except.bind]
  | ok r =>
    simp only [bind, Except.bind, Except.ok.injEq]
    exact ⟨fun h => ⟨r.1, r.2, rfl, h⟩, by rintro ⟨a, mid, rfl, h⟩; exact h⟩

@[simp]
theorem accepts_lift {x : Except ε α} {a : α} {buf rest : Bytes} :
    Accepts (liftM x : Parse ε α) buf a rest ↔ x = .ok a ∧ rest = buf := by
  cases x with
  | error e => exact iff_of_false not_accepts_throw (by simp)
  | ok b =>
    refine (accepts_pure (a := b)).trans ?_
    rw [Except.ok.injEq, eq_comm]

/-- The next `n` bytes, or the error `e` gives for how many bytes are left. -/
def take (n : ℕ) (e : ℕ → ε) : Parse ε Bytes := fun buf =>
  if buf.length < n then .error (e buf.length) else .ok (buf.take n, buf.drop n)

@[simp]
theorem accepts_take {n : ℕ} {e : ℕ → ε} {buf bs rest : Bytes} :
    Accepts (take n e) buf bs rest ↔ bs.length = n ∧ buf = bs ++ rest := by
  simp only [Accepts, StateT.run, take]
  by_cases hlt : buf.length < n
  · rw [if_pos hlt]
    refine iff_of_false (by simp) ?_
    rintro ⟨hlen, rfl⟩
    rw [List.length_append] at hlt
    omega
  · rw [if_neg hlt, Except.ok.injEq, Prod.mk.injEq]
    constructor
    · rintro ⟨rfl, rfl⟩
      exact ⟨by rw [List.length_take]; omega, (List.take_append_drop n buf).symm⟩
    · rintro ⟨rfl, rfl⟩
      exact ⟨List.take_left, List.drop_left⟩

/-- A parser reads one value from a byte string, and leaves one rest of it. -/
theorem Accepts.inj {p : Parse ε α} {buf rest rest' : Bytes} {a a' : α} (h : Accepts p buf a rest)
    (h' : Accepts p buf a' rest') : a = a' ∧ rest = rest' :=
  Prod.mk.inj (Except.ok.inj (h.symm.trans h'))

/-- What a `do` block does once its first parser has accepted. -/
theorem Accepts.run_bind {p : Parse ε α} {buf mid : Bytes} {a : α} (h : Accepts p buf a mid)
    (f : α → Parse ε β) : (p >>= f).run buf = (f a).run mid := by
  have hp : p.run buf = .ok (a, mid) := h
  rw [StateT.run_bind, hp]
  rfl

/-- A `do` block whose first parser fails fails with it. -/
theorem run_bind_of_error {p : Parse ε α} {buf : Bytes} {e : ε} (h : p.run buf = .error e)
    (f : α → Parse ε β) : (p >>= f).run buf = .error e := by
  rw [StateT.run_bind, h]
  rfl

theorem run_take_of_lt {n : ℕ} {e : ℕ → ε} {buf : Bytes} (h : buf.length < n) :
    (take n e).run buf = .error (e buf.length) :=
  if_pos h

/-! ### Reading a sequence of frames -/

/-- Run a parser `n` times. -/
def «repeat» : ℕ → Parse ε α → Parse ε (List α)
  | 0, _ => pure []
  | n + 1, p => do
    let a ← p
    let as ← «repeat» n p
    pure (a :: as)

/-- **Framing.** A parser that reads `a` from the encoding of any `b` it stands for, and leaves
what follows, reads a whole list from the concatenation of the encodings. -/
theorem accepts_repeat_forall₂ {p : Parse ε α} {encode : β → Bytes} (rel : β → α → Prop)
    (h : ∀ b a rest, rel b a → Accepts p (encode b ++ rest) a rest) {bs : List β} {as : List α}
    (hrel : List.Forall₂ rel bs as) (rest : Bytes) :
    Accepts («repeat» bs.length p) (bs.flatMap encode ++ rest) as rest := by
  induction hrel with
  | nil => simp [«repeat»]
  | @cons b a bs as hba _ ih =>
    rw [List.flatMap_cons, List.append_assoc, List.length_cons, «repeat», accepts_bind]
    refine ⟨a, _, h b a (bs.flatMap encode ++ rest) hba, ?_⟩
    rw [accepts_bind]
    exact ⟨as, rest, ih, accepts_pure.mpr ⟨rfl, rfl⟩⟩

/-- A parser that reads each good value back from its own encoding reads a list of good values
back from their concatenation. -/
theorem accepts_repeat {p : Parse ε α} {encode : α → Bytes} (good : α → Prop)
    (h : ∀ a rest, good a → Accepts p (encode a ++ rest) a rest) (as : List α)
    (hgood : ∀ a ∈ as, good a) (rest : Bytes) :
    Accepts («repeat» as.length p) (as.flatMap encode ++ rest) as rest := by
  refine accepts_repeat_forall₂ (fun b a => b = a ∧ good a) ?_ ?_ rest
  · rintro b a rest ⟨rfl, hb⟩
    exact h b rest hb
  · rw [List.forall₂_same]
    exact fun a ha => ⟨rfl, hgood a ha⟩

/-- **A stream that is cut off.** If `p` fails on every proper prefix of an encoding, then from
any prefix of a concatenation of encodings it reads the values that are there in full, and then
fails. -/
theorem exists_accepts_of_prefix {p : Parse ε α} {encode : α → Bytes} (good : α → Prop) (e : ε)
    (h : ∀ a rest, good a → Accepts p (encode a ++ rest) a rest)
    (hcut : ∀ a bs, good a → bs <+: encode a → bs ≠ encode a → p.run bs = .error e)
    {as : List α} (hgood : ∀ a ∈ as, good a) {bs : Bytes} (hbs : bs <+: as.flatMap encode) :
    ∃ k ≤ as.length, ∃ rest, Accepts («repeat» k p) bs (as.take k) rest ∧
      bs = (as.take k).flatMap encode ++ rest ∧ (bs = as.flatMap encode → k = as.length) ∧
      (k = as.length → rest = []) ∧ (k < as.length → p.run rest = .error e) := by
  induction as generalizing bs with
  | nil =>
    obtain rfl : bs = [] := List.prefix_nil.mp hbs
    exact ⟨0, Nat.le_refl 0, [], accepts_pure.mpr ⟨rfl, rfl⟩, rfl, fun _ => rfl, fun _ => rfl,
      fun h => absurd h (Nat.lt_irrefl 0)⟩
  | cons a as ih =>
    have ha := hgood a List.mem_cons_self
    rw [List.flatMap_cons] at hbs
    by_cases hfull : encode a <+: bs
    -- the first frame is there in full
    · obtain ⟨bs, rfl⟩ := hfull
      obtain ⟨k, hk, rest, hread, hsplit, hend, hall, hmore⟩ :=
        ih (fun b hb => hgood b (List.mem_cons_of_mem _ hb))
          ((List.prefix_append_right_inj _).mp hbs)
      refine ⟨k + 1, Nat.succ_le_succ hk, rest, ?_, ?_,
        fun h => congrArg _ (hend (List.append_cancel_left h)), fun h => hall (Nat.succ.inj h),
        fun h => hmore (Nat.lt_of_succ_lt_succ h)⟩
      · rw [«repeat», accepts_bind]
        refine ⟨a, _, h a _ ha, ?_⟩
        rw [accepts_bind]
        exact ⟨as.take k, rest, hread, accepts_pure.mpr ⟨rfl, rfl⟩⟩
      · rw [List.take_succ_cons, List.flatMap_cons, List.append_assoc, ← hsplit]
    · have hpre : bs <+: encode a :=
        (List.prefix_or_prefix_of_prefix hbs (List.prefix_append _ _)).resolve_right hfull
      have hne : bs ≠ encode a := fun heq => hfull (heq ▸ List.prefix_refl _)
      exact ⟨0, Nat.zero_le _, bs, accepts_pure.mpr ⟨rfl, rfl⟩, rfl,
        fun h => absurd (h ▸ List.prefix_append _ _) hfull, fun h => (by cases h),
        fun _ => hcut a bs ha hpre hne⟩

/-- The converse law: if `p` accepts only encodings of good values, in the loose sense of
`spells`, then so do `n` runs of it. -/
theorem exists_of_accepts_repeat {p : Parse ε α} (spells : α → Bytes → Prop)
    (h : ∀ buf a rest, Accepts p buf a rest → ∃ bs, spells a bs ∧ buf = bs ++ rest) {n : ℕ}
    {buf rest : Bytes} {as : List α} (hr : Accepts («repeat» n p) buf as rest) :
    as.length = n ∧ ∃ bss, List.Forall₂ spells as bss ∧ buf = bss.flatten ++ rest := by
  induction n generalizing buf as with
  | zero =>
    obtain ⟨rfl, rfl⟩ := accepts_pure.mp hr
    exact ⟨rfl, [], .nil, rfl⟩
  | succ n ih =>
    rw [«repeat», accepts_bind] at hr
    obtain ⟨a, mid, ha, hr⟩ := hr
    rw [accepts_bind] at hr
    obtain ⟨as', mid', has, hr⟩ := hr
    obtain ⟨rfl, rfl⟩ := accepts_pure.mp hr
    obtain ⟨bs, hs, rfl⟩ := h _ _ _ ha
    obtain ⟨hlen, bss, hall, rfl⟩ := ih has
    exact ⟨by simp [hlen], bs :: bss, .cons hs hall, by simp⟩

/-- The two laws together: if `p` accepts exactly the spellings of a value, then `n` runs of it
accept exactly the spellings of `n` values in a row. -/
theorem accepts_repeat_iff {p : Parse ε α} (spells : α → Bytes → Prop)
    (h : ∀ buf a rest, Accepts p buf a rest ↔ ∃ bs, spells a bs ∧ buf = bs ++ rest) {n : ℕ}
    {buf rest : Bytes} {as : List α} :
    Accepts («repeat» n p) buf as rest ↔
      as.length = n ∧ ∃ bss, List.Forall₂ spells as bss ∧ buf = bss.flatten ++ rest := by
  constructor
  · exact exists_of_accepts_repeat spells fun buf a rest => (h buf a rest).mp
  · rintro ⟨rfl, bss, hall, rfl⟩
    have hpiece : ∀ bs a rest, spells a bs → Accepts p (id bs ++ rest) a rest :=
      fun bs a rest hs => (h (bs ++ rest) a rest).mpr ⟨bs, hs, rfl⟩
    have hread := accepts_repeat_forall₂ (fun bs a => spells a bs) hpiece hall.flip rest
    rwa [← hall.length_eq, List.flatMap_id] at hread

end Parse

end Padwire
