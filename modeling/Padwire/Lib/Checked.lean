import Padwire.Lib.Endian

/-!
# Computations that may panic

Code that indexes a slice returns a value, returns an error, or panics. `Checked ε α` keeps the
three apart, so that a model with an index out of range is a model that panics and not one that
reads a default. `Safe` excludes the panic; a `do` block is safe when each of its steps is.
-/

namespace Padwire

/-- What a computation comes to. -/
inductive Checked (ε α : Type)
  | ok (a : α)
  | err (e : ε)
  | panic
  deriving DecidableEq, Repr

namespace Checked

variable {ε α β : Type}

/-- Go on with the value; an error or a panic ends the computation. -/
def bind : Checked ε α → (α → Checked ε β) → Checked ε β
  | ok a, f => f a
  | err e, _ => err e
  | panic, _ => panic

instance : Monad (Checked ε) where
  pure := ok
  bind := bind

@[simp]
theorem pure_eq (a : α) : (pure a : Checked ε α) = ok a := rfl

@[simp]
theorem ok_bind (a : α) (f : α → Checked ε β) : (ok a >>= f) = f a := rfl

@[simp]
theorem err_bind (e : ε) (f : α → Checked ε β) : (err e >>= f) = err e := rfl

@[simp]
theorem panic_bind (f : α → Checked ε β) : (panic >>= f : Checked ε β) = panic := rfl

/-- A result comes from a result of each part. -/
theorem bind_eq_ok {x : Checked ε α} {f : α → Checked ε β} {b : β} :
    x >>= f = ok b ↔ ∃ a, x = ok a ∧ f a = ok b := by
  cases x <;> simp

/-- The computation does not panic. -/
def Safe (x : Checked ε α) : Prop :=
  x ≠ panic

instance [DecidableEq ε] [DecidableEq α] (x : Checked ε α) : Decidable x.Safe :=
  inferInstanceAs (Decidable (_ ≠ _))

@[simp]
theorem safe_ok (a : α) : (ok a : Checked ε α).Safe := nofun

@[simp]
theorem safe_err (e : ε) : (err e : Checked ε α).Safe := nofun

@[simp]
theorem not_safe_panic : ¬ (panic : Checked ε α).Safe := fun h => h rfl

/-- A loop is safe if its body is, in every state. -/
theorem safe_foldlM {f : β → α → Checked ε β} {l : List α} (h : ∀ b, ∀ a ∈ l, (f b a).Safe)
    (b : β) : (l.foldlM f b).Safe := by
  induction l generalizing b with
  | nil => exact safe_ok b
  | cons a l ih =>
    rw [List.foldlM_cons]
    have ha := h b a List.mem_cons_self
    cases hfa : f b a with
    | ok b' => exact ih (fun b a' ha' => h b a' (List.mem_cons_of_mem a ha')) b'
    | err e => exact safe_err e
    | panic => exact absurd hfa ha

/-- A loop over two lists, the first of which it gets through. -/
theorem foldlM_append_of_ok {f : β → α → Checked ε β} {l l' : List α} {b b' : β}
    (h : l.foldlM f b = ok b') : (l ++ l').foldlM f b = l'.foldlM f b' := by
  induction l generalizing b with
  | nil =>
    injection h with h
    rw [List.nil_append, h]
  | cons a l ih =>
    rw [List.foldlM_cons] at h
    rw [List.cons_append, List.foldlM_cons]
    cases hfa : f b a with
    | ok b₁ =>
      rw [hfa] at h
      exact ih h
    | err e =>
      rw [hfa] at h
      cases h
    | panic =>
      rw [hfa] at h
      cases h

/-- What comes second has to be safe only for what the first part can return. -/
theorem safe_bind {x : Checked ε α} {f : α → Checked ε β} (hx : x.Safe)
    (hf : ∀ a, x = ok a → (f a).Safe) : (x >>= f).Safe := by
  cases x with
  | ok a => exact hf a rfl
  | err e => exact safe_err e
  | panic => exact absurd hx not_safe_panic

/-- Only the first step can panic. -/
theorem safe_bind_iff {x : Checked ε α} {f : α → Checked ε β} (hf : ∀ a, (f a).Safe) :
    (x >>= f).Safe ↔ x.Safe := by
  refine ⟨fun h hx => ?_, fun hx => safe_bind hx fun a _ => hf a⟩
  rw [hx] at h
  exact not_safe_panic h

/-- Each branch may rely on its side of the test. -/
theorem safe_ite {c : Prop} [Decidable c] {x y : Checked ε α} (hx : c → x.Safe)
    (hy : ¬ c → y.Safe) : (if c then x else y).Safe := by
  split_ifs with h
  · exact hx h
  · exact hy h

/-! ### Values that may be missing -/

variable {ε' : Type}

/-- The value of an option, or the error. -/
def ofOption (e : ε) : Option α → Checked ε α
  | some a => ok a
  | none => err e

def mapErr (f : ε → ε') : Checked ε α → Checked ε' α
  | ok a => ok a
  | err e => err (f e)
  | panic => panic

/-- The value, if there is one: an error does not end the computation. -/
def attempt : Checked ε α → Checked ε' (Option α)
  | ok a => ok (some a)
  | err _ => ok none
  | panic => panic

@[simp]
theorem ofOption_some (e : ε) (a : α) : ofOption e (some a) = ok a := rfl

@[simp]
theorem mapErr_ok (f : ε → ε') (a : α) : (ok a : Checked ε α).mapErr f = ok a := rfl

theorem ofOption_eq_ok {e : ε} {x : Option α} {a : α} : ofOption e x = ok a ↔ x = some a := by
  cases x <;> simp [ofOption]

/-- Mapping the error keeps what there is to return. -/
theorem mapErr_eq_ok {f : ε → ε'} {x : Checked ε α} {a : α} :
    x.mapErr f = ok a ↔ x = ok a := by
  cases x <;> simp [mapErr]

@[simp]
theorem safe_ofOption (e : ε) (x : Option α) : (ofOption e x).Safe := by
  cases x with
  | none => exact safe_err e
  | some a => exact safe_ok a

theorem safe_mapErr {f : ε → ε'} {x : Checked ε α} (h : x.Safe) : (x.mapErr f).Safe := by
  cases x with
  | ok a => exact safe_ok a
  | err e => exact safe_err (f e)
  | panic => exact absurd h not_safe_panic

/-- Mapping the error neither hides a panic nor makes one. -/
theorem safe_mapErr_iff {f : ε → ε'} {x : Checked ε α} : (x.mapErr f).Safe ↔ x.Safe := by
  cases x with
  | ok a => exact iff_of_true (safe_ok _) (safe_ok a)
  | err e => exact iff_of_true (safe_err _) (safe_err e)
  | panic => exact iff_of_false not_safe_panic not_safe_panic

/-- An error that is caught is no panic either. -/
theorem safe_attempt {x : Checked ε α} (h : x.Safe) : (x.attempt : Checked ε' _).Safe := by
  cases x with
  | ok a => exact safe_ok _
  | err e => exact safe_ok _
  | panic => exact absurd h not_safe_panic

/-- The value, where an error or a panic is none. -/
def ok? : Checked ε α → Option α
  | ok a => some a
  | err _ | panic => none

theorem ok?_eq_some {x : Checked ε α} {a : α} : x.ok? = some a ↔ x = ok a := by
  cases x <;> simp [ok?]

/-- What an attempt returns says whether there was an error; a panic goes through it. -/
theorem attempt_eq_ok {x : Checked ε α} {r : Option α} :
    (x.attempt : Checked ε' _) = ok r ↔ x.Safe ∧ r = x.ok? := by
  cases x <;> simp [attempt, ok?, eq_comm]

/-! ### Counted loops -/

/-- A loop with a given number of rounds. -/
def times (f : α → Checked ε α) : ℕ → α → Checked ε α
  | 0, a => ok a
  | n + 1, a => f a >>= times f n

/-- A step that is safe from everywhere is safe any number of times. -/
theorem safe_times {f : α → Checked ε α} (h : ∀ a, (f a).Safe) (n : ℕ) (a : α) :
    (times f n a).Safe := by
  induction n generalizing a with
  | zero => exact safe_ok a
  | succ n ih => exact safe_bind (h a) fun a' _ => ih a'

/-- The first of several rounds. -/
theorem times_succ {f : α → Checked ε α} {n : ℕ} {a a' : α} (h : f a = ok a') :
    times f (n + 1) a = times f n a' := by
  rw [times, h, ok_bind]

/-! ### Slices -/

/-- Index into a slice. -/
def get (xs : List α) (i : ℕ) : Checked ε α :=
  match xs[i]? with
  | some x => ok x
  | none => panic

/-- The part of a slice from `lo` up to `hi`. -/
def slice (xs : List α) (lo hi : ℕ) : Checked ε (List α) :=
  if lo ≤ hi ∧ hi ≤ xs.length then ok ((xs.take hi).drop lo) else panic

/-- Copy a slice over the part of another from `lo` up to `hi`, which has to be as long. -/
def copyFromSlice (xs : List α) (lo hi : ℕ) (src : List α) : Checked ε (List α) :=
  if lo ≤ hi ∧ hi ≤ xs.length ∧ src.length = hi - lo then ok (xs.take lo ++ src ++ xs.drop hi)
  else panic

/-- The part of a slice from `lo` up to `hi`, if the slice is that long: `get` with a range. -/
def slice? (xs : List α) (lo hi : ℕ) : Option (List α) :=
  if lo ≤ hi ∧ hi ≤ xs.length then some ((xs.take hi).drop lo) else none

/-- The part in the middle is what lies between the length of the first and that of the first two.
-/
theorem slice?_append {pre mid post : List α} :
    slice? (pre ++ (mid ++ post)) pre.length (pre.length + mid.length) = some mid := by
  have hbounds : pre.length ≤ pre.length + mid.length ∧
      pre.length + mid.length ≤ (pre ++ (mid ++ post)).length := by
    simp only [List.length_append]
    omega
  rw [slice?, if_pos hbounds, List.take_length_add_append, List.take_left, List.drop_left]

/-- A slice is as long as its bounds say, and these lie within the list. -/
theorem slice?_eq_some {xs ys : List α} {lo hi : ℕ} (h : slice? xs lo hi = some ys) :
    hi ≤ xs.length ∧ ys.length = hi - lo := by
  rw [slice?] at h
  split_ifs at h with hbounds
  obtain rfl := Option.some.inj h
  refine ⟨hbounds.2, ?_⟩
  rw [List.length_drop, List.length_take, Nat.min_eq_left hbounds.2]

/-- An index within the list does not panic. -/
theorem get_of_lt {xs : List α} {i : ℕ} (d : α) (h : i < xs.length) :
    (get xs i : Checked ε α) = ok (xs.getD i d) := by
  rw [get, List.getElem?_eq_getElem h, List.getD_eq_getElem?_getD, List.getElem?_eq_getElem h]
  rfl

theorem get_of_some {xs : List α} {i : ℕ} {x : α} (h : xs[i]? = some x) :
    (get xs i : Checked ε α) = ok x := by
  rw [get, h]

/-- An index beyond the list panics. -/
theorem get_of_le {xs : List α} {i : ℕ} (h : xs.length ≤ i) :
    (get xs i : Checked ε α) = panic := by
  rw [get, List.getElem?_eq_none h]

/-- An index into the middle part of a slice. -/
theorem get_append {pre mid post : List α} {i : ℕ} (h : i < mid.length) :
    (get (pre ++ (mid ++ post)) (pre.length + i) : Checked ε α) = get mid i := by
  rw [get, get, List.getElem?_append_right (Nat.le_add_right _ _), Nat.add_sub_cancel_left,
    List.getElem?_append_left h]

/-- A slice within the list does not panic. -/
theorem slice_of_le {xs : List α} {lo hi : ℕ} (h : lo ≤ hi ∧ hi ≤ xs.length) :
    (slice xs lo hi : Checked ε (List α)) = ok ((xs.take hi).drop lo) :=
  if_pos h

/-- A copy into a slice that is long enough. -/
theorem copyFromSlice_of_le {xs src : List α} {lo : ℕ} (h : lo + src.length ≤ xs.length) :
    (copyFromSlice xs lo (lo + src.length) src : Checked ε (List α)) =
      ok (xs.take lo ++ src ++ xs.drop (lo + src.length)) :=
  if_pos ⟨Nat.le_add_right _ _, h, (Nat.add_sub_cancel_left _ _).symm⟩

end Checked

end Padwire
