import Padwire.Lib.Run
import Mathlib.Data.List.Basic

/-!
# Any number of threads over a shared state

A `Program` says what one thread does: how it is started, what it does next to its own state and
to the shared one, and what the environment may do to the shared state meanwhile. `Program.step`
interleaves any number of such threads; threads are never removed from the pool, a thread that is
over has a state of its own that says so.

`Program.invariant` is the invariant rule for such a system, in the style of Owicki and Gries: a
fact about the shared state, a fact about each thread, and a fact about each two threads. A thread
that moves has to keep the facts of the thread next to it.
-/

namespace Padwire

/-- What a thread of a pool does: `σ` is the shared state, `τ` the state of a thread, `ν` what
a thread is started with, `α` what a thread can do and `β` what the environment can do. -/
structure Program (σ τ ν α β : Type*) where
  spawn : σ → ν → Option (σ × τ)
  move : σ → τ → α → Option (σ × τ)
  env : σ → β → Option σ

/-- The shared state with all threads started so far. -/
structure Pool (σ τ : Type*) where
  shared : σ
  threads : List τ

/-- One step of a pool. -/
inductive Move (ν α β : Type*)
  | spawn (v : ν)
  | act (i : ℕ) (a : α)
  | env (b : β)

variable {σ τ ν α β : Type*}

/-- The pool takes one step: a thread is started, the thread of a given number moves, or the
environment does something. -/
def Program.step (P : Program σ τ ν α β) (p : Pool σ τ) : Move ν α β → Option (Pool σ τ)
  | .spawn v => (P.spawn p.shared v).map fun r => ⟨r.1, p.threads ++ [r.2]⟩
  | .act i a => p.threads[i]?.bind fun t =>
      (P.move p.shared t a).map fun r => ⟨r.1, p.threads.set i r.2⟩
  | .env b => (P.env p.shared b).map fun s => ⟨s, p.threads⟩

/-- What `Program.step` can do to a pool. -/
inductive Program.Effect (P : Program σ τ ν α β) (p : Pool σ τ) : Move ν α β → Pool σ τ → Prop
  | spawn {v : ν} {s : σ} {x : τ} (h : P.spawn p.shared v = some (s, x)) :
      P.Effect p (.spawn v) ⟨s, p.threads ++ [x]⟩
  | act {i : ℕ} {a : α} {s : σ} {x x' : τ} (hi : p.threads[i]? = some x)
      (h : P.move p.shared x a = some (s, x')) : P.Effect p (.act i a) ⟨s, p.threads.set i x'⟩
  | env {b : β} {s : σ} (h : P.env p.shared b = some s) : P.Effect p (.env b) ⟨s, p.threads⟩

theorem Program.effect_of_step (P : Program σ τ ν α β) {p p' : Pool σ τ} {m : Move ν α β}
    (hstep : P.step p m = some p') : P.Effect p m p' := by
  cases m with
  | spawn v =>
    obtain ⟨⟨s, x⟩, hs, rfl⟩ := Option.map_eq_some_iff.mp hstep
    exact .spawn hs
  | act i a =>
    obtain ⟨x, hi, hm⟩ := Option.bind_eq_some_iff.mp hstep
    obtain ⟨⟨s, x'⟩, hs, rfl⟩ := Option.map_eq_some_iff.mp hm
    exact .act hi hs
  | env b =>
    obtain ⟨s, hs, rfl⟩ := Option.map_eq_some_iff.mp hstep
    exact .env hs

/-- The facts of a pool hold: of the shared state, of each thread, of each two threads. -/
structure Pool.Holds (I : σ → Prop) (L : σ → τ → Prop) (R : τ → τ → Prop) (p : Pool σ τ) :
    Prop where
  shared : I p.shared
  each : ∀ (i : ℕ) t, p.threads[i]? = some t → L p.shared t
  apart : ∀ (i j : ℕ) t u, p.threads[i]? = some t → p.threads[j]? = some u → i ≠ j → R t u

variable {P : Program σ τ ν α β} {I : σ → Prop} {L : σ → τ → Prop} {R : τ → τ → Prop}
  {p p' : Pool σ τ}

theorem Pool.Holds.spawn (hsymm : ∀ {t u}, R t u → R u t) (h : p.Holds I L R) {s : σ} {x : τ}
    (hI : I s) (hx : L s x) (hkeep : ∀ t, L p.shared t → L s t ∧ R x t) :
    Pool.Holds I L R ⟨s, p.threads ++ [x]⟩ := by
  have hnew : ∀ {i : ℕ} {t}, (p.threads ++ [x])[i]? = some t → p.threads[i]? = some t ∨
      i = p.threads.length ∧ t = x := by
    intro i t ht
    rcases Nat.lt_trichotomy i p.threads.length with hi | rfl | hi
    · exact .inl (by rwa [List.getElem?_append_left hi] at ht)
    · exact .inr ⟨rfl, by simpa using ht.symm⟩
    · rw [List.getElem?_append_right (by omega), List.getElem?_eq_none (by simp; omega)] at ht
      cases ht
  refine ⟨hI, fun i t ht => ?_, fun i j t u ht hu hij => ?_⟩
  · rcases hnew ht with ht | ⟨-, rfl⟩
    · exact (hkeep t (h.each i t ht)).1
    · exact hx
  · rcases hnew ht with ht' | ⟨rfl, rfl⟩ <;> rcases hnew hu with hu' | ⟨rfl, rfl⟩
    · exact h.apart i j t u ht' hu' hij
    · exact hsymm (hkeep t (h.each i t ht')).2
    · exact (hkeep u (h.each j u hu')).2
    · exact absurd rfl hij

theorem Pool.Holds.act (hsymm : ∀ {t u}, R t u → R u t) (h : p.Holds I L R) {i : ℕ} {s : σ}
    {x x' : τ} (hi : p.threads[i]? = some x) (hI : I s) (hx : L s x')
    (hkeep : ∀ t, L p.shared t → R x t → L s t ∧ R x' t) :
    Pool.Holds I L R ⟨s, p.threads.set i x'⟩ := by
  have hset : ∀ {j : ℕ} {t}, (p.threads.set i x')[j]? = some t →
      i = j ∧ t = x' ∨ i ≠ j ∧ p.threads[j]? = some t := by
    intro j t ht
    rw [List.getElem?_set] at ht
    split_ifs at ht with hij hlt
    · exact .inl ⟨hij, (Option.some.inj ht).symm⟩
    · exact .inr ⟨hij, ht⟩
  have hother : ∀ {j : ℕ} {t}, i ≠ j → p.threads[j]? = some t → L s t ∧ R x' t :=
    fun hij ht => hkeep _ (h.each _ _ ht) (h.apart i _ x _ hi ht hij)
  refine ⟨hI, fun j t ht => ?_, fun j k t u ht hu hjk => ?_⟩
  · rcases hset ht with ⟨-, rfl⟩ | ⟨hij, ht⟩
    · exact hx
    · exact (hother hij ht).1
  · rcases hset ht with ⟨rfl, rfl⟩ | ⟨hij, ht'⟩ <;> rcases hset hu with ⟨rfl, rfl⟩ | ⟨hik, hu'⟩
    · exact absurd rfl hjk
    · exact (hother hik hu').2
    · exact hsymm (hother hij ht').2
    · exact h.apart j k t u ht' hu' hjk

/-- **Invariant rule for pools.** The facts hold of every pool reached if they hold at the start,
a thread that starts or moves keeps them for itself and for any thread beside it, and what the
environment does keeps them for every thread. -/
theorem Program.invariant {init : Pool σ τ → Prop} {ok : Pool σ τ → Move ν α β → Prop}
    (hsymm : ∀ {t u}, R t u → R u t) (hinit : ∀ p, init p → p.Holds I L R)
    (hspawn : ∀ s v s' x, I s → P.spawn s v = some (s', x) →
      I s' ∧ L s' x ∧ ∀ t, L s t → L s' t ∧ R x t)
    (hmove : ∀ s x a s' x', I s → L s x → P.move s x a = some (s', x') →
      I s' ∧ L s' x' ∧ ∀ t, L s t → R x t → L s' t ∧ R x' t)
    (henv : ∀ (p : Pool σ τ) b s', p.Holds I L R → ok p (.env b) → P.env p.shared b = some s' →
      I s' ∧ ∀ (i : ℕ) t, p.threads[i]? = some t → L s' t)
    (h : Reach P.step init ok p) : p.Holds I L R := by
  refine h.invariant (Pool.Holds I L R) hinit fun p m p' hp hok hstep => ?_
  cases P.effect_of_step hstep with
  | spawn hs =>
    obtain ⟨hI, hx, hkeep⟩ := hspawn _ _ _ _ hp.shared hs
    exact hp.spawn hsymm hI hx hkeep
  | act hi hs =>
    obtain ⟨hI, hx, hkeep⟩ := hmove _ _ _ _ _ hp.shared (hp.each _ _ hi) hs
    exact hp.act hsymm hi hI hx hkeep
  | env hs =>
    obtain ⟨hI, hL⟩ := henv p _ _ hp hok hs
    exact ⟨hI, hL, hp.apart⟩

/-- Replacing one thread changes a count of threads by that thread alone. -/
theorem countP_set_add {l : List τ} {i : ℕ} {x : τ} (h : l[i]? = some x) (x' : τ)
    (f : τ → Bool) :
    (l.set i x').countP f + (if f x then 1 else 0) = l.countP f + (if f x' then 1 else 0) := by
  obtain ⟨hi, rfl⟩ := List.getElem?_eq_some_iff.mp h
  have hle := List.boole_getElem_le_countP (p := f) hi
  rw [List.countP_set hi]
  omega

/-- A count of threads does not change if the thread that is replaced counts as before. -/
theorem countP_set_of_eq {l : List τ} {i : ℕ} {x x' : τ} (h : l[i]? = some x) {f : τ → Bool}
    (hf : f x' = f x) : (l.set i x').countP f = l.countP f := by
  have hcount := countP_set_add h x' f
  rw [hf] at hcount
  exact Nat.add_right_cancel hcount

/-- The pool an evaluated run ends in is reached, under a condition checked along the way. -/
theorem Program.exists_reach (P : Program σ τ ν α β) {init : Pool σ τ → Prop}
    {ok : Pool σ τ → Move ν α β → Prop} {check : Pool σ τ → Move ν α β → Bool}
    (hok : ∀ p m, check p m = true → ok p m) {p : Pool σ τ} (hp : init p)
    (ms : List (Move ν α β)) (f : Pool σ τ → Bool)
    (hf : (runIf P.step check p ms).any f = true) :
    ∃ p', Reach P.step init ok p' ∧ f p' = true :=
  exists_reach_of_runIf init hok hp hf

theorem Program.exists_reachable (P : Program σ τ ν α β) {init : Pool σ τ → Prop} {p : Pool σ τ}
    (hp : init p) (ms : List (Move ν α β)) (f : Pool σ τ → Bool)
    (hf : (run P.step p ms).any f = true) : ∃ p', Reachable P.step init p' ∧ f p' = true :=
  P.exists_reach (fun _ _ _ => trivial) hp ms f hf

end Padwire
