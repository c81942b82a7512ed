import Mathlib.Tactic.Common

/-!
# Computations that may fail

How a result of a computation in `Except` came about: what a sequence of computations did one by
one, and what a loop over a list keeps or collects.
-/

namespace Padwire

variable {ε ε' α β σ : Type}

/-- A result comes from a result of each part. -/
theorem bind_eq_ok {x : Except ε α} {f : α → Except ε β} {b : β} :
    (x >>= f) = .ok b ↔ ∃ a, x = .ok a ∧ f a = .ok b := by
  cases x with
  | error e => simp [bind, Except.bind]
  | ok a => simp [bind, Except.bind]

theorem map_eq_ok {x : Except ε α} {f : α → β} {b : β} :
    x.map f = .ok b ↔ ∃ a, x = .ok a ∧ f a = b := by
  cases x <;> simp [Except.map]

/-- An error comes from the first part, or from the second after the first has returned. -/
theorem bind_eq_error {x : Except ε α} {f : α → Except ε β} {e : ε} :
    (x >>= f) = .error e ↔ x = .error e ∨ ∃ a, x = .ok a ∧ f a = .error e := by
  cases x with
  | error e' => simp [bind, Except.bind]
  | ok a => simp [bind, Except.bind]

theorem map_eq_error {x : Except ε α} {f : α → β} {e : ε} :
    x.map f = .error e ↔ x = .error e := by
  cases x <;> simp [Except.map]

/-- An error of a traversal is that of one of its elements. -/
theorem mapM_eq_error {f : α → Except ε β} {l : List α} {e : ε} (h : l.mapM f = .error e) :
    ∃ a ∈ l, f a = .error e := by
  induction l with
  | nil => cases h
  | cons a l ih =>
    rw [List.mapM_cons] at h
    rcases bind_eq_error.mp h with hfirst | ⟨b, -, h⟩
    · exact ⟨a, List.mem_cons_self, hfirst⟩
    · rcases bind_eq_error.mp h with hrest | ⟨bs, -, hpure⟩
      · obtain ⟨a', ha', herr⟩ := ih hrest
        exact ⟨a', List.mem_cons_of_mem _ ha', herr⟩
      · cases hpure

/-- A loop fails at the first step that does. -/
theorem foldlM_eq_error {f : σ → α → Except ε σ} {l : List α} {s : σ} {e : ε}
    (h : l.foldlM f s = .error e) :
    ∃ before a after t, l = before ++ a :: after ∧ before.foldlM f s = .ok t ∧
      f t a = .error e := by
  induction l generalizing s with
  | nil => cases h
  | cons a l ih =>
    rw [List.foldlM_cons] at h
    rcases bind_eq_error.mp h with hfirst | ⟨t, ht, hrest⟩
    · exact ⟨[], a, l, s, rfl, rfl, hfirst⟩
    · obtain ⟨before, a', after, t', rfl, hbefore, herr⟩ := ih hrest
      refine ⟨a :: before, a', after, t', rfl, ?_, herr⟩
      rw [List.foldlM_cons, ht]
      exact hbefore

/-- What every step of a loop keeps holds at its end. -/
theorem foldlM_ok_invariant {f : σ → α → Except ε σ} (Inv : σ → Prop)
    (hstep : ∀ s a s', Inv s → f s a = .ok s' → Inv s') {l : List α} {s s' : σ} (hs : Inv s)
    (h : l.foldlM f s = .ok s') : Inv s' := by
  induction l generalizing s with
  | nil =>
    rw [List.foldlM_nil] at h
    exact Except.ok.inj h ▸ hs
  | cons a l ih =>
    rw [List.foldlM_cons] at h
    obtain ⟨t, ht, h⟩ := bind_eq_ok.mp h
    exact ih (hstep s a t hs ht) h

/-! ### Loops that collect -/

/-- A loop collects what its steps give. -/
theorem mem_foldlM_append {f : α → Except ε (List β)} {l : List α}
    {out out' : List β} (h : l.foldlM (fun out x => (f x).map (out ++ ·)) out = .ok out') {b : β} :
    b ∈ out' ↔ b ∈ out ∨ ∃ x ∈ l, ∃ bs, f x = .ok bs ∧ b ∈ bs := by
  induction l generalizing out with
  | nil =>
    obtain rfl := Except.ok.inj h
    simp
  | cons x l ih =>
    rw [List.foldlM_cons] at h
    obtain ⟨next, hnext, hrest⟩ := bind_eq_ok.mp h
    obtain ⟨bs, hbs, rfl⟩ := map_eq_ok.mp hnext
    rw [ih hrest, List.mem_append]
    simp only [List.mem_cons, exists_eq_or_imp, hbs, Except.ok.injEq, exists_eq_left', or_assoc]

theorem forall_ok_of_foldlM_append {f : α → Except ε (List β)} {l : List α}
    {out out' : List β} (h : l.foldlM (fun out x => (f x).map (out ++ ·)) out = .ok out') :
    ∀ x ∈ l, ∃ bs, f x = .ok bs := by
  induction l generalizing out with
  | nil => exact List.forall_mem_nil _
  | cons x l ih =>
    rw [List.foldlM_cons] at h
    obtain ⟨next, hnext, hrest⟩ := bind_eq_ok.mp h
    obtain ⟨bs, hbs, -⟩ := map_eq_ok.mp hnext
    exact List.forall_mem_cons.mpr ⟨⟨bs, hbs⟩, ih hrest⟩

/-- A loop that gathers lists returns if every round does. -/
theorem exists_foldlM_append {f : α → Except ε (List β)} {l : List α}
    (h : ∀ x ∈ l, ∃ bs, f x = .ok bs) (out : List β) :
    ∃ out', l.foldlM (fun out x => (f x).map (out ++ ·)) out = .ok out' := by
  induction l generalizing out with
  | nil => exact ⟨out, rfl⟩
  | cons x l ih =>
    obtain ⟨⟨bs, hbs⟩, hl⟩ := List.forall_mem_cons.mp h
    obtain ⟨out', hout'⟩ := ih hl (out ++ bs)
    exact ⟨out', by rw [List.foldlM_cons, hbs]; exact hout'⟩

end Padwire
