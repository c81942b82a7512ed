import Mathlib.Data.List.AList
import Mathlib.Data.List.Count
import Mathlib.Data.List.Induction

/-!
# Tables

A hash map of the program is modelled by Mathlib's `AList`: an association list that carries
the proof that its keys are distinct. The list order stands for the map's iteration order,
which nothing fixes, so a statement about every table is a statement about every order.

This file adds what `AList` does not have: lookups after an in-place update
(`lookup_replace`), a pointwise map over the values, the first key whose value satisfies a test
(`findKey?`), and the number of values that satisfy a test (`countValues`) together with its
change under an update.
-/

namespace Padwire

/-- A finite map with an iteration order. -/
abbrev Table (K V : Type) := AList fun _ : K => V

namespace Table

variable {K V : Type} [DecidableEq K]

/-! ### In-place update -/

private theorem kreplace_cons_eq {a : K} {v : V} (e : Σ _ : K, V) (l : List (Σ _ : K, V))
    (h : a = e.1) : List.kreplace a v (e :: l) = ⟨a, v⟩ :: l :=
  List.lookmap_cons_some _ _ (if_pos h)

private theorem kreplace_cons_ne {a : K} {v : V} (e : Σ _ : K, V) (l : List (Σ _ : K, V))
    (h : a ≠ e.1) : List.kreplace a v (e :: l) = e :: List.kreplace a v l :=
  List.lookmap_cons_none _ _ (if_neg h)

omit [DecidableEq K] in
/-- An entry under another key than the first is behind it. -/
theorem mem_of_mem_cons_ne {a : K} {w : V} {e : Σ _ : K, V} {l : List (Σ _ : K, V)}
    (h : (⟨a, w⟩ : Σ _ : K, V) ∈ e :: l) (hk : a ≠ e.1) : (⟨a, w⟩ : Σ _ : K, V) ∈ l :=
  (List.mem_cons.mp h).resolve_left fun heq => hk (congrArg Sigma.fst heq)

theorem lookup_replace_self {t : Table K V} {a : K} {v : V} (h : a ∈ t) :
    (t.replace a v).lookup a = some v := by
  obtain ⟨w, hw⟩ := Option.isSome_iff_exists.mp (AList.lookup_isSome.mpr h)
  have hmem : (⟨a, w⟩ : Σ _ : K, V) ∈ t.entries := List.of_mem_dlookup hw
  have key : ∀ l : List (Σ _ : K, V), (⟨a, w⟩ : Σ _ : K, V) ∈ l →
      (List.kreplace a v l).dlookup a = some v := by
    intro l
    induction l with
    | nil => intro h; cases h
    | cons e l ih =>
      intro h
      by_cases hk : a = e.1
      · rw [kreplace_cons_eq e l hk, List.dlookup_cons_eq]
      · have htail := mem_of_mem_cons_ne h hk
        rw [kreplace_cons_ne e l hk, List.dlookup_cons_ne _ _ hk, ih htail]
  exact key t.entries hmem

theorem lookup_replace_ne {t : Table K V} {a b : K} {v : V} (h : b ≠ a) :
    (t.replace a v).lookup b = t.lookup b := by
  have key : ∀ l : List (Σ _ : K, V), (List.kreplace a v l).dlookup b = l.dlookup b := by
    intro l
    induction l with
    | nil => rfl
    | cons e l ih =>
      by_cases hk : a = e.1
      · rw [kreplace_cons_eq e l hk, List.dlookup_cons_ne _ _ h, List.dlookup_cons_ne _ _ (hk ▸ h)]
      · rw [kreplace_cons_ne e l hk]
        obtain ⟨k, w⟩ := e
        by_cases hb : k = b
        · subst hb
          rw [List.dlookup_cons_eq, List.dlookup_cons_eq]
        · rw [List.dlookup_cons_ne _ _ (Ne.symm hb), List.dlookup_cons_ne _ _ (Ne.symm hb), ih]
  exact key t.entries

/-- A lookup after an in-place update of a key that is present. -/
theorem lookup_replace {t : Table K V} {a : K} (h : a ∈ t) (b : K) (v : V) :
    (t.replace a v).lookup b = if b = a then some v else t.lookup b := by
  split_ifs with hb
  · rw [hb, lookup_replace_self h]
  · exact lookup_replace_ne hb

/-- Updating a key twice keeps the second value. -/
theorem replace_replace (t : Table K V) (a : K) (v w : V) :
    (t.replace a v).replace a w = t.replace a w := by
  have key : ∀ l : List (Σ _ : K, V),
      List.kreplace a w (List.kreplace a v l) = List.kreplace a w l := by
    intro l
    induction l with
    | nil => rfl
    | cons e l ih =>
      by_cases hk : a = e.1
      · rw [kreplace_cons_eq e l hk, kreplace_cons_eq ⟨a, v⟩ l rfl, kreplace_cons_eq e l hk]
      · rw [kreplace_cons_ne e l hk, kreplace_cons_ne e _ hk, kreplace_cons_ne e l hk, ih]
  exact AList.ext (key t.entries)

/-- Updating a key to the value it has changes nothing. -/
theorem replace_self {t : Table K V} {a : K} {v : V} (h : t.lookup a = some v) :
    t.replace a v = t :=
  AList.ext (List.kreplace_self t.nodupKeys (AList.mem_lookup_iff.mp h))

theorem mem_of_lookup {t : Table K V} {a : K} {v : V} (h : t.lookup a = some v) : a ∈ t :=
  AList.lookup_isSome.mp (by rw [h]; rfl)

/-- Erasing a key that was just inserted restores the table. -/
theorem erase_insert {t : Table K V} {a : K} {v : V} (h : a ∉ t) : (t.insert a v).erase a = t := by
  apply AList.ext
  change List.kerase a (t.insert a v).entries = t.entries
  rw [AList.entries_insert_of_notMem h]
  exact List.kerase_cons_eq rfl

/-- After a loop that inserts, a key has the value it was given last. -/
theorem lookup_foldl_insert {α : Type} (key : α → K) (value : α → V) (l : List α) (t : Table K V)
    (k : K) : (l.foldl (fun t a => t.insert (key a) (value a)) t).lookup k =
      ((l.reverse.find? fun a => key a = k).map value).or (t.lookup k) := by
  induction l using List.reverseRecOn with
  | nil => rfl
  | append_singleton l a ih =>
    rw [List.foldl_append, List.foldl_cons, List.foldl_nil, List.reverse_append,
      List.reverse_singleton, List.singleton_append]
    by_cases hk : key a = k
    · rw [List.find?_cons_of_pos (by simpa using hk), hk, AList.lookup_insert]
      rfl
    · rw [List.find?_cons_of_neg (by simpa using hk), AList.lookup_insert_ne (Ne.symm hk), ih]

/-! ### Mapping the values -/

/-- Apply a function to every value, in place. -/
def mapValues (f : V → V) (t : Table K V) : Table K V where
  entries := t.entries.map fun e => ⟨e.1, f e.2⟩
  nodupKeys := by
    have h : (t.entries.map fun e => (⟨e.1, f e.2⟩ : Σ _ : K, V)).keys = t.entries.keys := by
      simp [List.keys, Function.comp_def]
    rw [List.NodupKeys, h]
    exact t.nodupKeys

@[simp]
theorem lookup_mapValues (f : V → V) (t : Table K V) (a : K) :
    (mapValues f t).lookup a = (t.lookup a).map f :=
  List.dlookup_map₂ (l := t.entries) (f := fun _ => f) a

/-! ### Searching the values -/

/-- The first key, in iteration order, whose value satisfies the test. -/
def findKey? (p : V → Bool) (t : Table K V) : Option K :=
  (t.entries.find? fun e => p e.2).map Sigma.fst

theorem lookup_of_findKey? {p : V → Bool} {t : Table K V} {a : K} (h : findKey? p t = some a) :
    ∃ v, t.lookup a = some v ∧ p v = true := by
  obtain ⟨e, he, rfl⟩ := Option.map_eq_some_iff.mp h
  have hmem := List.mem_of_find?_eq_some he
  have hp : p e.2 = true := by simpa using List.find?_some he
  exact ⟨e.2, AList.mem_lookup_iff.mpr hmem, hp⟩

theorem not_of_findKey?_eq_none {p : V → Bool} {t : Table K V} (h : findKey? p t = none) {a : K}
    {v : V} (hv : t.lookup a = some v) : p v = false := by
  have hnone := Option.map_eq_none_iff.mp h
  have hmem : (⟨a, v⟩ : Σ _ : K, V) ∈ t.entries := AList.mem_lookup_iff.mp hv
  simpa using List.find?_eq_none.mp hnone _ hmem

/-! ### Counting the values -/

/-- How many values satisfy the test. -/
def countValues (p : V → Bool) (t : Table K V) : ℕ := t.entries.countP fun e => p e.2

/-- Updating one value in place changes the count by that value alone. -/
theorem countValues_replace (p : V → Bool) {t : Table K V} {a : K} {w : V}
    (h : t.lookup a = some w) (v : V) :
    countValues p (t.replace a v) + (if p w then 1 else 0) =
      countValues p t + (if p v then 1 else 0) := by
  have hmem : (⟨a, w⟩ : Σ _ : K, V) ∈ t.entries := AList.mem_lookup_iff.mp h
  have key : ∀ l : List (Σ _ : K, V), l.NodupKeys → (⟨a, w⟩ : Σ _ : K, V) ∈ l →
      (List.kreplace a v l).countP (fun e => p e.2) + (if p w then 1 else 0) =
        l.countP (fun e => p e.2) + (if p v then 1 else 0) := by
    intro l
    induction l with
    | nil => intro _ h; cases h
    | cons e l ih =>
      intro hnd h
      by_cases hk : a = e.1
      -- the keys are distinct, so the entry under this key is the one being updated
      · have he : e = ⟨a, w⟩ := by
          rcases List.mem_cons.mp h with heq | hl
          · exact heq.symm
          · exact absurd (hk ▸ List.mem_keys_of_mem hl) (List.notMem_keys_of_nodupKeys_cons hnd)
        rw [kreplace_cons_eq e l hk, he, List.countP_cons, List.countP_cons]
        dsimp only
        omega
      · have htail := mem_of_mem_cons_ne h hk
        have hrec := ih (List.nodupKeys_of_nodupKeys_cons hnd) htail
        rw [kreplace_cons_ne e l hk, List.countP_cons, List.countP_cons]
        omega
  exact key t.entries t.nodupKeys hmem

/-- A positive count has a value to show for it. -/
theorem exists_of_countValues_pos {p : V → Bool} {t : Table K V} (h : 0 < countValues p t) :
    ∃ a v, t.lookup a = some v ∧ p v = true := by
  obtain ⟨e, he, hp⟩ := List.countP_pos_iff.mp h
  exact ⟨e.1, e.2, AList.mem_lookup_iff.mpr he, hp⟩

end Table

end Padwire
