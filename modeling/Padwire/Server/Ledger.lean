import Padwire.Server.Session

/-!
# The ledger of one endpoint

A report of a prefetched endpoint takes one of two routes to the client: through the buffer and
the reader, or straight from the reaper to a waiting submit. Both threads post after they have
released the lock. That no report overtakes another is a fact about the shape of the ledger
(`Ordered`): first the reports whose fate is settled, then at most one in a thread's hand, then
those that are still buffered or were dropped from the buffer. The reader holds a report only
while nobody waits, and the reaper holds one only while nothing is buffered, so there is never a
second in hand.

There is one lemma for each thing that can happen to the reports of an endpoint: `Ordered.take`,
`Ordered.register`, `Ordered.forget`, `Ordered.clear`, `Ordered.deliver`, `Ordered.post` and
`Ordered.giveUp`.
-/

namespace Padwire

/-! ### Fates -/

/-- Nothing will happen to the report any more. -/
def Fate.settled : Fate → Bool
  | .posted _ _ | .evicted _ | .cleared | .unposted => true
  | .buffered | .inHand _ _ _ => false

/-- The report has not left the buffer for a thread's hand. -/
def Fate.unsent : Fate → Bool
  | .buffered | .evicted _ | .cleared => true
  | .inHand _ _ _ | .posted _ _ | .unposted => false

namespace Tracked

/-- The seqnum and the payload of the reply a report was posted with. -/
def posted? (t : Tracked) : Option (UInt32 × Bytes) :=
  match t.fate with
  | .posted seqnum maxLen => some (seqnum, t.report.take maxLen)
  | _ => none

theorem isBuffered_iff {t : Tracked} : t.isBuffered = true ↔ t.fate = .buffered := by
  rw [isBuffered, decide_eq_true_eq]

theorem isBuffered_of_settled {t : Tracked} (h : t.fate.settled = true) :
    t.isBuffered = false := by
  cases hf : t.fate <;> simp_all [isBuffered, Fate.settled]

theorem settled_of_unsent {t : Tracked} (h : t.fate.unsent = true) (hb : ¬ t.isBuffered = true) :
    t.fate.settled = true := by
  cases hf : t.fate <;> simp_all [isBuffered, Fate.settled, Fate.unsent]

theorem posted?_of_unsent {t : Tracked} (h : t.fate.unsent = true) : t.posted? = none := by
  cases hf : t.fate <;> simp_all [posted?, Fate.unsent]

/-- A report that no thread holds is not moved by what the threads do. -/
def loose (t : Tracked) : Prop := ∀ h s n, t.fate ≠ .inHand h s n

theorem loose_of_settled {t : Tracked} (h : t.fate.settled = true) : t.loose := by
  intro holder s n hf
  rw [hf] at h
  cases h

theorem loose_of_unsent {t : Tracked} (h : t.fate.unsent = true) : t.loose := by
  intro holder s n hf
  rw [hf] at h
  cases h

@[simp]
theorem report_post (t : Tracked) (holder : Holder) : (t.post holder).report = t.report := by
  unfold post
  split
  · split_ifs <;> rfl
  · rfl

@[simp]
theorem report_giveUp (t : Tracked) (holder : Holder) : (t.giveUp holder).report = t.report := by
  unfold giveUp
  split
  · split_ifs <;> rfl
  · rfl

@[simp]
theorem report_clear (t : Tracked) : t.clear.report = t.report := by
  unfold clear
  split_ifs <;> rfl

theorem clear_of_not_buffered {t : Tracked} (h : t.isBuffered = false) : t.clear = t := by
  rw [clear, h]
  rfl

end Tracked

private theorem map_eq_self {f : Tracked → Tracked} {ts : List Tracked}
    (h : ∀ t ∈ ts, f t = t) : ts.map f = ts :=
  (List.map_congr_left h).trans (List.map_id ts)

/-- What is not buffered is passed over. -/
theorem settleOldest_append {l r : List Tracked} (fate : Fate)
    (h : ∀ t ∈ l, t.isBuffered = false) :
    settleOldest fate (l ++ r) = l ++ settleOldest fate r := by
  induction l with
  | nil => rfl
  | cons t l ih =>
    rw [List.cons_append, settleOldest, h t List.mem_cons_self, if_neg Bool.false_ne_true,
      ih fun x hx => h x (List.mem_cons_of_mem t hx), List.cons_append]

/-- The oldest buffered report splits the ledger. -/
theorem exists_oldest {ts : List Tracked} {data : Bytes} {rest : List Bytes}
    (h : (ts.filter Tracked.isBuffered).map Tracked.report = data :: rest) :
    ∃ pre t post, ts = pre ++ t :: post ∧ (∀ x ∈ pre, ¬ x.isBuffered = true) ∧
      t.isBuffered = true ∧ t.report = data ∧
      (post.filter Tracked.isBuffered).map Tracked.report = rest ∧
      ∀ fate, settleOldest fate ts = pre ++ { t with fate } :: post := by
  obtain ⟨t, l, hl, ht, hrest⟩ := List.map_eq_cons_iff.mp h
  obtain ⟨pre, post, rfl, hpre, hbuf, rfl⟩ := List.filter_eq_cons_iff.mp hl
  refine ⟨pre, t, post, rfl, hpre, hbuf, ht, hrest, fun fate => ?_⟩
  rw [settleOldest_append fate fun x hx => Bool.eq_false_iff.mpr (hpre x hx), settleOldest,
    if_pos hbuf]

/-! ### Order -/

/-- What the threads hold of the reports of one endpoint: nothing, or one report. The reader
holds one only while nobody waits, the reaper only while nothing is buffered. -/
inductive Hand (held : Holder → Option (UInt32 × Bytes)) (captured : List Bytes)
    (waiting : Option Waiter) : List Tracked → Prop
  | empty : (∀ h, held h = none) → Hand held captured waiting []
  | one {t : Tracked} {h : Holder} {s : UInt32} {n : ℕ} : t.fate = .inHand h s n →
      held h = some (s, t.report.take n) → (∀ h', h' ≠ h → held h' = none) →
      (h = .reader → waiting = none) → (h = .reaper → captured = []) →
      Hand held captured waiting [t]

/-- The ledger of an endpoint, cut into what is settled, what is in hand and what is not sent
yet. -/
structure Cut (held : Holder → Option (UInt32 × Bytes)) (captured : List Bytes)
    (waiting : Option Waiter) (posted : List (UInt32 × Bytes)) (done hand tail : List Tracked) :
    Prop where
  waits : waiting.isSome = true → captured = []
  settled : ∀ t ∈ done, t.fate.settled = true
  holds : Hand held captured waiting hand
  unsent : ∀ t ∈ tail, t.fate.unsent = true
  buffered : (tail.filter Tracked.isBuffered).map Tracked.report = captured
  sent : done.filterMap Tracked.posted? = posted

/-- The reports of an endpoint have been posted in the order in which it took them. -/
def Ordered (ts : List Tracked) (held : Holder → Option (UInt32 × Bytes)) (captured : List Bytes)
    (waiting : Option Waiter) (posted : List (UInt32 × Bytes)) : Prop :=
  ∃ done hand tail, ts = done ++ hand ++ tail ∧ Cut held captured waiting posted done hand tail

namespace Hand

variable {held : Holder → Option (UInt32 × Bytes)} {captured : List Bytes}
  {waiting : Option Waiter} {hand : List Tracked}

theorem not_buffered (h : Hand held captured waiting hand) :
    ∀ t ∈ hand, t.isBuffered = false := by
  cases h with
  | empty _ => exact fun t ht => by cases ht
  | one hf _ _ _ _ =>
    intro t ht
    obtain rfl := List.mem_singleton.mp ht
    rw [Tracked.isBuffered, hf]
    rfl

theorem posted_nil (h : Hand held captured waiting hand) :
    hand.filterMap Tracked.posted? = [] := by
  cases h with
  | empty _ => rfl
  | one hf _ _ _ _ => simp [Tracked.posted?, hf]

/-- If neither thread can hold a report, none is in hand. -/
theorem eq_nil (h : Hand held captured waiting hand)
    (hreader : held .reader = none ∨ waiting ≠ none)
    (hreaper : held .reaper = none ∨ captured ≠ []) : hand = [] ∧ ∀ h, held h = none := by
  cases h with
  | empty hnone => exact ⟨rfl, hnone⟩
  | @one t holder s n _ hheld _ hr hp =>
    cases holder with
    | reader =>
      rcases hreader with hno | hw
      · rw [hno] at hheld
        cases hheld
      · exact absurd (hr rfl) hw
    | reaper =>
      rcases hreaper with hno | hc
      · rw [hno] at hheld
        cases hheld
      · exact absurd (hp rfl) hc

end Hand

namespace Ordered

variable {ts : List Tracked} {held : Holder → Option (UInt32 × Bytes)} {captured : List Bytes}
  {waiting : Option Waiter} {posted : List (UInt32 × Bytes)}

/-- The buffer of the endpoint is what the ledger has as buffered. -/
theorem buffered (h : Ordered ts held captured waiting posted) :
    (ts.filter Tracked.isBuffered).map Tracked.report = captured := by
  obtain ⟨done, hand, tail, rfl, hc⟩ := h
  have hdone : done.filter Tracked.isBuffered = [] :=
    List.filter_eq_nil_iff.mpr fun t ht =>
      Bool.eq_false_iff.mp (Tracked.isBuffered_of_settled (hc.settled t ht))
  have hhand : hand.filter Tracked.isBuffered = [] :=
    List.filter_eq_nil_iff.mpr fun t ht => Bool.eq_false_iff.mp (hc.holds.not_buffered t ht)
  rw [List.filter_append, List.filter_append, hdone, hhand]
  exact hc.buffered

/-- The reports that were posted, in order, are those of the ledger that are marked so. -/
theorem posted_eq (h : Ordered ts held captured waiting posted) :
    ts.filterMap Tracked.posted? = posted := by
  obtain ⟨done, hand, tail, rfl, hc⟩ := h
  have htail : tail.filterMap Tracked.posted? = [] :=
    List.filterMap_eq_nil_iff.mpr fun t ht => Tracked.posted?_of_unsent (hc.unsent t ht)
  rw [List.filterMap_append, List.filterMap_append, hc.holds.posted_nil, htail, hc.sent,
    List.append_nil, List.append_nil]

/-- A report marked as in hand is in the hand of that thread. -/
theorem held_of_mem (h : Ordered ts held captured waiting posted) {t : Tracked} (ht : t ∈ ts)
    {holder : Holder} {s : UInt32} {n : ℕ} (hf : t.fate = .inHand holder s n) :
    held holder = some (s, t.report.take n) := by
  obtain ⟨done, hand, tail, rfl, hc⟩ := h
  rw [List.mem_append, List.mem_append] at ht
  rcases ht with (ht | ht) | ht
  · exact absurd hf (Tracked.loose_of_settled (hc.settled t ht) holder s n)
  · cases hc.holds with
    | empty _ => cases ht
    | one hf' hheld _ _ _ =>
      obtain rfl := List.mem_singleton.mp ht
      rw [hf] at hf'
      cases hf'
      exact hheld
  · exact absurd hf (Tracked.loose_of_unsent (hc.unsent t ht) holder s n)

/-- The oldest buffered report goes to a client that asks for it: the reader holds it now. -/
theorem take {data : Bytes} {rest : List Bytes} (h : Ordered ts held captured waiting posted)
    (hreader : held .reader = none) (hcap : captured = data :: rest) (s : UInt32) (n : ℕ) :
    Ordered (settleOldest (.inHand .reader s n) ts)
      (Function.update held .reader (some (s, data.take n))) rest waiting posted := by
  obtain ⟨done, hand, tail, rfl, hc⟩ := h
  have hne : captured ≠ [] := by rw [hcap]; exact List.cons_ne_nil _ _
  -- something is buffered, so nobody waits and the reaper holds nothing
  have hwait : waiting = none := by
    cases waiting with
    | none => rfl
    | some w => exact absurd (hc.waits rfl) hne
  obtain ⟨rfl, hnone⟩ := hc.holds.eq_nil (.inl hreader) (.inr hne)
  obtain ⟨pre, t, post, rfl, hpre, hbuf, rfl, hrest, hset⟩ :=
    exists_oldest (hc.buffered.trans hcap)
  have hmem : ∀ x ∈ pre, x ∈ pre ++ t :: post := fun x hx => List.mem_append_left _ hx
  refine ⟨done ++ pre, [{ t with fate := .inHand .reader s n }], post, ?_, ?_⟩
  · rw [List.append_nil, settleOldest_append _ fun x hx =>
      Tracked.isBuffered_of_settled (hc.settled x hx), hset]
    simp
  · refine ⟨fun hw => (by rw [hwait] at hw; cases hw), fun x hx => ?_, ?_, fun x hx => ?_, hrest,
      ?_⟩
    · rcases List.mem_append.mp hx with hx | hx
      · exact hc.settled x hx
      · exact Tracked.settled_of_unsent (hc.unsent x (hmem x hx)) (hpre x hx)
    · refine .one rfl (Function.update_self _ _ _) (fun h' hh => ?_) (fun _ => hwait)
        fun hh => by cases hh
      rw [Function.update_of_ne hh]
      exact hnone h'
    · exact hc.unsent x (List.mem_append_right _ (List.mem_cons_of_mem t hx))
    · have hnil : pre.filterMap Tracked.posted? = [] :=
        List.filterMap_eq_nil_iff.mpr fun x hx =>
          Tracked.posted?_of_unsent (hc.unsent x (hmem x hx))
      rw [List.filterMap_append, hnil, List.append_nil, hc.sent]

/-- A client waits while nothing is buffered and the reader holds nothing. -/
theorem register (h : Ordered ts held captured waiting posted) (hreader : held .reader = none)
    (hcap : captured = []) (w : Waiter) : Ordered ts held captured (some w) posted := by
  obtain ⟨done, hand, tail, rfl, hc⟩ := h
  refine ⟨done, hand, tail, rfl, fun _ => hcap, hc.settled, ?_, hc.unsent, hc.buffered, hc.sent⟩
  cases hc.holds with
  | empty hnone => exact .empty hnone
  | @one t holder s n hf hheld hother _ hp =>
    refine .one hf hheld hother (fun hh => ?_) hp
    rw [hh, hreader] at hheld
    cases hheld

/-- The waiter is forgotten. -/
theorem forget (h : Ordered ts held captured waiting posted) :
    Ordered ts held captured none posted := by
  obtain ⟨done, hand, tail, rfl, hc⟩ := h
  refine ⟨done, hand, tail, rfl, fun hw => (by cases hw), hc.settled, ?_, hc.unsent, hc.buffered,
    hc.sent⟩
  cases hc.holds with
  | empty hnone => exact .empty hnone
  | one hf hheld hother _ hp => exact .one hf hheld hother (fun _ => rfl) hp

/-- The buffer is cleared and the waiter forgotten. -/
theorem clear (h : Ordered ts held captured waiting posted) :
    Ordered (ts.map Tracked.clear) held [] none posted := by
  obtain ⟨done, hand, tail, rfl, hc⟩ := h.forget
  have hdone : done.map Tracked.clear = done := map_eq_self fun t ht =>
    Tracked.clear_of_not_buffered (Tracked.isBuffered_of_settled (hc.settled t ht))
  have hhand : hand.map Tracked.clear = hand := map_eq_self fun t ht =>
    Tracked.clear_of_not_buffered (hc.holds.not_buffered t ht)
  have htail : ∀ t ∈ tail.map Tracked.clear, t.fate.unsent = true ∧ t.isBuffered = false := by
    intro t ht
    obtain ⟨t₀, ht₀, rfl⟩ := List.mem_map.mp ht
    unfold Tracked.clear
    split_ifs with hb
    · exact ⟨rfl, rfl⟩
    · exact ⟨hc.unsent t₀ ht₀, Bool.eq_false_iff.mpr hb⟩
  refine ⟨done, hand, tail.map Tracked.clear, ?_, fun hw => (by cases hw), hc.settled, ?_,
    fun t ht => (htail t ht).1, ?_, hc.sent⟩
  · rw [List.map_append, List.map_append, hdone, hhand]
  · cases hc.holds with
    | empty hnone => exact .empty hnone
    | one hf hheld hother hr _ => exact .one hf hheld hother hr fun _ => rfl
  · have hnil : (tail.map Tracked.clear).filter Tracked.isBuffered = [] :=
      List.filter_eq_nil_iff.mpr fun t ht => Bool.eq_false_iff.mp (htail t ht).2
    rw [hnil, List.map_nil]

/-- One more report goes into the buffer, and the oldest is dropped if that is full. -/
theorem push (h : Ordered ts held captured none posted) (hreaper : held .reaper = none)
    (data : Bytes) :
    Ordered ((if captured.length = DEPTH then settleOldest (.evicted captured) ts else ts) ++
      [{ report := data, fate := .buffered }]) held (Endpoint.push captured data) none posted := by
  obtain ⟨done, hand, tail, rfl, hc⟩ := h
  -- the report in hand stays where it is, since only the reader can hold one here
  have hhand : ∀ captured', Hand held captured' none hand := by
    intro captured'
    cases hc.holds with
    | empty hnone => exact .empty hnone
    | @one t holder s n hf hheld hother hr _ =>
      refine .one hf hheld hother hr fun hh => ?_
      rw [hh, hreaper] at hheld
      cases hheld
  have hpass : ∀ t ∈ done ++ hand, t.isBuffered = false := by
    intro t ht
    rcases List.mem_append.mp ht with ht | ht
    · exact Tracked.isBuffered_of_settled (hc.settled t ht)
    · exact hc.holds.not_buffered t ht
  unfold Endpoint.push
  split_ifs with hfull
  -- a full buffer is not empty, and its oldest report splits the tail
  · obtain ⟨x, rest, hcap⟩ := List.exists_cons_of_ne_nil
      (List.ne_nil_of_length_pos (by rw [hfull]; decide : 0 < captured.length))
    obtain ⟨pre, t, post, rfl, hpre, hbuf, -, hrest, hset⟩ :=
      exists_oldest (hc.buffered.trans hcap)
    refine ⟨done, hand, pre ++ { t with fate := .evicted captured } :: post ++
      [{ report := data, fate := .buffered }], ?_, fun hw => (by cases hw), hc.settled, hhand _,
      fun x hx => ?_, ?_, hc.sent⟩
    · rw [settleOldest_append _ hpass, hset]
      simp
    · simp only [List.mem_append, List.mem_cons, List.not_mem_nil, or_false] at hx
      rcases hx with (hx | rfl | hx) | rfl
      · exact hc.unsent x (List.mem_append_left _ hx)
      · rfl
      · exact hc.unsent x (List.mem_append_right _ (List.mem_cons_of_mem t hx))
      · rfl
    · have hnil : pre.filter Tracked.isBuffered = [] := List.filter_eq_nil_iff.mpr hpre
      rw [List.filter_append, List.filter_append, hnil, hcap]
      simp [Tracked.isBuffered, ← hrest]
  · refine ⟨done, hand, tail ++ [{ report := data, fate := .buffered }], ?_,
      fun hw => (by cases hw), hc.settled, hhand _, fun x hx => ?_, ?_, hc.sent⟩
    · simp
    · rcases List.mem_append.mp hx with hx | hx
      · exact hc.unsent x hx
      · rw [List.mem_singleton.mp hx]
        rfl
    · rw [List.filter_append, List.map_append, hc.buffered]
      rfl

/-- One more report goes straight to the client that waits: the reaper holds it now. -/
theorem fill {w : Waiter} (h : Ordered ts held captured (some w) posted)
    (hreaper : held .reaper = none) (data : Bytes) :
    Ordered (ts ++ [{ report := data, fate := .inHand .reaper w.seqnum w.maxLen }])
      (Function.update held .reaper (some (w.seqnum, data.take w.maxLen))) captured none
      posted := by
  obtain ⟨done, hand, tail, rfl, hc⟩ := h
  -- somebody waits, so nothing is buffered and the whole tail is settled
  have hcap := hc.waits rfl
  obtain ⟨rfl, hnone⟩ := hc.holds.eq_nil (.inr (Option.some_ne_none w)) (.inl hreaper)
  have hno : ∀ t ∈ tail, ¬ t.isBuffered = true := by
    have hnil := hc.buffered
    rw [hcap, List.map_eq_nil_iff] at hnil
    exact List.filter_eq_nil_iff.mp hnil
  refine ⟨done ++ tail, [{ report := data, fate := .inHand .reaper w.seqnum w.maxLen }], [], ?_,
    fun hw => (by cases hw), fun t ht => ?_, ?_, fun t ht => (by cases ht), hcap.symm, ?_⟩
  · simp
  · rcases List.mem_append.mp ht with ht | ht
    · exact hc.settled t ht
    · exact Tracked.settled_of_unsent (hc.unsent t ht) (hno t ht)
  · refine .one rfl (Function.update_self _ _ _) (fun h' hh => ?_) (fun hh => by cases hh)
      fun _ => hcap
    rw [Function.update_of_ne hh]
    exact hnone h'
  · have hnil : tail.filterMap Tracked.posted? = [] :=
      List.filterMap_eq_nil_iff.mpr fun t ht => Tracked.posted?_of_unsent (hc.unsent t ht)
    rw [List.filterMap_append, hnil, List.append_nil, hc.sent]

/-- A thread lets go of what it holds, posting it or giving it up. -/
theorem release {f : Tracked → Tracked} (h : Ordered ts held captured waiting posted)
    (holder : Holder) (sent : Bool)
    (hsame : ∀ t, (∀ s n, t.fate ≠ .inHand holder s n) → f t = t)
    (hown : ∀ t s n, t.fate = .inHand holder s n → (f t).fate.settled = true ∧
      (f t).posted? = if sent then some (s, t.report.take n) else none) :
    Ordered (ts.map f) (Function.update held holder none) captured waiting
      (posted ++ if sent then (held holder).toList else []) := by
  obtain ⟨done, hand, tail, rfl, hc⟩ := h
  have hdone : done.map f = done := map_eq_self fun t ht =>
    hsame t fun s n => Tracked.loose_of_settled (hc.settled t ht) holder s n
  have htail : tail.map f = tail := map_eq_self fun t ht =>
    hsame t fun s n => Tracked.loose_of_unsent (hc.unsent t ht) holder s n
  have hrest : ∀ h', h' ≠ holder → Function.update held holder none h' = held h' :=
    fun h' hh => Function.update_of_ne hh _ _
  rw [List.map_append, List.map_append, hdone, htail]
  cases hc.holds with
  | empty hnone =>
    refine ⟨done, [], tail, rfl, hc.waits, hc.settled, .empty fun h' => ?_, hc.unsent, hc.buffered,
      ?_⟩
    · by_cases hh : h' = holder
      · rw [hh, Function.update_self]
      · rw [hrest h' hh]
        exact hnone h'
    · rw [hnone holder]
      simpa using hc.sent
  | @one t holder' s n hf hheld hother hr hp =>
    by_cases hh : holder' = holder
    · subst hh
      obtain ⟨hsettled, hposted⟩ := hown t s n hf
      refine ⟨done ++ [f t], [], tail, by simp, hc.waits, fun x hx => ?_, .empty fun h' => ?_,
        hc.unsent, hc.buffered, ?_⟩
      · rcases List.mem_append.mp hx with hx | hx
        · exact hc.settled x hx
        · rw [List.mem_singleton.mp hx]
          exact hsettled
      · by_cases hh : h' = holder'
        · rw [hh, Function.update_self]
        · rw [hrest h' hh]
          exact hother h' hh
      · rw [List.filterMap_append, hc.sent, hheld, List.filterMap_cons, hposted]
        cases sent <;> rfl
    -- the other thread holds the report, and this one lets go of nothing
    · have hfix : f t = t := hsame t fun s' n' hf' => by
        rw [hf] at hf'
        exact hh (Fate.inHand.inj hf').1
      have hnone : held holder = none := hother holder fun h' => hh h'.symm
      rw [hnone, ← hnone, Function.update_eq_self, List.map_singleton, hfix]
      refine ⟨done, [t], tail, rfl, hc.waits, hc.settled, .one hf hheld hother hr hp, hc.unsent,
        hc.buffered, ?_⟩
      rw [hnone]
      simpa using hc.sent

theorem post (h : Ordered ts held captured waiting posted) (holder : Holder) :
    Ordered (ts.map (Tracked.post holder)) (Function.update held holder none) captured waiting
      (posted ++ (held holder).toList) := by
  refine h.release holder true (fun t ht => ?_) fun t s n hf => ?_
  · unfold Tracked.post
    split
    · rename_i h' s n hf
      have hne : h' ≠ holder := fun hh => ht s n (hh ▸ hf)
      rw [if_neg hne]
    · rfl
  · simp [Tracked.post, hf, Fate.settled, Tracked.posted?]

theorem giveUp (h : Ordered ts held captured waiting posted) (holder : Holder) :
    Ordered (ts.map (Tracked.giveUp holder)) (Function.update held holder none) captured waiting
      posted := by
  have hrel := h.release (f := Tracked.giveUp holder) holder false
    (fun t ht => ?_) fun t s n hf => ?_
  · simpa using hrel
  · unfold Tracked.giveUp
    split
    · rename_i h' s n hf
      have hne : h' ≠ holder := fun hh => ht s n (hh ▸ hf)
      rw [if_neg hne]
    · rfl
  · simp [Tracked.giveUp, hf, Fate.settled, Tracked.posted?]

/-- An endpoint takes a completion. -/
theorem deliver {ep : Endpoint} (h : Ordered ts held ep.captured ep.waiting posted)
    (hreaper : held .reaper = none) (c : UrbCompletion) :
    Ordered (trackDelivery ep c ts)
      (Function.update held .reaper ((ep.deliver c.status c.data).1.bind fun r =>
        if r.2.1 = 0 then some (r.1, r.2.2) else none))
      (ep.deliver c.status c.data).2.captured none posted := by
  unfold trackDelivery Endpoint.deliver
  by_cases hstatus : c.status = 0
  · rw [if_neg (not_not.mpr hstatus), if_neg (not_not.mpr hstatus)]
    cases hw : ep.waiting with
    | none =>
      rw [hw] at h
      rw [Option.bind_none, ← hreaper, Function.update_eq_self]
      exact h.push hreaper c.data
    | some w =>
      rw [hw] at h
      exact h.fill hreaper c.data
  · have hnone : (ep.waiting.map fun w => (w.seqnum, c.status, ([] : Bytes))).bind
        (fun r => if r.2.1 = 0 then some (r.1, r.2.2) else none) = none := by
      cases ep.waiting with
      | none => rfl
      | some w => simp [hstatus]
    rw [if_pos hstatus, if_pos hstatus]
    dsimp only
    rw [hnone, ← hreaper, Function.update_eq_self]
    by_cases hgave : MAX_CONSECUTIVE_ERRORS ≤ ep.errors + 1
    · rw [if_pos hgave, if_pos (decide_eq_true hgave)]
      exact h.clear
    · rw [if_neg hgave, if_neg (by simpa using hgave)]
      exact h.forget

end Ordered

end Padwire
