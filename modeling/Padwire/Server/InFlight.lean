import Padwire.Server.Accounts

/-!
# Whose URB is in flight

The prefetcher and the table of URBs are two state machines behind two locks, and they share
one space of seqnums with the client. `Matched` and `Traced` are what ties them together while a
session runs: what goes by the number that an endpoint records is its own URB, and it is in the
table or in the reaper's hand.

Nothing in the program keeps the client out of the internal range. A `USBIP_CMD_UNLINK` that
names an internal seqnum cancels the URB behind the endpoint's back, and the endpoint waits for
its completion for ever (`exists_stale_in_flight`). `NoCollision` is the condition that no step
runs into a number of the other side, and `in_flight_backed` says that nothing else breaks the
tie. A number that was lost in this way does no further harm until someone uses it again; with
`NoMisdirection`, which says that nobody does, what an endpoint takes is still its own
(`tied_of_reach`).
-/

namespace Padwire

variable {d : UsbfsDevice} {st st' : State} {a : Action}

/-- The internal URB an endpoint records as in flight. -/
def Prefetch.flight (p : Prefetch) (address : UInt8) : Option UInt32 :=
  (p.ep? address).bind Endpoint.inFlight

theorem Prefetch.flight_of {p : Prefetch} {address : UInt8} {ep : Endpoint}
    (h : p.ep? address = some ep) : p.flight address = ep.inFlight := by
  rw [flight, h, Option.bind_some]

theorem Prefetch.flight_put {p : Prefetch} {address : UInt8} {ep : Endpoint}
    (h : p.ep? address = some ep) (ep' : Endpoint) (next : UInt32) :
    (p.put address ep' next).flight = Function.update p.flight address ep'.inFlight := by
  funext b
  rw [flight, ep?_put h, Function.update_apply]
  split_ifs
  · rfl
  · rfl

theorem flight_ne {p : Prefetch} {s : UInt32}
    (h : ∀ address ep, p.ep? address = some ep → ep.inFlight ≠ some s) (b : UInt8) :
    p.flight b ≠ some s := by
  intro hb
  obtain ⟨ep, hep, hfl⟩ := Option.bind_eq_some_iff.mp hb
  exact h b ep hep hfl

/-- The completion the reaper is about to pass to `deliver`. -/
def ReaperLoad.held? : ReaperLoad → Option UrbCompletion
  | .completion c => some c
  | _ => Option.none

/-- The reaper holds a completion only on its way to `deliver`. -/
theorem held?_eq_some {pc : ReaperPc} {c : UrbCompletion} (h : pc.load.held? = some c) :
    ∃ r, pc = .delivering c r := by
  cases pc with
  | delivering c' r =>
    cases h
    exact ⟨r, rfl⟩
  | _ => cases h

theorem held?_afterDeliver (address : UInt8) (r : Round)
    (reply : Option (UInt32 × Int32 × Bytes)) :
    (afterDeliver address r reply).load.held? = none := by
  rcases reply with _ | ⟨s, status, data⟩
  · rfl
  · rfl

/-! ### The tie between the endpoints and the table -/

/-- No endpoint takes the URB of another for its own. It records its internal URB as long as this
is in the table or in the reaper's hand, and what goes by the recorded number there is its own. -/
structure Matched (flight : UInt8 → Option UInt32) (dev : DevState)
    (hand : Option UrbCompletion) : Prop where
  pending : ∀ s e address, dev.pending.lookup s = some e → e.urb.origin = .prefetch address →
    flight address = some s
  held : ∀ c address, hand = some c → c.origin = .prefetch address →
    flight address = some c.seqnum
  own : ∀ address c, hand = some c → flight address = some c.seqnum →
    c.origin = .prefetch address
  /-- While the reaper has the completion, the number is free for others to use. -/
  named : ∀ address s e, flight address = some s → dev.pending.lookup s = some e →
    e.urb.origin = .prefetch address ∨ ∃ c, hand = some c ∧ c.seqnum = s
  free : ∀ c e address, hand = some c → dev.pending.lookup c.seqnum = some e →
    e.urb.origin ≠ .prefetch address

/-- What an endpoint records as in flight is somewhere, and no internal URB is unlinked. -/
structure Traced (flight : UInt8 → Option UInt32) (dev : DevState)
    (hand : Option UrbCompletion) : Prop where
  unmarked : ∀ s e address, dev.pending.lookup s = some e → e.urb.origin = .prefetch address →
    e.unlinked = false
  found : ∀ address s, flight address = some s →
    s ∈ dev.pending ∨ ∃ c, hand = some c ∧ c.seqnum = s

section Tie

variable {flight : UInt8 → Option UInt32} {dev dev' : DevState} {hand : Option UrbCompletion}
  {address : UInt8} {ep ep' : Endpoint} {next next' : UInt32}

namespace Matched

/-- An internal URB is submitted under the next internal seqnum, which no endpoint records and
neither the table nor the reaper has. -/
private theorem queued (h : Matched flight dev hand) (hidle : flight address = none)
    (hlost : ∀ b, flight b ≠ some next) (hheld : ∀ c, hand = some c → c.seqnum ≠ next)
    {urb : PendingUrb} (hseq : urb.seqnum = next) (horigin : urb.origin = .prefetch address) :
    Matched (Function.update flight address (some next)) (dev.accept urb) hand where
  pending s e b he hb := by
    rw [DevState.lookup_accept, hseq] at he
    split_ifs at he with hs
    · obtain rfl := Option.some.inj he
      obtain rfl : address = b := Origin.prefetch.inj (horigin.symm.trans hb)
      rw [hs, Function.update_self]
    · have hfl := h.pending s e b he hb
      have hne : b ≠ address := fun hba => by
        rw [hba, hidle] at hfl
        cases hfl
      rw [Function.update_of_ne hne]
      exact hfl
  held c b hc hb := by
    have hfl := h.held c b hc hb
    have hne : b ≠ address := fun hba => by
      rw [hba, hidle] at hfl
      cases hfl
    rw [Function.update_of_ne hne]
    exact hfl
  own b c hc hfl := by
    rw [Function.update_apply] at hfl
    split_ifs at hfl
    · exact absurd (Option.some.inj hfl).symm (hheld c hc)
    · exact h.own b c hc hfl
  named b s e hfl he := by
    rw [DevState.lookup_accept, hseq] at he
    rw [Function.update_apply] at hfl
    split_ifs at hfl with hb
    · rw [if_pos (Option.some.inj hfl).symm] at he
      rw [← Option.some.inj he, hb]
      exact .inl horigin
    · have hs : s ≠ next := fun hs => hlost b (by rw [hfl, hs])
      rw [if_neg hs] at he
      exact h.named b s e hfl he
  free c e b hc he := by
    rw [DevState.lookup_accept, hseq, if_neg (hheld c hc)] at he
    exact h.free c e b hc he

/-- Arming an endpoint keeps the tie, if no endpoint records the number that the new URB gets, and
the reaper does not hold a completion under it. -/
theorem arming (h : Matched flight dev hand) (harm : Arming d address ep next dev ep' next' dev')
    (hfl : flight address = ep.inFlight)
    (hnext : ep.disabled = false → ep.inFlight = none → next ∉ dev.pending →
      (∀ b, flight b ≠ some next) ∧ ∀ c, hand = some c → c.seqnum ≠ next) :
    Matched (Function.update flight address ep'.inFlight) dev' hand := by
  cases harm with
  | skipped _ _ hsame _ =>
    rw [hsame, ← hfl, Function.update_eq_self]
    exact h
  | queued epAddr typ hdis hidle hfree =>
    obtain ⟨hlost, hheld⟩ := hnext hdis hidle hfree
    exact h.queued (hfl.trans hidle) hlost hheld rfl rfl

/-- Marking entries of the table or taking them out keeps the tie. -/
theorem kept (h : Matched flight dev hand) (hback : ∀ s e', dev'.pending.lookup s = some e' →
    ∃ e, dev.pending.lookup s = some e ∧ e.urb = e'.urb) : Matched flight dev' hand where
  pending s e' b he' hb := by
    obtain ⟨e, he, hurb⟩ := hback s e' he'
    exact h.pending s e b he (by rw [hurb]; exact hb)
  held := h.held
  own := h.own
  named b s e' hfl he' := by
    obtain ⟨e, he, hurb⟩ := hback s e' he'
    rw [← hurb]
    exact h.named b s e hfl he
  free c e' b hc he' := by
    obtain ⟨e, he, hurb⟩ := hback _ e' he'
    rw [← hurb]
    exact h.free c e b hc he

/-- So does a URB of the client, under a number that an endpoint records only while the reaper has
the completion. -/
theorem accepted (h : Matched flight dev hand) {urb : PendingUrb}
    (hforeign : ∀ b, urb.origin ≠ .prefetch b)
    (hheld : ∀ b, flight b = some urb.seqnum → ∃ c, hand = some c ∧ c.seqnum = urb.seqnum) :
    Matched flight (dev.accept urb) hand where
  pending s e b he hb := by
    rw [DevState.lookup_accept] at he
    split_ifs at he
    · rw [← Option.some.inj he] at hb
      exact absurd hb (hforeign b)
    · exact h.pending s e b he hb
  held := h.held
  own := h.own
  named b s e hfl he := by
    rw [DevState.lookup_accept] at he
    split_ifs at he with hs
    · rw [hs]
      exact .inr (hheld b (hs ▸ hfl))
    · exact h.named b s e hfl he
  free c e b hc he := by
    rw [DevState.lookup_accept] at he
    split_ifs at he
    · rw [← Option.some.inj he]
      exact hforeign b
    · exact h.free c e b hc he

/-- The reaper takes an entry out of the table. -/
theorem reaped {k : UInt32} {e : Entry} {c : UrbCompletion} (h : Matched flight dev none)
    (he : dev.pending.lookup k = some e)
    (hlook : ∀ s, dev'.pending.lookup s = if s = k then none else dev.pending.lookup s)
    (hseq : c.seqnum = k) (horigin : c.origin = e.urb.origin) :
    Matched flight dev' (some c) where
  pending s e' b he' hb := by
    rw [hlook] at he'
    split_ifs at he'
    exact h.pending s e' b he' hb
  held c' b hc hb := by
    obtain rfl := Option.some.inj hc
    rw [hseq]
    exact h.pending k e b he (horigin ▸ hb)
  own b c' hc hfl := by
    obtain rfl := Option.some.inj hc
    rcases h.named b k e (hseq ▸ hfl) he with hb | ⟨c', hc', -⟩
    · exact horigin.trans hb
    · cases hc'
  named b s e' hfl he' := by
    rw [hlook] at he'
    split_ifs at he'
    rcases h.named b s e' hfl he' with hb | ⟨c', hc', -⟩
    · exact .inl hb
    · cases hc'
  free c' e' b hc he' := by
    obtain rfl := Option.some.inj hc
    rw [hlook, if_pos hseq] at he'
    cases he'

/-- Two endpoints do not record the completion that the reaper holds. -/
theorem unique {c : UrbCompletion} (h : Matched flight dev (some c)) {b : UInt8}
    (hb : flight b = some c.seqnum) (hfl : flight address = some c.seqnum) : b = address :=
  Origin.prefetch.inj ((h.own b c rfl hb).symm.trans (h.own address c rfl hfl))

/-- The endpoint takes the completion the reaper holds. -/
theorem delivered {c : UrbCompletion} (h : Matched flight dev (some c))
    (hfl : flight address = some c.seqnum) :
    Matched (Function.update flight address none) dev none where
  pending s e b he hb := by
    have hb' := h.pending s e b he hb
    have hne : b ≠ address := fun hba => by
      rw [hba, hfl, Option.some.injEq] at hb'
      exact h.free c e b rfl (by rw [hb']; exact he) hb
    rw [Function.update_of_ne hne]
    exact hb'
  held c' b hc := by cases hc
  own b c' hc := by cases hc
  named b s e hb he := by
    rw [Function.update_apply] at hb
    split_ifs at hb with hne
    rcases h.named b s e hb he with heb | ⟨c', hc', hs⟩
    · exact .inl heb
    · obtain rfl := Option.some.inj hc'
      exact absurd (h.unique (hs ▸ hb) hfl) hne
  free c' e b hc := by cases hc

/-- No endpoint has the completion in flight that the reaper holds: it is not the
prefetcher's. -/
theorem strayed {c : UrbCompletion} (h : Matched flight dev (some c))
    (hno : ∀ b, flight b ≠ some c.seqnum) :
    Matched flight dev none ∧ ∀ b, c.origin ≠ .prefetch b := by
  refine ⟨⟨h.pending, fun c' b hc => (by cases hc), fun b c' hc => (by cases hc),
    fun b s e hb he => ?_, fun c' e b hc => (by cases hc)⟩, fun b hb => hno b (h.held c b rfl hb)⟩
  rcases h.named b s e hb he with heb | ⟨c', hc', hs⟩
  · exact .inl heb
  · obtain rfl := Option.some.inj hc'
    exact absurd (hs ▸ hb) (hno b)

end Matched

namespace Traced

/-- A new internal URB is in the table, and nobody has unlinked it. -/
theorem arming (h : Traced flight dev hand) (harm : Arming d address ep next dev ep' next' dev')
    (hfl : flight address = ep.inFlight) :
    Traced (Function.update flight address ep'.inFlight) dev' hand := by
  cases harm with
  | skipped _ _ hsame _ =>
    rw [hsame, ← hfl, Function.update_eq_self]
    exact h
  | queued epAddr typ _ _ _ =>
    refine ⟨fun s e b he hb => ?_, fun b s hb => ?_⟩
    · rw [DevState.lookup_accept] at he
      split_ifs at he
      · rw [← Option.some.inj he]
      · exact h.unmarked s e b he hb
    · rw [Function.update_apply] at hb
      split_ifs at hb
      · exact .inl ((AList.mem_insert _).mpr (.inl (Option.some.inj hb).symm))
      · exact (h.found b s hb).imp_left fun hs => (AList.mem_insert _).mpr (.inr hs)

/-- The reaper takes an entry out of the table and holds its completion. -/
theorem reaped {k : UInt32} {c : UrbCompletion} (h : Traced flight dev none)
    (hlook : ∀ s, dev'.pending.lookup s = if s = k then none else dev.pending.lookup s)
    (hseq : c.seqnum = k) : Traced flight dev' (some c) where
  unmarked s e b he hb := by
    rw [hlook] at he
    split_ifs at he
    exact h.unmarked s e b he hb
  found b s hb := by
    rcases h.found b s hb with hs | ⟨c', hc', -⟩
    · by_cases hk : s = k
      · exact .inr ⟨c, rfl, hseq.trans hk.symm⟩
      · rw [← AList.lookup_isSome] at hs ⊢
        rw [hlook, if_neg hk]
        exact .inl hs
    · cases hc'

/-- Adding or changing an entry that is not the prefetcher's. -/
theorem foreign {k : UInt32} (h : Traced flight dev hand)
    (hlook : ∀ s, s ≠ k → dev'.pending.lookup s = dev.pending.lookup s)
    (hmem : k ∈ dev.pending → k ∈ dev'.pending)
    (hafter : ∀ e b, dev'.pending.lookup k = some e → e.urb.origin ≠ .prefetch b) :
    Traced flight dev' hand where
  unmarked s e b he hb := by
    by_cases hs : s = k
    · rw [hs] at he
      exact absurd hb (hafter e b he)
    · rw [hlook s hs] at he
      exact h.unmarked s e b he hb
  found b s hb := by
    refine (h.found b s hb).imp_left fun hmem' => ?_
    by_cases hs : s = k
    · rw [hs] at hmem' ⊢
      exact hmem hmem'
    · rw [← AList.lookup_isSome] at hmem' ⊢
      rw [hlook s hs]
      exact hmem'

/-- Taking an entry out of the table that is not the prefetcher's. -/
theorem dropped {k : UInt32} {e : Entry} (h : Traced flight dev hand)
    (hm : Matched flight dev hand) (he : dev.pending.lookup k = some e)
    (hlook : ∀ s, dev'.pending.lookup s = if s = k then none else dev.pending.lookup s)
    (hforeign : ∀ b, e.urb.origin ≠ .prefetch b) : Traced flight dev' hand where
  unmarked s e' b he' hb := by
    rw [hlook] at he'
    split_ifs at he'
    exact h.unmarked s e' b he' hb
  found b s hb := by
    rcases h.found b s hb with hs | hheld
    · by_cases hk : s = k
      · rw [hk] at hb ⊢
        exact .inr ((hm.named b k e hb he).resolve_left (hforeign b))
      · rw [← AList.lookup_isSome] at hs ⊢
        rw [hlook, if_neg hk]
        exact .inl hs
    · exact .inr hheld

/-- The endpoint takes the completion the reaper holds. -/
theorem delivered {c : UrbCompletion} (h : Traced flight dev (some c))
    (hm : Matched flight dev (some c)) (hfl : flight address = some c.seqnum) :
    Traced (Function.update flight address none) dev none where
  unmarked := h.unmarked
  found b s hb := by
    rw [Function.update_apply] at hb
    split_ifs at hb with hne
    rcases h.found b s hb with hs | ⟨c', hc', hs⟩
    · exact .inl hs
    · obtain rfl := Option.some.inj hc'
      exact absurd (hm.unique (hs ▸ hb) hfl) hne

/-- Nobody misses a completion that no endpoint records. -/
theorem strayed {c : UrbCompletion} (h : Traced flight dev (some c))
    (hno : ∀ b, flight b ≠ some c.seqnum) : Traced flight dev none where
  unmarked := h.unmarked
  found b s hb := by
    refine .inl ((h.found b s hb).resolve_right ?_)
    rintro ⟨c', hc', rfl⟩
    exact hno b (Option.some.inj hc' ▸ hb)

end Traced

end Tie

/-! ### What breaks the tie -/

/-- An endpoint waits for a URB under this number, but there is none, neither in the table nor in
the reaper's hand. -/
def State.Lost (st : State) (s : UInt32) : Prop :=
  (∃ address, st.prefetch.flight address = some s) ∧ s ∉ st.dev.pending ∧
    ∀ c r, st.reaper = .delivering c r → c.seqnum ≠ s

/-- No number that an endpoint has lost is used again, by the client or by the prefetcher, and
`take` arms no endpoint under a number whose completion the reaper holds. -/
def NoMisdirection (st : State) : Action → Prop
  | .submit _ => ∀ req, st.main = .submit req → ¬ st.Lost req.seqnum
  | .take _ => ∀ req ep, st.main = .take req → st.prefetch.ep? req.address = some ep →
      ep.disabled = false → ep.inFlight = none → ¬ st.Lost st.prefetch.next ∧
        ∀ c r, st.reaper = .delivering c r → c.seqnum ≠ st.prefetch.next
  | .deliver _ => ∀ c r address, st.reaper = .delivering c r →
      st.prefetch.flight address = some c.seqnum → ¬ st.Lost st.prefetch.next
  | _ => True

/-- An unlink finds no internal URB under the seqnum it names, and `take` arms no endpoint under
a number whose completion the reaper holds. -/
def NoCollision (st : State) : Action → Prop
  | .devUnlink _ => ∀ seqnum target e address, st.main = .devUnlink seqnum target →
      st.dev.pending.lookup target = some e → e.urb.origin ≠ .prefetch address
  | .take _ => ∀ req ep c r, st.main = .take req → st.prefetch.ep? req.address = some ep →
      ep.disabled = false → ep.inFlight = none → st.reaper = .delivering c r →
      c.seqnum ≠ st.prefetch.next
  | _ => True

/-- A number that is recorded and not lost is somewhere. -/
theorem exists_held_of_not_lost {s : UInt32} {address : UInt8} (h : ¬ st.Lost s)
    (hfl : st.prefetch.flight address = some s) (hfree : s ∉ st.dev.pending) :
    ∃ c, st.reaper.load.held? = some c ∧ c.seqnum = s := by
  by_contra hno
  refine h ⟨⟨address, hfl⟩, hfree, fun c r hr hs => hno ⟨c, ?_, hs⟩⟩
  rw [hr]
  rfl

/-- Where everything recorded is somewhere, no number is lost. -/
theorem Traced.not_lost (h : Traced st.prefetch.flight st.dev st.reaper.load.held?) (s : UInt32) :
    ¬ st.Lost s := by
  rintro ⟨⟨b, hb⟩, hfree, hheld⟩
  rcases h.found b s hb with hs | ⟨c, hc, hs⟩
  · exact hfree hs
  · obtain ⟨r, hr⟩ := held?_eq_some hc
    exact hheld c r hr hs

theorem NoCollision.noMisdirection (h : NoCollision st a) (hlost : ∀ s, ¬ st.Lost s) :
    NoMisdirection st a := by
  cases a with
  | submit answer => exact fun req _ => hlost _
  | take answer =>
    exact fun req ep hmain hep hdis hidle =>
      ⟨hlost _, fun c r hr => h req ep c r hmain hep hdis hidle hr⟩
  | deliver answer => exact fun c r address _ _ => hlost _
  | _ => trivial

/-! ### Along a run -/

/-- The tie holds until the prefetcher is shut down. -/
def State.Tied (st : State) : Prop :=
  st.main.down = false → Matched st.prefetch.flight st.dev st.reaper.load.held?

/-- So does this, as long as nobody unlinks a URB of the prefetcher. -/
def State.InFlight (st : State) : Prop :=
  st.main.down = false → Traced st.prefetch.flight st.dev st.reaper.load.held?

private theorem tied_start (opts : SessionOpts) (answers : List Ioctl) (dev : DevState) :
    Matched (start d opts answers dev).prefetch.flight (start d opts answers dev).dev none ∧
      Traced (start d opts answers dev).prefetch.flight (start d opts answers dev).dev none := by
  refine start_rule (fun p dev => Matched p.flight dev none ∧ Traced p.flight dev none) ?_ ?_
  · rintro p dev b ep ep' next' dev' ⟨hm, htrace⟩ hep harm
    rw [Prefetch.flight_put hep]
    refine ⟨hm.arming harm (Prefetch.flight_of hep) fun _ _ hfree =>
      ⟨fun b' hb' => ?_, fun c hc => by cases hc⟩, htrace.arming harm (Prefetch.flight_of hep)⟩
    rcases htrace.found b' _ hb' with hs | ⟨c, hc, -⟩
    · exact hfree hs
    · cases hc
  -- a new prefetcher records nothing, and what earlier sessions left is not its own
  · have hnone : ∀ b s,
        (Prefetch.new d.interruptInEndpoints opts.prefetch).flight b ≠ some s := by
      intro b s hb
      obtain ⟨ep, hep, hfl⟩ := Option.bind_eq_some_iff.mp hb
      obtain ⟨m, rfl⟩ := Prefetch.ep?_new hep
      cases hfl
    have hforeign : ∀ s e b, dev.age.pending.lookup s = some e → e.urb.origin ≠ .prefetch b := by
      intro s e b he hb
      rw [DevState.lookup_age] at he
      obtain ⟨e₀, -, rfl⟩ := Option.map_eq_some_iff.mp he
      cases hb
    exact ⟨⟨fun s e b he hb => absurd hb (hforeign s e b he), fun c b hc => (by cases hc),
      fun b c hc => (by cases hc), fun b s e hb => absurd hb (hnone b s),
      fun c e b hc => (by cases hc)⟩,
      ⟨fun s e b he hb => absurd hb (hforeign s e b he), fun b s hb => absurd hb (hnone b s)⟩⟩

/-- What the reader passes to the device is the client's. -/
private theorem ne_prefetch {req : UrbRequest} (hown : Owned st) (hmain : st.main = .submit req)
    (address : UInt8) : req.origin ≠ .prefetch address := by
  rw [hown.request req (by rw [hmain]; rfl)]
  exact Origin.noConfusion

/-- A client submit changes its endpoint and then arms it. -/
private theorem matched_take {answer : Ioctl} {req : UrbRequest} {ep ep₁ ep' : Endpoint}
    {next' : UInt32} {dev' : DevState} (h : st.Tied) (hok : NoMisdirection st (.take answer))
    (hmain : st.main = .take req) (hep : st.prefetch.ep? req.address = some ep)
    (hdis : ep.disabled = false)
    (harm : Arming d req.address ep₁ st.prefetch.next st.dev ep' next' dev')
    (hsame : ep₁.inFlight = ep.inFlight) :
    Matched (st.prefetch.put req.address ep' next').flight dev' st.reaper.load.held? := by
  have hfl : st.prefetch.flight req.address = ep₁.inFlight :=
    (Prefetch.flight_of hep).trans hsame.symm
  rw [Prefetch.flight_put hep]
  refine (h (by rw [hmain]; rfl)).arming harm hfl fun _ hidle hfree => ?_
  obtain ⟨hlost, hhand⟩ := hok req ep hmain hep hdis (hsame.symm.trans hidle)
  have hheld : ∀ c, st.reaper.load.held? = some c → c.seqnum ≠ st.prefetch.next := by
    intro c hc
    obtain ⟨r, hr⟩ := held?_eq_some hc
    exact hhand c r hr
  refine ⟨fun b hb => ?_, hheld⟩
  obtain ⟨c, hc, hs⟩ := exists_held_of_not_lost hlost hb hfree
  exact hheld c hc hs

/-- An entry that is left when one is taken out was there before. -/
private theorem exists_of_erased {dev dev' : DevState} {k : UInt32}
    (hlook : ∀ s, dev'.pending.lookup s = if s = k then none else dev.pending.lookup s)
    (s : UInt32) (e : Entry) (he : dev'.pending.lookup s = some e) :
    ∃ e₀, dev.pending.lookup s = some e₀ ∧ e₀.urb = e.urb := by
  rw [hlook] at he
  split_ifs at he
  exact ⟨e, he, rfl⟩

/-- **A step keeps the tie**, unless it uses a lost number again. -/
theorem tied_step (hown : Owned st) (h : st.Tied)
    (hok : st.main.down = false → NoMisdirection st a) (heff : Effect d st a st') :
    st'.Tied := by
  cases heff with
  | quiet hq =>
    unfold State.Tied
    rw [hq.down, hq.prefetch, hq.dev, hq.reaper]
    exact h
  | started _ => exact fun _ => (tied_start _ _ _).1
  | read hmain _ _ => exact fun _ => h (by rw [hmain]; rfl)
  | takePass hmain _ => exact fun _ => h (by rw [hmain]; rfl)
  | takeReady hmain hep hdis _ harm =>
    exact fun _ => matched_take h (hok (by rw [hmain]; rfl)) hmain hep hdis harm rfl
  | takeWaiting hmain hep hdis _ harm =>
    exact fun _ => matched_take h (hok (by rw [hmain]; rfl)) hmain hep hdis harm rfl
  | @submitted _ req epAddr typ hmain hfree =>
    have hup : st.main.down = false := by rw [hmain]; rfl
    exact fun _ => (h hup).accepted (ne_prefetch hown hmain) fun b hb =>
      exists_held_of_not_lost (hok hup req hmain) hb hfree
  | submitRefused _ hmain _ => exact fun _ => h (by rw [hmain]; rfl)
  | submitFatal hmain => exact fun _ => h (by rw [hmain]; rfl)
  | unlinkHit hmain hep _ =>
    intro _
    dsimp only
    rw [Prefetch.flight_put hep, ← Prefetch.flight_of hep, Function.update_eq_self]
    exact h (by rw [hmain]; rfl)
  | unlinkMiss hmain _ => exact fun _ => h (by rw [hmain]; rfl)
  | @devUnlink answer seqnum target hmain =>
    refine fun _ => (h (by rw [hmain]; rfl)).kept fun s e' he' => ?_
    dsimp only at he'
    rw [DevState.lookup_unlink] at he'
    split_ifs at he'
    · obtain ⟨e, he, rfl⟩ := Option.map_eq_some_iff.mp he'
      exact ⟨e, he, rfl⟩
    · exact ⟨e', he', rfl⟩
  | mainSent hmain _ => exact fun _ => h (by rw [hmain]; rfl)
  | mainDropped hmain _ => exact fun _ => h (by rw [hmain]; rfl)
  -- from here on nothing is promised: the endpoints have forgotten what they had in flight
  | shutdown _ => exact fun hup => by cases hup
  | cancelled _ => exact fun hup => by cases hup
  | reapDropped _ _ _ hlook => exact fun hup => (h hup).kept (exists_of_erased hlook)
  | reapOwned hreaper he _ hlook _ hseq horigin =>
    intro hup
    have hm := h hup
    rw [hreaper] at hm
    exact hm.reaped he hlook hseq horigin
  | reapClient hreaper _ _ hlook _ _ _ =>
    intro hup
    have hm := h hup
    rw [hreaper] at hm
    exact hm.kept (exists_of_erased hlook)
  | strayed hreaper hno =>
    intro hup
    have hm := h hup
    rw [hreaper] at hm
    exact (hm.strayed (flight_ne hno)).1
  | @delivered _ c r address ep ep' _ _ hreaper hep hfl harm =>
    intro hup
    have hm := h hup
    rw [hreaper] at hm
    have hflight : st.prefetch.flight address = some c.seqnum :=
      (Prefetch.flight_of hep).trans hfl
    have hidle : (ep.deliver c.status c.data).2.inFlight = none := ep.deliver_inFlight _ _
    -- first the endpoint lets go of the completion, then it may queue the next URB
    have hm' := (hm.delivered hflight).arming harm (by rw [Function.update_self, hidle])
      fun _ _ hfree => ⟨fun b hb => ?_, fun c' hc => by cases hc⟩
    · rw [Function.update_idem] at hm'
      dsimp only
      rw [Prefetch.flight_put hep, held?_afterDeliver]
      exact hm'
    · rw [Function.update_apply] at hb
      split_ifs at hb with hne
      obtain ⟨c', hc', hs⟩ :=
        exists_held_of_not_lost (hok hup c r address hreaper hflight) hb hfree
      rw [hreaper] at hc'
      obtain rfl := Option.some.inj hc'
      exact hne (hm.unique (hs ▸ hb) hflight)
  | reaperSent hreaper _ =>
    intro hup
    have hm := h hup
    rw [hreaper] at hm
    exact hm
  | @reaperDropped _ _ r hreaper =>
    intro hup
    have hm := h hup
    rw [hreaper] at hm
    dsimp only
    rw [r.load_next]
    exact hm

/-- So no endpoint takes a URB of another for its own in such a run. -/
theorem tied_of_reach (h : Reach (step d) (· = State.initial) NoMisdirection st) : st.Tied :=
  h.session_invariant State.Tied (fun hup => by cases hup) fun _ _ _ hr ih hok heff =>
    tied_step (owned_of_reach hr) ih (fun _ => hok) heff

/-- A step loses no URB of an endpoint, unless a client unlinks it. -/
theorem inFlight_step (hown : Owned st) (htied : st.Tied) (h : st.InFlight)
    (hok : NoCollision st a) (heff : Effect d st a st') : st'.InFlight := by
  cases heff with
  | quiet hq =>
    unfold State.InFlight
    rw [hq.down, hq.prefetch, hq.dev, hq.reaper]
    exact h
  | started _ => exact fun _ => (tied_start _ _ _).2
  | read hmain _ _ => exact fun _ => h (by rw [hmain]; rfl)
  | takePass hmain _ => exact fun _ => h (by rw [hmain]; rfl)
  | takeReady hmain hep _ _ harm | takeWaiting hmain hep _ _ harm =>
    intro _
    have hfl := Prefetch.flight_of hep
    dsimp only
    rw [Prefetch.flight_put hep]
    exact (h (by rw [hmain]; rfl)).arming harm hfl
  | @submitted _ req epAddr typ hmain hfree =>
    refine fun _ => (h (by rw [hmain]; rfl)).foreign (k := req.seqnum) (fun s hs => ?_)
      (fun hs => absurd hs hfree) fun e b he => ?_
    · exact (DevState.lookup_accept _ _ s).trans (if_neg hs)
    · dsimp only at he
      have hnew := DevState.lookup_accept st.dev (d.pendingUrb req epAddr typ) req.seqnum
      rw [if_pos (show req.seqnum = (d.pendingUrb req epAddr typ).seqnum from rfl), he] at hnew
      rw [Option.some.inj hnew]
      exact ne_prefetch hown hmain b
  | submitRefused _ hmain _ => exact fun _ => h (by rw [hmain]; rfl)
  | submitFatal hmain => exact fun _ => h (by rw [hmain]; rfl)
  | unlinkHit hmain hep _ =>
    intro _
    dsimp only
    rw [Prefetch.flight_put hep, ← Prefetch.flight_of hep, Function.update_eq_self]
    exact h (by rw [hmain]; rfl)
  | unlinkMiss hmain _ => exact fun _ => h (by rw [hmain]; rfl)
  | @devUnlink answer seqnum target hmain =>
    refine fun _ => (h (by rw [hmain]; rfl)).foreign (k := target) (fun s hs => ?_)
      (fun hs => ?_) fun e b he => ?_
    · exact (DevState.lookup_unlink target answer st.dev s).trans (if_neg hs)
    · dsimp only
      rw [← AList.lookup_isSome] at hs ⊢
      rw [DevState.lookup_unlink, if_pos rfl, Option.isSome_map]
      exact hs
    · dsimp only at he
      rw [DevState.lookup_unlink, if_pos rfl] at he
      obtain ⟨e₀, he₀, rfl⟩ := Option.map_eq_some_iff.mp he
      exact hok seqnum target e₀ b hmain he₀
  | mainSent hmain _ => exact fun _ => h (by rw [hmain]; rfl)
  | mainDropped hmain _ => exact fun _ => h (by rw [hmain]; rfl)
  | shutdown _ => exact fun hup => by cases hup
  | cancelled _ => exact fun hup => by cases hup
  | @reapDropped k _ e _ _ _ he hunl hlook =>
    -- a marked entry is not the prefetcher's: nobody but `shutdown` unlinks those
    intro hup
    refine (h hup).dropped (htied hup) he hlook fun b hb => ?_
    rw [(h hup).unmarked _ e b he hb] at hunl
    cases hunl
  | reapOwned hreaper _ _ hlook _ hseq _ =>
    intro hup
    have htrace := h hup
    rw [hreaper] at htrace
    exact htrace.reaped hlook hseq
  | @reapClient k _ e _ _ _ _ _ hreaper he hunl hlook hks _ _ =>
    intro hup
    have htrace := h hup
    have hm := htied hup
    rw [hreaper] at htrace hm
    refine htrace.dropped hm he hlook fun b => ?_
    rw [hown.client _ e he hks hunl]
    exact Origin.noConfusion
  | strayed hreaper hno =>
    intro hup
    have htrace := h hup
    rw [hreaper] at htrace
    exact htrace.strayed (flight_ne hno)
  | @delivered _ c _ address ep ep' _ _ hreaper hep hfl harm =>
    intro hup
    have htrace := h hup
    have hm := htied hup
    rw [hreaper] at htrace hm
    have hidle : (ep.deliver c.status c.data).2.inFlight = none := ep.deliver_inFlight _ _
    have htrace' := (htrace.delivered hm ((Prefetch.flight_of hep).trans hfl)).arming harm
      (by rw [Function.update_self, hidle])
    rw [Function.update_idem] at htrace'
    dsimp only
    rw [Prefetch.flight_put hep, held?_afterDeliver]
    exact htrace'
  | reaperSent hreaper _ =>
    intro hup
    have htrace := h hup
    rw [hreaper] at htrace
    exact htrace
  | @reaperDropped _ _ r hreaper =>
    intro hup
    have htrace := h hup
    rw [hreaper] at htrace
    dsimp only
    rw [r.load_next]
    exact htrace

theorem inFlight_of_reach (h : Reach (step d) (· = State.initial) NoCollision st) :
    st.Tied ∧ st.InFlight :=
  h.session_invariant (fun st => st.Tied ∧ st.InFlight)
    ⟨fun hup => (by cases hup), fun hup => by cases hup⟩ fun _ _ _ hr ih hok heff =>
      ⟨tied_step (owned_of_reach hr) ih.1
        (fun hup => hok.noMisdirection (ih.2 hup).not_lost) heff,
      inFlight_step (owned_of_reach hr) ih.1 ih.2 hok heff⟩

/-- **What is in flight is there.** In every run in which neither side runs into a number of the
other, until the prefetcher is shut down: the URB an endpoint records as in flight is in the
table, was submitted by that endpoint and is not unlinked, or the reaper is about to deliver its
completion. No internal URB in the table is unlinked. -/
theorem in_flight_backed (h : Reach (step d) (· = State.initial) NoCollision st)
    (hup : st.main.down = false) :
    (∀ address ep s, st.prefetch.ep? address = some ep → ep.inFlight = some s →
      (∃ e, st.dev.pending.lookup s = some e ∧ e.urb.origin = .prefetch address ∧
        e.unlinked = false) ∨
      ∃ c r, st.reaper = .delivering c r ∧ c.seqnum = s ∧ c.origin = .prefetch address) ∧
    ∀ s e address, st.dev.pending.lookup s = some e → e.urb.origin = .prefetch address →
      e.unlinked = false := by
  obtain ⟨htied, hinFlight⟩ := inFlight_of_reach h
  have hm := htied hup
  have htrace := hinFlight hup
  refine ⟨fun address ep s hep hfl => ?_, htrace.unmarked⟩
  have hflight : st.prefetch.flight address = some s := (Prefetch.flight_of hep).trans hfl
  have hheld : ∀ c, st.reaper.load.held? = some c → c.seqnum = s →
      ∃ c r, st.reaper = .delivering c r ∧ c.seqnum = s ∧ c.origin = .prefetch address := by
    rintro c hc rfl
    obtain ⟨r, hr⟩ := held?_eq_some hc
    exact ⟨c, r, hr, rfl, hm.own address c hc hflight⟩
  rcases htrace.found address s hflight with hs | ⟨c, hc, hseq⟩
  · obtain ⟨e, he⟩ := Option.isSome_iff_exists.mp (AList.lookup_isSome.mpr hs)
    rcases hm.named address s e hflight he with hb | ⟨c, hc, hseq⟩
    · exact .inl ⟨e, he, hb, htrace.unmarked s e address he hb⟩
    · exact .inr (hheld c hc hseq)
  · exact .inr (hheld c hc hseq)

/-- The client unlinks the internal URB of the gamepad, and the reaper drops it. -/
def hijack : List Action :=
  begin true ++ receive (.unlink 1 0x80000000) ++ [.unlink, .devUnlink .ok, .mainPost] ++
    reapOne 0x80000000 (-ECONNRESET) []

/-- One unlink can leave an endpoint waiting for a URB that no longer exists. -/
theorem exists_stale_in_flight :
    ¬ ∀ st, SessionReachable gamepad st → st.main.down = false →
      ∀ address ep s, st.prefetch.ep? address = some ep → ep.inFlight = some s →
        (∃ e, st.dev.pending.lookup s = some e ∧ e.urb.origin = .prefetch address ∧
          e.unlinked = false) ∨
        ∃ c r, st.reaper = .delivering c r ∧ c.seqnum = s ∧ c.origin = .prefetch address := by
  intro hall
  obtain ⟨st, hst, hp⟩ := exists_session_of_run gamepad hijack
    (fun st => !st.main.down && st.prefetch.flight 0x81 = some 0x80000000 &&
      st.dev.pending.lookup 0x80000000 = none && st.reaper.load.held? = none)
    (by decide +kernel)
  simp only [Bool.and_eq_true, Bool.not_eq_true', decide_eq_true_eq] at hp
  obtain ⟨⟨⟨hup, hfl⟩, hnone⟩, hheld⟩ := hp
  obtain ⟨ep, hep, hs⟩ := Option.bind_eq_some_iff.mp hfl
  rcases hall st hst hup 0x81 ep 0x80000000 hep hs with ⟨e, he, -⟩ | ⟨c, r, hr, -⟩
  · rw [hnone] at he
    cases he
  · rw [hr] at hheld
    cases hheld

/-- A report is on its way to the client while the next URB is queued, and the client has
unlinked one of its own. -/
def forwarding : List Action :=
  begin true ++ receive (.submitIn 1 0 8) ++ [.take .ok, .submit .ok] ++
    receive (.unlink 2 1) ++ [.unlink, .devUnlink .ok, .mainPost] ++
    receive (.submitIn 3 1 64) ++ [.take .ok] ++ reapOne 0x80000000 0 [7] ++ [.deliver .ok]

/-- `NoCollision` as a check. -/
def noCollision (st : State) : Action → Bool
  | .devUnlink _ =>
    match st.main with
    | .devUnlink _ target => (st.dev.pending.lookup target).all fun e => e.urb.origin = .client
    | _ => true
  | .take _ => st.reaper.load.held? = none
  | _ => true

theorem noCollision_sound (st : State) (a : Action) (h : noCollision st a = true) :
    NoCollision st a := by
  cases a with
  | devUnlink answer =>
    intro seqnum target e address hmain he hb
    simp only [noCollision, hmain, he, Option.all_some, decide_eq_true_eq] at h
    rw [h] at hb
    cases hb
  | take answer =>
    intro req ep c r _ _ _ _ hr
    simp only [noCollision, hr, decide_eq_true_eq] at h
    cases h
  | _ => trivial

theorem in_flight_backed_forwarding :
    ∃ st, Reach (step gamepad) (· = State.initial) NoCollision st ∧
      st.prefetch.flight 0x81 = some 0x80000001 ∧
      ∃ e, st.dev.pending.lookup 0x80000001 = some e ∧ e.urb.origin = .prefetch 0x81 ∧
        e.unlinked = false := by
  obtain ⟨st, hst, hp⟩ := exists_session_of_runIf gamepad noCollision_sound forwarding
    (fun st => !st.main.down && st.prefetch.flight 0x81 = some 0x80000001 &&
      st.reaper.load.held? = none) (by decide +kernel)
  simp only [Bool.and_eq_true, Bool.not_eq_true', decide_eq_true_eq] at hp
  obtain ⟨⟨hup, hfl⟩, hheld⟩ := hp
  obtain ⟨ep, hep, hs⟩ := Option.bind_eq_some_iff.mp hfl
  refine ⟨st, hst, hfl, ?_⟩
  rcases (in_flight_backed hst hup).1 0x81 ep 0x80000001 hep hs with he | ⟨c, r, hr, -⟩
  · exact he
  · rw [hr] at hheld
    cases hheld

end Padwire
