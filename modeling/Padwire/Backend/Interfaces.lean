import Padwire.Backend.Usbfs

/-!
# Taking a device from the kernel and giving it back

The interface half of `usb-backend/src/usbfs.rs`. `claim_all` evicts whatever driver is bound
and takes the interfaces one by one, and stops at the first that cannot be had. `release_all`
gives back what was taken, in two passes: a multi-interface driver claims the siblings of the
interface it binds, so nothing is offered back before everything is released.

The kernel's answers are arguments. What it was asked for is recorded in the ghost `calls`.
-/

namespace Padwire

def RECONNECT_ATTEMPTS : ℕ := 4

/-! ### Claiming -/

/-- What the kernel answers the three ioctls of `claim_one` with. -/
structure ClaimAnswers where
  disconnectClaim : Ioctl
  disconnect : Ioctl
  claim : Ioctl
  deriving DecidableEq, Repr

/-- An ioctl whose failure is passed on. -/
def Ioctl.result : Ioctl → Except IoError Unit
  | .ok => .ok ()
  | .err e => .error (.os e)

/-- Evict the bound driver and claim one interface. Kernels that have no
`USBDEVFS_DISCONNECT_CLAIM` get the two-ioctl equivalent, in which `ENODATA` means that nothing
was bound in the first place. -/
def claimOne (k : ClaimAnswers) : Except IoError Unit :=
  match k.disconnectClaim with
  | .ok => .ok ()
  | .err e =>
    -- only these two say that the kernel does not know the ioctl
    if ¬ (e = ENOTTY ∨ e = EINVAL) then .error (.os e)
    else match k.disconnect with
      | .ok => k.claim.result
      | .err e => if e ≠ ENODATA then .error (.os e) else k.claim.result

/-- The interface is ours now. -/
def DevState.claim (st : DevState) (ifnum : UInt8) : DevState :=
  { st with claimed := st.claimed ++ [ifnum], calls := st.calls ++ [.claim ifnum] }

/-- Claim these interfaces, but for those that are claimed already. The error says which one
could not be had: "claiming interface {ifnum} of {busid}: {e}". -/
def DevState.claimAll (kernel : UInt8 → ClaimAnswers) (st : DevState) :
    List UInt8 → Except (UInt8 × IoError) Unit × DevState
  | [] => (.ok (), st)
  | ifnum :: rest =>
    if ifnum ∈ st.claimed then st.claimAll kernel rest
    else match claimOne (kernel ifnum) with
      | .error e => (.error (ifnum, e), st)
      | .ok () => (st.claim ifnum).claimAll kernel rest

/-- Evict whatever driver is bound to each interface and take ownership. -/
def UsbfsDevice.claimAll (d : UsbfsDevice) (kernel : UInt8 → ClaimAnswers) (st : DevState) :
    Except (UInt8 × IoError) Unit × DevState :=
  st.claimAll kernel d.interfaceNumbers

/-! ### Releasing -/

/-- The attempts to have a driver bound again: up to the first success, or `EBUSY`, which means
that another driver's probe has taken the interface. -/
def reconnectOne (ifnum : UInt8) : ℕ → List Ioctl → List IfaceCall
  | 0, _ => []
  | attempts + 1, answers =>
    .connect ifnum ::
      match answers.headD .ok with
      | .ok => []
      | .err e => if e = EBUSY then [] else reconnectOne ifnum attempts answers.tail

/-- Hand the interfaces back and let the kernel rebind its drivers. -/
def DevState.releaseAll (kernel : UInt8 → List Ioctl) (st : DevState) : DevState :=
  if st.claimed = [] then st
  else
    { st with
      claimed := []
      -- every interface is released before any is offered back
      calls := st.calls ++ (st.claimed.map .release ++
        st.claimed.flatMap fun ifnum => reconnectOne ifnum RECONNECT_ATTEMPTS (kernel ifnum)) }

/-- The kernel's answers while a device is dropped. -/
structure DropAnswers where
  discard : UInt32 → Ioctl
  done : List DevState.KernelUrb
  connect : UInt8 → List Ioctl

/-- The last reference to a device is dropped: cancel, release, close, and free what is left. -/
def DevState.drop (k : DropAnswers) (st : DevState) : DevState :=
  { (st.cancelPending k.discard k.done).releaseAll k.connect with
    pending := ∅
    keyed := DevState.fresh.keyed }

/-! ### What was taken and given back -/

/-- The state of the interfaces: which are claimed, and what the kernel was asked for. -/
def DevState.interfaces (st : DevState) : List UInt8 × List IfaceCall := (st.claimed, st.calls)

/-- The kernel was asked to take the interface back, and after that to bind a driver to it. -/
def HandedBack (ifnum : UInt8) (calls : List IfaceCall) : Prop :=
  ∃ before after, calls = before ++ .release ifnum :: after ∧ .connect ifnum ∈ after

theorem HandedBack.append_left {ifnum : UInt8} {calls : List IfaceCall}
    (h : HandedBack ifnum calls) (more : List IfaceCall) : HandedBack ifnum (more ++ calls) := by
  obtain ⟨before, after, rfl, hmem⟩ := h
  exact ⟨more ++ before, after, by rw [List.append_assoc], hmem⟩

theorem HandedBack.append_right {ifnum : UInt8} {calls : List IfaceCall}
    (h : HandedBack ifnum calls) (more : List IfaceCall) : HandedBack ifnum (calls ++ more) := by
  obtain ⟨before, after, rfl, hmem⟩ := h
  exact ⟨before, after ++ more, by rw [List.append_assoc, List.cons_append],
    List.mem_append_left _ hmem⟩

/-- Between the two states everything that was claimed has been handed back, and nothing has been
claimed. -/
def DevState.HandsBack (st st' : DevState) : Prop :=
  ∃ back, st'.interfaces = ([], st.calls ++ back) ∧
    (∀ i ∈ st.claimed, HandedBack i back) ∧ ∀ i, .claim i ∉ back

namespace DevState

theorem HandsBack.of_interfaces_eq {st₁ st₂ st₁' st₂' : DevState} (h : st₁.HandsBack st₂)
    (h₁ : st₁.interfaces = st₁'.interfaces) (h₂ : st₂'.interfaces = st₂.interfaces) :
    st₁'.HandsBack st₂' := by
  obtain ⟨hclaimed, hcalls⟩ := Prod.mk.inj h₁
  unfold HandsBack at h ⊢
  rw [h₂, ← hclaimed, ← hcalls]
  exact h

theorem HandsBack.trans {st₁ st₂ st₃ : DevState} (h : st₁.HandsBack st₂)
    (h' : st₂.HandsBack st₃) : st₁.HandsBack st₃ := by
  obtain ⟨back, heq, hback, hno⟩ := h
  obtain ⟨back', heq', -, hno'⟩ := h'
  refine ⟨back ++ back', ?_, fun i hi => (hback i hi).append_right back', fun i hi => ?_⟩
  · rw [heq', show st₂.calls = st₁.calls ++ back from congrArg Prod.snd heq, List.append_assoc]
  · rcases List.mem_append.mp hi with hi | hi
    · exact hno i hi
    · exact hno' i hi

/-- **Claim all.** Some interfaces are taken that were not before, and nothing else happens. -/
theorem claimAll_spec (kernel : UInt8 → ClaimAnswers) (ifaces : List UInt8) (st : DevState) :
    ∃ new, (st.claimAll kernel ifaces).2.interfaces =
        (st.claimed ++ new, st.calls ++ new.map .claim) ∧ ∀ i ∈ new, i ∉ st.claimed := by
  induction ifaces generalizing st with
  | nil => exact ⟨[], by simp [claimAll, interfaces], by simp⟩
  | cons i rest ih =>
    rw [claimAll]
    split_ifs with hi
    · exact ih st
    · cases claimOne (kernel i) with
      | error e => exact ⟨[], by simp [interfaces], by simp⟩
      | ok u =>
        obtain ⟨new, heq, hnew⟩ := ih (st.claim i)
        refine ⟨i :: new, ?_, fun j hj => ?_⟩
        · rw [heq]
          simp [claim]
        · rcases List.mem_cons.mp hj with rfl | hj
          · exact hi
          · exact fun hmem => hnew j hj (List.mem_append_left _ hmem)

/-- `claim_all` succeeds if every interface that is not claimed yet can be had. -/
theorem claimAll_ok_iff (kernel : UInt8 → ClaimAnswers) (ifaces : List UInt8) (st : DevState) :
    (st.claimAll kernel ifaces).1 = .ok () ↔
      ∀ i ∈ ifaces, i ∉ st.claimed → claimOne (kernel i) = .ok () := by
  induction ifaces generalizing st with
  | nil => simp [claimAll]
  | cons i rest ih =>
    rw [claimAll]
    split_ifs with hi
    · rw [ih]
      simp [hi]
    · cases hone : claimOne (kernel i) with
      | error e => simp [hi, hone]
      | ok u =>
        rw [ih]
        simp only [List.forall_mem_cons, hone, implies_true, true_and]
        refine forall₂_congr fun j _ => ?_
        by_cases hj : j = i
        · simp [hj, hone]
        · simp [claim, hj]

/-- `claim_all` takes nothing if the first interface that is not claimed yet cannot be had. -/
theorem claimAll_eq_self_iff (kernel : UInt8 → ClaimAnswers) (ifaces : List UInt8)
    (st : DevState) :
    (st.claimAll kernel ifaces).2.claimed = st.claimed ↔
      ∀ i, ifaces.find? (· ∉ st.claimed) = some i → claimOne (kernel i) ≠ .ok () := by
  induction ifaces with
  | nil => simp [claimAll]
  | cons i rest ih =>
    rw [claimAll, List.find?_cons]
    by_cases hi : i ∈ st.claimed
    · simp only [hi, if_true, not_true_eq_false, decide_false]
      exact ih
    · simp only [hi, if_false, not_false_eq_true, decide_true, Option.some.injEq]
      cases hone : claimOne (kernel i) with
      | error e => simp [hone]
      | ok u =>
        -- the list of claimed interfaces has grown, so it is not the same
        obtain ⟨new, heq, -⟩ := claimAll_spec kernel rest (st.claim i)
        have hlen := congrArg List.length (congrArg Prod.fst heq)
        simp only [interfaces, claim, List.length_append, List.length_singleton] at hlen
        constructor
        · intro hsame
          have := congrArg List.length hsame
          simp only [claim] at this
          omega
        · exact fun h => absurd hone (h i rfl)

/-- Offering an interface back asks for nothing but a driver for it. -/
theorem eq_of_mem_reconnectOne {ifnum : UInt8} {attempts : ℕ} {answers : List Ioctl}
    {call : IfaceCall} (h : call ∈ reconnectOne ifnum attempts answers) :
    call = .connect ifnum := by
  induction attempts generalizing answers with
  | zero => cases h
  | succ n ih =>
    rw [reconnectOne, List.mem_cons] at h
    rcases h with h | h
    · exact h
    · split at h
      · cases h
      · split_ifs at h
        · cases h
        · exact ih h

/-- **Release all.** -/
theorem releaseAll_spec (kernel : UInt8 → List Ioctl) (st : DevState) :
    st.HandsBack (st.releaseAll kernel) := by
  unfold releaseAll
  split_ifs with h
  · exact ⟨[], by simp [interfaces, h], by simp [h], by simp⟩
  · refine ⟨_, rfl, fun i hi => ?_, fun i hi => ?_⟩
    · obtain ⟨before, after, hsplit⟩ := List.append_of_mem (List.mem_map_of_mem hi)
      refine ⟨before, after ++ st.claimed.flatMap fun j =>
        reconnectOne j RECONNECT_ATTEMPTS (kernel j), ?_, ?_⟩
      · rw [hsplit, List.append_assoc, List.cons_append]
      · exact List.mem_append_right _ (List.mem_flatMap.mpr ⟨i, hi, List.mem_cons_self⟩)
    · rcases List.mem_append.mp hi with hi | hi
      · obtain ⟨j, -, hj⟩ := List.mem_map.mp hi
        cases hj
      · obtain ⟨j, -, hj⟩ := List.mem_flatMap.mp hi
        cases eq_of_mem_reconnectOne hj

/-! ### The URB calls leave the interfaces alone -/

theorem interfaces_unlink (seqnum : UInt32) (answer : Ioctl) (st : DevState) :
    (st.unlink seqnum answer).2.interfaces = st.interfaces := by
  unfold unlink
  split <;> rfl

theorem interfaces_reap {k : KernelUrb} {st st' : DevState} {c : UrbCompletion}
    (h : st.reap k = some (c, st')) : st'.interfaces = st.interfaces := by
  unfold reap at h
  split at h
  · cases h
  · cases h
    rfl

theorem interfaces_unlinkAll (seqnums : List UInt32) (answers : UInt32 → Ioctl) (st : DevState) :
    (st.unlinkAll seqnums answers).interfaces = st.interfaces := by
  induction seqnums generalizing st with
  | nil => rfl
  | cons s rest ih => exact (ih _).trans (interfaces_unlink s (answers s) st)

theorem interfaces_drain (done : List KernelUrb) (st : DevState) :
    (st.drain done).interfaces = st.interfaces := by
  induction done generalizing st with
  | nil => rfl
  | cons k ks ih =>
    unfold drain
    split_ifs
    · rfl
    · cases hr : st.reap k with
      | none => exact ih st
      | some r => exact (ih r.2).trans (interfaces_reap hr)

theorem interfaces_cancelPending (st : DevState) (answers : UInt32 → Ioctl)
    (done : List KernelUrb) : (st.cancelPending answers done).interfaces = st.interfaces := by
  unfold cancelPending
  split_ifs
  · rfl
  · rw [interfaces_drain, interfaces_unlinkAll]

/-- **Drop.** -/
theorem drop_spec (k : DropAnswers) (st : DevState) : st.HandsBack (st.drop k) :=
  (releaseAll_spec k.connect (st.cancelPending k.discard k.done)).of_interfaces_eq
    (interfaces_cancelPending st k.discard k.done) rfl

end DevState

theorem UsbfsDevice.interfaces_submit (d : UsbfsDevice) (req : UrbRequest) (answer : Ioctl)
    (st : DevState) : (d.submit req answer st).2.interfaces = st.interfaces := by
  rcases d.submit_spec req answer st with ⟨e, he⟩ | ⟨-, epAddr, typ, hok⟩
  · rw [he]
  · rw [hok]
    rfl

end Padwire
