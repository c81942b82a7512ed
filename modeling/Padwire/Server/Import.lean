import Padwire.Backend.Interfaces
import Padwire.Server.Session

/-!
# Importing a device

`import` (`usbfwd-server/src/lib.rs`) takes a device from the kernel, serves one session on it
and gives it back. Where the device comes from decides what happens when `import` lets go of it:
a `SysfsDevices` source opens a device for each import, whose last reference is dropped on
return, while the device of a `SingleDevice` outlives the import.

The interfaces are released on the way out of a session. On the two error exits between
`claim_all` and the session they are not: with `SysfsDevices` dropping the device makes up for
it, with `SingleDevice` nothing does. `import_restores_iff` says exactly when every interface is
handed back.
-/

namespace Padwire

variable {d : UsbfsDevice} {st st' : State} {a : Action}

/-- Where exportable devices come from. -/
inductive DeviceSource
  /-- Enumerate the local bus and open a device for each import. -/
  | sysfsDevices
  /-- Export one device that is open already. -/
  | singleDevice
  deriving DecidableEq, Repr

/-- The device `open` returns: a new one, or the one the source holds. -/
def DeviceSource.open (source : DeviceSource) (shared : DevState) : DevState :=
  match source with
  | .sysfsDevices => .fresh
  | .singleDevice => shared

/-- `import` lets go of the device it opened: the last reference to it is dropped, or the source
still holds one. -/
def DeviceSource.close (source : DeviceSource) (k : DropAnswers) (dev : DevState) : DevState :=
  match source with
  | .sysfsDevices => dev.drop k
  | .singleDevice => dev

def Action.isStart : Action → Bool
  | .start _ _ => true
  | _ => false

/-- What the world answers an import. -/
structure ImportEnv where
  /-- Whether the list of exportable devices has this one; `none` if it could not be read. -/
  listed : Option Bool
  leased : Bool
  opened : Bool
  claims : UInt8 → ClaimAnswers
  /-- The success reply could be written. -/
  replied : Bool
  opts : SessionOpts
  armed : List Ioctl
  /-- The run of the session. -/
  session : List Action
  connects : UInt8 → List Ioctl
  dropped : DropAnswers

/-- `session::run`: one session on the device, until `run` has returned. -/
def ImportEnv.serve (env : ImportEnv) (d : UsbfsDevice) (dev : DevState) : Option DevState :=
  (runIf (step d) (fun _ a => !a.isStart) (start d env.opts env.armed dev) env.session).bind
    fun st => if st.main = .ended ∨ st.main = .failed then some st.dev else none

/-- How an import ends. -/
inductive ImportExit
  | listFailed
  | refused
  | replyFailed
  | served
  deriving DecidableEq, Repr

/-- The part of `import` from `claim_all` on. -/
def claimAndServe (d : UsbfsDevice) (env : ImportEnv) (dev : DevState) :
    Option (ImportExit × DevState) :=
  match d.claimAll env.claims dev with
  -- what was claimed before the failure is not released on this exit, nor on the next
  | (.error _, dev) => some (.refused, dev)
  | (.ok (), dev) =>
    if !env.replied then some (.replyFailed, dev)
    else (env.serve d dev).map fun dev => (.served, dev.releaseAll env.connects)

/-- Import a device: how it ends, and the state in which it leaves the device it opened, if it
came to that. `none` if the session does not return. -/
def importDevice (d : UsbfsDevice) (source : DeviceSource) (env : ImportEnv)
    (shared : DevState) : Option (ImportExit × Option DevState) :=
  match env.listed with
  | none => some (.listFailed, none)
  | some listed =>
    if !listed then some (.refused, none)
    else if !env.leased then some (.refused, none)
    else if !env.opened then some (.refused, none)
    else (claimAndServe d env (source.open shared)).map fun r =>
      (r.1, some (source.close env.dropped r.2))

/-! ### A session leaves the interfaces alone -/

theorem interfaces_start (opts : SessionOpts) (answers : List Ioctl) (dev : DevState) :
    (start d opts answers dev).dev.interfaces = dev.interfaces := by
  refine Prefetch.arm_rule d.backend (fun _ x => x.1.interfaces = dev.interfaces)
    (d := (dev.age, answers)) ?_ rfl
  intro p x address ep ep' next' x' h hep heff
  have hsub := d.interfaces_submit (ep.request address p.next) (x.2.headD .ok) x.1
  cases heff with
  | idle _ => exact h
  | accepted _ _ hacc =>
    simp only [UsbfsDevice.backend, Prod.mk.injEq] at hacc
    rw [← hacc.2]
    exact hsub.trans h
  | refused _ _ href =>
    simp only [UsbfsDevice.backend, Prod.mk.injEq] at href
    rw [← href.2]
    exact hsub.trans h

theorem interfaces_step (h : step d st a = some st') : st'.dev.interfaces = st.dev.interfaces := by
  have hrule : ∀ answers : List Ioctl, _ := fun answers =>
    Prefetch.device_rule d.backend (fun x => x.1.interfaces = st.dev.interfaces)
      (fun req x hx => (d.interfaces_submit req (x.2.headD .ok) x.1).trans hx)
      (p := st.prefetch) (d := (st.dev, answers)) rfl
  cases a with
  | start opts answers =>
    simp only [step] at h
    split at h
    · cases h
      exact interfaces_start _ _ _
    · cases h
      exact interfaces_start _ _ _
    · cases h
  | take answer =>
    simp only [step] at h
    split at h
    · rename_i req _
      cases h
      exact (hrule [answer]).1 req.address req.seqnum req.bufferLength
    · cases h
  | submit answer =>
    simp only [step] at h
    split at h
    · cases h
      exact d.interfaces_submit _ _ _
    · cases h
  | devUnlink answer =>
    simp only [step] at h
    split at h
    · cases h
      exact DevState.interfaces_unlink _ _ _
    · cases h
  | shutdown answers =>
    simp only [step] at h
    split at h
    · cases h
      exact Prefetch.shutdown_rule d.backend (fun x => x.1.interfaces = st.dev.interfaces)
        (fun s x hx => (DevState.interfaces_unlink s _ x.1).trans hx) (d := (st.dev, answers)) rfl
    · cases h
  | cancel answers done =>
    simp only [step] at h
    split at h
    · cases h
      exact DevState.interfaces_cancelPending _ _ _
    · cases h
  | reap k now =>
    simp only [step] at h
    split at h
    · obtain ⟨⟨c, dev'⟩, hreap, hst⟩ := Option.map_eq_some_iff.mp h
      have hkeep := DevState.interfaces_reap hreap
      rw [← hst]
      dsimp only
      split_ifs <;> exact hkeep
    · cases h
  | deliver answer =>
    simp only [step] at h
    split at h
    · rename_i c r _
      cases h
      exact (hrule [answer]).2 c.seqnum c.status c.data
    · cases h
  | read input =>
    simp only [step] at h
    split at h
    · split at h
      · cases h
        rfl
      · obtain ⟨pc, -, rfl⟩ := Option.map_eq_some_iff.mp h
        rfl
    · cases h
  | _ =>
    -- the remaining steps do not call the device
    simp only [step] at h
    repeat' split at h
    all_goals first
      | exact (Option.some.inj h) ▸ rfl
      | cases h

/-- A session changes nothing about the interfaces. -/
theorem interfaces_serve {env : ImportEnv} {dev dev' : DevState}
    (h : env.serve d dev = some dev') : dev'.interfaces = dev.interfaces := by
  obtain ⟨st, hrun, hend⟩ := Option.bind_eq_some_iff.mp h
  have hreach : Reach (step d) (· = start d env.opts env.armed dev) (fun _ _ => True) st :=
    Reach.of_runIf (fun _ _ _ => trivial) (.start rfl) hrun
  have hkeep : st.dev.interfaces = dev.interfaces :=
    hreach.invariant (fun st => st.dev.interfaces = dev.interfaces)
      (fun _ hs => hs ▸ interfaces_start _ _ _)
      fun _ _ _ ih _ hstep => (interfaces_step hstep).trans ih
  split_ifs at hend
  · rw [← Option.some.inj hend]
    exact hkeep

/-! ### What an import leaves behind -/

/-- Nothing is claimed because of what happened between the two states: no interface is claimed
that was not before, and every claim has been followed by a release and then by an offer to the
kernel's drivers. -/
def Restored (before after : DevState) : Prop :=
  (∀ i ∈ after.claimed, i ∈ before.claimed) ∧
    ∃ new, after.calls = before.calls ++ new ∧
      ∀ i pre post, new = pre ++ .claim i :: post → HandedBack i post

/-- Claims that are followed by handing everything back leave nothing behind. -/
theorem restored_of_handsBack {before dev after : DevState} {new : List UInt8}
    (hclaim : dev.interfaces = (before.claimed ++ new, before.calls ++ new.map .claim))
    (h : dev.HandsBack after) : Restored before after := by
  obtain ⟨hclaimed, hcalls⟩ := Prod.mk.inj hclaim
  obtain ⟨back, hafter, hback, hno⟩ := h
  obtain ⟨hnone, hall⟩ := Prod.mk.inj hafter
  refine ⟨by simp [hnone], new.map .claim ++ back, ?_, fun i pre post hsplit => ?_⟩
  · rw [hall, hcalls, List.append_assoc]
  · -- the claim is one of the first part, since nothing is claimed while handing back
    rcases List.append_eq_append_iff.mp hsplit with ⟨bs, -, hbs⟩ | ⟨cs, hcs, hpost⟩
    · exact absurd (hbs ▸ List.mem_append_right bs List.mem_cons_self) (hno i)
    · cases cs with
      | nil =>
        rw [List.nil_append] at hpost
        exact absurd (hpost ▸ List.mem_cons_self) (hno i)
      | cons c cs =>
        rw [List.cons_append, List.cons.injEq] at hpost
        obtain ⟨rfl, rfl⟩ := hpost
        have hmem : IfaceCall.claim i ∈ new.map .claim :=
          hcs ▸ List.mem_append_right pre List.mem_cons_self
        obtain ⟨j, hj, hji⟩ := List.mem_map.mp hmem
        cases hji
        exact (hback i (hclaimed ▸ List.mem_append_right _ hj)).append_left cs

/-- **From claim to return.** The device is handed back if every interface could be claimed and
the reply written; on the other exits it is left as `claim_all` left it. -/
theorem claimAndServe_spec {env : ImportEnv} {dev dev' : DevState} {exit : ImportExit}
    (h : claimAndServe d env dev = some (exit, dev')) :
    ((d.claimAll env.claims dev).1 = .ok () ∧ env.replied = true ∧
        (d.claimAll env.claims dev).2.HandsBack dev') ∨
      (¬ ((d.claimAll env.claims dev).1 = .ok () ∧ env.replied = true) ∧
        dev' = (d.claimAll env.claims dev).2) := by
  unfold claimAndServe at h
  rcases hclaim : d.claimAll env.claims dev with ⟨r, dev₁⟩
  rw [hclaim] at h
  cases r with
  | error e =>
    cases h
    exact .inr ⟨by simp, rfl⟩
  | ok u =>
    dsimp only at h
    cases hreply : env.replied with
    | false =>
      rw [hreply] at h
      cases h
      exact .inr ⟨by simp, rfl⟩
    | true =>
      rw [hreply] at h
      obtain ⟨dev₂, hserve, heq⟩ := Option.map_eq_some_iff.mp h
      cases heq
      exact .inl ⟨rfl, rfl, (DevState.releaseAll_spec env.connects dev₂).of_interfaces_eq
        (interfaces_serve hserve) rfl⟩

/-- Claims that nothing follows leave something behind, unless there are none. -/
private theorem restored_iff_claimed {before dev : DevState} {new : List UInt8}
    (hclaim : dev.interfaces = (before.claimed ++ new, before.calls ++ new.map .claim))
    (hnew : ∀ i ∈ new, i ∉ before.claimed) :
    Restored before dev ↔ dev.claimed = before.claimed := by
  obtain ⟨hclaimed, hcalls⟩ := Prod.mk.inj hclaim
  constructor
  · rintro ⟨hsub, -⟩
    have hnil : new = [] := List.eq_nil_iff_forall_not_mem.mpr fun i hi =>
      hnew i hi (hsub i (hclaimed ▸ List.mem_append_right _ hi))
    rw [hclaimed, hnil, List.append_nil]
  · intro hsame
    have hnil : new = [] := by
      rw [hclaimed] at hsame
      exact List.append_right_eq_self.mp hsame
    refine ⟨fun i hi => hsame ▸ hi, [], ?_, fun i pre post hsplit => ?_⟩
    · rw [hcalls, hnil, List.map_nil]
    · exact absurd hsplit (by simp)

/-- An import that has opened a device goes on to claim it, and lets go of it at the end. -/
private theorem claimAndServe_of_import {source : DeviceSource} {env : ImportEnv}
    {shared after : DevState} {exit : ImportExit}
    (h : importDevice d source env shared = some (exit, some after)) :
    ∃ dev', claimAndServe d env (source.open shared) = some (exit, dev') ∧
      after = source.close env.dropped dev' := by
  unfold importDevice at h
  split at h
  · cases h
  · split_ifs at h
    · cases h
    · cases h
    · cases h
    · obtain ⟨⟨e, dev'⟩, hserve, heq⟩ := Option.map_eq_some_iff.mp h
      cases heq
      exact ⟨dev', hserve, rfl⟩

/-- **What an import leaves behind.** However an import ends once it has opened the device,
every interface it claimed has been released and offered back exactly if the device came from
`SysfsDevices`, or every interface could be claimed and the success reply written, or it claimed
none at all, because the first that was not claimed already could not be had. -/
theorem import_restores_iff {source : DeviceSource} {env : ImportEnv} {shared after : DevState}
    {exit : ImportExit} (h : importDevice d source env shared = some (exit, some after)) :
    Restored (source.open shared) after ↔
      source = .sysfsDevices ∨
      ((∀ i ∈ d.interfaceNumbers, i ∉ shared.claimed → claimOne (env.claims i) = .ok ()) ∧
        env.replied = true) ∨
      ∀ i, d.interfaceNumbers.find? (· ∉ shared.claimed) = some i →
        claimOne (env.claims i) ≠ .ok () := by
  obtain ⟨dev', hserve, rfl⟩ := claimAndServe_of_import h
  have hspec := claimAndServe_spec hserve
  obtain ⟨new, hclaim, hnew⟩ :=
    DevState.claimAll_spec env.claims d.interfaceNumbers (source.open shared)
  cases source with
  | sysfsDevices =>
    refine iff_of_true (restored_of_handsBack hclaim ?_) (.inl rfl)
    -- dropping the last reference hands back whatever is still claimed
    have hdrop : dev'.HandsBack (dev'.drop env.dropped) := DevState.drop_spec env.dropped dev'
    rcases hspec with ⟨-, -, hback⟩ | ⟨-, hsame⟩
    · exact hback.trans hdrop
    · rw [hsame] at hdrop ⊢
      exact hdrop
  | singleDevice =>
    have hok := DevState.claimAll_ok_iff env.claims d.interfaceNumbers shared
    rcases hspec with ⟨hall, hreply, hback⟩ | ⟨hnot, rfl⟩
    · exact iff_of_true (restored_of_handsBack hclaim hback)
        (.inr (.inl ⟨hok.mp hall, hreply⟩))
    · -- the two error exits: the device is as `claim_all` left it
      have hself := DevState.claimAll_eq_self_iff env.claims d.interfaceNumbers shared
      refine (restored_iff_claimed hclaim hnew).trans (hself.trans ?_)
      constructor
      · exact fun hfirst => .inr (.inr hfirst)
      · rintro (hsrc | ⟨hall, hreply⟩ | hfirst)
        · cases hsrc
        · exact absurd ⟨hok.mpr hall, hreply⟩ hnot
        · exact hfirst

/-- A client that hangs up before the success reply is written. -/
def hangUpEarly : ImportEnv where
  listed := some true
  leased := true
  opened := true
  claims _ := { disconnectClaim := .ok, disconnect := .ok, claim := .ok }
  replied := false
  opts := { prefetch := false, hotkey := none }
  armed := []
  session := []
  connects _ := []
  dropped := { discard := fun _ => .ok, done := [], connect := fun _ => [] }

/-- The device of a `SingleDevice` can be left claimed. -/
theorem exists_interface_left_claimed :
    ¬ ∀ source env shared exit after,
      importDevice gamepad source env shared = some (exit, some after) →
        Restored (source.open shared) after := by
  intro hall
  have hrun : importDevice gamepad .singleDevice hangUpEarly .fresh =
      some (.replyFailed, some (DevState.fresh.claim 0)) := rfl
  have hleft := (hall .singleDevice hangUpEarly .fresh _ _ hrun).1 0 List.mem_cons_self
  cases hleft

/-- An import whose client detaches at once. -/
def detachAtOnce : ImportEnv :=
  { hangUpEarly with
    replied := true
    session := [.spawn true, .check true, .halt, .shutdown [], .poll, .leave, .hangUp, .writerStop,
      .join, .cancel (fun _ => .ok) []] }

theorem import_restores_detachAtOnce :
    ∃ after, importDevice gamepad .singleDevice detachAtOnce .fresh = some (.served, some after) ∧
      after.calls = [.claim 0, .release 0, .connect 0] ∧ Restored .fresh after := by
  have hrun : ((importDevice gamepad .singleDevice detachAtOnce .fresh).any fun r =>
      r.1 = .served && r.2.any fun dev =>
        dev.calls = [.claim 0, .release 0, .connect 0]) = true := by decide +kernel
  obtain ⟨⟨exit, dev?⟩, himport, hr⟩ := (Option.any_eq_true _ _).mp hrun
  rw [Bool.and_eq_true, decide_eq_true_eq] at hr
  obtain ⟨rfl, hdev⟩ := hr
  obtain ⟨after, rfl, hcalls⟩ := (Option.any_eq_true _ _).mp hdev
  refine ⟨after, himport, of_decide_eq_true hcalls,
    (import_restores_iff himport).mpr (.inr (.inl ?_))⟩
  exact ⟨fun _ _ _ => rfl, rfl⟩

end Padwire
