import Padwire.Attach.Daemon

/-!
# The ports of the tracked attachments

`Daemon.attached` names a `vhci` port for each attachment. The daemon compares it with the kernel
only in `prune`, at the start of a tick, and finds the port of a new attachment as the first one
that is busy after `usbip attach` and was not before it.

A tracked port can go unseen in the first of these two snapshots: its device has dropped off since
the last `prune`, or the read failed, which counts as no port at all. If it is then the first new
one of the second snapshot, the daemon tracks it twice: the old attachment is kept alive by the
new device. `Reappears` is this case, and `tracked_ports_nodup` says that it is the only one.
-/

namespace Padwire.Attach

/-- The port is missing from the first snapshot, and it is the first port of the second one that
is. -/
def Reappears (before after : List UInt32) (port : UInt32) : Prop :=
  port ∉ before ∧ ∃ l m, after = l ++ port :: m ∧ ∀ p ∈ l, p ∈ before

theorem newlyUsed_eq_some_iff {before after : List UInt32} {port : UInt32} :
    newlyUsed before after = some port ↔ Reappears before after port := by
  rw [newlyUsed, List.find?_eq_some_iff_append]
  simp [Reappears]

/-- In this step no tracked port comes back between the two snapshots of an attach. -/
def NoReappearance (r : Run) : Answer → Prop
  | .poll _ after =>
    match r.phase with
    | .settling _ _ before _ _ =>
      ∀ t ∈ r.daemon.attached, ¬Reappears before (occupiedPorts after) t.port
    | _ => True
  | _ => True

/-- No two attachments name the same port; before `adopt_existing` there is none. -/
structure Distinct (r : Run) : Prop where
  nodup : (r.daemon.attached.map Tracked.port).Nodup
  fresh : r.phase = .starting → r.daemon.attached = []

theorem Daemon.adoptExisting_nodup {d : Daemon} (hd : d.attached = []) {used : List UInt32}
    (hused : used.Nodup) {recorded : List Record} (hrec : (recorded.map Record.port).Nodup) :
    ((d.adoptExisting used recorded).attached.map Tracked.port).Nodup := by
  have hknown : ((recorded.filter fun r => used.contains r.port).map Record.port).Nodup :=
    hrec.sublist (List.filter_sublist.map Record.port)
  simp only [adoptExisting, hd, List.nil_append, List.map_append, List.map_map,
    Function.comp_def, List.map_id']
  refine List.nodup_append'.mpr ⟨hknown, hused.filter _, fun port hport hother => ?_⟩
  have hnot := (List.mem_filter.mp hother).2
  rw [Bool.not_eq_true', List.contains_eq_mem, decide_eq_false_iff_not] at hnot
  exact hnot hport

theorem Daemon.prune_sublist (d : Daemon) (ports : Option Snapshot) :
    (d.prune ports).attached.Sublist d.attached := by
  cases ports with
  | none => exact List.Sublist.refl _
  | some s => exact List.filter_sublist

theorem Run.attached_fail (r : Run) (server : Server) (stage : Stage) (now : Instant)
    (rest : List Server) :
    (r.fail server stage now rest).daemon.attached = r.daemon.attached ∧
      (r.fail server stage now rest).phase ≠ .starting := by
  rcases r.fail_cases server stage now rest with ⟨site, -, hfail⟩ | ⟨level, next, d, hd, hfail⟩
  · rw [hfail]
    exact ⟨rfl, nofun⟩
  · obtain ⟨-, -, delay, -, rfl⟩ := Daemon.recordFailure_ok hd
    rw [hfail]
    exact ⟨rfl, nofun⟩

/-- A step that keeps the attachments and is not back at the start. -/
theorem Distinct.keep {r r' : Run} (hr : Distinct r)
    (hattached : r'.daemon.attached = r.daemon.attached) (hphase : r'.phase ≠ .starting) :
    Distinct r' :=
  ⟨hattached ▸ hr.nodup, fun h => absurd h hphase⟩

theorem Distinct.effect {r r' : Run} {a : Answer} (hr : Distinct r) (hok : NoReappearance r a)
    (h : Run.Effect r a r') : Distinct r' := by
  cases h with
  | adopt hp =>
    exact ⟨Daemon.adoptExisting_nodup (hr.fresh hp) (occupiedPorts_nodup _) (records_nodup _),
      nofun⟩
  | @prune ports phase hp hphase =>
    refine ⟨hr.nodup.sublist ((r.daemon.prune_sublist ports).map Tracked.port), fun h => ?_⟩
    rcases hphase with rfl | rfl <;> cases h
  | @attached now deadline after before port server dev rest phase hp hport hphase =>
    refine ⟨?_, fun h => by rcases hphase with rfl | rfl <;> cases h⟩
    have hnew : port ∉ r.daemon.attached.map Tracked.port := by
      intro hmem
      obtain ⟨t, ht, rfl⟩ := List.mem_map.mp hmem
      rw [NoReappearance, hp] at hok
      exact hok t ht (newlyUsed_eq_some_iff.mp hport)
    rw [List.map_append]
    exact hr.nodup.append (List.nodup_singleton port)
      (List.disjoint_singleton.mpr hnew)
  | unreachable hp => exact hr.keep (r.attached_fail ..).1 (r.attached_fail ..).2
  | refused hp => exact hr.keep (r.attached_fail ..).1 (r.attached_fail ..).2
  | waiting _ => exact hr
  | wake hp hphase => exact hr.keep rfl (by rcases hphase with rfl | rfl <;> nofun)
  | _ => exact hr.keep rfl nofun

theorem distinct_of_reach {cfg : Config} {r : Run}
    (h : Reach Run.step (Run.Initial cfg) NoReappearance r) : Distinct r := by
  refine h.invariant Distinct ?_ fun r a r' hr hok hstep => ?_
  · rintro _ ⟨clock, rfl⟩
    exact ⟨List.nodup_nil, fun _ => rfl⟩
  · obtain ⟨clock, -, -, heff⟩ := Run.effect_of_step hstep
    exact Distinct.effect (r := { r with clock }) ⟨hr.nodup, hr.fresh⟩ hok heff

/-- **No port is tracked twice** in any run in which no tracked port comes back between the two
snapshots of an attach. With `stop_after_first` none ever does (`noReappearance_of_stopAfterFirst`).
-/
theorem tracked_ports_nodup {cfg : Config} {r : Run}
    (h : Reach Run.step (Run.Initial cfg) NoReappearance r) :
    (r.daemon.attached.map Tracked.port).Nodup :=
  (distinct_of_reach h).nodup

/-! ### Two servers in one tick -/

/-- The condition of `tracked_ports_nodup`, as a check along a run. -/
def noReappearance (r : Run) : Answer → Bool
  | .poll _ after =>
    match r.phase with
    | .settling _ _ before _ _ =>
      r.daemon.attached.all fun t => newlyUsed before (occupiedPorts after) != some t.port
    | _ => true
  | _ => true

theorem noReappearance_sound (r : Run) (a : Answer) (h : noReappearance r a = true) :
    NoReappearance r a := by
  cases a with
  | poll now after =>
    simp only [noReappearance] at h
    simp only [NoReappearance]
    cases hp : r.phase with
    | settling server dev before deadline rest =>
      rw [hp] at h
      intro t ht hback
      have hne := List.all_eq_true.mp h t ht
      rw [newlyUsed_eq_some_iff.mpr hback, bne_self_eq_false] at hne
      cases hne
    | _ => trivial
  | _ => trivial

/-- Two servers, and all of their devices are wanted. -/
def twoServers : Config where
  servers := [deck "deck", deck "tablet"]
  discovery := .default
  attach := { Settings.default with stopAfterFirst := false }

/-- Two ports, each of them in use or free. -/
def twoPorts (first second : Bool) : Snapshot where
  ports := [⟨0, if first then VDEV_ST_USED else VDEV_ST_NULL⟩,
    ⟨1, if second then VDEV_ST_USED else VDEV_ST_NULL⟩]
  nodup := show [(0 : UInt32), 1].Nodup by decide

/-- The next server has a controller, and `usbip attach` succeeds. -/
def attachNext (before after : Snapshot) : List Answer :=
  [.check (.ofSecs 1), .devlist (some [controller]) (.ofSecs 1),
    .usbip (some before) true (.ofSecs 1), .poll (.ofSecs 1) (some after)]

def firstTick (rest : List Answer) : List Answer :=
  [.adopt none ⟨[], List.nodup_nil⟩, .prune none, .next] ++ rest

/-- Both controllers are attached, each on a port of its own. -/
theorem tracked_ports_nodup_two : ∃ r, Reach Run.step (Run.Initial twoServers) NoReappearance r ∧
    r.daemon.attached.map Tracked.port = [0, 1] ∧
    (r.daemon.attached.map Tracked.port).Nodup := by
  obtain ⟨r, hr, hports⟩ := Run.exists_reach twoServers (.ofSecs 0) noReappearance_sound
    (firstTick (attachNext (twoPorts false false) (twoPorts true false) ++
      attachNext (twoPorts true false) (twoPorts true true)))
    (fun r => r.daemon.attached.map Tracked.port == [0, 1]) (by decide +kernel)
  exact ⟨r, hr, by simpa using hports, tracked_ports_nodup hr⟩

/-- The controller of the first server drops off port 0 while the tick goes on, and the one of the
second server gets that port: it is tracked for both. -/
theorem exists_port_tracked_twice :
    ∃ r, Reachable Run.step (Run.Initial twoServers) r ∧
      r.daemon.attached.map Tracked.server = ["deck", "tablet"] ∧
      r.daemon.attached.map Tracked.port = [0, 0] ∧
      ¬(r.daemon.attached.map Tracked.port).Nodup := by
  obtain ⟨r, hr, hf⟩ := Run.exists_reachable twoServers (.ofSecs 0)
    (firstTick (attachNext (twoPorts false false) (twoPorts true false) ++
      attachNext (twoPorts false false) (twoPorts true false)))
    (fun r => r.daemon.attached.map Tracked.server == ["deck", "tablet"] &&
      r.daemon.attached.map Tracked.port == [0, 0]) (by decide +kernel)
  simp only [Bool.and_eq_true, beq_iff_eq] at hf
  exact ⟨r, hr, hf.1, hf.2, by rw [hf.2]; decide⟩

end Padwire.Attach
