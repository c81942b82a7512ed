import Padwire.Lib.Scan
import Mathlib.Data.List.Sort

/-!
# The ports of `vhci-hcd`

What the attach daemon reads about the virtual host controller (`usbfwd-attach/src/vhci.rs`): the
status of its ports, and the records that `usbip attach` leaves behind. A read of the ports is an
answer of the kernel; the rows it prints are of different ports, and so are the files of the
records, which are named after their ports. Of a row only the port and its status are kept.
-/

namespace Padwire.Attach

def VDEV_ST_NULL : UInt32 := 4
def VDEV_ST_NOTASSIGNED : UInt32 := 5
def VDEV_ST_USED : UInt32 := 6
def VDEV_ST_ERROR : UInt32 := 7

structure Port where
  port : UInt32
  status : UInt32
  deriving DecidableEq

/-- Not free: also a port that is still being enumerated. -/
def Port.occupied (p : Port) : Bool := p.status != VDEV_ST_NULL

def Port.failed (p : Port) : Bool := p.status == VDEV_ST_ERROR

/-- What one read of all ports returns. -/
structure Snapshot where
  ports : List Port
  nodup : (ports.map Port.port).Nodup

/-- `occupied_ports().unwrap_or_default()`: a read that fails counts as no port at all. -/
def occupiedPorts : Option Snapshot → List UInt32
  | none => []
  | some s => (s.ports.filter Port.occupied).map Port.port

/-- A snapshot lists each port once, and so do the occupied ones. -/
theorem occupiedPorts_nodup (s : Option Snapshot) : (occupiedPorts s).Nodup := by
  cases s with
  | none => exact List.nodup_nil
  | some s => exact s.nodup.sublist (List.filter_sublist.map Port.port)

/-- The port that appeared between two snapshots. -/
def newlyUsed (before after : List UInt32) : Option UInt32 :=
  after.find? fun p => !before.contains p

/-! ### Records -/

/-- What `usbip attach` wrote about a port: the remote side of the connection. -/
structure Record where
  port : UInt32
  host : String
  servicePort : String
  busid : String
  deriving DecidableEq

/-- The files of the state directory: the port in the name, and the text if it can be read. -/
structure StateDir where
  files : List (UInt32 × Option String)
  nodup : (files.map Prod.fst).Nodup

/-- The words of a text. -/
def splitWhitespace (s : List Char) : List (List Char) :=
  (s.splitOnP isWhitespace).filter (· ≠ [])

def Record.ofFile (file : UInt32 × Option String) : Option Record :=
  file.2.bind fun text =>
    match (splitWhitespace text.toList).map String.ofList with
    | host :: servicePort :: busid :: _ => some { port := file.1, host, servicePort, busid }
    | _ => none

/-- Read back what `usbip attach` recorded. -/
def records (dir : StateDir) : List Record :=
  (dir.files.filterMap Record.ofFile).insertionSort fun r s => r.port ≤ s.port

theorem Record.port_of_ofFile {file : UInt32 × Option String} {r : Record}
    (h : ofFile file = some r) : r.port = file.1 := by
  obtain ⟨text, -, h⟩ := Option.bind_eq_some_iff.mp h
  split at h
  · cases h
    rfl
  · cases h

/-- There is one record file for a port. -/
theorem records_nodup (dir : StateDir) : ((records dir).map Record.port).Nodup := by
  have hperm := (List.perm_insertionSort (fun r s : Record => r.port ≤ s.port)
    (dir.files.filterMap Record.ofFile)).map Record.port
  refine hperm.nodup_iff.mpr ?_
  have key : ∀ files : List (UInt32 × Option String),
      List.Sublist ((files.filterMap Record.ofFile).map Record.port) (files.map Prod.fst) := by
    intro files
    induction files with
    | nil => exact .slnil
    | cons file files ih =>
      cases hfile : Record.ofFile file with
      | none =>
        rw [List.filterMap_cons_none hfile]
        exact ih.cons _
      | some r =>
        rw [List.filterMap_cons_some hfile, List.map_cons, List.map_cons,
          Record.port_of_ofFile hfile]
        exact ih.cons_cons _
  exact dir.nodup.sublist (key dir.files)

end Padwire.Attach
