import Padwire.Proto.Io

/-!
# URBs

The types a USB backend and its callers exchange (`usb-backend/src/lib.rs`): one submit in
backend terms, one reaped completion, the ways a submit can fail, and the part of the
`UsbBackend` interface that the prefetcher calls.
-/

namespace Padwire

/-! ### Error numbers -/

def EBUSY : Int32 := 16
def ENODEV : Int32 := 19
def EINVAL : Int32 := 22
def ENOTTY : Int32 := 25
def EPIPE : Int32 := 32
def ENODATA : Int32 := 61
def EOPNOTSUPP : Int32 := 95
def ECONNRESET : Int32 := 104
def ESHUTDOWN : Int32 := 108

/-- What the kernel answers an ioctl with. -/
inductive Ioctl
  | ok
  | err (errno : Int32)
  deriving DecidableEq, Repr

/-! ### Requests and completions -/

/-- Who asked for a URB: the client of this session, the prefetcher of this session for one of
its endpoints, or a session that ran on the device before. The program does not record it, and
no definition of the program below branches on it. -/
inductive Origin
  | client
  | prefetch (address : UInt8)
  | earlier
  deriving DecidableEq, Repr

/-- One `USBIP_CMD_SUBMIT` translated into backend terms. -/
structure UrbRequest where
  seqnum : UInt32
  /-- Endpoint number without the direction bit. 0 means the control endpoint. -/
  ep : UInt8
  dir : Direction
  transferFlags : UInt32
  setup : Setup
  /-- For IN, how many bytes to ask for. For OUT, the length of `data`. -/
  bufferLength : ℕ
  /-- OUT payload; empty for IN. -/
  data : Bytes
  /-- Ghost: who asked for this URB. -/
  origin : Origin
  deriving DecidableEq, Repr

/-- One reaped URB, ready to become a `USBIP_RET_SUBMIT`. -/
structure UrbCompletion where
  seqnum : UInt32
  status : Int32
  actualLength : ℕ
  /-- IN data only. -/
  data : Bytes
  /-- The URB was cancelled by a `USBIP_CMD_UNLINK`. -/
  unlinked : Bool
  /-- Ghost: who asked for this URB. -/
  origin : Origin
  deriving DecidableEq, Repr

/-- The ways a submit can fail. -/
inductive SubmitError
  /-- The device refused this URB. -/
  | urb (status : Int32)
  /-- Carried out directly: no completion will be reaped. -/
  | handled (status : Int32)
  /-- The session cannot continue. -/
  | fatal (e : IoError)
  deriving DecidableEq, Repr

/-- The calls of a `UsbBackend` that the prefetcher makes, on a device state in `δ`. -/
structure UsbBackend (δ : Type) where
  submit : UrbRequest → δ → Except SubmitError Unit × δ
  unlink : UInt32 → δ → Except IoError Bool × δ

end Padwire
