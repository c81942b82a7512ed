import Padwire.Lib.Scan

/-!
# `vid:pid` allow-listing

The device filter of the exporter (`usb-backend/src/filter.rs`).
-/

namespace Padwire

/-- A pattern of the allow-list; `none` stands for `*`. -/
structure Pattern where
  vendor : Option UInt16
  product : Option UInt16
  deriving DecidableEq, Repr

def Pattern.matches (p : Pattern) (vid pid : UInt16) : Bool :=
  p.vendor.all (· == vid) && p.product.all (· == pid)

/-- Valve's vendor id. -/
def VALVE_VID : UInt16 := 0x28de

structure DeviceFilter where
  patterns : List Pattern
  deriving DecidableEq, Repr

/-- The default filter: every device of the vendor. -/
def DeviceFilter.default : DeviceFilter :=
  ⟨[{ vendor := some VALVE_VID, product := none }]⟩

/-- An empty filter matches nothing. -/
def DeviceFilter.matches (f : DeviceFilter) (vid pid : UInt16) : Bool :=
  f.patterns.any (·.matches vid pid)

/-! ### Parsing -/

/-- One half of a pattern: `*`, nothing, or a 16-bit number in hexadecimal. -/
def Pattern.parsePart (part whole : List Char) : Except String (Option UInt16) :=
  let part := trim part
  if part = ['*'] ∨ part = [] then .ok none
  else match parseUnsigned 16 65535 part with
    | some n => .ok (some (UInt16.ofNat n))
    | none => .error ("`" ++ String.ofList part ++ "` in `" ++ String.ofList whole ++
        "` is not a 16-bit hex value")

def Pattern.fromStr (s : List Char) : Except String Pattern :=
  let s := trim s
  match splitOnce ':' s with
  | none => .error ("`" ++ String.ofList s ++ "` is not a vid:pid pattern")
  | some (v, p) => do
    let vendor ← parsePart v s
    let product ← parsePart p s
    return { vendor, product }

/-- Comma-separated patterns. -/
def DeviceFilter.fromStr (s : String) : Except String DeviceFilter :=
  (((s.toList.splitOn ',').map trim).filter (· ≠ [])).mapM Pattern.fromStr |>.map fun patterns =>
    { patterns }

end Padwire
