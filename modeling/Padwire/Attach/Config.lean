import Padwire.Attach.Toml
import Padwire.Backend.Filter
import Padwire.Lib.Except
import Padwire.Lib.Time

/-!
# The configuration of the attach daemon

The `usbfwd.toml` model (`usbfwd-attach/src/config.rs`): the settings with their defaults, and what
`parse` takes from the tables of the file. An error is its message; the path that `load` puts in
front of it is left out.
-/

namespace Padwire

/-- The port of USB/IP. -/
def USBIP_PORT : UInt16 := 3240

namespace Attach

structure Server where
  name : String
  /-- A MagicDNS name, a plain hostname, or a literal address. -/
  host : String
  port : UInt16
  devices : DeviceFilter
  autoAttach : Bool
  deriving DecidableEq

structure Discovery where
  mdns : Bool
  mdnsTimeout : Duration
  deriving DecidableEq

/-- LAN convenience only: off by default. -/
def Discovery.default : Discovery where
  mdns := false
  mdnsTimeout := .fromSecs 2

/-- The `[attach]` table. -/
structure Settings where
  /-- How often to re-examine the world when everything is steady. -/
  pollInterval : Duration
  /-- Backoff bounds for a server that will not answer. -/
  retryMin : Duration
  retryMax : Duration
  connectTimeout : Duration
  /-- The `usbip` binary. -/
  usbip : String
  modprobe : Bool
  /-- Stop after one device is attached. -/
  stopAfterFirst : Bool
  deriving DecidableEq

def Settings.default : Settings where
  pollInterval := .fromSecs 5
  retryMin := .fromSecs 2
  retryMax := .fromSecs 60
  connectTimeout := .fromSecs 3
  usbip := "usbip"
  modprobe := true
  stopAfterFirst := true

structure Config where
  servers : List Server
  discovery : Discovery
  attach : Settings
  deriving DecidableEq

def Config.default : Config where
  servers := []
  discovery := .default
  attach := .default

/-! ### Reading the tables -/

def SERVER_KEYS : List String := ["name", "host", "port", "devices", "auto_attach"]

def DISCOVERY_KEYS : List String := ["mdns", "mdns_timeout"]

def ATTACH_KEYS : List String :=
  ["poll_interval", "retry_min", "retry_max", "connect_timeout", "usbip", "modprobe",
    "stop_after_first"]

/-- An error with the line it is about. -/
def bad {α : Type} (line : ℕ) (message : String) : Except String α :=
  .error ("line " ++ toString line ++ ": " ++ message)

def ensure (p : Prop) [Decidable p] (line : ℕ) (message : String) : Except String Unit :=
  if p then .ok () else bad line message

/-- A typo in a key would otherwise mean the setting silently does nothing. -/
def rejectUnknown (t : Toml.Table) (known : List String) : Except String Unit :=
  match t.unknownKeys known with
  | [] => .ok ()
  | (key, line) :: _ => bad line ("`" ++ key ++ "` is not a valid key in [" ++ t.name ++ "]")

/-- The value of a key, if it is set and of the wanted type. -/
def typed {α : Type} (select : Toml.Value → Option α) (wanted : String) (t : Toml.Table)
    (key : String) : Except String (Option α) :=
  match t.get key with
  | none => .ok none
  | some v =>
    match select v with
    | some a => .ok (some a)
    | none => bad (t.lineOf key) ("`" ++ key ++ "` must be " ++ wanted ++ ", not a " ++ v.typeName)

def string : Toml.Table → String → Except String (Option String) :=
  typed (fun | .str s => some s | _ => none) "a string"

def integer : Toml.Table → String → Except String (Option Int64) :=
  typed (fun | .int n => some n | _ => none) "an integer"

def boolean : Toml.Table → String → Except String (Option Bool) :=
  typed (fun | .bool b => some b | _ => none) "true or false"

def seconds (t : Toml.Table) (key : String) (default : Duration) : Except String Duration := do
  match ← integer t key with
  | none => .ok default
  | some n =>
    if 0 ≤ n.toInt then .ok (.fromSecs n.toUInt64)
    else bad (t.lineOf key) ("`" ++ key ++ "` cannot be negative (" ++ toString n.toInt ++ ")")

/-- The filter that a string of patterns stands for. -/
def devicesFrom (t : Toml.Table) (s : String) : Except String DeviceFilter :=
  match DeviceFilter.fromStr s with
  | .ok filter => .ok filter
  | .error e => bad (t.lineOf "devices") e

def serverFrom (t : Toml.Table) : Except String Server := do
  rejectUnknown t SERVER_KEYS
  let host ← match ← string t "host" with
    | some host => .ok host
    | none => bad t.line "[[server]] needs a `host`"
  ensure (trim host.toList ≠ []) (t.lineOf "host") "`host` is empty"
  let port ← match ← integer t "port" with
    | none => .ok USBIP_PORT
    | some p =>
      if 1 ≤ p.toInt ∧ p.toInt ≤ 65535 then .ok (UInt16.ofNat p.toInt.toNat)
      else bad (t.lineOf "port") ("`port` " ++ toString p.toInt ++ " is out of range")
  let devices ← match t.get "devices" with
    | none => .ok DeviceFilter.default
    | some (.array a) => devicesFrom t (",".intercalate a)
    | some (.str s) => devicesFrom t s
    | some v =>
      bad (t.lineOf "devices")
        ("`devices` must be an array of vid:pid patterns, not a " ++ v.typeName)
  let name ← string t "name"
  let autoAttach ← boolean t "auto_attach"
  return { name := name.getD host, host, port, devices, autoAttach := autoAttach.getD true }

def discoveryFrom (t : Toml.Table) : Except String Discovery := do
  rejectUnknown t DISCOVERY_KEYS
  let mdns ← boolean t "mdns"
  let mdnsTimeout ← seconds t "mdns_timeout" Discovery.default.mdnsTimeout
  return { mdns := mdns.getD Discovery.default.mdns, mdnsTimeout }

def attachFrom (t : Toml.Table) : Except String Settings := do
  rejectUnknown t ATTACH_KEYS
  let d := Settings.default
  let pollInterval ← seconds t "poll_interval" d.pollInterval
  let retryMin ← seconds t "retry_min" d.retryMin
  let retryMax ← seconds t "retry_max" d.retryMax
  let connectTimeout ← seconds t "connect_timeout" d.connectTimeout
  let usbip ← string t "usbip"
  let modprobe ← boolean t "modprobe"
  let stopAfterFirst ← boolean t "stop_after_first"
  ensure (retryMin.nanos ≤ retryMax.nanos) (t.lineOf "retry_max")
    "`retry_max` is smaller than `retry_min`"
  ensure (pollInterval.nanos ≠ 0) (t.lineOf "poll_interval") "`poll_interval` must be at least 1s"
  return {
    pollInterval, retryMin, retryMax, connectTimeout
    usbip := usbip.getD d.usbip
    modprobe := modprobe.getD d.modprobe
    stopAfterFirst := stopAfterFirst.getD d.stopAfterFirst }

/-- Take one table into the configuration. -/
def Config.addTable (cfg : Config) (t : Toml.Table) : Except String Config :=
  if t.name = "server" then (serverFrom t).map fun s => { cfg with servers := cfg.servers ++ [s] }
  else if t.name = "discovery" then (discoveryFrom t).map fun discovery => { cfg with discovery }
  else if t.name = "attach" then (attachFrom t).map fun attach => { cfg with attach }
  else if t.name = "" then
    bad (max t.line 1) "settings must live under [[server]], [discovery] or [attach]"
  else bad t.line ("unknown section [" ++ t.name ++ "]")

/-- The first server that has the name of one before it. -/
def firstDuplicate (before : List Server) : List Server → Option Server
  | [] => none
  | s :: rest =>
    if before.any (·.name == s.name) then some s else firstDuplicate (before ++ [s]) rest

def parse (text : String) : Except String Config := do
  let tables ← (Toml.parse text).mapError Toml.Error.toString
  let cfg ← tables.foldlM Config.addTable .default
  if cfg.servers = [] ∧ cfg.discovery.mdns = false then
    .error ("no [[server]] entries and discovery is off, so there is nothing to attach to. " ++
      "Add a [[server]] with the exporter's MagicDNS name.")
  else match firstDuplicate [] cfg.servers with
    | some s => .error ("two servers are both named `" ++ s.name ++ "`")
    | none => .ok cfg

/-! ### What is accepted -/

/-- The bounds that `attach_from` checks, and the range of the numbers of seconds. -/
structure Settings.Valid (s : Settings) : Prop where
  retry_le : s.retryMin.nanos ≤ s.retryMax.nanos
  retry_lt : s.retryMax.nanos < 2 ^ 63 * NANOS_PER_SEC

/-- The default settings pass the check that is made of the settings of a file. -/
theorem Settings.default_valid : Settings.default.Valid := ⟨by decide, by decide⟩

/-- A check passes exactly when its condition holds. -/
theorem ensure_eq_ok {p : Prop} [Decidable p] {line : ℕ} {message : String} {u : Unit} :
    ensure p line message = .ok u ↔ p := by
  rw [ensure]
  split_ifs with hp
  · exact iff_of_true rfl hp
  · exact iff_of_false nofun hp

theorem toNat_toUInt64_lt {n : Int64} (hn : 0 ≤ n.toInt) : n.toUInt64.toNat < 2 ^ 63 := by
  have hle : 0 ≤ n := Int64.le_iff_toInt_le.mpr hn
  have hlt := n.toInt_lt
  rw [← Int64.toNat_toBitVec, Int64.toNat_toBitVec_of_le hle, Int64.toNatClampNeg]
  omega

/-- A number of seconds that a file can give fits the clock. -/
theorem nanos_lt_of_seconds {t : Toml.Table} {key : String} {default d : Duration}
    (hdefault : default.nanos < 2 ^ 63 * NANOS_PER_SEC) (h : seconds t key default = .ok d) :
    d.nanos < 2 ^ 63 * NANOS_PER_SEC := by
  obtain ⟨n, -, h⟩ := bind_eq_ok.mp h
  cases n with
  | none => exact Except.ok.inj h ▸ hdefault
  | some n =>
    dsimp only at h
    split_ifs at h with hn
    · obtain rfl := Except.ok.inj h
      exact Nat.mul_lt_mul_of_pos_right (toNat_toUInt64_lt hn) (by decide)
    · cases h

/-- The `[attach]` table is refused unless its settings are valid. -/
theorem valid_of_attachFrom {t : Toml.Table} {s : Settings} (h : attachFrom t = .ok s) :
    s.Valid := by
  obtain ⟨-, -, h⟩ := bind_eq_ok.mp h
  obtain ⟨poll, -, h⟩ := bind_eq_ok.mp h
  obtain ⟨retryMin, -, h⟩ := bind_eq_ok.mp h
  obtain ⟨retryMax, hmax, h⟩ := bind_eq_ok.mp h
  obtain ⟨connect, -, h⟩ := bind_eq_ok.mp h
  obtain ⟨usbip, -, h⟩ := bind_eq_ok.mp h
  obtain ⟨modprobe, -, h⟩ := bind_eq_ok.mp h
  obtain ⟨stop, -, h⟩ := bind_eq_ok.mp h
  obtain ⟨_, hretry, h⟩ := bind_eq_ok.mp h
  obtain ⟨-, -, h⟩ := bind_eq_ok.mp h
  obtain rfl := Except.ok.inj h
  exact ⟨ensure_eq_ok.mp hretry, nanos_lt_of_seconds Settings.default_valid.retry_lt hmax⟩

/-- So no table of a file leaves settings that are not valid. -/
theorem Config.valid_addTable {cfg cfg' : Config} {t : Toml.Table} (hcfg : cfg.attach.Valid)
    (h : cfg.addTable t = .ok cfg') : cfg'.attach.Valid := by
  rw [addTable] at h
  split_ifs at h
  · obtain ⟨server, -, rfl⟩ := map_eq_ok.mp h
    exact hcfg
  · obtain ⟨discovery, -, rfl⟩ := map_eq_ok.mp h
    exact hcfg
  · obtain ⟨attach, hattach, rfl⟩ := map_eq_ok.mp h
    exact valid_of_attachFrom hattach
  · cases h
  · cases h

/-- Every configuration that is accepted has valid settings. -/
theorem valid_of_parse {text : String} {cfg : Config} (h : parse text = .ok cfg) :
    cfg.attach.Valid := by
  obtain ⟨tables, -, h⟩ := bind_eq_ok.mp h
  obtain ⟨cfg', hfold, h⟩ := bind_eq_ok.mp h
  have hvalid : cfg'.attach.Valid := foldlM_ok_invariant (fun c => c.attach.Valid)
    (fun _ _ _ => Config.valid_addTable) Settings.default_valid hfold
  split_ifs at h
  split at h
  · cases h
  · exact Except.ok.inj h ▸ hvalid

end Attach

end Padwire
