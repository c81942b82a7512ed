import Padwire.Attach.Config
import Padwire.Attach.Sections

/-!
# What becomes of a setting

Which `key = value` of an accepted file is in the configuration (`usbfwd-attach/src/config.rs`).
The keys of each kind of table are listed with the values they take and the fields they set, so
that one lemma covers them all.

Every server table is a server, with each key it gives in the field of that key. A second
`[[discovery]]` or `[[attach]]` is not refused as a second `[discovery]` or `[attach]` is, and it
replaces the first one as a whole: `reflects_of_parse_iff` says when nothing of the first is lost.
-/

namespace Padwire.Attach

/-- A key of a table that is read into a `σ`. -/
structure Setting (σ : Type) where
  key : String
  α : Type
  /-- What a value of this key stands for, if it can be one. -/
  select : Toml.Value → Option α
  /-- The field the key sets. -/
  get : σ → α

def asString : Toml.Value → Option String
  | .str s => some s
  | _ => none

def asBoolean : Toml.Value → Option Bool
  | .bool b => some b
  | _ => none

def asInteger : Toml.Value → Option Int64
  | .int n => some n
  | _ => none

def asSeconds (v : Toml.Value) : Option Duration :=
  (asInteger v).bind fun n => if 0 ≤ n.toInt then some (.fromSecs n.toUInt64) else none

def asPort (v : Toml.Value) : Option UInt16 :=
  (asInteger v).bind fun p =>
    if 1 ≤ p.toInt ∧ p.toInt ≤ 65535 then some (UInt16.ofNat p.toInt.toNat) else none

def asDevices : Toml.Value → Option DeviceFilter
  | .array a => (DeviceFilter.fromStr (",".intercalate a)).toOption
  | .str s => (DeviceFilter.fromStr s).toOption
  | _ => none

def serverSettings : List (Setting Server) :=
  [⟨"name", String, asString, Server.name⟩, ⟨"host", String, asString, Server.host⟩,
    ⟨"port", UInt16, asPort, Server.port⟩, ⟨"devices", DeviceFilter, asDevices, Server.devices⟩,
    ⟨"auto_attach", Bool, asBoolean, Server.autoAttach⟩]

def discoverySettings : List (Setting Discovery) :=
  [⟨"mdns", Bool, asBoolean, Discovery.mdns⟩,
    ⟨"mdns_timeout", Duration, asSeconds, Discovery.mdnsTimeout⟩]

def attachSettings : List (Setting Settings) :=
  [⟨"poll_interval", Duration, asSeconds, Settings.pollInterval⟩,
    ⟨"retry_min", Duration, asSeconds, Settings.retryMin⟩,
    ⟨"retry_max", Duration, asSeconds, Settings.retryMax⟩,
    ⟨"connect_timeout", Duration, asSeconds, Settings.connectTimeout⟩,
    ⟨"usbip", String, asString, Settings.usbip⟩, ⟨"modprobe", Bool, asBoolean, Settings.modprobe⟩,
    ⟨"stop_after_first", Bool, asBoolean, Settings.stopAfterFirst⟩]

/-- The value of an entry is the value of the field that its key sets. -/
def Applied {σ : Type} (settings : List (Setting σ)) (x : σ) (e : Toml.Entry) : Prop :=
  ∃ f ∈ settings, f.key = e.key ∧ f.select e.value = some (f.get x)

def named (name : String) (tables : List Toml.Table) : List Toml.Table :=
  tables.filter (·.name = name)

/-- No setting of a file silently does nothing. -/
structure Config.Reflects (cfg : Config) (tables : List Toml.Table) : Prop where
  discovery : ∀ t ∈ named "discovery" tables, ∀ e ∈ t.entries,
    Applied discoverySettings cfg.discovery e
  attach : ∀ t ∈ named "attach" tables, ∀ e ∈ t.entries, Applied attachSettings cfg.attach e
  servers : List.Forall₂ (fun t s => ∀ e ∈ t.entries, Applied serverSettings s e)
    (named "server" tables) cfg.servers

/-- The last of some tables leaves what the others set as it is: it gives the key the same value,
or it does not give it and the value is the default. -/
def Survive {σ : Type} (settings : List (Setting σ)) (default : σ) (ts : List Toml.Table) : Prop :=
  ∀ last ∈ ts.getLast?, ∀ t ∈ ts, ∀ e ∈ t.entries,
    last.get e.key = some e.value ∨ last.get e.key = none ∧ Applied settings default e

/-- No later table of the same name takes a setting back. -/
structure NoneOverridden (tables : List Toml.Table) : Prop where
  discovery : Survive discoverySettings .default (named "discovery" tables)
  attach : Survive attachSettings .default (named "attach" tables)

/-! ### Reading one key -/

section

variable {t : Toml.Table}

theorem typed_cases {α : Type} {select : Toml.Value → Option α} {wanted key : String}
    {o : Option α} (h : typed select wanted t key = .ok o) :
    t.get key = none ∧ o = none ∨ ∃ v a, t.get key = some v ∧ select v = some a ∧ o = some a := by
  unfold typed at h
  split at h
  · rename_i hget
    exact .inl ⟨hget, (Except.ok.inj h).symm⟩
  · rename_i v hget
    split at h
    · rename_i a hselect
      exact .inr ⟨v, a, hget, hselect, (Except.ok.inj h).symm⟩
    · cases h

/-- A value that is given is the one that is read. -/
theorem given_of_typed {α : Type} {select : Toml.Value → Option α} {wanted key : String}
    {o : Option α} (h : typed select wanted t key = .ok o) {a : α} (ha : ∀ b, o = some b → a = b) :
    ∀ v, t.get key = some v → select v = some a := by
  intro v hv
  rcases typed_cases h with ⟨hget, -⟩ | ⟨v', b, hget, hselect, ho⟩
  · exact absurd (hget.symm.trans hv) nofun
  · obtain rfl := Option.some.inj (hget.symm.trans hv)
    rw [hselect, ha b ho]

/-- How a field follows from what a table has for its key. -/
structure Setting.Follows {σ : Type} (f : Setting σ) (t : Toml.Table) (default x : σ) : Prop where
  given : ∀ v, t.get f.key = some v → f.select v = some (f.get x)
  absent : t.get f.key = none → f.get x = f.get default

/-- A key that is read with a default. -/
theorem follows_of_typed {σ α : Type} {select : Toml.Value → Option α} {wanted key : String}
    {o : Option α} (h : typed select wanted t key = .ok o) {get : σ → α} {default x : σ}
    (hx : get x = o.getD (get default)) :
    Setting.Follows ⟨key, α, select, get⟩ t default x where
  given := given_of_typed h fun b hb => hx.trans (by rw [hb, Option.getD_some])
  absent hnone := by
    rcases typed_cases h with ⟨-, rfl⟩ | ⟨v, b, hget, -⟩
    · exact hx
    · exact absurd (hget.symm.trans hnone) nofun

/-- A number of seconds. -/
theorem follows_of_seconds {σ : Type} {key : String} {get : σ → Duration} {default x : σ}
    (h : seconds t key (get default) = .ok (get x)) :
    Setting.Follows ⟨key, Duration, asSeconds, get⟩ t default x := by
  obtain ⟨o, ho, h⟩ := bind_eq_ok.mp h
  have ho : typed asInteger "an integer" t key = .ok o := ho
  rcases typed_cases ho with ⟨hget, rfl⟩ | ⟨v, n, hget, hselect, rfl⟩
  · exact ⟨fun v hv => absurd (hget.symm.trans hv) nofun, fun _ => (Except.ok.inj h).symm⟩
  · refine ⟨fun v' hv' => ?_, fun hnone => absurd (hget.symm.trans hnone) nofun⟩
    obtain rfl := Option.some.inj (hget.symm.trans hv')
    dsimp only at h ⊢
    split_ifs at h with hn
    · rw [asSeconds, hselect, Option.bind_some, if_pos hn, Except.ok.inj h]
    · cases h

/-- Every key of a table is a known one. -/
theorem mem_of_rejectUnknown {known : List String} {u : Unit} (h : rejectUnknown t known = .ok u)
    {e : Toml.Entry} (he : e ∈ t.entries) : e.key ∈ known := by
  unfold rejectUnknown at h
  split at h
  · rename_i hnil
    by_contra hkey
    have hmem : e ∈ t.entries.filter fun e => !known.contains e.key :=
      List.mem_filter.mpr ⟨he, by simpa using hkey⟩
    rw [List.map_eq_nil_iff.mp hnil] at hmem
    cases hmem
  · cases h

end

/-! ### Reading a table -/

section

variable {t : Toml.Table}

theorem follows_of_discoveryFrom {x : Discovery} (h : discoveryFrom t = .ok x) :
    ∀ f ∈ discoverySettings, f.Follows t .default x := by
  obtain ⟨-, -, h⟩ := bind_eq_ok.mp h
  obtain ⟨mdns, hmdns, h⟩ := bind_eq_ok.mp h
  obtain ⟨timeout, htimeout, h⟩ := bind_eq_ok.mp h
  obtain rfl := Except.ok.inj h
  simp only [discoverySettings, List.forall_mem_cons]
  exact ⟨follows_of_typed hmdns rfl, follows_of_seconds htimeout, nofun⟩

theorem follows_of_attachFrom {x : Settings} (h : attachFrom t = .ok x) :
    ∀ f ∈ attachSettings, f.Follows t .default x := by
  obtain ⟨-, -, h⟩ := bind_eq_ok.mp h
  obtain ⟨poll, hpoll, h⟩ := bind_eq_ok.mp h
  obtain ⟨retryMin, hmin, h⟩ := bind_eq_ok.mp h
  obtain ⟨retryMax, hmax, h⟩ := bind_eq_ok.mp h
  obtain ⟨connect, hconnect, h⟩ := bind_eq_ok.mp h
  obtain ⟨usbip, husbip, h⟩ := bind_eq_ok.mp h
  obtain ⟨modprobe, hmodprobe, h⟩ := bind_eq_ok.mp h
  obtain ⟨stop, hstop, h⟩ := bind_eq_ok.mp h
  obtain ⟨-, -, h⟩ := bind_eq_ok.mp h
  obtain ⟨-, -, h⟩ := bind_eq_ok.mp h
  obtain rfl := Except.ok.inj h
  simp only [attachSettings, List.forall_mem_cons]
  exact ⟨follows_of_seconds hpoll, follows_of_seconds hmin, follows_of_seconds hmax,
    follows_of_seconds hconnect, follows_of_typed husbip rfl, follows_of_typed hmodprobe rfl,
    follows_of_typed hstop rfl, nofun⟩

/-- Every key that is given has a setting. -/
theorem exists_setting {σ : Type} (settings : List (Setting σ)) {known : List String} {u : Unit}
    (h : rejectUnknown t known = .ok u) (hknown : settings.map Setting.key = known)
    {e : Toml.Entry} (he : e ∈ t.entries) : ∃ f ∈ settings, f.key = e.key := by
  have hmem := mem_of_rejectUnknown h he
  rw [← hknown] at hmem
  exact List.mem_map.mp hmem

/-- The host of a server table. -/
def hostFrom (t : Toml.Table) : Option String → Except String String
  | some host => .ok host
  | none => bad t.line "[[server]] needs a `host`"

def portFrom (t : Toml.Table) : Option Int64 → Except String UInt16
  | none => .ok USBIP_PORT
  | some p =>
    if 1 ≤ p.toInt ∧ p.toInt ≤ 65535 then .ok (UInt16.ofNat p.toInt.toNat)
    else bad (t.lineOf "port") ("`port` " ++ toString p.toInt ++ " is out of range")

def filterFrom (t : Toml.Table) : Option Toml.Value → Except String DeviceFilter
  | none => .ok DeviceFilter.default
  | some (.array a) => devicesFrom t (",".intercalate a)
  | some (.str s) => devicesFrom t s
  | some v =>
    bad (t.lineOf "devices")
      ("`devices` must be an array of vid:pid patterns, not a " ++ v.typeName)

/-- The steps of `server_from`. -/
theorem serverFrom_eq (t : Toml.Table) : serverFrom t = (do
    rejectUnknown t SERVER_KEYS
    let host ← (string t "host") >>= hostFrom t
    ensure (trim host.toList ≠ []) (t.lineOf "host") "`host` is empty"
    let port ← (integer t "port") >>= portFrom t
    let devices ← filterFrom t (t.get "devices")
    let name ← string t "name"
    let autoAttach ← boolean t "auto_attach"
    return {
      name := name.getD host, host, port, devices
      autoAttach := autoAttach.getD true }) := by
  rw [serverFrom]
  simp only [bind_assoc]
  refine bind_congr fun _ => bind_congr fun host? => ?_
  cases host? with
  | none => rfl
  | some host =>
    refine bind_congr fun host => bind_congr fun _ => bind_congr fun port? => ?_
    cases port? with
    | none =>
      cases t.get "devices" with
      | none => rfl
      | some v => cases v <;> rfl
    | some p =>
      dsimp only [portFrom]
      split_ifs
      · cases t.get "devices" with
        | none => rfl
        | some v => cases v <;> rfl
      · rfl

/-- A value that is given, if a key is read by going through its values. -/
theorem given_of_port {port? : Option Int64} {port : UInt16}
    (h : integer t "port" = .ok port?) (hport : portFrom t port? = .ok port) :
    ∀ v, t.get "port" = some v → asPort v = some port := by
  intro v hv
  have h : typed asInteger "an integer" t "port" = .ok port? := h
  rcases typed_cases h with ⟨hget, -⟩ | ⟨v', p, hget, hselect, rfl⟩
  · exact absurd (hget.symm.trans hv) nofun
  · obtain rfl := Option.some.inj (hget.symm.trans hv)
    rw [portFrom] at hport
    split_ifs at hport with hp
    · rw [asPort, hselect, Option.bind_some, if_pos hp, Except.ok.inj hport]
    · cases hport

theorem given_of_devices {devices : DeviceFilter}
    (h : filterFrom t (t.get "devices") = .ok devices) :
    ∀ v, t.get "devices" = some v → asDevices v = some devices := by
  have hfrom : ∀ s, devicesFrom t s = .ok devices →
      (DeviceFilter.fromStr s).toOption = some devices := by
    intro s hs
    rw [devicesFrom] at hs
    cases hstr : DeviceFilter.fromStr s with
    | ok filter =>
      rw [hstr] at hs
      exact congrArg some (Except.ok.inj hs)
    | error e =>
      rw [hstr] at hs
      cases hs
  intro v hv
  rw [hv] at h
  cases v with
  | array a => exact hfrom _ h
  | str s => exact hfrom s h
  | int n => cases h
  | bool b => cases h

theorem given_of_serverFrom {s : Server} (h : serverFrom t = .ok s) :
    ∀ f ∈ serverSettings, ∀ v, t.get f.key = some v → f.select v = some (f.get s) := by
  rw [serverFrom_eq] at h
  obtain ⟨-, -, h⟩ := bind_eq_ok.mp h
  obtain ⟨host, hhost, h⟩ := bind_eq_ok.mp h
  obtain ⟨-, -, h⟩ := bind_eq_ok.mp h
  obtain ⟨port, hport, h⟩ := bind_eq_ok.mp h
  obtain ⟨devices, hdevices, h⟩ := bind_eq_ok.mp h
  obtain ⟨name, hname, h⟩ := bind_eq_ok.mp h
  obtain ⟨auto, hauto, h⟩ := bind_eq_ok.mp h
  obtain rfl := Except.ok.inj h
  obtain ⟨host?, hhost?, hhost⟩ := bind_eq_ok.mp hhost
  obtain ⟨port?, hport?, hport⟩ := bind_eq_ok.mp hport
  have hhost' : host? = some host := by
    cases host? with
    | none => cases hhost
    | some host' => exact congrArg some (Except.ok.inj hhost)
  simp only [serverSettings, List.forall_mem_cons]
  refine ⟨?_, ?_, given_of_port hport? hport, given_of_devices hdevices, ?_, nofun⟩
  · exact given_of_typed hname fun b hb => by rw [hb, Option.getD_some]
  · exact given_of_typed hhost? fun b hb => Option.some.inj (hhost'.symm.trans hb)
  · exact given_of_typed hauto fun b hb => by rw [hb, Option.getD_some]

theorem applied_of_serverFrom {s : Server} (h : serverFrom t = .ok s)
    (hkeys : (t.entries.map Toml.Entry.key).Nodup) :
    ∀ e ∈ t.entries, Applied serverSettings s e := by
  intro e he
  have hgiven := given_of_serverFrom h
  obtain ⟨u, hknown, -⟩ := bind_eq_ok.mp h
  obtain ⟨f, hf, hkey⟩ := exists_setting serverSettings hknown rfl he
  exact ⟨f, hf, hkey, hgiven f hf e.value (hkey ▸ Toml.get_of_mem hkeys he)⟩

end

/-! ### The loop over the tables -/

theorem named_append (name : String) (ts ts' : List Toml.Table) :
    named name (ts ++ ts') = named name ts ++ named name ts' :=
  List.filter_append _ _

theorem named_singleton_of_eq {name : String} {t : Toml.Table} (h : t.name = name) :
    named name [t] = [t] :=
  List.filter_cons_of_pos (decide_eq_true h)

theorem named_singleton_of_ne {name : String} {t : Toml.Table} (h : t.name ≠ name) :
    named name [t] = [] :=
  List.filter_cons_of_neg (by simpa using h)

/-- Some tables of one kind, of which the last is the one that counts. All of them can be read, the
ones that were replaced included. -/
structure LastCounts {σ : Type} (read : Toml.Table → Except String σ) (x : σ)
    (ts : List Toml.Table) : Prop where
  last : ∀ t ∈ ts.getLast?, read t = .ok x
  readable : ∀ t ∈ ts, ∃ y, read t = .ok y

theorem LastCounts.concat {σ : Type} {read : Toml.Table → Except String σ} {x y : σ}
    {ts : List Toml.Table} (h : LastCounts read x ts) {t : Toml.Table} (ht : read t = .ok y) :
    LastCounts read y (ts ++ [t]) where
  last t' ht' := by
    rw [List.getLast?_concat] at ht'
    rw [← Option.some.inj ht']
    exact ht
  readable t' ht' := by
    rcases List.mem_append.mp ht' with hold | hnew
    · exact h.readable t' hold
    · exact ⟨y, List.mem_singleton.mp hnew ▸ ht⟩

/-- What has been made of the tables read so far. -/
structure Config.Merges (cfg : Config) (ts : List Toml.Table) : Prop where
  servers : List.Forall₂ (fun t s => serverFrom t = .ok s) (named "server" ts) cfg.servers
  discovery : LastCounts discoveryFrom cfg.discovery (named "discovery" ts)
  attach : LastCounts attachFrom cfg.attach (named "attach" ts)

namespace Config

theorem default_merges : default.Merges [] := ⟨.nil, ⟨nofun, nofun⟩, ⟨nofun, nofun⟩⟩

theorem Merges.addTable {cfg cfg' : Config} {ts : List Toml.Table} {t : Toml.Table}
    (h : cfg.Merges ts) (hadd : cfg.addTable t = .ok cfg') : cfg'.Merges (ts ++ [t]) := by
  -- a table of one name is not one of another
  have hother : ∀ name, t.name ≠ name → named name (ts ++ [t]) = named name ts := by
    intro name hne
    rw [named_append, named_singleton_of_ne hne, List.append_nil]
  rw [Config.addTable] at hadd
  split_ifs at hadd with hserver hdiscovery hattach
  · obtain ⟨s, hs, rfl⟩ := map_eq_ok.mp hadd
    constructor
    · rw [named_append, named_singleton_of_eq hserver]
      exact List.rel_append h.servers (.cons hs .nil)
    · rw [hother _ (by rw [hserver]; decide)]
      exact h.discovery
    · rw [hother _ (by rw [hserver]; decide)]
      exact h.attach
  · obtain ⟨x, hx, rfl⟩ := map_eq_ok.mp hadd
    constructor
    · rw [hother _ hserver]
      exact h.servers
    · rw [named_append, named_singleton_of_eq hdiscovery]
      exact h.discovery.concat hx
    · rw [hother _ (by rw [hdiscovery]; decide)]
      exact h.attach
  · obtain ⟨x, hx, rfl⟩ := map_eq_ok.mp hadd
    constructor
    · rw [hother _ hserver]
      exact h.servers
    · rw [hother _ hdiscovery]
      exact h.discovery
    · rw [named_append, named_singleton_of_eq hattach]
      exact h.attach.concat hx
  · cases hadd
  · cases hadd

/-- What is made of the tables of a file. -/
theorem Merges.foldlM {cfg cfg' : Config} {ts ts' : List Toml.Table} (h : cfg.Merges ts)
    (hfold : ts'.foldlM Config.addTable cfg = .ok cfg') : cfg'.Merges (ts ++ ts') := by
  induction ts' generalizing cfg ts with
  | nil =>
    rw [List.foldlM_nil] at hfold
    rw [List.append_nil]
    exact Except.ok.inj hfold ▸ h
  | cons t ts' ih =>
    rw [List.foldlM_cons] at hfold
    obtain ⟨cfg₁, hadd, hfold⟩ := bind_eq_ok.mp hfold
    have hrest := ih (h.addTable hadd) hfold
    rwa [List.append_assoc] at hrest

end Config

/-- An accepted configuration is made of the tables of the file. -/
theorem merges_of_parse {text : String} {cfg : Config} (h : parse text = .ok cfg) :
    ∃ tables, Toml.parse text = .ok tables ∧ cfg.Merges tables := by
  obtain ⟨tables, htables, h⟩ := bind_eq_ok.mp h
  obtain ⟨cfg', hfold, h⟩ := bind_eq_ok.mp h
  have hmerges := Config.default_merges.foldlM hfold
  rw [List.nil_append] at hmerges
  refine ⟨tables, ?_, ?_⟩
  · cases hparse : Toml.parse text with
    | error e =>
      rw [hparse] at htables
      cases htables
    | ok tables' =>
      rw [hparse] at htables
      exact congrArg Except.ok (Except.ok.inj htables)
  · split_ifs at h
    split at h
    · cases h
    · exact Except.ok.inj h ▸ hmerges

/-! ### Settings that survive -/

/-- **Replacing.** Where the last table counts, nothing of the others is lost exactly if the last
one leaves it as it is. -/
theorem applied_iff_survive {σ : Type} {settings : List (Setting σ)} {default x : σ}
    {read : Toml.Table → Except String σ} {ts : List Toml.Table} (h : LastCounts read x ts)
    (hfollows : ∀ t y, read t = .ok y → ∀ f ∈ settings, f.Follows t default y)
    (hknown : ∀ t y, read t = .ok y → ∀ e ∈ t.entries, ∃ f ∈ settings, f.key = e.key)
    (hinj : ∀ f ∈ settings, ∀ v w a, f.select v = some a → f.select w = some a → v = w) :
    (∀ t ∈ ts, ∀ e ∈ t.entries, Applied settings x e) ↔ Survive settings default ts := by
  constructor
  · intro happlied last hlast t ht e he
    obtain ⟨f, hf, hkey, hselect⟩ := happlied t ht e he
    have hfl := hfollows last x (h.last last hlast) f hf
    cases hget : last.get e.key with
    | none =>
      refine .inr ⟨rfl, f, hf, hkey, ?_⟩
      rw [hselect, hfl.absent (hkey ▸ hget)]
    | some v =>
      have hv : v = e.value := hinj f hf v e.value _ (hfl.given v (hkey ▸ hget)) hselect
      exact .inl (congrArg some hv)
  · intro hsurvive t ht e he
    obtain ⟨last, hlast⟩ : ∃ last, last ∈ ts.getLast? := by
      rw [List.getLast?_eq_some_getLast (List.ne_nil_of_mem ht)]
      exact ⟨_, rfl⟩
    have hread := h.last last hlast
    rcases hsurvive last hlast t ht e he with hget | ⟨hget, f, hf, hkey, hselect⟩
    · obtain ⟨y, hy⟩ := h.readable t ht
      obtain ⟨f, hf, hkey⟩ := hknown t y hy e he
      exact ⟨f, hf, hkey, (hfollows last x hread f hf).given e.value (hkey ▸ hget)⟩
    · refine ⟨f, hf, hkey, ?_⟩
      rw [hselect, (hfollows last x hread f hf).absent (hkey ▸ hget)]

theorem asString_injective {v w : Toml.Value} {a : String} (hv : asString v = some a)
    (hw : asString w = some a) : v = w := by
  cases v <;> cases hv
  cases w <;> cases hw
  rfl

theorem asBoolean_injective {v w : Toml.Value} {a : Bool} (hv : asBoolean v = some a)
    (hw : asBoolean w = some a) : v = w := by
  cases v <;> cases hv
  cases w <;> cases hw
  rfl

theorem asInteger_eq_some {v : Toml.Value} {n : Int64} : asInteger v = some n ↔ v = .int n := by
  cases v <;> simp [asInteger]

/-- A number of seconds is the number that was written. -/
theorem asSeconds_injective {v w : Toml.Value} {a : Duration} (hv : asSeconds v = some a)
    (hw : asSeconds w = some a) : v = w := by
  obtain ⟨n, hn, hv⟩ := Option.bind_eq_some_iff.mp hv
  obtain ⟨m, hm, hw⟩ := Option.bind_eq_some_iff.mp hw
  split_ifs at hv hw
  have hnanos : n.toUInt64.toNat * NANOS_PER_SEC = m.toUInt64.toNat * NANOS_PER_SEC :=
    congrArg Duration.nanos (Option.some.inj (hv.trans hw.symm))
  have hnat : n.toUInt64.toNat = m.toUInt64.toNat :=
    Nat.eq_of_mul_eq_mul_right (by decide) hnanos
  have hnm : n = m := congrArg Int64.ofUInt64 (UInt64.toNat_inj.mp hnat)
  rw [asInteger_eq_some.mp hn, asInteger_eq_some.mp hm, hnm]

theorem discovery_applied_iff {x : Discovery} {ts : List Toml.Table}
    (h : LastCounts discoveryFrom x ts) :
    (∀ t ∈ ts, ∀ e ∈ t.entries, Applied discoverySettings x e) ↔
      Survive discoverySettings .default ts := by
  refine applied_iff_survive h (fun t y hy => follows_of_discoveryFrom hy) ?_ ?_
  · intro t y hy e he
    obtain ⟨u, hknown, -⟩ := bind_eq_ok.mp hy
    exact exists_setting _ hknown rfl he
  · simp only [discoverySettings, List.forall_mem_cons]
    exact ⟨fun _ _ _ => asBoolean_injective, fun _ _ _ => asSeconds_injective, nofun⟩

theorem attach_applied_iff {x : Settings} {ts : List Toml.Table} (h : LastCounts attachFrom x ts) :
    (∀ t ∈ ts, ∀ e ∈ t.entries, Applied attachSettings x e) ↔
      Survive attachSettings .default ts := by
  refine applied_iff_survive h (fun t y hy => follows_of_attachFrom hy) ?_ ?_
  · intro t y hy e he
    obtain ⟨u, hknown, -⟩ := bind_eq_ok.mp hy
    exact exists_setting _ hknown rfl he
  · simp only [attachSettings, List.forall_mem_cons]
    exact ⟨fun _ _ _ => asSeconds_injective, fun _ _ _ => asSeconds_injective,
      fun _ _ _ => asSeconds_injective, fun _ _ _ => asSeconds_injective,
      fun _ _ _ => asString_injective, fun _ _ _ => asBoolean_injective,
      fun _ _ _ => asBoolean_injective, nofun⟩

/-- Every server table is a server that has each key it gives. -/
theorem servers_applied {cfg : Config} {ts : List Toml.Table} (h : cfg.Merges ts)
    (hkeys : ∀ t ∈ ts, (t.entries.map Toml.Entry.key).Nodup) :
    List.Forall₂ (fun t s => ∀ e ∈ t.entries, Applied serverSettings s e) (named "server" ts)
      cfg.servers := by
  have hnodup : ∀ t ∈ named "server" ts, (t.entries.map Toml.Entry.key).Nodup :=
    fun t ht => hkeys t (List.mem_of_mem_filter ht)
  have hservers := h.servers
  generalize named "server" ts = tables at hnodup hservers
  generalize cfg.servers = servers at hservers
  induction hservers with
  | nil => exact .nil
  | cons hs _ ih =>
    rw [List.forall_mem_cons] at hnodup
    exact .cons (applied_of_serverFrom hs hnodup.1) (ih hnodup.2)

/-- **Settings that do nothing.** The tables of an accepted file are its sections. No setting of
them silently does nothing exactly if no later table of the same name takes one back. -/
theorem reflects_of_parse_iff {text : String} {cfg : Config} : parse text = .ok cfg →
    ∃ tables, Toml.parse text = .ok tables ∧
      List.Forall₂ Toml.Section.Gives (Toml.sections text) tables ∧
      (cfg.Reflects tables ↔ NoneOverridden tables) := by
  intro h
  obtain ⟨tables, hparse, hmerges⟩ := merges_of_parse h
  refine ⟨tables, hparse, Toml.parse_sections hparse, ?_⟩
  constructor
  · intro hreflects
    exact ⟨(discovery_applied_iff hmerges.discovery).mp hreflects.discovery,
      (attach_applied_iff hmerges.attach).mp hreflects.attach⟩
  · intro hnone
    exact ⟨(discovery_applied_iff hmerges.discovery).mpr hnone.discovery,
      (attach_applied_iff hmerges.attach).mpr hnone.attach,
      servers_applied hmerges fun t ht => Toml.nodup_keys_of_parse hparse ht⟩

/-- One server, and the head of an `[[attach]]`. -/
def oneAttach : String := "[[server]]\nhost = \"deck\"\n[[attach]]\nretry_min = 1\n"

/-- The same with an empty `[[attach]]` behind it. -/
def twoAttach : String := oneAttach ++ "[[attach]]\n"

def deckServer : Server where
  name := "deck"
  host := "deck"
  port := USBIP_PORT
  devices := .default
  autoAttach := true

def deckTable : Toml.Table := ⟨"server", 1, [⟨"host", .str "deck", 2⟩]⟩

def retryTable : Toml.Table := ⟨"attach", 3, [⟨"retry_min", .int 1, 4⟩]⟩

/-- A single table is not overridden. -/
theorem reflects_of_parse_iff_oneAttach : ∃ cfg tables, parse oneAttach = .ok cfg ∧
    Toml.parse oneAttach = .ok tables ∧ cfg.attach.retryMin = .fromSecs 1 ∧
    cfg.Reflects tables := by
  have hparse : parse oneAttach =
      .ok ⟨[deckServer], .default, { Settings.default with retryMin := .fromSecs 1 }⟩ := by
    decide +kernel
  obtain ⟨tables, htables, -, hiff⟩ := reflects_of_parse_iff hparse
  have heq : tables = [deckTable, retryTable] :=
    Except.ok.inj (htables.symm.trans (by decide +kernel))
  refine ⟨_, tables, hparse, htables, rfl, hiff.mpr ?_⟩
  subst heq
  refine ⟨nofun, fun last hlast t ht e he => .inl ?_⟩
  obtain rfl : retryTable = last := Option.some.inj hlast
  obtain rfl : t = retryTable := List.mem_singleton.mp ht
  obtain rfl := List.mem_singleton.mp he
  rfl

/-- The second `[[attach]]` takes back what the first one set. -/
theorem second_attach_resets : ∃ cfg tables, parse twoAttach = .ok cfg ∧
    Toml.parse twoAttach = .ok tables ∧ cfg.attach.retryMin = .fromSecs 2 ∧
    ¬cfg.Reflects tables := by
  refine ⟨⟨[deckServer], .default, .default⟩, [deckTable, retryTable, ⟨"attach", 5, []⟩],
    by decide +kernel, by decide +kernel, rfl, fun h => ?_⟩
  obtain ⟨f, hf, hkey, hselect⟩ :=
    h.attach retryTable (by decide) ⟨"retry_min", .int 1, 4⟩ List.mem_cons_self
  simp only [attachSettings, List.mem_cons, List.not_mem_nil, or_false] at hf
  have hfield : asSeconds (.int 1) ≠ some (Duration.fromSecs 2) := by decide
  rcases hf with rfl | rfl | hf
  · exact absurd hkey (by decide)
  · exact hfield hselect
  · rcases hf with rfl | rfl | rfl | rfl | rfl <;> exact absurd hkey (by decide)

end Padwire.Attach
