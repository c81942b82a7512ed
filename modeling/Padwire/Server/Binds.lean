import Mathlib.Data.List.Destutter
import Mathlib.Data.List.Sort
import Padwire.Lib.Except
import Padwire.Mdns.Packet

/-!
# Where the exporter listens

Port 3240 carries plaintext USB traffic, so the exporter binds to the tailnet unless it is told
otherwise, and waits for the tailnet to come up (`usbfwd-common/src/netif.rs`, `bind_when_ready` in
`usbfwd-server/src/lib.rs`). What the host answers is an argument: its interfaces, and which
addresses can be bound.

`listens_where_configured` says that wherever the exporter listens in the end, whatever was
answered on the way, it was configured to; by default that is the tailnet. `listens_once_ready` says
that it does listen once the tailnet is up, however long that takes.
-/

namespace Padwire

open Mdns (Ipv4Addr)

/-! ### Addresses -/

structure Ipv6Addr where
  octets : Vector UInt8 16
  deriving DecidableEq

inductive IpAddr
  | v4 (a : Ipv4Addr)
  | v6 (a : Ipv6Addr)
  deriving DecidableEq

structure SocketAddr where
  ip : IpAddr
  port : UInt16
  deriving DecidableEq

namespace Netif

structure Interface where
  name : String
  addr : IpAddr
  deriving DecidableEq

/-- The kinds of `io::Error` that are told apart. -/
inductive ErrorKind
  | addrNotAvailable
  | other
  deriving DecidableEq

structure Error where
  kind : ErrorKind
  message : String
  deriving DecidableEq

/-- The address as a number, `u32::from`. -/
def bits (a : Ipv4Addr) : BitVec 32 :=
  a.a.toBitVec ++ a.b.toBitVec ++ a.c.toBitVec ++ a.d.toBitVec

/-- CGNAT space, which is where Tailscale hands out IPv4 addresses. -/
def TAILSCALE_V4_NET : Ipv4Addr × ℕ := (⟨100, 64, 0, 0⟩, 10)

/-- Tailscale's ULA prefix, `fd7a:115c:a1e0::/48`. -/
def TAILSCALE_V6_PREFIX : List UInt8 := [0xfd, 0x7a, 0x11, 0x5c, 0xa1, 0xe0]

def isTailscaleV4 (a : Ipv4Addr) : Bool :=
  let mask := BitVec.allOnes 32 <<< (32 - TAILSCALE_V4_NET.2)
  bits a &&& mask == bits TAILSCALE_V4_NET.1 &&& mask

def isTailscaleV6 (a : Ipv6Addr) : Bool := a.octets.toList.take 6 == TAILSCALE_V6_PREFIX

def isTailscaleAddr : IpAddr → Bool
  | .v4 a => isTailscaleV4 a
  | .v6 a => isTailscaleV6 a

/-- The first of the eight segments. -/
def segment (a : Ipv6Addr) : UInt16 := a.octets[0].toUInt16 <<< 8 ||| a.octets[1].toUInt16

def isLoopback : IpAddr → Bool
  | .v4 a => a.a == 127
  | .v6 a => a.octets.toList == List.replicate 15 0 ++ [1]

/-- An IPv6 address that needs a scope id to bind. -/
def isLinkLocal : IpAddr → Bool
  | .v4 _ => false
  | .v6 a => segment a &&& 0xffc0 == 0xfe80

/-- What addresses are sorted by. -/
def family : IpAddr → ℕ
  | .v4 _ => 0
  | .v6 _ => 1

/-- Addresses that belong to the tailnet, IPv4 first. -/
def tailscaleAddrs (list : Except Error (List Interface)) : Except Error (List IpAddr) :=
  list.map fun interfaces =>
    let v := (interfaces.filter fun i =>
      isTailscaleAddr i.addr || "tailscale".toList.isPrefixOf i.name.toList).map (·.addr)
    let v := v.filter fun a => !isLoopback a && !isLinkLocal a
    (v.insertionSort (family · ≤ family ·)).destutter (· ≠ ·)

/-! ### The tailnet -/

/-- `100.64.0.0/10` or `fd7a:115c:a1e0::/48`. -/
def InTailnet : IpAddr → Prop
  | .v4 a => a.a = 100 ∧ 64 ≤ a.b ∧ a.b < 128
  | .v6 a => TAILSCALE_V6_PREFIX <+: a.octets.toList

/-- An interface of the tailnet, by its address or by its name. -/
structure Interface.OnTailnet (i : Interface) : Prop where
  tailnet : InTailnet i.addr ∨ "tailscale".toList <+: i.name.toList
  notLoopback : isLoopback i.addr = false
  notLinkLocal : isLinkLocal i.addr = false

/-- The mask keeps the first octet and the first two bits of the second. -/
theorem mask_eq : BitVec.allOnes 32 <<< 22 = (255#8 ++ 192#8 ++ 0#8 ++ 0#8 : BitVec 32) := by
  decide

theorem second_octet (b : UInt8) : b.toBitVec &&& 192#8 = 64#8 ↔ 64 ≤ b ∧ b < 128 := by
  have hall : ∀ v : BitVec 8, v &&& 192#8 = 64#8 ↔ 64#8 ≤ v ∧ v < 128#8 := by decide
  exact hall b.toBitVec

theorem append_inj {w v : ℕ} {x₁ x₂ : BitVec w} {y₁ y₂ : BitVec v} :
    x₁ ++ y₁ = x₂ ++ y₂ ↔ x₁ = x₂ ∧ y₁ = y₂ := by
  refine ⟨fun h => ⟨?_, ?_⟩, fun ⟨hx, hy⟩ => hx ▸ hy ▸ rfl⟩
  · rw [← BitVec.extractLsb'_append_eq_left (a := x₁) (b := y₁), h,
      BitVec.extractLsb'_append_eq_left]
  · rw [← BitVec.extractLsb'_append_eq_right (a := x₁) (b := y₁), h,
      BitVec.extractLsb'_append_eq_right]

/-- The test of the second octet is the one of the netmask. -/
theorem isTailscaleV4_iff (a : Ipv4Addr) : isTailscaleV4 a = true ↔ InTailnet (.v4 a) := by
  have hmasked : bits a &&& (255#8 ++ 192#8 ++ 0#8 ++ 0#8 : BitVec 32) =
      (a.a.toBitVec ++ (a.b.toBitVec &&& 192#8) ++ 0#8 ++ 0#8 : BitVec 32) := by
    rw [bits, BitVec.and_append, BitVec.and_append, BitVec.and_append, BitVec.and_zero,
      BitVec.and_zero]
    exact congrArg (· ++ (a.b.toBitVec &&& 192#8) ++ 0#8 ++ 0#8) (BitVec.and_allOnes)
  have hnet : bits ⟨100, 64, 0, 0⟩ &&& (255#8 ++ 192#8 ++ 0#8 ++ 0#8 : BitVec 32) =
      (100#8 ++ 64#8 ++ 0#8 ++ 0#8 : BitVec 32) := by decide
  have ha : a.a.toBitVec = 100#8 ↔ a.a = 100 := UInt8.toBitVec_inj
  rw [isTailscaleV4, beq_iff_eq]
  dsimp only [TAILSCALE_V4_NET]
  rw [mask_eq, hmasked, hnet, append_inj, append_inj, append_inj, second_octet, ha]
  simp only [and_true]
  rfl

/-- An address passes the test exactly if it is on the tailnet. -/
theorem isTailscaleAddr_iff (a : IpAddr) : isTailscaleAddr a = true ↔ InTailnet a := by
  cases a with
  | v4 a => exact isTailscaleV4_iff a
  | v6 a =>
    rw [isTailscaleAddr, isTailscaleV6, beq_iff_eq, InTailnet, List.prefix_iff_eq_take]
    exact eq_comm

/-- Leaving out repetitions leaves nothing else out. -/
theorem mem_destutter_ne {α : Type} [DecidableEq α] {l : List α} {x : α} :
    x ∈ l.destutter (· ≠ ·) ↔ x ∈ l := by
  refine ⟨fun h => (List.destutter_sublist _ l).subset h, fun h => ?_⟩
  cases l with
  | nil => cases h
  | cons a l =>
    rw [List.destutter_cons']
    induction l generalizing a with
    | nil => exact h
    | cons b l ih =>
      rw [List.destutter'_cons]
      split_ifs with hne
      · rcases List.mem_cons.mp h with rfl | h
        · exact List.mem_cons_self
        · exact List.mem_cons_of_mem _ (ih b h)
      · rw [ne_eq, not_not] at hne
        subst hne
        exact ih a (by simpa using h)

/-- The addresses found are those of the listed interfaces that are on the tailnet. -/
theorem mem_tailscaleAddrs {list : Except Error (List Interface)} {found : List IpAddr}
    (h : tailscaleAddrs list = .ok found) {ip : IpAddr} :
    ip ∈ found ↔ ∃ interfaces, list = .ok interfaces ∧
      ∃ i ∈ interfaces, i.addr = ip ∧ i.OnTailnet := by
  obtain ⟨interfaces, rfl, rfl⟩ := map_eq_ok.mp h
  rw [mem_destutter_ne, List.mem_insertionSort, List.mem_filter, List.mem_map]
  simp only [List.mem_filter, Bool.or_eq_true, isTailscaleAddr_iff, List.isPrefixOf_iff_prefix,
    Bool.and_eq_true, Bool.not_eq_true']
  constructor
  · rintro ⟨⟨i, ⟨hi, htailnet⟩, rfl⟩, hloop, hlocal⟩
    exact ⟨interfaces, rfl, i, hi, rfl, htailnet, hloop, hlocal⟩
  · rintro ⟨interfaces', heq, i, hi, rfl, htailnet, hloop, hlocal⟩
    obtain rfl := Except.ok.inj heq
    exact ⟨⟨i, ⟨hi, htailnet⟩, rfl⟩, hloop, hlocal⟩

end Netif

/-! ### Binding -/

namespace Exporter

open Netif

inductive Bind
  /-- Every address that looks like it belongs to the tailnet. -/
  | tailscale
  /-- Wildcard on both families. -/
  | any
  | addr (a : IpAddr)
  deriving DecidableEq

structure Config where
  binds : List Bind
  port : UInt16

def Config.default : Config := ⟨[.tailscale], 3240⟩

/-- What the host answers while the exporter tries once to bind. -/
structure Attempt where
  /-- The interfaces, when the `n`-th bind asks for them. -/
  list : ℕ → Except Netif.Error (List Interface)
  /-- Whether the `n`-th address can be bound. -/
  canBind : ℕ → SocketAddr → Bool
  shuttingDown : Bool

def unspecified : List IpAddr := [.v4 ⟨0, 0, 0, 0⟩, .v6 ⟨.replicate 16 0⟩]

def noTailscale : Netif.Error :=
  ⟨.addrNotAvailable, "no Tailscale address found. Start tailscale, or pass --bind <addr> for a " ++
    "specific interface (or --bind any, which puts plaintext USB traffic on every network)."⟩

/-- The addresses of one bind. -/
def resolveBind (list : Except Netif.Error (List Interface)) :
    Bind → Except Netif.Error (List IpAddr)
  | .addr a => .ok [a]
  | .any => .ok unspecified
  | .tailscale => do
    let found ← tailscaleAddrs list
    if found = [] then .error noTailscale else .ok found

def resolveBinds (list : ℕ → Except Netif.Error (List Interface)) (binds : List Bind) :
    Except Netif.Error (List IpAddr) :=
  (binds.zipIdx.foldlM (fun out b => (resolveBind (list b.2) b.1).map (out ++ ·)) []).map
    (·.destutter (· ≠ ·))

/-- Bind every address the configuration asks for. Binding some but not all is not fatal, but
binding none is. -/
def bindAll (args : Config) (a : Attempt) : Except Netif.Error (List SocketAddr) := do
  let addrs ← resolveBinds a.list args.binds
  let listeners := (addrs.map (SocketAddr.mk · args.port)).zipIdx.filterMap fun sa =>
    if a.canBind sa.2 sa.1 then some sa.1 else none
  if listeners = [] then .error ⟨.addrNotAvailable, "no address could be bound"⟩
  else .ok listeners

/-- Bind, waiting for the tailnet to come up rather than failing. There is no result while it
waits. -/
def bindWhenReady (args : Config) : List Attempt → Option (Except Netif.Error (List SocketAddr))
  | [] => none
  | a :: attempts =>
    match bindAll args a with
    | .ok listeners => some (.ok listeners)
    | .error e =>
      if Bind.tailscale ∈ args.binds ∧ e.kind = .addrNotAvailable then
        if a.shuttingDown then some (.error e) else bindWhenReady args attempts
      else some (.error e)

/-! ### What is configured -/

/-- The configuration asks for an address: by itself, as one of the wildcards, or as one that an
interface of the tailnet has when the bind for it is resolved. -/
inductive Config.Asks (args : Config) (a : Attempt) (ip : IpAddr) : Prop
  | addr (h : Bind.addr ip ∈ args.binds)
  | any (h : Bind.any ∈ args.binds) (hip : ip ∈ unspecified)
  | tailscale {n : ℕ} (h : args.binds[n]? = some .tailscale) {interfaces : List Interface}
      (hlist : a.list n = .ok interfaces) {i : Interface} (hi : i ∈ interfaces)
      (hip : i.addr = ip) (htailnet : i.OnTailnet)

/-- Any address that is resolved is configured, and the other way round. -/
theorem mem_resolveBinds {args : Config} {a : Attempt} {addrs : List IpAddr}
    (h : resolveBinds a.list args.binds = .ok addrs) {ip : IpAddr} :
    ip ∈ addrs ↔ args.Asks a ip := by
  obtain ⟨out, hout, rfl⟩ := map_eq_ok.mp h
  rw [mem_destutter_ne, mem_foldlM_append hout]
  constructor
  · rintro (hnil | ⟨⟨b, n⟩, hb, ips, hips, hip⟩)
    · cases hnil
    · have hn : args.binds[n]? = some b := List.mem_zipIdx_iff_getElem?.mp hb
      have hmem : b ∈ args.binds := List.mem_of_getElem? hn
      dsimp only at hips
      cases b with
      | addr a' =>
        obtain rfl := Except.ok.inj hips
        exact .addr (List.mem_singleton.mp hip ▸ hmem)
      | any =>
        obtain rfl := Except.ok.inj hips
        exact .any hmem hip
      | tailscale =>
        obtain ⟨found, hfound, hips⟩ := bind_eq_ok.mp hips
        split_ifs at hips
        obtain rfl := Except.ok.inj hips
        obtain ⟨interfaces, hlist, i, hi, haddr, htailnet⟩ := (mem_tailscaleAddrs hfound).mp hip
        exact .tailscale hn hlist hi haddr htailnet
  · rintro (hmem | ⟨hmem, hip⟩ | ⟨hn, hlist, hi, haddr, htailnet⟩)
    · obtain ⟨n, hn⟩ := List.mem_iff_getElem?.mp hmem
      exact .inr ⟨(.addr ip, n), List.mem_zipIdx_iff_getElem?.mpr hn, [ip], rfl,
        List.mem_singleton_self ip⟩
    · obtain ⟨n, hn⟩ := List.mem_iff_getElem?.mp hmem
      exact .inr ⟨(.any, n), List.mem_zipIdx_iff_getElem?.mpr hn, unspecified, rfl, hip⟩
    · rename_i n interfaces i
      have hzip : (Bind.tailscale, n) ∈ args.binds.zipIdx := List.mem_zipIdx_iff_getElem?.mpr hn
      obtain ⟨ips, hips⟩ := forall_ok_of_foldlM_append hout _ hzip
      obtain ⟨found, hfound, hfind⟩ := bind_eq_ok.mp hips
      split_ifs at hfind
      obtain rfl := Except.ok.inj hfind
      exact .inr ⟨(.tailscale, n), hzip, found, hips,
        (mem_tailscaleAddrs hfound).mpr ⟨interfaces, hlist, i, hi, haddr, htailnet⟩⟩

/-- The addresses that are asked for and can be bound are listened on. -/
structure Config.ListensAt (args : Config) (a : Attempt) (listeners : List SocketAddr) : Prop where
  ne_nil : listeners ≠ []
  asked : ∀ sa ∈ listeners, sa.port = args.port ∧ args.Asks a sa.ip ∧ ∃ n, a.canBind n sa
  all : ∀ ip, args.Asks a ip → (∀ n, a.canBind n ⟨ip, args.port⟩) →
    ⟨ip, args.port⟩ ∈ listeners

/-- An address that is asked for and can be bound is listened on. -/
theorem mem_listeners {args : Config} {a : Attempt} {addrs : List IpAddr}
    (haddrs : resolveBinds a.list args.binds = .ok addrs) {ip : IpAddr} (hip : args.Asks a ip)
    (hbind : ∀ n, a.canBind n ⟨ip, args.port⟩) :
    ⟨ip, args.port⟩ ∈ (addrs.map (SocketAddr.mk · args.port)).zipIdx.filterMap fun sa =>
      if a.canBind sa.2 sa.1 then some sa.1 else none := by
  have hmem : (⟨ip, args.port⟩ : SocketAddr) ∈ addrs.map (SocketAddr.mk · args.port) :=
    List.mem_map_of_mem ((mem_resolveBinds haddrs).mpr hip)
  obtain ⟨n, hn⟩ := List.mem_iff_getElem?.mp hmem
  exact List.mem_filterMap.mpr
    ⟨(⟨ip, args.port⟩, n), List.mem_zipIdx_iff_getElem?.mpr hn, if_pos (hbind n)⟩

/-- An attempt that succeeds listens where the configuration says. -/
theorem listensAt_of_bindAll {args : Config} {a : Attempt} {listeners : List SocketAddr}
    (h : bindAll args a = .ok listeners) : args.ListensAt a listeners := by
  obtain ⟨addrs, haddrs, h⟩ := bind_eq_ok.mp h
  dsimp only at h
  split_ifs at h with hnil
  obtain rfl := Except.ok.inj h
  refine ⟨hnil, fun sa hsa => ?_, fun ip hip hbind => ?_⟩
  · obtain ⟨⟨sa', n⟩, hmem, hsome⟩ := List.mem_filterMap.mp hsa
    dsimp only at hsome
    split_ifs at hsome with hbound
    obtain rfl := Option.some.inj hsome
    obtain ⟨ip, hip, rfl⟩ := List.mem_map.mp (List.fst_mem_of_mem_zipIdx hmem)
    exact ⟨rfl, (mem_resolveBinds haddrs).mp hip, n, hbound⟩
  · exact mem_listeners haddrs hip hbind

/-! ### All attempts -/

/-- Wherever the exporter listens in the end, it was configured to. It has tried more than once only
if the tailnet is configured; each earlier attempt failed for want of an address, be it that the
tailnet had none or that none could be bound, and no shutdown was requested then. -/
theorem listens_where_configured {args : Config} {attempts : List Attempt}
    {listeners : List SocketAddr} (h : bindWhenReady args attempts = some (.ok listeners)) :
    ∃ before a after, attempts = before ++ a :: after ∧
      (∀ b ∈ before, Bind.tailscale ∈ args.binds ∧ b.shuttingDown = false ∧
        ∃ e, bindAll args b = .error e ∧ e.kind = .addrNotAvailable) ∧
      args.ListensAt a listeners := by
  induction attempts with
  | nil => cases h
  | cons a attempts ih =>
    rw [bindWhenReady] at h
    cases hall : bindAll args a with
    | ok found =>
      rw [hall] at h
      obtain rfl := Except.ok.inj (Option.some.inj h)
      exact ⟨[], a, attempts, rfl, List.forall_mem_nil _, listensAt_of_bindAll hall⟩
    | error e =>
      rw [hall] at h
      dsimp only at h
      split_ifs at h with hwait hdown
      · cases Option.some.inj h
      · obtain ⟨before, b, after, rfl, hbefore, hlistens⟩ := ih h
        exact ⟨a :: before, b, after, rfl,
          List.forall_mem_cons.mpr
            ⟨⟨hwait.1, Bool.eq_false_of_not_eq_true hdown, e, hall, hwait.2⟩, hbefore⟩, hlistens⟩
      · cases Option.some.inj h

/-- A handheld without a tailnet. -/
def offTailnet : Attempt where
  list := fun _ => .ok [⟨"wlan0", .v4 ⟨192, 168, 1, 20⟩⟩]
  canBind := fun _ _ => true
  shuttingDown := false

/-- The same one once the tailnet is up. -/
def onTailnet : Attempt where
  list := fun _ => .ok [⟨"wlan0", .v4 ⟨192, 168, 1, 20⟩⟩, ⟨"ts", .v4 ⟨100, 101, 102, 103⟩⟩]
  canBind := fun _ _ => true
  shuttingDown := false

theorem listens_where_configured_boot :
    ∃ before a after, [offTailnet, onTailnet] = before ++ a :: after ∧
      (∀ b ∈ before, Bind.tailscale ∈ Config.default.binds ∧ b.shuttingDown = false ∧
        ∃ e, bindAll .default b = .error e ∧ e.kind = .addrNotAvailable) ∧
      Config.default.ListensAt a [⟨.v4 ⟨100, 101, 102, 103⟩, 3240⟩] :=
  listens_where_configured (by rfl)

/-! ### The tailnet comes up -/

/-- A host that tells its interfaces refuses an attempt for want of an address only. -/
theorem kind_of_bindAll {args : Config} {a : Attempt} {e : Netif.Error}
    (hlist : ∀ n, ∃ interfaces, a.list n = .ok interfaces) (h : bindAll args a = .error e) :
    e.kind = .addrNotAvailable := by
  rcases bind_eq_error.mp h with hresolve | ⟨addrs, -, hnone⟩
  · obtain ⟨-, ⟨b, n⟩, -, out, -, -, hstep⟩ := foldlM_eq_error (map_eq_error.mp hresolve)
    have hbind : resolveBind (a.list n) b = .error e := map_eq_error.mp hstep
    cases b with
    | addr ip => cases hbind
    | any => cases hbind
    | tailscale =>
      obtain ⟨interfaces, hinterfaces⟩ := hlist n
      rcases bind_eq_error.mp hbind with hfound | ⟨found, -, hnone⟩
      · rw [hinterfaces] at hfound
        cases hfound
      · split_ifs at hnone
        exact Except.error.inj hnone ▸ rfl
  · dsimp only at hnone
    split_ifs at hnone
    exact Except.error.inj hnone ▸ rfl

/-- The tailnet is up: each bind that looks for it finds an address, and some address that is asked
for can be bound. -/
structure Config.Ready (args : Config) (a : Attempt) : Prop where
  tailnet : ∀ n, args.binds[n]? = some .tailscale →
    ∃ interfaces, a.list n = .ok interfaces ∧ ∃ i ∈ interfaces, i.OnTailnet
  bindable : ∃ ip, args.Asks a ip ∧ ∀ n, a.canBind n ⟨ip, args.port⟩

/-- Once the tailnet is up every bind finds an address. -/
theorem Config.Ready.resolveBinds {args : Config} {a : Attempt} (h : args.Ready a) :
    ∃ addrs, resolveBinds a.list args.binds = .ok addrs := by
  have hall : ∀ x ∈ args.binds.zipIdx, ∃ ips, resolveBind (a.list x.2) x.1 = .ok ips := by
    rintro ⟨b, n⟩ hb
    cases b with
    | addr ip => exact ⟨[ip], rfl⟩
    | any => exact ⟨unspecified, rfl⟩
    | tailscale =>
      obtain ⟨interfaces, hlist, i, hi, htailnet⟩ :=
        h.tailnet n (List.mem_zipIdx_iff_getElem?.mp hb)
      obtain ⟨found, hfound⟩ : ∃ found, tailscaleAddrs (a.list n) = .ok found := by
        rw [hlist]
        exact ⟨_, rfl⟩
      have hmem : i.addr ∈ found :=
        (mem_tailscaleAddrs hfound).mpr ⟨interfaces, hlist, i, hi, rfl, htailnet⟩
      refine ⟨found, bind_eq_ok.mpr ⟨found, hfound, if_neg ?_⟩⟩
      exact List.ne_nil_of_mem hmem
  obtain ⟨out, hout⟩ := exists_foldlM_append hall []
  exact ⟨_, map_eq_ok.mpr ⟨out, hout, rfl⟩⟩

/-- And then the attempt succeeds. -/
theorem Config.Ready.bindAll {args : Config} {a : Attempt} (h : args.Ready a) :
    ∃ listeners, bindAll args a = .ok listeners := by
  obtain ⟨addrs, haddrs⟩ := h.resolveBinds
  obtain ⟨ip, hask, hbind⟩ := h.bindable
  refine ⟨_, bind_eq_ok.mpr ⟨addrs, haddrs, if_neg ?_⟩⟩
  exact List.ne_nil_of_mem (mem_listeners haddrs hask hbind)

/-- The exporter waits through any attempts that the host answers, and listens once the tailnet is
up. -/
theorem listens_once_ready {args : Config} (htailscale : Bind.tailscale ∈ args.binds)
    {before : List Attempt} (hbefore : ∀ b ∈ before,
      (∀ n, ∃ interfaces, b.list n = .ok interfaces) ∧ b.shuttingDown = false)
    {a : Attempt} (hready : args.Ready a) (after : List Attempt) :
    ∃ listeners, bindWhenReady args (before ++ a :: after) = some (.ok listeners) := by
  induction before with
  | nil =>
    obtain ⟨listeners, hall⟩ := hready.bindAll
    exact ⟨listeners, by rw [List.nil_append, bindWhenReady, hall]⟩
  | cons b before ih =>
    obtain ⟨⟨hlist, hdown⟩, hbefore⟩ := List.forall_mem_cons.mp hbefore
    rw [List.cons_append, bindWhenReady]
    cases hall : Exporter.bindAll args b with
    | ok listeners => exact ⟨listeners, rfl⟩
    | error e =>
      dsimp only
      rw [if_pos ⟨htailscale, kind_of_bindAll hlist hall⟩, if_neg (by rw [hdown]; decide)]
      exact ih hbefore

theorem listens_once_ready_boot : ∃ listeners,
    bindWhenReady .default ([offTailnet, offTailnet] ++ onTailnet :: []) =
      some (.ok listeners) := by
  have htailnet : (⟨"ts", .v4 ⟨100, 101, 102, 103⟩⟩ : Interface).OnTailnet :=
    ⟨.inl ⟨rfl, by decide, by decide⟩, rfl, rfl⟩
  refine listens_once_ready (List.mem_singleton_self _) (fun b hb => ?_) ?_ []
  · obtain rfl : b = offTailnet := by simpa using hb
    exact ⟨fun _ => ⟨_, rfl⟩, rfl⟩
  · exact ⟨fun _ _ => ⟨_, rfl, _, List.mem_cons_of_mem _ (List.mem_singleton_self _), htailnet⟩,
      .v4 ⟨100, 101, 102, 103⟩, .tailscale (n := 0) rfl rfl
        (List.mem_cons_of_mem _ (List.mem_singleton_self _)) rfl htailnet, fun _ => rfl⟩

end Exporter

end Padwire
