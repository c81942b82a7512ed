import Mathlib.Data.List.Nodup
import Mathlib.Data.List.ReduceOption
import Padwire.Mdns.Recognise

/-!
# Browsing

The exchange between a browser and the responders on its network (`usbfwd-common/src/mdns.rs`):
what a responder replies to a datagram, what `browse` makes of the datagrams it receives, and
what the two come to together (`browse_finds`). A browser that hears announcements in any order
and any number of times, among datagrams that are none, finds each service that has announced
itself, once, under the names and addresses it announces.
-/

namespace Padwire.Mdns

open Checked

/-- What `recv_from` has room for. -/
def MAX_PACKET : ℕ := 9000

/-! ### The responder -/

/-- Where a reply goes. -/
inductive Dest
  | sender
  | group
  deriving DecidableEq, Repr

/-- What `poll_once` sends back for a datagram, and where to. -/
def Responder.reply? (r : Responder) (datagram : Bytes) : Option (Bytes × Dest) :=
  match r.matchQuestions (datagram.take MAX_PACKET) with
  | ok (wantsPtr, wantsService, unicast) =>
    if !wantsPtr && !wantsService then none
    else some (r.answer wantsPtr none, if unicast then .sender else .group)
  | _ => none

/-! ### The browser -/

/-- A service that `browse` has found. -/
structure Discovered where
  inst : String
  host : String
  port : UInt16
  addrs : List Ipv4Addr
  txt : List String
  deriving DecidableEq, Repr

/-- The dotted form of an address. -/
def Ipv4Addr.display (a : Ipv4Addr) : String :=
  ".".intercalate ([a.a, a.b, a.c, a.d].map fun octet => toString octet.toNat)

/-- The best endpoint to hand to `usbip attach`: a literal address if one was advertised, otherwise
the `.local` name. -/
def Discovered.endpoint (x : Discovered) : String :=
  match x.addrs.head? with
  | some a => a.display
  | none => x.host

/-- The one query that `browse` sends. -/
def browseQuery : Bytes :=
  ((Message.new 0 0).question SERVICE TYPE_PTR (CLASS_IN ||| FLAG_UNICAST_OR_FLUSH)).finish

/-- What is found after one more datagram. Where `collect` gives up it has kept what it found. -/
def Found.hear (found : Found) (datagram : Bytes) : Found :=
  match collect (datagram.take MAX_PACKET) found with
  | ok found' | err found' => found'
  | Checked.panic => found

/-- One suffix off the end, if it is there. -/
def trimEndMatch (pat s : List Char) : List Char :=
  if pat <:+ s then s.take (s.length - pat.length) else s

/-- `trim_end_matches`: the suffix is taken off as often as it is there. -/
def trimEndMatches (pat s : List Char) : List Char :=
  (trimEndMatch pat)^[s.length] s

/-- `dedup_by`: what is the same as the last element kept is left out. -/
def dedupFrom {α : Type} (same : α → α → Bool) (last : α) : List α → List α
  | [] => []
  | x :: xs => if same x last then dedupFrom same last xs else x :: dedupFrom same x xs

def dedupBy {α : Type} (same : α → α → Bool) : List α → List α
  | [] => []
  | x :: xs => x :: dedupFrom same x xs

/-- What is known of an instance, once its SRV record has been found. -/
def Found.discovered (found : Found) (inst : String) : Option Discovered :=
  (found.srv.find? fun s => s.1 == inst).map fun s =>
    { inst := String.ofList (trimEndMatches ("." ++ SERVICE).toList inst.toList)
      host := s.2.2
      port := s.2.1
      addrs := (found.addrs.filter fun a => eqIgnoreAsciiCase a.1 s.2.2).map Prod.snd
      txt := ((found.txts.find? fun t => t.1 == inst).map Prod.snd).getD [] }

/-- What `browse` returns, for the datagrams received until the deadline. -/
def browse (datagrams : List Bytes) : List Discovered :=
  let found := datagrams.foldl Found.hear {}
  dedupBy (fun a b => a.inst == b.inst) (found.instances.filterMap found.discovered)

/-! ### The list methods -/

theorem dedupFrom_of_pairwise {α : Type} {same : α → α → Bool} {last : α} {xs : List α}
    (h : (last :: xs).Pairwise fun a b => same b a = false) : dedupFrom same last xs = xs := by
  induction xs generalizing last with
  | nil => rfl
  | cons x xs ih =>
    have hx : same x last = false := (List.pairwise_cons.mp h).1 x List.mem_cons_self
    rw [dedupFrom, hx, if_neg Bool.false_ne_true, ih (List.pairwise_cons.mp h).2]

/-- A list in which nothing is the same as something before it keeps all its elements. -/
theorem dedupBy_of_pairwise {α : Type} {same : α → α → Bool} {xs : List α}
    (h : xs.Pairwise fun a b => same b a = false) : dedupBy same xs = xs := by
  cases xs with
  | nil => rfl
  | cons x xs => rw [dedupBy, dedupFrom_of_pairwise h]

/-- One more element is kept if it is new. -/
theorem eraseDups_concat {α : Type} [DecidableEq α] (l : List α) (x : α) :
    (l ++ [x]).eraseDups = if x ∈ l then l.eraseDups else l.eraseDups ++ [x] := by
  rw [List.eraseDups_append, List.removeAll, List.filter_singleton]
  by_cases hx : x ∈ l
  · simp [hx]
  · simp [hx, List.eraseDups_cons]

theorem nodup_eraseDups {α : Type} [DecidableEq α] (l : List α) : l.eraseDups.Nodup := by
  induction l using List.reverseRecOn with
  | nil => exact List.nodup_nil
  | append_singleton l x ih =>
    rw [eraseDups_concat]
    split_ifs with hx
    · exact ih
    · refine List.nodup_append.mpr ⟨ih, List.nodup_singleton x, fun y hy z hz => ?_⟩
      rw [List.mem_singleton] at hz
      rintro rfl
      exact hx (hz ▸ List.mem_eraseDups.mp hy)

theorem trimEndMatches_append {pat s : List Char} (hpat : pat ≠ []) (h : ¬ pat <:+ s) :
    trimEndMatches pat (s ++ pat) = s := by
  have hfixed : trimEndMatch pat s = s := if_neg h
  have hone : trimEndMatch pat (s ++ pat) = s := by
    rw [trimEndMatch, if_pos (List.suffix_append s pat), List.length_append, Nat.add_sub_cancel,
      List.take_left]
  obtain ⟨n, hn⟩ : ∃ n, (s ++ pat).length = n + 1 := by
    refine Nat.exists_eq_succ_of_ne_zero fun hzero => hpat ?_
    rw [List.length_append] at hzero
    exact List.eq_nil_of_length_eq_zero (by omega)
  rw [trimEndMatches, hn, Function.iterate_succ_apply, hone, Function.iterate_fixed hfixed]

theorem eqIgnoreAsciiCase_iff {s t : String} :
    eqIgnoreAsciiCase s t = true ↔ toAsciiLowercase s.toList = toAsciiLowercase t.toList :=
  beq_iff_eq

/-- Names that differ in front of what they share differ. -/
theorem eqIgnoreAsciiCase_append (s t suffix : String) :
    eqIgnoreAsciiCase (s ++ suffix) (t ++ suffix) = eqIgnoreAsciiCase s t := by
  rw [Bool.eq_iff_iff, eqIgnoreAsciiCase_iff, eqIgnoreAsciiCase_iff]
  simp only [toAsciiLowercase, String.toList_append, List.map_append, List.append_left_inj]

/-! ### Announcers -/

theorem length_recordBytes (name : String) (rtype cls : UInt16) (ttl : UInt32) (rdata : Bytes) :
    (Message.recordBytes name rtype cls ttl rdata).length =
      (encodeName name).length + 10 + rdata.length := by
  simp only [Message.recordBytes, List.length_append, length_toBe16, length_toBe32]
  omega

/-- How long an announcement is, which does not depend on its time to live. -/
theorem Responder.length_answer (r : Responder) (ttl : Option UInt32) :
    (r.answer true ttl).length =
      12 + ((encodeName SERVICE).length + 10 + (ptrRdata r.instanceFqdn).length) +
        ((encodeName r.instanceFqdn).length + 10 + (srvRdata r.port r.hostFqdn).length) +
        ((encodeName r.instanceFqdn).length + 10 + (txtRdata r.txt).length) +
        r.addrs.length * ((encodeName r.hostFqdn).length + 14) := by
  have haddrs : (r.addrs.flatMap (r.aRecord ttl)).length =
      r.addrs.length * ((encodeName r.hostFqdn).length + 14) := by
    rw [List.length_flatMap]
    simp [aRecord, length_recordBytes, Ipv4Addr.length_octets]
  rw [r.answer_eq ttl]
  simp only [List.length_append, length_toBe16, ptrRecord, srvRecord, txtRecord,
    length_recordBytes, haddrs]
  omega

/-- A service whose announcements can be understood: its names consist of labels of at most 63
bytes, its TXT strings fit in one character string each, and an announcement fits in the buffer
it is received in. The name of the instance does not itself end like one of the service. -/
structure Announcer where
  inst : String
  host : String
  port : UInt16
  addrs : List Ipv4Addr
  txt : List String
  labelled_inst : Labelled inst
  labelled_host : Labelled host
  strings : ∀ e ∈ txt, 1 ≤ (asBytes e).length ∧ (asBytes e).length ≤ 255
  fits : ((Responder.new inst host port addrs txt).answer true none).length ≤ MAX_PACKET
  untrimmed : ¬ ("." ++ SERVICE).toList <:+ inst.toList
  deriving DecidableEq

namespace Announcer

variable (a : Announcer)

def responder : Responder := .new a.inst a.host a.port a.addrs a.txt

theorem received_instanceFqdn : received a.responder.instanceFqdn = a.inst ++ "." ++ SERVICE :=
  received_of_keptName ((keptName_of_append (toList_instanceFqdn a.inst)).mpr
    ⟨a.labelled_inst.keptName, by decide +kernel⟩)

theorem received_hostFqdn : received a.responder.hostFqdn = a.host ++ ".local" :=
  received_of_keptName ((keptName_of_append (toList_hostFqdn a.host)).mpr
    ⟨a.labelled_host.keptName, by decide +kernel⟩)

theorem length_answer_le (ttl : Option UInt32) :
    (a.responder.answer true ttl).length ≤ MAX_PACKET := by
  have hfits := a.fits
  rw [Responder.length_answer] at hfits
  rw [Responder.length_answer]
  exact hfits

/-- Hearing an announcement adds what is announced. -/
theorem hear_answer (found : Found) (ttl : Option UInt32) :
    found.hear (a.responder.answer true ttl) = a.responder.addTo found := by
  have hlen := a.length_answer_le ttl
  have hmax : MAX_PACKET = 9000 := rfl
  have hsum := a.responder.length_answer ttl
  have haddrs : a.responder.addrs.length ≤
      a.responder.addrs.length * ((encodeName a.responder.hostFqdn).length + 14) :=
    Nat.le_mul_of_pos_right _ (by omega)
  have hcollect := a.responder.collect_answer_add ttl found (by omega) (by omega) (by omega)
    a.strings (by omega)
  rw [Found.hear, List.take_of_length_le hlen, hcollect]

/-- What `browse` should make of this service, if these are the announcements it hears. -/
def discovered (heard : List Announcer) : Discovered where
  inst := a.inst
  host := a.host ++ ".local"
  port := a.port
  addrs := (heard.filter fun b => eqIgnoreAsciiCase b.host a.host).flatMap addrs
  txt := a.txt

/-- No two services share an instance name, up to case. -/
def Distinct (heard : List Announcer) : Prop :=
  ∀ a ∈ heard, ∀ b ∈ heard, eqIgnoreAsciiCase a.inst b.inst = true → a = b

theorem Distinct.of_append {heard : List Announcer} (h : Distinct (heard ++ [a])) :
    Distinct heard :=
  fun b hb c hc => h b (List.mem_append_left _ hb) c (List.mem_append_left _ hc)

/-- What is found in the announcements of a list. -/
def known (heard : List Announcer) : Found :=
  heard.foldl (fun found a => a.responder.addTo found) {}

theorem known_append (heard : List Announcer) :
    known (heard ++ [a]) = a.responder.addTo (known heard) :=
  List.foldl_append

/-- Every announcement leaves its records behind. -/
theorem known_records (heard : List Announcer) :
    (known heard).srv =
        heard.map (fun a => (a.inst ++ "." ++ SERVICE, a.port, a.host ++ ".local")) ∧
      (known heard).txts = heard.map (fun a => (a.inst ++ "." ++ SERVICE, a.txt)) ∧
      (known heard).addrs =
        heard.flatMap (fun a => a.addrs.map fun addr => (a.host ++ ".local", addr)) := by
  induction heard using List.reverseRecOn with
  | nil => exact ⟨rfl, rfl, rfl⟩
  | append_singleton heard a ih =>
    obtain ⟨hsrv, htxts, haddrs⟩ := ih
    have hpush : ∀ (found : Found) (target : String),
        (found.pushInstance target).srv = found.srv ∧
          (found.pushInstance target).txts = found.txts ∧
          (found.pushInstance target).addrs = found.addrs := by
      intro found target
      unfold Found.pushInstance
      split_ifs <;> exact ⟨rfl, rfl, rfl⟩
    rw [known_append, Responder.addTo, a.received_instanceFqdn, a.received_hostFqdn]
    obtain ⟨hsrv', htxts', haddrs'⟩ := hpush (known heard) (a.inst ++ "." ++ SERVICE)
    refine ⟨?_, ?_, ?_⟩
    · rw [List.map_append, ← hsrv, ← hsrv']
      rfl
    · rw [List.map_append, ← htxts, ← htxts']
      rfl
    · rw [List.flatMap_append, ← haddrs, ← haddrs', List.flatMap_singleton]
      rfl

/-- Every service is known by one instance, in the order in which they were first heard of. -/
theorem known_instances {heard : List Announcer} (hd : Distinct heard) :
    (known heard).instances = heard.eraseDups.map fun a => a.inst ++ "." ++ SERVICE := by
  induction heard using List.reverseRecOn with
  | nil => rfl
  | append_singleton heard a ih =>
    have hinst := ih hd.of_append
    rw [known_append, Responder.addTo, a.received_instanceFqdn, eraseDups_concat]
    change ((known heard).pushInstance (a.inst ++ "." ++ SERVICE)).instances = _
    by_cases ha : a ∈ heard
    -- another announcement of a service that is already known
    · have hany : (known heard).instances.any
          (fun i => eqIgnoreAsciiCase i (a.inst ++ "." ++ SERVICE)) = true := by
        rw [hinst, List.any_map]
        exact List.any_eq_true.mpr
          ⟨a, List.mem_eraseDups.mpr ha, eqIgnoreAsciiCase_iff.mpr rfl⟩
      rw [Found.pushInstance, if_pos hany, hinst, if_pos ha]
    · have hany : (known heard).instances.any
          (fun i => eqIgnoreAsciiCase i (a.inst ++ "." ++ SERVICE)) = false := by
        rw [hinst, List.any_map, List.any_eq_false]
        intro b hb heq
        rw [Function.comp_apply, String.append_assoc, String.append_assoc,
          eqIgnoreAsciiCase_append] at heq
        have hb' := List.mem_eraseDups.mp hb
        exact ha (hd b (List.mem_append_left _ hb') a (by simp) heq ▸ hb')
      rw [Found.pushInstance, hany, if_neg Bool.false_ne_true, hinst, if_neg ha, List.map_append]
      rfl

theorem find?_of_unique {α : Type} {p : α → Bool} {l : List α} {x : α} (hx : x ∈ l)
    (hpx : p x = true) (h : ∀ y ∈ l, p y = true → y = x) : l.find? p = some x := by
  obtain ⟨y, hy⟩ := Option.isSome_iff_exists.mp (List.find?_isSome.mpr ⟨x, hx, hpx⟩)
  rw [hy, h y (List.mem_of_find?_eq_some hy) (List.find?_some hy)]

/-- The services that share a host share its addresses. -/
private theorem addrs_of_host (heard : List Announcer) (host : String) :
    (((heard.flatMap fun b => b.addrs.map fun addr => (b.host ++ ".local", addr)).filter fun x =>
        eqIgnoreAsciiCase x.1 (host ++ ".local")).map Prod.snd) =
      (heard.filter fun b => eqIgnoreAsciiCase b.host host).flatMap addrs := by
  induction heard with
  | nil => rfl
  | cons b heard ih =>
    rw [List.flatMap_cons, List.filter_append, List.map_append, ih, List.filter_map]
    cases hb : eqIgnoreAsciiCase b.host host with
    | true =>
      have hall : b.addrs.filter ((fun x : String × Ipv4Addr =>
          eqIgnoreAsciiCase x.1 (host ++ ".local")) ∘ fun addr => (b.host ++ ".local", addr)) =
          b.addrs := by
        refine List.filter_eq_self.mpr fun addr _ => ?_
        rw [Function.comp_apply, eqIgnoreAsciiCase_append, hb]
      rw [List.filter_cons, if_pos hb, List.flatMap_cons, hall, List.map_map]
      exact congrArg (· ++ _) (List.map_id _)
    | false =>
      have hnone : b.addrs.filter ((fun x : String × Ipv4Addr =>
          eqIgnoreAsciiCase x.1 (host ++ ".local")) ∘ fun addr => (b.host ++ ".local", addr)) =
          [] := by
        refine List.filter_eq_nil_iff.mpr fun addr _ => ?_
        rw [Function.comp_apply, eqIgnoreAsciiCase_append, hb]
        exact Bool.false_ne_true
      rw [List.filter_cons, if_neg (by rw [hb]; exact Bool.false_ne_true), hnone]
      rfl

/-- A service that has announced itself is put together from its own records. -/
theorem discovered_known {heard : List Announcer} (hd : Distinct heard) (ha : a ∈ heard) :
    (known heard).discovered (a.inst ++ "." ++ SERVICE) = some (a.discovered heard) := by
  obtain ⟨hsrv, htxts, haddrs⟩ := known_records heard
  have hunique : ∀ b ∈ heard,
      (b.inst ++ "." ++ SERVICE == a.inst ++ "." ++ SERVICE) = true → b = a := by
    intro b hb heq
    refine hd b hb a ha (eqIgnoreAsciiCase_iff.mpr ?_)
    have hlist := congrArg String.toList (eq_of_beq heq)
    rw [toList_instanceFqdn, toList_instanceFqdn] at hlist
    rw [List.append_cancel_right hlist]
  have hfind : heard.find? (fun b => b.inst ++ "." ++ SERVICE == a.inst ++ "." ++ SERVICE) =
      some a := find?_of_unique ha (beq_self_eq_true _) hunique
  have hdot : (("." ++ SERVICE).toList : List Char) ≠ [] := by decide +kernel
  have htrim : trimEndMatches ("." ++ SERVICE).toList (a.inst ++ "." ++ SERVICE).toList =
      a.inst.toList := by
    have hsplit : (a.inst ++ "." ++ SERVICE).toList = a.inst.toList ++ ("." ++ SERVICE).toList := by
      rw [String.append_assoc, String.toList_append]
    rw [hsplit]
    exact trimEndMatches_append hdot a.untrimmed
  rw [Found.discovered, hsrv, htxts, haddrs, List.find?_map, List.find?_map]
  simp only [Function.comp_def, hfind, Option.map_some, Option.getD_some, htrim,
    String.ofList_toList, addrs_of_host]
  rfl

end Announcer

/-! ### The exchange -/

/-- What a browser may hear: an announcement, under any time to live, or a datagram that adds
nothing to what it has found. -/
inductive Overheard : Bytes → Option Announcer → Prop
  | announcement (a : Announcer) (ttl : Option UInt32) :
      Overheard (a.responder.answer true ttl) (some a)
  | noise {datagram : Bytes} : (∀ found : Found, found.hear datagram = found) →
      Overheard datagram none

/-- The query of another browser adds nothing. -/
theorem hear_browseQuery (found : Found) : found.hear browseQuery = found := by
  have hlen : browseQuery.length ≤ MAX_PACKET := by decide +kernel
  have hshort : ¬ browseQuery.length < 12 := by decide +kernel
  have hcounts : (indexU16 browseQuery 4 : Checked Found _) = ok 1 ∧
      (indexU16 browseQuery 6 : Checked Found _) = ok 0 ∧
      (indexU16 browseQuery 8 : Checked Found _) = ok 0 ∧
      (indexU16 browseQuery 10 : Checked Found _) = ok 0 := by decide +kernel
  have hskip : times (skipQuestion browseQuery) 1 12 = ok 35 := by decide +kernel
  have hcollect : collect browseQuery found = ok found := by
    rw [collect, if_neg hshort, hcounts.1, ok_bind, hcounts.2.1, ok_bind, hcounts.2.2.1, ok_bind,
      hcounts.2.2.2, ok_bind, show (1 : UInt16).toNat = 1 from rfl, hskip]
    rfl
  rw [Found.hear, List.take_of_length_le hlen, hcollect]

/-- A datagram that is too short for a header adds nothing. -/
theorem hear_of_short {datagram : Bytes} (h : datagram.length < 12) (found : Found) :
    found.hear datagram = found := by
  have hshort : (datagram.take MAX_PACKET).length < 12 :=
    Nat.lt_of_le_of_lt (List.length_take_le' _ _) h
  rw [Found.hear, collect, if_pos hshort]

theorem foldl_hear {datagrams : List Bytes} {sources : List (Option Announcer)}
    (h : List.Forall₂ Overheard datagrams sources) (found : Found) :
    datagrams.foldl Found.hear found =
      sources.reduceOption.foldl (fun found a => a.responder.addTo found) found := by
  induction h generalizing found with
  | nil => rfl
  | @cons datagram source _ _ hheard _ ih =>
    rw [List.foldl_cons, ih]
    cases hheard with
    | announcement a ttl => rw [a.hear_answer, List.reduceOption_cons_of_some, List.foldl_cons]
    | noise hnoise => rw [hnoise, List.reduceOption_cons_of_none]

/-- A responder answers the query of a browser, to the browser alone, with its announcement. -/
theorem reply_browseQuery (r : Responder) :
    r.reply? browseQuery = some (r.answer true none, .sender) := by
  obtain ⟨ptr, svc, unicast, heq, hptr, -, hunicast⟩ :=
    r.matchQuestions_question_iff SERVICE TYPE_PTR 0 (CLASS_IN ||| FLAG_UNICAST_OR_FLUSH)
      (rfl : (0 : UInt16) &&& 0x8000 = 0)
  have hservice : KeptName SERVICE := by decide +kernel
  have hptr' : ptr = true := by
    refine hptr.mpr ⟨?_, .inl rfl⟩
    rw [received_of_keptName hservice]
    decide +kernel
  have hunicast' : unicast = true := hunicast.mpr (by decide)
  have hlen : browseQuery.length ≤ MAX_PACKET := by decide +kernel
  rw [Responder.reply?, List.take_of_length_le hlen, browseQuery, heq, hptr', hunicast']
  rfl

/-- An answer begins with a header that marks it as one. -/
private theorem exists_answer_eq (r : Responder) (includePtr : Bool) (ttl : Option UInt32) :
    ∃ rest, r.answer includePtr ttl = toBe16 0 ++ (toBe16 0x8400 ++ rest) := by
  have hbuf : (Message.new 0 0x8400).buf <+: (r.message includePtr ttl).buf := by
    refine List.IsPrefix.trans ?_ ⟨_, (r.foldl_aRecord ttl r.addrs _).1.symm⟩
    cases includePtr with
    | true =>
      exact ((List.prefix_append _ _).trans (List.prefix_append _ _)).trans
        (List.prefix_append _ _)
    | false => exact (List.prefix_append _ _).trans (List.prefix_append _ _)
  obtain ⟨body, hbody⟩ := hbuf
  exact ⟨_, Message.finish_of_eq hbody.symm⟩

/-- Nobody answers an answer. -/
theorem reply_answer (r r' : Responder) (includePtr : Bool) (ttl : Option UInt32) :
    r.reply? (r'.answer includePtr ttl) = none := by
  obtain ⟨rest, hrest⟩ := exists_answer_eq r' includePtr ttl
  have htake : (r'.answer includePtr ttl).take MAX_PACKET =
      toBe16 0 ++ (toBe16 0x8400 ++ rest.take (MAX_PACKET - 4)) := by
    rw [hrest]
    rfl
  have hflags : (indexU16 (toBe16 0 ++ (toBe16 0x8400 ++ rest.take (MAX_PACKET - 4))) 2 :
      Checked Unit _) = ok 0x8400 := indexU16_of_eq rfl rfl
  rw [Responder.reply?, Responder.matchQuestions, htake]
  split_ifs with hlen
  · rfl
  · rw [hflags]
    rfl

/-- **A browser finds the services that announce themselves.** Every responder answers the query
of a browser, and no answer. Let a browser hear, in any order and any number of times each,
announcements of services no two of which share an instance name up to case, under any time to
live, among datagrams that add nothing. Then it finds each service it has heard of, once, in the
order in which it has first heard of them, and no other: under its own name, host and port and
with its own TXT strings, and with the addresses that were announced for its host. -/
theorem browse_finds :
    (∀ r : Responder, r.reply? browseQuery = some (r.answer true none, .sender) ∧
      ∀ (r' : Responder) includePtr ttl, r.reply? (r'.answer includePtr ttl) = none) ∧
    ∀ (datagrams : List Bytes) (sources : List (Option Announcer)),
      List.Forall₂ Overheard datagrams sources → Announcer.Distinct sources.reduceOption →
        browse datagrams =
          sources.reduceOption.eraseDups.map fun a => a.discovered sources.reduceOption := by
  refine ⟨fun r => ⟨reply_browseQuery r, reply_answer r⟩, fun datagrams sources h hd => ?_⟩
  have hknown : datagrams.foldl Found.hear {} = Announcer.known sources.reduceOption := by
    rw [foldl_hear h, Announcer.known]
  have hfound : (sources.reduceOption.eraseDups.map fun a => a.inst ++ "." ++ SERVICE).filterMap
      (Announcer.known sources.reduceOption).discovered =
        sources.reduceOption.eraseDups.map fun a => a.discovered sources.reduceOption := by
    rw [List.filterMap_map, ← List.filterMap_eq_map]
    exact List.filterMap_congr fun a ha => a.discovered_known hd (List.mem_eraseDups.mp ha)
  rw [browse, hknown, Announcer.known_instances hd, hfound]
  refine dedupBy_of_pairwise ?_
  rw [List.pairwise_map]
  refine List.Pairwise.imp_of_mem (fun {a b} ha hb hne => ?_)
    (nodup_eraseDups sources.reduceOption)
  refine beq_eq_false_iff_ne.mpr fun heq => hne ?_
  have hab : a.inst = b.inst := heq.symm
  exact hd a (List.mem_eraseDups.mp ha) b (List.mem_eraseDups.mp hb)
    (eqIgnoreAsciiCase_iff.mpr (by rw [hab]))

/-- The endpoint of a service that shares its host with no other is the first of its addresses, or
its host if it announces none. -/
theorem Announcer.endpoint_discovered (a : Announcer) {heard : List Announcer} (ha : a ∈ heard)
    (hhost : ∀ b ∈ heard, eqIgnoreAsciiCase b.host a.host = true → b = a) :
    (a.discovered heard).endpoint =
      (a.addrs.head?.map Ipv4Addr.display).getD (a.host ++ ".local") := by
  have hall : ∀ b ∈ heard.filter fun b => eqIgnoreAsciiCase b.host a.host, b = a := by
    intro b hb
    rw [List.mem_filter] at hb
    exact hhost b hb.1 hb.2
  have hne : a ∈ heard.filter fun b => eqIgnoreAsciiCase b.host a.host :=
    List.mem_filter.mpr ⟨ha, eqIgnoreAsciiCase_iff.mpr rfl⟩
  have hrep := List.eq_replicate_of_mem hall
  obtain ⟨n, hn⟩ := Nat.exists_eq_succ_of_ne_zero
    (Nat.ne_of_gt (List.length_pos_of_mem hne))
  have hhead : (a.discovered heard).addrs.head? = a.addrs.head? := by
    rw [discovered, hrep, hn]
    cases haddrs : a.addrs with
    | nil => simp [haddrs]
    | cons addr rest => rw [List.replicate_succ, List.flatMap_cons, haddrs]; rfl
  rw [Discovered.endpoint, hhead]
  cases a.addrs.head? <;> rfl

/-- Two services, one of which goes away again, and another browser. -/
def deck : Announcer where
  inst := "deck"
  host := "deck"
  port := 3240
  addrs := [⟨100, 101, 102, 103⟩]
  txt := ["allow=28de:1304"]
  labelled_inst := by decide +kernel
  labelled_host := by decide +kernel
  strings := by decide +kernel
  fits := by decide +kernel
  untrimmed := by decide +kernel

def desk : Announcer where
  inst := "Desk"
  host := "desk"
  port := 3241
  addrs := []
  txt := []
  labelled_inst := by decide +kernel
  labelled_host := by decide +kernel
  strings := List.forall_mem_nil _
  fits := by decide +kernel
  untrimmed := by decide +kernel

theorem browse_finds_deck :
    browse [deck.responder.answer true none, browseQuery, desk.responder.answer true none,
        deck.responder.answer true (some 0)] =
      [deck.discovered [deck, desk, deck], desk.discovered [deck, desk, deck]] := by
  have hne : eqIgnoreAsciiCase deck.inst desk.inst = false ∧
      eqIgnoreAsciiCase desk.inst deck.inst = false := by decide +kernel
  have hd : Announcer.Distinct [deck, desk, deck] := by
    intro a ha b hb hab
    simp only [List.mem_cons, List.not_mem_nil, or_false] at ha hb
    rcases ha with rfl | rfl | rfl <;> rcases hb with rfl | rfl | rfl <;>
      first | rfl | (rw [hne.1] at hab; cases hab) | (rw [hne.2] at hab; cases hab)
  have hfound := browse_finds.2 _ [some deck, none, some desk, some deck]
    (.cons (.announcement deck none) (.cons (.noise hear_browseQuery)
      (.cons (.announcement desk none) (.cons (.announcement deck (some 0)) .nil)))) hd
  have hfirst : [deck, desk, deck].eraseDups = [deck, desk] := by decide +kernel
  exact hfound.trans (congrArg _ hfirst)

end Padwire.Mdns
