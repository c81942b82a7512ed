import Padwire.Mdns.Name

/-!
# The packets of the responder

`Message` (`usbfwd-common/src/mdns.rs`) writes a packet piece by piece and fills in the counts at
the end; `Responder.answer` is the packet with which the responder announces itself and answers
questions. Its names are written out in full each time.

A message remembers where its records begin, which the code does not. Of a `Responder` the socket
is left out.
-/

namespace Padwire.Mdns

open Checked

def SERVICE : String := "_usbip._tcp.local"

def TYPE_A : UInt16 := 1
def TYPE_PTR : UInt16 := 12
def TYPE_TXT : UInt16 := 16
def TYPE_SRV : UInt16 := 33
def TYPE_ANY : UInt16 := 255

def CLASS_IN : UInt16 := 1

/-- Top bit of the class field: in a question it asks for a unicast reply, in a record it tells
receivers to flush what they had cached. -/
def FLAG_UNICAST_OR_FLUSH : UInt16 := 0x8000

def TTL_HOST : UInt32 := 120
def TTL_PTR : UInt32 := 4500

/-! ### Numbers -/

/-- `to_be_bytes` of two bytes. -/
def toBe16 (v : UInt16) : Bytes := beBytes 2 v.toNat

/-- `to_be_bytes` of four bytes. -/
def toBe32 (v : UInt32) : Bytes := beBytes 4 v.toNat

/-- `from_be_bytes` of two bytes. -/
def fromBe16 (hi lo : UInt8) : UInt16 := UInt16.ofNat (beNat [hi, lo])

@[simp]
theorem length_toBe16 (v : UInt16) : (toBe16 v).length = 2 := length_beBytes _ _

@[simp]
theorem length_toBe32 (v : UInt32) : (toBe32 v).length = 4 := length_beBytes _ _

theorem exists_toBe16 (v : UInt16) : ∃ hi lo, toBe16 v = [hi, lo] ∧ fromBe16 hi lo = v := by
  obtain ⟨hi, lo, h⟩ := List.length_eq_two.mp (length_toBe16 v)
  refine ⟨hi, lo, h, ?_⟩
  rw [fromBe16, ← h, toBe16, beNat_beBytes v.toNat_lt, UInt16.ofNat_toNat]

/-! ### Messages -/

/-- A message that is being written. Its header is there from the beginning. -/
structure Message where
  buf : Bytes
  questions : UInt16
  answers : UInt16
  additional : UInt16
  /-- Where the records begin, with their types: ghost. -/
  starts : List (UInt16 × ℕ)
  header : 12 ≤ buf.length

namespace Message

def new (id flags : UInt16) : Message where
  buf := toBe16 id ++ (toBe16 flags ++ List.replicate 8 0)
  questions := 0
  answers := 0
  additional := 0
  starts := []
  header := by simp

/-- Append bytes to a message. -/
def extend (m : Message) (bs : Bytes) : Message :=
  { m with
    buf := m.buf ++ bs
    header := m.header.trans (by rw [List.length_append]; exact Nat.le_add_right _ _) }

def question (m : Message) (name : String) (qtype qclass : UInt16) : Message :=
  { m.extend (encodeName name ++ (toBe16 qtype ++ toBe16 qclass)) with
    questions := m.questions + 1 }

/-- What a record looks like on the wire. -/
def recordBytes (name : String) (rtype cls : UInt16) (ttl : UInt32) (rdata : Bytes) : Bytes :=
  encodeName name ++ (toBe16 rtype ++ (toBe16 cls ++ (toBe32 ttl ++
    (toBe16 (UInt16.ofNat rdata.length) ++ rdata))))

def record (m : Message) (name : String) (rtype cls : UInt16) (ttl : UInt32) (rdata : Bytes)
    (extra : Bool) : Message :=
  { m.extend (recordBytes name rtype cls ttl rdata) with
    answers := if extra then m.answers else m.answers + 1
    additional := if extra then m.additional + 1 else m.additional
    starts := m.starts ++ [(rtype, m.buf.length)] }

/-- Fill in the counts. -/
def finish (m : Message) : Bytes :=
  overwrite (overwrite (overwrite m.buf 4 (toBe16 m.questions)) 6 (toBe16 m.answers)) 10
    (toBe16 m.additional)

end Message

/-! ### The data of the records -/

def ptrRdata (name : String) : Bytes := encodeName name

/-- The priority and the weight are zero. -/
def srvRdata (port : UInt16) (target : String) : Bytes :=
  toBe16 0 ++ (toBe16 0 ++ (toBe16 port ++ encodeName target))

def txtRdata (entries : List String) : Bytes :=
  if entries = [] then [0]
  else entries.flatMap fun e =>
    let b := asBytes e
    lengthPrefixed (b.take (min b.length 255))

/-- A round of `parse_txt`, from a position and the strings so far. -/
def parseTxtRound {ε : Type} (rdata : Bytes) (s : ℕ × List String) :
    Checked ε (LoopRound (ℕ × List String) (List String)) :=
  if s.1 < rdata.length then do
    let n ← Checked.get rdata s.1
    if n = 0 ∨ rdata.length < s.1 + 1 + n.toNat then pure (.done s.2)
    else
      let b ← slice rdata (s.1 + 1) (s.1 + 1 + n.toNat)
      pure (.again (s.1 + 1 + n.toNat, s.2 ++ [String.ofList (fromUtf8Lossy b)]))
  else pure (.done s.2)

def parseTxt {ε : Type} (rdata : Bytes) : Checked ε (List String) :=
  loopWithin (rdata.length + 1) (parseTxtRound rdata) (0, [])

/-! ### The responder -/

structure Ipv4Addr where
  a : UInt8
  b : UInt8
  c : UInt8
  d : UInt8
  deriving DecidableEq, Repr

def Ipv4Addr.octets (addr : Ipv4Addr) : Bytes := [addr.a, addr.b, addr.c, addr.d]

theorem Ipv4Addr.length_octets (addr : Ipv4Addr) : addr.octets.length = 4 := rfl

structure Responder where
  /-- `steamdeck._usbip._tcp.local` -/
  instanceFqdn : String
  /-- `steamdeck.local` -/
  hostFqdn : String
  port : UInt16
  addrs : List Ipv4Addr
  txt : List String

namespace Responder

def new (inst host : String) (port : UInt16) (addrs : List Ipv4Addr) (txt : List String) :
    Responder where
  instanceFqdn := inst ++ "." ++ SERVICE
  hostFqdn := host ++ ".local"
  port := port
  addrs := addrs
  txt := txt

variable (r : Responder)

/-- The message of `answer`, before its counts are filled in. -/
def message (includePtr : Bool) (ttlOverride : Option UInt32) : Message :=
  let ttlHost := ttlOverride.getD TTL_HOST
  let ttlPtr := ttlOverride.getD TTL_PTR
  let flush := CLASS_IN ||| FLAG_UNICAST_OR_FLUSH
  -- response, authoritative
  let m := Message.new 0 0x8400
  let m :=
    if includePtr then m.record SERVICE TYPE_PTR CLASS_IN ttlPtr (ptrRdata r.instanceFqdn) false
    else m
  let m := m.record r.instanceFqdn TYPE_SRV flush ttlHost (srvRdata r.port r.hostFqdn) false
  let m := m.record r.instanceFqdn TYPE_TXT flush ttlHost (txtRdata r.txt) false
  r.addrs.foldl (fun m a => m.record r.hostFqdn TYPE_A flush ttlHost a.octets true) m

def answer (includePtr : Bool) (ttlOverride : Option UInt32) : Bytes :=
  (r.message includePtr ttlOverride).finish

end Responder

/-! ### What is written where -/

namespace Message

@[simp]
theorem new_buf (id flags : UInt16) :
    (Message.new id flags).buf = toBe16 id ++ (toBe16 flags ++ List.replicate 8 0) := rfl

@[simp]
theorem extend_buf (m : Message) (bs : Bytes) : (m.extend bs).buf = m.buf ++ bs := rfl

@[simp]
theorem record_buf (m : Message) (name : String) (rtype cls : UInt16) (ttl : UInt32)
    (rdata : Bytes) (extra : Bool) :
    (m.record name rtype cls ttl rdata extra).buf =
      m.buf ++ recordBytes name rtype cls ttl rdata := rfl

/-- A finished message: the header with the counts filled in, and then what was written. -/
theorem finish_of_eq {m : Message} {id flags : UInt16} {body : Bytes}
    (h : m.buf = (Message.new id flags).buf ++ body) :
    m.finish = toBe16 id ++ (toBe16 flags ++ (toBe16 m.questions ++ (toBe16 m.answers ++
      (toBe16 0 ++ (toBe16 m.additional ++ body))))) := by
  obtain ⟨id₁, id₂, hid⟩ := List.length_eq_two.mp (length_toBe16 id)
  obtain ⟨flags₁, flags₂, hflags⟩ := List.length_eq_two.mp (length_toBe16 flags)
  obtain ⟨questions₁, questions₂, hquestions⟩ := List.length_eq_two.mp (length_toBe16 m.questions)
  obtain ⟨answers₁, answers₂, hanswers⟩ := List.length_eq_two.mp (length_toBe16 m.answers)
  obtain ⟨additional₁, additional₂, hadditional⟩ :=
    List.length_eq_two.mp (length_toBe16 m.additional)
  rw [finish, h, new_buf, hid, hflags, hquestions, hanswers, hadditional]
  rfl

end Message

/-! ### TXT records -/

/-- A further round of `parse_txt` goes on towards the end of the data. -/
theorem parseTxtRound_measure {ε : Type} {rdata : Bytes} {s s' : ℕ × List String}
    (h : (parseTxtRound rdata s : Checked ε _) = ok (.again s')) :
    rdata.length - s'.1 < rdata.length - s.1 := by
  rw [parseTxtRound] at h
  by_cases hp : s.1 < rdata.length
  · rw [if_pos hp] at h
    obtain ⟨n, -, h⟩ := Checked.bind_eq_ok.mp h
    by_cases hend : n = 0 ∨ rdata.length < s.1 + 1 + n.toNat
    · rw [if_pos hend] at h
      cases h
    · rw [if_neg hend] at h
      obtain ⟨b, -, h⟩ := Checked.bind_eq_ok.mp h
      injection h with h
      injection h with h
      subst h
      dsimp only
      omega
  · rw [if_neg hp] at h
    cases h

theorem parseTxtRound_safe {ε : Type} (rdata : Bytes) (s : ℕ × List String) :
    (parseTxtRound rdata s : Checked ε _).Safe := by
  refine safe_ite (fun hp => ?_) fun _ => safe_ok _
  rw [get_of_lt 0 hp, ok_bind]
  refine safe_ite (fun _ => safe_ok _) fun hend => ?_
  rw [slice_of_le (by omega), ok_bind]
  exact safe_ok _

/-- **`parse_txt` ends**, whatever the data. -/
theorem parseTxt_ends {ε : Type} (rdata : Bytes) (s : ℕ × List String) :
    Ends (parseTxtRound rdata : _ → Checked ε _) s :=
  ends_of_measure (fun s => rdata.length - s.1) (fun _ _ => parseTxtRound_measure) s

theorem parseTxt_safe {ε : Type} (rdata : Bytes) : (parseTxt rdata : Checked ε _).Safe :=
  safe_loopWithin (fun s => rdata.length - s.1) (fun _ _ => parseTxtRound_measure)
    (parseTxtRound_safe rdata) (Nat.lt_succ_self _)

/-- The string of a TXT record that comes next. -/
theorem parseTxtRound_string {ε : Type} {rdata pre post : Bytes} {e : String} {out : List String}
    (hrdata : rdata = pre ++ (lengthPrefixed (asBytes e) ++ post)) (hpos : 1 ≤ (asBytes e).length)
    (hlen : (asBytes e).length ≤ 255) :
    (parseTxtRound rdata (pre.length, out) : Checked ε _) =
      ok (.again ((pre ++ lengthPrefixed (asBytes e)).length, out ++ [e])) := by
  have hnat : (UInt8.ofNat (asBytes e).length).toNat = (asBytes e).length :=
    UInt8.toNat_ofNat_of_lt' (Nat.lt_of_le_of_lt hlen (by decide))
  have hnext : (pre ++ lengthPrefixed (asBytes e)).length =
      pre.length + 1 + (asBytes e).length := by
    rw [List.length_append, lengthPrefixed, List.length_cons]
    omega
  have hle : pre.length + 1 + (asBytes e).length ≤ rdata.length := by
    rw [hrdata, ← List.append_assoc, List.length_append, hnext]
    omega
  have hget : (Checked.get rdata pre.length : Checked ε _) =
      ok (UInt8.ofNat (asBytes e).length) := by
    rw [Checked.get, hrdata, List.getElem?_append_right le_rfl, Nat.sub_self]
    rfl
  have hzero : UInt8.ofNat (asBytes e).length ≠ 0 := by
    intro h
    rw [h] at hnat
    change 0 = _ at hnat
    omega
  have hslice : (rdata.take (pre.length + 1 + (asBytes e).length)).drop (pre.length + 1) =
      asBytes e := by
    have hone : pre.length + 1 = (pre ++ [UInt8.ofNat (asBytes e).length]).length := by
      rw [List.length_append]
      rfl
    rw [hrdata, lengthPrefixed, List.cons_append, List.append_cons, hone,
      List.take_length_add_append, List.take_left, List.drop_left]
  rw [parseTxtRound, if_pos (by dsimp only; omega), hget, ok_bind, hnat,
    if_neg (by rintro (h | h); exacts [hzero h, absurd h (by dsimp only; omega)]),
    slice_of_le ⟨by dsimp only; omega, hle⟩, ok_bind, hslice, asBytes_eq,
    fromUtf8Lossy_encodeUtf8, String.ofList_toList, ← asBytes_eq, hnext]
  rfl

theorem rounds_parseTxt {ε : Type} {rdata pre : Bytes} {es out : List String}
    (hes : ∀ e ∈ es, 1 ≤ (asBytes e).length ∧ (asBytes e).length ≤ 255)
    (hrdata : rdata = pre ++ es.flatMap fun e => lengthPrefixed (asBytes e)) :
    rounds (parseTxtRound rdata : _ → Checked ε _) (es.length + 1) (pre.length, out) =
      some (ok (out ++ es)) := by
  induction es generalizing pre out with
  | nil =>
    have hdone : (parseTxtRound rdata (pre.length, out) : Checked ε _) = ok (.done out) := by
      rw [parseTxtRound, if_neg]
      · rfl
      · rw [hrdata, List.flatMap_nil, List.append_nil]
        exact lt_irrefl _
    rw [List.length_nil, rounds_done hdone, List.append_nil]
  | cons e es ih =>
    obtain ⟨he, hes⟩ := List.forall_mem_cons.mp hes
    rw [List.flatMap_cons] at hrdata
    rw [List.length_cons, rounds_again (parseTxtRound_string hrdata he.1 he.2)]
    rw [← List.append_assoc] at hrdata
    rw [ih hes hrdata, List.append_assoc]
    rfl

/-- **`parse_txt` reads back what `txt_rdata` has written**, if no string is empty or too long. -/
theorem parseTxt_txtRdata {ε : Type} {entries : List String}
    (h : ∀ e ∈ entries, 1 ≤ (asBytes e).length ∧ (asBytes e).length ≤ 255) :
    (parseTxt (txtRdata entries) : Checked ε _) = ok entries := by
  by_cases hnil : entries = []
  · subst hnil
    rfl
  have hwhole : txtRdata entries = entries.flatMap fun e => lengthPrefixed (asBytes e) := by
    rw [txtRdata, if_neg hnil]
    refine List.flatMap_congr fun e he => ?_
    dsimp only
    rw [Nat.min_eq_left (h e he).2, List.take_length]
  have hlen : entries.length + 1 ≤ (txtRdata entries).length + 1 := by
    have hle := length_le_length_flatMap (entries.map asBytes)
    rw [List.flatMap_map, List.length_map] at hle
    rw [hwhole]
    exact Nat.succ_le_succ hle
  have hrounds : rounds (parseTxtRound (txtRdata entries) : _ → Checked ε _)
      (entries.length + 1) (([] : Bytes).length, []) = some (ok ([] ++ entries)) :=
    rounds_parseTxt h hwhole
  exact loopWithin_of_rounds hrounds hlen

end Padwire.Mdns
