import Padwire.Mdns.Packet
import Padwire.Mdns.Labels

/-!
# Reading packets

`Responder.match_questions` reads the questions of a packet and `collect` its records
(`usbfwd-common/src/mdns.rs`). Both go over as many questions and records as the header claims
there are. An index that the code writes without a check is checked here, and `Safe` says that it
is in range: so they are for every datagram (`readers_safe`). What `collect` has found so far is
kept when it gives up, and is what the error carries.

A position is a number here. It is inside the packet or at its end when a name is read
(`readName_le`), so that none of the sums below gets anywhere near the end of a `usize`.
-/

namespace Padwire.Mdns

open Checked

/-- `checked_add` of two positions. -/
def checkedAdd (a b : ℕ) : Option ℕ := if a + b < 2 ^ 64 then some (a + b) else none

/-- The number at `pos`, if it is there. -/
def readU16 (buf : Bytes) (pos : ℕ) : Checked Unit UInt16 := do
  let hi ← ofOption () buf[pos]?
  let lo ← ofOption () buf[pos + 1]?
  pure (fromBe16 hi lo)

/-- The number at `i`, which has to be there. -/
def indexU16 {ε : Type} (buf : Bytes) (i : ℕ) : Checked ε UInt16 := do
  let hi ← Checked.get buf i
  let lo ← Checked.get buf (i + 1)
  pure (fromBe16 hi lo)

/-! ### Questions -/

/-- What has been asked so far, and where the next question is. -/
structure Asked where
  pos : ℕ
  ptr : Bool
  svc : Bool
  unicast : Bool

namespace Responder

variable (r : Responder)

/-- A round of the loop of `match_questions`. -/
def matchQuestion (buf : Bytes) (asked : Asked) : Checked Unit Asked := do
  let name ← readName buf asked.pos
  let pos := name.2
  let qtype ← readU16 buf pos
  let qclass ← readU16 buf (pos + 2)
  let asked := { asked with
    pos := pos + 4
    unicast := asked.unicast || qclass &&& FLAG_UNICAST_OR_FLUSH != 0 }
  let name := toAsciiLowercase name.1.toList
  if name = SERVICE.toList ∧ (qtype = TYPE_PTR ∨ qtype = TYPE_ANY) then
    pure { asked with ptr := true }
  else if name = toAsciiLowercase r.instanceFqdn.toList ∧
        (qtype = TYPE_SRV ∨ qtype = TYPE_TXT ∨ qtype = TYPE_ANY) ∨
      name = toAsciiLowercase r.hostFqdn.toList ∧ (qtype = TYPE_A ∨ qtype = TYPE_ANY) then
    -- either "tell me about this instance" or "resolve this host"
    pure { asked with svc := true }
  else pure asked

/-- Asked for the service type, asked about us specifically, wants a unicast reply. -/
def matchQuestions (buf : Bytes) : Checked Unit (Bool × Bool × Bool) :=
  if buf.length < 12 then err ()
  else do
    let flags ← indexU16 buf 2
    -- a response, not a query
    if flags &&& 0x8000 ≠ 0 then err ()
    else
      let qdcount ← indexU16 buf 4
      let asked ← times (r.matchQuestion buf) qdcount.toNat ⟨12, false, false, false⟩
      pure (asked.ptr, asked.svc, asked.unicast)

end Responder

/-! ### Records -/

/-- What `browse` accumulates from one packet to the next. -/
structure Found where
  instances : List String := []
  srv : List (String × UInt16 × String) := []
  txts : List (String × List String) := []
  addrs : List (String × Ipv4Addr) := []
  deriving DecidableEq, Repr

namespace Found

variable (found : Found)

def pushInstance (target : String) : Found :=
  if found.instances.any fun i => eqIgnoreAsciiCase i target then found
  else { found with instances := found.instances ++ [target] }

def pushSrv (name : String) (port : UInt16) (target : String) : Found :=
  { found with srv := found.srv ++ [(name, port, target)] }

def pushTxt (name : String) (txt : List String) : Found :=
  { found with txts := found.txts ++ [(name, txt)] }

def pushAddr (name : String) (addr : Ipv4Addr) : Found :=
  { found with addrs := found.addrs ++ [(name, addr)] }

/-- What a record adds, whose data begins at `pos`: names in it are read from the whole packet. -/
def addRecord (buf : Bytes) (name : String) (rtype : UInt16) (pos : ℕ) (rdata : Bytes) :
    Checked Found Found :=
  if rtype = TYPE_PTR ∧ eqIgnoreAsciiCase name SERVICE then do
    let target ← (readName buf pos).attempt
    pure (target.elim found fun target => found.pushInstance target.1)
  else if rtype = TYPE_SRV ∧ 7 ≤ rdata.length then do
    let port ← indexU16 rdata 4
    let target ← (readName buf (pos + 6)).attempt
    pure (target.elim found fun target => found.pushSrv name port target.1)
  else if rtype = TYPE_TXT then do
    let txt ← parseTxt rdata
    pure (found.pushTxt name txt)
  else if rtype = TYPE_A ∧ rdata.length = 4 then do
    let a ← Checked.get rdata 0
    let b ← Checked.get rdata 1
    let c ← Checked.get rdata 2
    let d ← Checked.get rdata 3
    pure (found.pushAddr name ⟨a, b, c, d⟩)
  else pure found

end Found

/-- A question is passed over. -/
def skipQuestion (buf : Bytes) (pos : ℕ) : Checked Unit ℕ := do
  let name ← readName buf pos
  ofOption () (checkedAdd name.2 4)

/-- A round of the loop of `collect` over the records. -/
def collectRecord (buf : Bytes) (s : ℕ × Found) : Checked Found (ℕ × Found) := do
  let name ← (readName buf s.1).mapErr fun _ => s.2
  let pos := name.2
  let rtype ← (readU16 buf pos).mapErr fun _ => s.2
  let rdlen ← (readU16 buf (pos + 8)).mapErr fun _ => s.2
  let pos := pos + 10
  let rdata ← ofOption s.2 (slice? buf pos (pos + rdlen.toNat))
  let found ← s.2.addRecord buf name.1 rtype pos rdata
  pure (pos + rdlen.toNat, found)

def collect (buf : Bytes) (found : Found) : Checked Found Found :=
  if buf.length < 12 then err found
  else do
    let questions ← indexU16 buf 4
    let answers ← indexU16 buf 6
    let authority ← indexU16 buf 8
    let additional ← indexU16 buf 10
    let pos ← (times (skipQuestion buf) questions.toNat 12).mapErr fun _ => found
    let total := answers.toNat + authority.toNat + additional.toNat
    let s ← times (collectRecord buf) total (pos, found)
    pure s.2

/-! ### No datagram makes them panic -/

theorem readU16_safe (buf : Bytes) (pos : ℕ) : (readU16 buf pos).Safe :=
  safe_bind (safe_ofOption _ _) fun _ _ => safe_bind (safe_ofOption _ _) fun _ _ => safe_ok _

/-- Two bytes within the packet are read without a panic. -/
theorem indexU16_safe {ε : Type} {buf : Bytes} {i : ℕ} (h : i + 1 < buf.length) :
    (indexU16 buf i : Checked ε _).Safe := by
  rw [indexU16, get_of_lt 0 (by omega), ok_bind, get_of_lt 0 h]
  exact safe_ok _

/-- Whatever a question asks, matching it does not panic. -/
theorem Responder.matchQuestion_safe (r : Responder) (buf : Bytes) (asked : Asked) :
    (r.matchQuestion buf asked).Safe := by
  refine safe_bind (readName_safe buf asked.pos) fun name _ => ?_
  refine safe_bind (readU16_safe _ _) fun qtype _ => ?_
  refine safe_bind (readU16_safe _ _) fun qclass _ => ?_
  exact safe_ite (fun _ => safe_ok _) fun _ => safe_ite (fun _ => safe_ok _) fun _ => safe_ok _

/-- **No query makes the responder panic.** -/
theorem Responder.matchQuestions_safe (r : Responder) (buf : Bytes) :
    (r.matchQuestions buf).Safe := by
  refine safe_ite (fun _ => safe_err _) fun hlen => ?_
  refine safe_bind (indexU16_safe (by omega)) fun flags _ => safe_ite (fun _ => safe_err _) ?_
  intro _
  refine safe_bind (indexU16_safe (by omega)) fun qdcount _ => ?_
  exact safe_bind (safe_times (r.matchQuestion_safe buf) _ _) fun asked _ => safe_ok _

/-- Adding a record does not panic, whatever its data is. -/
theorem Found.addRecord_safe (found : Found) (buf : Bytes) (name : String) (rtype : UInt16)
    (pos : ℕ) (rdata : Bytes) : (found.addRecord buf name rtype pos rdata).Safe := by
  refine safe_ite (fun _ => ?_) fun _ => safe_ite (fun hsrv => ?_) fun _ =>
    safe_ite (fun _ => ?_) fun _ => safe_ite (fun ha => ?_) fun _ => safe_ok _
  · exact safe_bind (safe_attempt (readName_safe buf pos)) fun target _ => safe_ok _
  · refine safe_bind (indexU16_safe (by omega)) fun port _ => ?_
    exact safe_bind (safe_attempt (readName_safe buf _)) fun target _ => safe_ok _
  · exact safe_bind (parseTxt_safe rdata) fun txt _ => safe_ok _
  · rw [get_of_lt 0 (by omega), ok_bind, get_of_lt 0 (by omega), ok_bind, get_of_lt 0 (by omega),
      ok_bind, get_of_lt 0 (by omega)]
    exact safe_ok _

theorem skipQuestion_safe (buf : Bytes) (pos : ℕ) : (skipQuestion buf pos).Safe :=
  safe_bind (readName_safe buf pos) fun _ _ => safe_ofOption _ _

/-- Nor does reading the record from the packet. -/
theorem collectRecord_safe (buf : Bytes) (s : ℕ × Found) : (collectRecord buf s).Safe := by
  refine safe_bind (safe_mapErr (readName_safe buf s.1)) fun name _ => ?_
  refine safe_bind (safe_mapErr (readU16_safe _ _)) fun rtype _ => ?_
  refine safe_bind (safe_mapErr (readU16_safe _ _)) fun rdlen _ => ?_
  refine safe_bind (safe_ofOption _ _) fun rdata _ => ?_
  exact safe_bind (Found.addRecord_safe _ _ _ _ _ _) fun found _ => safe_ok _

/-- **No packet makes `collect` panic.** -/
theorem collect_safe (buf : Bytes) (found : Found) : (collect buf found).Safe := by
  refine safe_ite (fun _ => safe_err _) fun hlen => ?_
  refine safe_bind (indexU16_safe (by omega)) fun questions _ => ?_
  refine safe_bind (indexU16_safe (by omega)) fun answers _ => ?_
  refine safe_bind (indexU16_safe (by omega)) fun authority _ => ?_
  refine safe_bind (indexU16_safe (by omega)) fun additional _ => ?_
  refine safe_bind (safe_mapErr (safe_times (skipQuestion_safe buf) _ _)) fun pos _ => ?_
  exact safe_bind (safe_times (collectRecord_safe buf) _ _) fun s _ => safe_ok _

/-- **No datagram hangs or panics its readers.** Wherever `read_name` starts, its loop is done
after finitely many rounds, and the caller goes on inside the datagram or at its end; the loop
of `parse_txt` is done too; and the readers return a value or `None`. -/
theorem readers_safe (buf : Bytes) :
    (∀ pos, Ends (readNameRound buf) (.start pos) ∧ (readName buf pos).Safe ∧
      ∀ r, readName buf pos = ok r → r.2 ≤ buf.length) ∧
    (Ends (parseTxtRound buf : _ → Checked Unit _) (0, []) ∧
      (parseTxt buf : Checked Unit _).Safe) ∧
    (∀ r : Responder, (r.matchQuestions buf).Safe) ∧
    ∀ found, (collect buf found).Safe := by
  refine ⟨fun pos => ?_, ⟨parseTxt_ends buf _, parseTxt_safe buf⟩, ?_, collect_safe buf⟩
  · exact ⟨readName_ends buf _, readName_safe buf pos, fun r => readName_le⟩
  · exact fun r => r.matchQuestions_safe buf

/-- A name that is a pointer to another one. -/
theorem readers_safe_pointer :
    readName (encodeName "a.local" ++ [0xc0, 0x00]) 9 = ok ("a.local", 11) ∧
      11 ≤ (encodeName "a.local" ++ [0xc0, 0x00]).length :=
  ⟨by decide +kernel, ((readers_safe _).1 9).2.2 ("a.local", 11) (by decide +kernel)⟩

end Padwire.Mdns
