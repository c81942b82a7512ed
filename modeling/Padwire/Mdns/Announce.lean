import Padwire.Mdns.Collect

/-!
# An announcement is understood

What the responder announces is what `collect` finds in the packet (`collect_answer`). A record is
read where it was written, whatever stands before and after it (`collectRecord_of_eq`); the names in
the data of a record are read from the whole packet.
-/

namespace Padwire.Mdns

open Checked

/-! ### Records are read back -/

theorem exists_getElem?_toBe16 {buf pre post : Bytes} {v : UInt16} {pos : ℕ}
    (hbuf : buf = pre ++ (toBe16 v ++ post)) (hpos : pos = pre.length) :
    ∃ hi lo, buf[pos]? = some hi ∧ buf[pos + 1]? = some lo ∧ fromBe16 hi lo = v := by
  obtain ⟨hi, lo, hbytes, hv⟩ := exists_toBe16 v
  rw [hbytes] at hbuf
  refine ⟨hi, lo, ?_, ?_, hv⟩
  · rw [hbuf, hpos, List.getElem?_append_right le_rfl, Nat.sub_self]
    rfl
  · rw [hbuf, hpos, List.getElem?_append_right (Nat.le_add_right _ _), Nat.add_sub_cancel_left]
    rfl

theorem readU16_of_eq {buf pre post : Bytes} {v : UInt16} {pos : ℕ}
    (hbuf : buf = pre ++ (toBe16 v ++ post)) (hpos : pos = pre.length) :
    readU16 buf pos = ok v := by
  obtain ⟨hi, lo, hhi, hlo, hv⟩ := exists_getElem?_toBe16 hbuf hpos
  rw [readU16, hhi, hlo, ofOption_some, ok_bind, ofOption_some, ok_bind, hv]
  rfl

theorem indexU16_of_eq {ε : Type} {buf pre post : Bytes} {v : UInt16} {i : ℕ}
    (hbuf : buf = pre ++ (toBe16 v ++ post)) (hi : i = pre.length) :
    (indexU16 buf i : Checked ε _) = ok v := by
  obtain ⟨hi, lo, hhi, hlo, hv⟩ := exists_getElem?_toBe16 hbuf hi
  rw [indexU16, get_of_some hhi, ok_bind, get_of_some hlo, ok_bind, hv]
  rfl

/-- The six numbers of the header. -/
theorem indexU16_header (ε : Type) {buf body : Bytes} {n₀ n₁ n₂ n₃ n₄ n₅ : UInt16}
    (hbuf : buf = toBe16 n₀ ++ (toBe16 n₁ ++ (toBe16 n₂ ++ (toBe16 n₃ ++ (toBe16 n₄ ++
      (toBe16 n₅ ++ body)))))) :
    (indexU16 buf 2 : Checked ε _) = ok n₁ ∧ (indexU16 buf 4 : Checked ε _) = ok n₂ ∧
      (indexU16 buf 6 : Checked ε _) = ok n₃ ∧ (indexU16 buf 8 : Checked ε _) = ok n₄ ∧
      (indexU16 buf 10 : Checked ε _) = ok n₅ := by
  have h₂ := hbuf.trans (List.append_assoc _ _ _).symm
  have h₃ := h₂.trans (List.append_assoc _ _ _).symm
  have h₄ := h₃.trans (List.append_assoc _ _ _).symm
  have h₅ := h₄.trans (List.append_assoc _ _ _).symm
  exact ⟨indexU16_of_eq hbuf rfl, indexU16_of_eq h₂ rfl, indexU16_of_eq h₃ rfl,
    indexU16_of_eq h₄ rfl, indexU16_of_eq h₅ rfl⟩

/-- **A record is read where it was written.** -/
theorem collectRecord_of_eq {buf pre post rdata : Bytes} {name : String} {rtype cls : UInt16}
    {ttl : UInt32} {found found' : Found} (hlen : rdata.length < 65536)
    (hbuf : buf = pre ++ (Message.recordBytes name rtype cls ttl rdata ++ post))
    (hadd : ∀ pre', buf = pre' ++ (rdata ++ post) →
      found.addRecord buf (received name) rtype pre'.length rdata = ok found') :
    collectRecord buf (pre.length, found) =
      ok ((pre ++ Message.recordBytes name rtype cls ttl rdata).length, found') := by
  have hrdlen : (UInt16.ofNat rdata.length).toNat = rdata.length := UInt16.toNat_ofNat_of_lt' hlen
  -- the packet, cut in front of each of the fields
  have hname : buf = pre ++ (encodeName name ++ (toBe16 rtype ++ (toBe16 cls ++ (toBe32 ttl ++
      (toBe16 (UInt16.ofNat rdata.length) ++ (rdata ++ post)))))) := by
    rw [hbuf, Message.recordBytes]
    simp only [List.append_assoc]
  have htype : buf = (pre ++ encodeName name) ++ (toBe16 rtype ++ (toBe16 cls ++ (toBe32 ttl ++
      (toBe16 (UInt16.ofNat rdata.length) ++ (rdata ++ post))))) := by
    rw [hname, List.append_assoc]
  have hrdlenAt : buf = (pre ++ encodeName name ++ toBe16 rtype ++ toBe16 cls ++ toBe32 ttl) ++
      (toBe16 (UInt16.ofNat rdata.length) ++ (rdata ++ post)) := by
    rw [hname]
    simp only [List.append_assoc]
  have hdata : buf = (pre ++ encodeName name ++ toBe16 rtype ++ toBe16 cls ++ toBe32 ttl ++
      toBe16 (UInt16.ofNat rdata.length)) ++ (rdata ++ post) := by
    rw [hname]
    simp only [List.append_assoc]
  have hpos : (pre ++ encodeName name ++ toBe16 rtype ++ toBe16 cls ++ toBe32 ttl ++
      toBe16 (UInt16.ofNat rdata.length)).length = pre.length + (encodeName name).length + 10 := by
    simp only [List.length_append, length_toBe16, length_toBe32, Nat.add_assoc]
  have hslice : slice? buf (pre.length + (encodeName name).length + 10)
      (pre.length + (encodeName name).length + 10 + rdata.length) = some rdata := by
    rw [← hpos, hdata]
    exact slice?_append
  rw [collectRecord, readName_of_eq hname rfl, mapErr_ok, ok_bind]
  dsimp only
  rw [readU16_of_eq htype List.length_append.symm, mapErr_ok, ok_bind,
    readU16_of_eq hrdlenAt (by simp only [List.length_append, length_toBe16, length_toBe32,
      Nat.add_assoc]), mapErr_ok, ok_bind, hrdlen, hslice, ofOption_some, ok_bind, ← hpos,
    hadd _ hdata, ok_bind, hpos]
  refine congrArg (fun pos => ok (pos, found')) ?_
  simp only [Message.recordBytes, List.length_append, length_toBe16, length_toBe32]
  omega

variable {buf pre post : Bytes}

theorem addRecord_ptr {target : String} (found : Found)
    (hbuf : buf = pre ++ (ptrRdata target ++ post)) :
    found.addRecord buf SERVICE TYPE_PTR pre.length (ptrRdata target) =
      ok (found.pushInstance (received target)) := by
  rw [Found.addRecord, if_pos (by decide), readName_of_eq hbuf rfl]
  rfl

theorem addRecord_srv {name target : String} {port : UInt16} (found : Found)
    (hbuf : buf = pre ++ (srvRdata port target ++ post)) :
    found.addRecord buf name TYPE_SRV pre.length (srvRdata port target) =
      ok (found.pushSrv name port (received target)) := by
  have hlen : 7 ≤ (srvRdata port target).length := by
    simp only [srvRdata, encodeName, List.length_append, length_toBe16, List.length_singleton]
    omega
  have hport : (indexU16 (srvRdata port target) 4 : Checked Found _) = ok port := by
    have hsplit : srvRdata port target =
        (toBe16 0 ++ toBe16 0) ++ (toBe16 port ++ encodeName target) := by
      rw [srvRdata, List.append_assoc]
    exact indexU16_of_eq hsplit rfl
  have htarget : buf =
      (pre ++ toBe16 0 ++ toBe16 0 ++ toBe16 port) ++ (encodeName target ++ post) := by
    rw [hbuf, srvRdata]
    simp only [List.append_assoc]
  rw [Found.addRecord, if_neg (fun h => absurd h.1 (by decide)), if_pos ⟨rfl, hlen⟩, hport,
    ok_bind, readName_of_eq htarget (by simp only [List.length_append, length_toBe16,
      Nat.add_assoc])]
  rfl

theorem addRecord_txt {name : String} {txt : List String} (found : Found) (pos : ℕ)
    (h : ∀ e ∈ txt, 1 ≤ (asBytes e).length ∧ (asBytes e).length ≤ 255) :
    found.addRecord buf name TYPE_TXT pos (txtRdata txt) = ok (found.pushTxt name txt) := by
  rw [Found.addRecord, if_neg (fun h => absurd h.1 (by decide)),
    if_neg (fun h => absurd h.1 (by decide)), if_pos rfl, parseTxt_txtRdata h]
  rfl

theorem addRecord_a {name : String} (found : Found) (pos : ℕ) (a : Ipv4Addr) :
    found.addRecord buf name TYPE_A pos a.octets = ok (found.pushAddr name a) := by
  rw [Found.addRecord, if_neg (fun h => absurd h.1 (by decide)),
    if_neg (fun h => absurd h.1 (by decide)), if_neg (by decide), if_pos ⟨rfl, rfl⟩]
  rfl

/-! ### The announcement -/

namespace Responder

variable (r : Responder) (ttl : Option UInt32)

def flush : UInt16 := CLASS_IN ||| FLAG_UNICAST_OR_FLUSH

def ptrRecord : Bytes :=
  Message.recordBytes SERVICE TYPE_PTR CLASS_IN (ttl.getD TTL_PTR) (ptrRdata r.instanceFqdn)

def srvRecord : Bytes :=
  Message.recordBytes r.instanceFqdn TYPE_SRV flush (ttl.getD TTL_HOST)
    (srvRdata r.port r.hostFqdn)

def txtRecord : Bytes :=
  Message.recordBytes r.instanceFqdn TYPE_TXT flush (ttl.getD TTL_HOST) (txtRdata r.txt)

def aRecord (a : Ipv4Addr) : Bytes :=
  Message.recordBytes r.hostFqdn TYPE_A flush (ttl.getD TTL_HOST) a.octets

/-- The address records come one after the other, and each is counted. -/
theorem foldl_aRecord (addrs : List Ipv4Addr) (m : Message) :
    let m' := addrs.foldl (fun m a =>
      m.record r.hostFqdn TYPE_A flush (ttl.getD TTL_HOST) a.octets true) m
    m'.buf = m.buf ++ addrs.flatMap (r.aRecord ttl) ∧ m'.questions = m.questions ∧
      m'.answers = m.answers ∧ m'.additional = m.additional + UInt16.ofNat addrs.length := by
  induction addrs generalizing m with
  | nil => simp
  | cons a addrs ih =>
    obtain ⟨hbuf, hquestions, hanswers, hadditional⟩ :=
      ih (m.record r.hostFqdn TYPE_A flush (ttl.getD TTL_HOST) a.octets true)
    refine ⟨?_, hquestions, hanswers, ?_⟩
    · rw [List.foldl_cons, hbuf, Message.record_buf, List.flatMap_cons, List.append_assoc]
      rfl
    · rw [List.foldl_cons, hadditional, List.length_cons, Nat.add_comm, UInt16.ofNat_add,
        ← UInt16.add_assoc]
      rfl

/-- An announcement on the wire: the header, and then the records. -/
theorem answer_eq : r.answer true ttl =
    toBe16 0 ++ (toBe16 0x8400 ++ (toBe16 0 ++ (toBe16 3 ++ (toBe16 0 ++
      (toBe16 (UInt16.ofNat r.addrs.length) ++ (r.ptrRecord ttl ++ (r.srvRecord ttl ++
        (r.txtRecord ttl ++ r.addrs.flatMap (r.aRecord ttl))))))))) := by
  have hfold := r.foldl_aRecord ttl r.addrs
    (((Message.new 0 0x8400).record SERVICE TYPE_PTR CLASS_IN (ttl.getD TTL_PTR)
      (ptrRdata r.instanceFqdn) false).record r.instanceFqdn TYPE_SRV flush (ttl.getD TTL_HOST)
      (srvRdata r.port r.hostFqdn) false |>.record r.instanceFqdn TYPE_TXT flush
      (ttl.getD TTL_HOST) (txtRdata r.txt) false)
  obtain ⟨hbuf, hquestions, hanswers, hadditional⟩ := hfold
  have hbody : (r.message true ttl).buf = (Message.new 0 0x8400).buf ++ (r.ptrRecord ttl ++
      (r.srvRecord ttl ++ (r.txtRecord ttl ++ r.addrs.flatMap (r.aRecord ttl)))) := by
    refine hbuf.trans ?_
    simp only [Message.record_buf, List.append_assoc]
    rfl
  have hzero : (0 : UInt16) + UInt16.ofNat r.addrs.length = UInt16.ofNat r.addrs.length :=
    UInt16.zero_add _
  rw [answer, Message.finish_of_eq hbody]
  refine congrArg₂ (fun n body => toBe16 0 ++ (toBe16 0x8400 ++ (n ++ body))) ?_ ?_
  · exact congrArg toBe16 hquestions
  · refine congrArg₂ (fun n body => n ++ (toBe16 0 ++ (body ++ _))) ?_ ?_
    · exact congrArg toBe16 hanswers
    · exact congrArg toBe16 (hadditional.trans hzero)

/-- The address records are found in order. -/
theorem times_collectRecord_addrs {buf pre post : Bytes} {addrs : List Ipv4Addr} (found : Found)
    (hbuf : buf = pre ++ (addrs.flatMap (r.aRecord ttl) ++ post)) :
    times (collectRecord buf) addrs.length (pre.length, found) =
      ok ((pre ++ addrs.flatMap (r.aRecord ttl)).length,
        { found with addrs := found.addrs ++ addrs.map fun a => (received r.hostFqdn, a) }) := by
  induction addrs generalizing pre found with
  | nil => simp [times]
  | cons a addrs ih =>
    rw [List.flatMap_cons, List.append_assoc] at hbuf
    have hround : collectRecord buf (pre.length, found) =
        ok ((pre ++ r.aRecord ttl a).length, found.pushAddr (received r.hostFqdn) a) :=
      collectRecord_of_eq (by rw [a.length_octets]; decide) hbuf
        fun pre' _ => addRecord_a found pre'.length a
    rw [← List.append_assoc] at hbuf
    rw [List.length_cons, times_succ hround, ih (found.pushAddr (received r.hostFqdn) a) hbuf,
      List.flatMap_cons, List.append_assoc, Found.pushAddr, List.map_cons, List.append_assoc]
    rfl

/-- What an announcement adds to what was found before it. -/
def addTo (found : Found) : Found :=
  let found := found.pushInstance (received r.instanceFqdn)
  { found with
    srv := found.srv ++ [(received r.instanceFqdn, r.port, received r.hostFqdn)]
    txts := found.txts ++ [(received r.instanceFqdn, r.txt)]
    addrs := found.addrs ++ r.addrs.map fun a => (received r.hostFqdn, a) }

/-- What is found in an announcement, if the lengths of its parts fit where they are written. -/
theorem collect_answer_add (found : Found) (hptr : (ptrRdata r.instanceFqdn).length < 65536)
    (hsrv : (srvRdata r.port r.hostFqdn).length < 65536) (htxt : (txtRdata r.txt).length < 65536)
    (hstrings : ∀ e ∈ r.txt, 1 ≤ (asBytes e).length ∧ (asBytes e).length ≤ 255)
    (haddrs : r.addrs.length < 65536) :
    collect (r.answer true ttl) found = ok (r.addTo found) := by
  generalize hanswer : r.answer true ttl = buf
  have hbuf := hanswer.symm.trans (r.answer_eq ttl)
  obtain ⟨-, hquestions, hanswers, hauthority, hadditional⟩ := indexU16_header Found hbuf
  have hcount : (UInt16.ofNat r.addrs.length).toNat = r.addrs.length :=
    UInt16.toNat_ofNat_of_lt' haddrs
  have htotal : (3 : UInt16).toNat + (0 : UInt16).toNat + r.addrs.length =
      r.addrs.length + 1 + 1 + 1 := by
    change 3 + 0 + r.addrs.length = _
    omega
  have hlen : ¬ buf.length < 12 := by
    rw [hbuf]
    simp only [List.length_append, length_toBe16]
    omega
  -- the packet, cut behind the header and then behind each of the records
  have hheader : buf = (toBe16 0 ++ toBe16 0x8400 ++ toBe16 0 ++ toBe16 3 ++ toBe16 0 ++
      toBe16 (UInt16.ofNat r.addrs.length)) ++ (r.ptrRecord ttl ++ (r.srvRecord ttl ++
        (r.txtRecord ttl ++ (r.addrs.flatMap (r.aRecord ttl) ++ [])))) := by
    rw [hbuf]
    simp only [List.append_assoc, List.append_nil]
  have hptrRound := collectRecord_of_eq hptr hheader fun pre' h => by
    rw [received_of_keptName (by decide +kernel : KeptName SERVICE)]
    exact addRecord_ptr found h
  rw [← List.append_assoc] at hheader
  have hsrvRound (found : Found) :=
    collectRecord_of_eq hsrv hheader fun pre' h => addRecord_srv found h
  rw [← List.append_assoc] at hheader
  have htxtRound (found : Found) := collectRecord_of_eq htxt hheader fun pre' _ =>
    addRecord_txt found pre'.length hstrings
  rw [← List.append_assoc] at hheader
  have haddrsRounds (found : Found) := r.times_collectRecord_addrs ttl found hheader
  have hrounds := (times_succ hptrRound).trans ((times_succ (hsrvRound _)).trans
    ((times_succ (htxtRound _)).trans (haddrsRounds _)))
  rw [collect, if_neg hlen, hquestions, ok_bind, hanswers, ok_bind, hauthority, ok_bind,
    hadditional, ok_bind, hcount, htotal]
  exact congrArg (· >>= fun s => ok s.2) hrounds

/-- What is found in an announcement by itself. -/
theorem collect_answer_eq (hptr : (ptrRdata r.instanceFqdn).length < 65536)
    (hsrv : (srvRdata r.port r.hostFqdn).length < 65536) (htxt : (txtRdata r.txt).length < 65536)
    (hstrings : ∀ e ∈ r.txt, 1 ≤ (asBytes e).length ∧ (asBytes e).length ≤ 255)
    (haddrs : r.addrs.length < 65536) :
    collect (r.answer true ttl) {} =
      ok { instances := [received r.instanceFqdn]
           srv := [(received r.instanceFqdn, r.port, received r.hostFqdn)]
           txts := [(received r.instanceFqdn, r.txt)]
           addrs := r.addrs.map fun a => (received r.hostFqdn, a) } :=
  r.collect_answer_add ttl {} hptr hsrv htxt hstrings haddrs

end Responder

theorem toList_instanceFqdn (inst : String) :
    (inst ++ "." ++ SERVICE).toList = inst.toList ++ '.' :: SERVICE.toList := by
  rw [String.toList_append, String.toList_append, List.append_assoc]
  rfl

theorem toList_hostFqdn (host : String) :
    (host ++ ".local").toList = host.toList ++ '.' :: "local".toList :=
  String.toList_append

/-- **`collect` finds in an announcement what is announced**: one instance, one SRV record, one TXT
record with its strings, and the addresses in their order. -/
theorem collect_answer {inst host : String} (port : UInt16) {addrs : List Ipv4Addr}
    {txt : List String} (ttl : Option UInt32) (hinst : Labelled inst) (hhost : Labelled host)
    (hinstLength : (encodeName inst).length < 65000)
    (hhostLength : (encodeName host).length < 65000) (haddrs : addrs.length < 65536)
    (hstrings : ∀ e ∈ txt, 1 ≤ (asBytes e).length ∧ (asBytes e).length ≤ 255)
    (htxt : (txtRdata txt).length < 65536) :
    collect ((Responder.new inst host port addrs txt).answer true ttl) {} =
      ok { instances := [inst ++ "." ++ SERVICE]
           srv := [(inst ++ "." ++ SERVICE, port, host ++ ".local")]
           txts := [(inst ++ "." ++ SERVICE, txt)]
           addrs := addrs.map fun a => (host ++ ".local", a) } := by
  have hinstFqdn : received (inst ++ "." ++ SERVICE) = inst ++ "." ++ SERVICE :=
    received_of_keptName ((keptName_of_append (toList_instanceFqdn inst)).mpr
      ⟨hinst.keptName, by decide +kernel⟩)
  have hhostFqdn : received (host ++ ".local") = host ++ ".local" :=
    received_of_keptName ((keptName_of_append (toList_hostFqdn host)).mpr
      ⟨hhost.keptName, by decide +kernel⟩)
  have hservice : (encodeName SERVICE).length = 19 := by decide +kernel
  have hlocal : (encodeName "local").length = 7 := by decide +kernel
  have hinstFqdnLength := length_encodeName_of_append (toList_instanceFqdn inst)
  have hhostFqdnLength := length_encodeName_of_append (toList_hostFqdn host)
  have hptr : (ptrRdata (inst ++ "." ++ SERVICE)).length < 65536 := by
    rw [ptrRdata]
    omega
  have hsrv : (srvRdata port (host ++ ".local")).length < 65536 := by
    simp only [srvRdata, List.length_append, length_toBe16]
    omega
  have hfound := (Responder.new inst host port addrs txt).collect_answer_eq ttl hptr hsrv htxt
    hstrings haddrs
  rw [hfound]
  dsimp only [Responder.new]
  rw [hinstFqdn, hhostFqdn]

theorem collect_answer_deck :
    collect ((Responder.new "deck" "deck" 3240 [⟨100, 101, 102, 103⟩]
      ["allow=28de:1304"]).answer true none) {} =
        ok { instances := ["deck" ++ "." ++ SERVICE]
             srv := [("deck" ++ "." ++ SERVICE, 3240, "deck" ++ ".local")]
             txts := [("deck" ++ "." ++ SERVICE, ["allow=28de:1304"])]
             addrs := [("deck" ++ ".local", ⟨100, 101, 102, 103⟩)] } :=
  collect_answer 3240 none (by decide +kernel) (by decide +kernel) (by decide +kernel)
    (by decide +kernel) (by decide) (by decide +kernel) (by decide +kernel)

end Padwire.Mdns
