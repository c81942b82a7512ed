import Padwire.Mdns.Announce

/-!
# The names a responder advertises

A responder is to recognise the names that it advertises itself: whoever reads a name in one of
its packets and asks about that name has to get an answer (`Responder.RecognisesAdvertised`). But
`match_questions` compares a question with the name the responder was given, and advertised is what
`encode_name` has made of it. The two are the same exactly for names whose labels are all `Kept`
(`Responder.recognisesAdvertised_iff`); the host name of 64 letters that Linux allows is none of
them.
-/

namespace Padwire.Mdns

open Checked

/-! ### Where the names are -/

/-- At the start of each record is a name, and `P` holds of it and the type of the record. -/
def Message.Written (P : UInt16 → String → Prop) (m : Message) : Prop :=
  ∀ rtype pos, (rtype, pos) ∈ m.starts → ∃ pre name post, 12 ≤ pre.length ∧ pos = pre.length ∧
    m.buf = pre ++ (encodeName name ++ post) ∧ P rtype name

namespace Message

variable {P : UInt16 → String → Prop} {m : Message}

theorem written_new (id flags : UInt16) : (Message.new id flags).Written P := nofun

theorem Written.record {name : String} {rtype : UInt16} (h : m.Written P) (hP : P rtype name)
    (cls : UInt16) (ttl : UInt32) (rdata : Bytes) (extra : Bool) :
    (m.record name rtype cls ttl rdata extra).Written P := by
  intro rtype' pos hmem
  rcases List.mem_append.mp hmem with hmem | hmem
  · obtain ⟨pre, name', post, hlen, hpos, hbuf, hP'⟩ := h rtype' pos hmem
    refine ⟨pre, name', post ++ recordBytes name rtype cls ttl rdata, hlen, hpos, ?_, hP'⟩
    rw [record_buf, hbuf, List.append_assoc, List.append_assoc]
  · obtain ⟨rfl, rfl⟩ := Prod.mk.inj (List.mem_singleton.mp hmem)
    exact ⟨m.buf, name, _, m.header, rfl, rfl, hP⟩

/-- The counts do not touch what stands behind the header. -/
theorem drop_finish (m : Message) {n : ℕ} (h : 12 ≤ n) : m.finish.drop n = m.buf.drop n := by
  have hheader := m.header
  have hquestions : (overwrite m.buf 4 (toBe16 m.questions)).length = m.buf.length :=
    length_overwrite (by rw [length_toBe16]; omega)
  have hanswers : (overwrite (overwrite m.buf 4 (toBe16 m.questions)) 6
      (toBe16 m.answers)).length = m.buf.length :=
    (length_overwrite (by rw [length_toBe16]; omega)).trans hquestions
  rw [finish, drop_overwrite (by rw [length_toBe16]; omega) (by rw [length_toBe16]; omega),
    drop_overwrite (by rw [length_toBe16]; omega) (by rw [length_toBe16]; omega),
    drop_overwrite (by rw [length_toBe16]; omega) (by rw [length_toBe16]; omega)]

/-- What `read_name` reads at the start of a record. -/
theorem Written.readName_finish (h : m.Written P) {rtype : UInt16} {pos : ℕ}
    (hmem : (rtype, pos) ∈ m.starts) :
    ∃ name next, P rtype name ∧ readName m.finish pos = ok (received name, next) := by
  obtain ⟨pre, name, post, hlen, hpos, hbuf, hP⟩ := h rtype pos hmem
  have hsplit : m.finish = m.finish.take pre.length ++ (encodeName name ++ post) := by
    have hdrop : m.finish.drop pre.length = encodeName name ++ post := by
      rw [m.drop_finish hlen, hbuf, List.drop_left]
    rw [← hdrop, List.take_append_drop]
  have hle : pre.length ≤ m.finish.length := by
    have hlength := congrArg List.length (m.drop_finish hlen)
    have hname : encodeName name ≠ [] := List.append_ne_nil_of_right_ne_nil _ (List.cons_ne_nil _ _)
    rw [hbuf, List.drop_left, List.length_drop, List.length_append] at hlength
    have hpositive := List.length_pos_of_ne_nil hname
    omega
  refine ⟨name, _, hP, readName_of_eq hsplit ?_⟩
  rw [hpos, List.length_take, Nat.min_eq_left hle]

end Message

namespace Responder

variable (r : Responder)

/-- The name at the start of a record of the responder. -/
def Names (rtype : UInt16) (name : String) : Prop :=
  (rtype = TYPE_SRV → name = r.instanceFqdn) ∧ (rtype = TYPE_A → name = r.hostFqdn)

theorem names_instanceFqdn {rtype : UInt16} (h : rtype ≠ TYPE_A) :
    r.Names rtype r.instanceFqdn :=
  ⟨fun _ => rfl, fun ha => absurd ha h⟩

theorem names_hostFqdn {rtype : UInt16} (h : rtype ≠ TYPE_SRV) : r.Names rtype r.hostFqdn :=
  ⟨fun hsrv => absurd hsrv h, fun _ => rfl⟩

theorem written_message (includePtr : Bool) (ttl : Option UInt32) :
    (r.message includePtr ttl).Written r.Names := by
  have hfold : ∀ (addrs : List Ipv4Addr) (m : Message), m.Written r.Names →
      (addrs.foldl (fun m a => m.record r.hostFqdn TYPE_A flush (ttl.getD TTL_HOST) a.octets true)
        m).Written r.Names := by
    intro addrs
    induction addrs with
    | nil => exact fun m h => h
    | cons a addrs ih => exact fun m h => ih _ (h.record (r.names_hostFqdn (by decide)) _ _ _ _)
  refine hfold r.addrs _ ((Message.Written.record ?_ (r.names_instanceFqdn (by decide)) _ _ _ _
    ).record (r.names_instanceFqdn (by decide)) _ _ _ _)
  cases includePtr with
  | false => exact Message.written_new _ _
  | true =>
    have hptr : r.Names TYPE_PTR SERVICE :=
      ⟨fun h => absurd h (by decide), fun h => absurd h (by decide)⟩
    exact (Message.written_new _ _).record hptr _ _ _ _

/-- The types of the records of an answer. -/
theorem types_message (includePtr : Bool) (ttl : Option UInt32) :
    (r.message includePtr ttl).starts.map Prod.fst =
      (if includePtr then [TYPE_PTR] else []) ++ [TYPE_SRV, TYPE_TXT] ++
        List.replicate r.addrs.length TYPE_A := by
  have hfold : ∀ (addrs : List Ipv4Addr) (m : Message),
      (addrs.foldl (fun m a => m.record r.hostFqdn TYPE_A flush (ttl.getD TTL_HOST) a.octets true)
        m).starts.map Prod.fst = m.starts.map Prod.fst ++ List.replicate addrs.length TYPE_A := by
    intro addrs
    induction addrs with
    | nil => exact fun m => (List.append_nil _).symm
    | cons a addrs ih =>
      intro m
      rw [List.foldl_cons, ih, Message.record, List.map_append, List.append_assoc,
        List.length_cons, List.replicate_succ]
      rfl
  refine (hfold r.addrs _).trans (congrArg (· ++ _) ?_)
  cases includePtr <;> rfl

/-! ### What is advertised -/

/-- `name` is what `read_name` reads at the start of a record of an answer. -/
def Advertises (rtype : UInt16) (name : String) : Prop :=
  ∃ includePtr ttl pos next, (rtype, pos) ∈ (r.message includePtr ttl).starts ∧
    readName (r.answer includePtr ttl) pos = ok (name, next)

/-- A question about the name is reported as one about this service in particular. -/
def Asks (name : String) (qtype : UInt16) : Prop :=
  ∀ id flags qclass : UInt16, flags &&& 0x8000 = 0 → ∃ ptr unicast,
    r.matchQuestions ((Message.new id flags).question name qtype qclass).finish =
      ok (ptr, true, unicast)

/-- The responder recognises the names that it advertises. -/
def RecognisesAdvertised : Prop :=
  (∀ name, r.Advertises TYPE_SRV name →
    r.Asks name TYPE_SRV ∧ r.Asks name TYPE_TXT ∧ r.Asks name TYPE_ANY) ∧
  ∀ name, r.Advertises TYPE_A name → r.Asks name TYPE_A ∧ r.Asks name TYPE_ANY

/-- An advertised name is one of the responder's names as it is read. -/
theorem Advertises.eq_received {r : Responder} {rtype : UInt16} {name : String}
    (h : r.Advertises rtype name) : ∃ name', r.Names rtype name' ∧ name = received name' := by
  obtain ⟨includePtr, ttl, pos, next, hmem, hread⟩ := h
  obtain ⟨name', next', hP, hread'⟩ := (r.written_message includePtr ttl).readName_finish hmem
  rw [← answer, hread] at hread'
  injection hread' with hpair
  exact ⟨name', hP, (Prod.mk.inj hpair).1⟩

/-- Every record of an answer advertises one. -/
theorem exists_advertises {rtype : UInt16}
    (h : rtype ∈ (r.message false none).starts.map Prod.fst) :
    ∃ name, r.Names rtype name ∧ r.Advertises rtype (received name) := by
  obtain ⟨⟨rtype, pos⟩, hmem, rfl⟩ := List.mem_map.mp h
  obtain ⟨name, next, hP, hread⟩ := (r.written_message false none).readName_finish hmem
  exact ⟨name, hP, false, none, pos, next, hmem, hread⟩

theorem advertises_srv_iff {name : String} :
    r.Advertises TYPE_SRV name ↔ name = received r.instanceFqdn := by
  constructor
  · intro h
    obtain ⟨name', hP, heq⟩ := h.eq_received
    rw [heq, hP.1 rfl]
  · rintro rfl
    have htype : TYPE_SRV ∈ (r.message false none).starts.map Prod.fst := by
      rw [r.types_message]
      exact List.mem_append_left _ List.mem_cons_self
    obtain ⟨name, hP, hadvertises⟩ := r.exists_advertises htype
    exact hP.1 rfl ▸ hadvertises

theorem advertises_a_iff {name : String} :
    r.Advertises TYPE_A name ↔ r.addrs ≠ [] ∧ name = received r.hostFqdn := by
  constructor
  · intro h
    obtain ⟨name', hP, heq⟩ := h.eq_received
    refine ⟨?_, by rw [heq, hP.2 rfl]⟩
    intro hnil
    obtain ⟨includePtr, ttl, pos, next, hmem, -⟩ := h
    have htype : TYPE_A ∈ (r.message includePtr ttl).starts.map Prod.fst :=
      List.mem_map_of_mem hmem
    rw [r.types_message, hnil, List.length_nil, List.replicate_zero, List.append_nil] at htype
    cases includePtr
    · exact absurd htype (by decide : TYPE_A ∉ [TYPE_SRV, TYPE_TXT])
    · exact absurd htype (by decide : TYPE_A ∉ [TYPE_PTR, TYPE_SRV, TYPE_TXT])
  · rintro ⟨hne, rfl⟩
    have htype : TYPE_A ∈ (r.message false none).starts.map Prod.fst := by
      rw [r.types_message]
      refine List.mem_append_right _ (List.mem_replicate.mpr ⟨?_, rfl⟩)
      exact mt List.length_eq_zero_iff.mp hne
    obtain ⟨name, hP, hadvertises⟩ := r.exists_advertises htype
    exact hP.2 rfl ▸ hadvertises

/-! ### What is recognised -/

/-- The name is the service type, up to case, and the question asks for it. -/
def AsksType (name : String) (qtype : UInt16) : Prop :=
  toAsciiLowercase (received name).toList = SERVICE.toList ∧
    (qtype = TYPE_PTR ∨ qtype = TYPE_ANY)

/-- The name is the one of the instance or of the host, up to case, and the question asks for
a record of that name. -/
def AsksUs (name : String) (qtype : UInt16) : Prop :=
  toAsciiLowercase (received name).toList = toAsciiLowercase r.instanceFqdn.toList ∧
      (qtype = TYPE_SRV ∨ qtype = TYPE_TXT ∨ qtype = TYPE_ANY) ∨
    toAsciiLowercase (received name).toList = toAsciiLowercase r.hostFqdn.toList ∧
      (qtype = TYPE_A ∨ qtype = TYPE_ANY)

/-- What `match_questions` makes of a packet with one question. -/
theorem matchQuestions_question_iff (name : String) (qtype id qclass : UInt16) {flags : UInt16}
    (hflags : flags &&& 0x8000 = 0) : ∃ ptr svc unicast,
      r.matchQuestions ((Message.new id flags).question name qtype qclass).finish =
        ok (ptr, svc, unicast) ∧ (ptr = true ↔ AsksType name qtype) ∧
        (svc = true ↔ ¬ AsksType name qtype ∧ r.AsksUs name qtype) ∧
        (unicast = true ↔ qclass &&& FLAG_UNICAST_OR_FLUSH ≠ 0) := by
  generalize hpacket : ((Message.new id flags).question name qtype qclass).finish = buf
  have hbuf : buf = toBe16 id ++ (toBe16 flags ++ (toBe16 1 ++ (toBe16 0 ++ (toBe16 0 ++
      (toBe16 0 ++ (encodeName name ++ (toBe16 qtype ++ toBe16 qclass))))))) :=
    hpacket.symm.trans (Message.finish_of_eq rfl)
  have hlen : ¬ buf.length < 12 := by
    rw [hbuf]
    simp only [List.length_append, length_toBe16]
    omega
  obtain ⟨hflagsAt, hqdcount, -⟩ := indexU16_header Unit hbuf
  -- the packet, cut in front of each field of the question
  have hname : buf = (toBe16 id ++ toBe16 flags ++ toBe16 1 ++ toBe16 0 ++ toBe16 0 ++ toBe16 0) ++
      (encodeName name ++ (toBe16 qtype ++ toBe16 qclass)) := by
    rw [hbuf]
    simp only [List.append_assoc]
  have hqtype := hname.trans (List.append_assoc _ _ _).symm
  have hqclass := hqtype.trans (List.append_assoc _ _ _).symm
  rw [← List.append_nil (toBe16 qclass)] at hqclass
  have hnameAt : readName buf 12 = ok (received name, 12 + (encodeName name).length) :=
    readName_of_eq hname rfl
  have hqtypeAt : readU16 buf (12 + (encodeName name).length) = ok qtype :=
    readU16_of_eq hqtype (by rw [List.length_append]; rfl)
  have hqclassAt : readU16 buf (12 + (encodeName name).length + 2) = ok qclass :=
    readU16_of_eq hqclass (by rw [List.length_append, List.length_append]; rfl)
  have hround : ∃ asked, r.matchQuestion buf ⟨12, false, false, false⟩ = ok asked ∧
      (asked.ptr = true ↔ AsksType name qtype) ∧
      (asked.svc = true ↔ ¬ AsksType name qtype ∧ r.AsksUs name qtype) ∧
      (asked.unicast = true ↔ qclass &&& FLAG_UNICAST_OR_FLUSH ≠ 0) := by
    rw [matchQuestion, hnameAt, ok_bind]
    dsimp only
    rw [hqtypeAt, ok_bind, hqclassAt, ok_bind]
    have hunicast : (false || qclass &&& FLAG_UNICAST_OR_FLUSH != 0) = true ↔
        qclass &&& FLAG_UNICAST_OR_FLUSH ≠ 0 := by
      rw [Bool.false_or, bne_iff_ne]
    by_cases htype : AsksType name qtype
    · exact ⟨_, if_pos htype, iff_of_true rfl htype, iff_of_false nofun fun h => h.1 htype,
        hunicast⟩
    by_cases hus : r.AsksUs name qtype
    · exact ⟨_, (if_neg htype).trans (if_pos hus), iff_of_false nofun htype,
        iff_of_true rfl ⟨htype, hus⟩, hunicast⟩
    · exact ⟨_, (if_neg htype).trans (if_neg hus), iff_of_false nofun htype,
        iff_of_false nofun fun h => hus h.2, hunicast⟩
  obtain ⟨asked, hasked, hanswers⟩ := hround
  refine ⟨asked.ptr, asked.svc, asked.unicast, ?_, hanswers⟩
  rw [matchQuestions, if_neg hlen, hflagsAt, ok_bind, if_neg (not_not_intro hflags), hqdcount,
    ok_bind]
  exact congrArg (· >>= fun asked => ok (asked.ptr, asked.svc, asked.unicast)) (times_succ hasked)

/-- Whether it is taken for a question about this service. -/
theorem matchQuestions_question (name : String) (qtype id qclass : UInt16) {flags : UInt16}
    (hflags : flags &&& 0x8000 = 0) : ∃ ptr svc unicast,
      r.matchQuestions ((Message.new id flags).question name qtype qclass).finish =
        ok (ptr, svc, unicast) ∧ (svc = true ↔ ¬ AsksType name qtype ∧ r.AsksUs name qtype) := by
  obtain ⟨ptr, svc, unicast, heq, -, hsvc, -⟩ :=
    r.matchQuestions_question_iff name qtype id qclass hflags
  exact ⟨ptr, svc, unicast, heq, hsvc⟩

theorem asks_iff {name : String} {qtype : UInt16} :
    r.Asks name qtype ↔ ¬ AsksType name qtype ∧ r.AsksUs name qtype := by
  constructor
  · intro h
    obtain ⟨ptr, unicast, heq⟩ := h 0 0 0 rfl
    obtain ⟨ptr', svc, unicast', heq', hsvc⟩ :=
      r.matchQuestions_question name qtype 0 0 (rfl : (0 : UInt16) &&& 0x8000 = 0)
    rw [heq] at heq'
    injection heq' with htriple
    exact hsvc.mp (Prod.mk.inj (Prod.mk.inj htriple).2).1.symm
  · intro h id flags qclass hflags
    obtain ⟨ptr, svc, unicast, heq, hsvc⟩ :=
      r.matchQuestions_question name qtype id qclass hflags
    rw [hsvc.mpr h] at heq
    exact ⟨ptr, unicast, heq⟩

/-- What is recognised, in terms of the two names in full. -/
theorem recognisesAdvertised_iff_keptName (hinst : labels r.instanceFqdn ≠ [])
    (hhost : labels r.hostFqdn ≠ [])
    (htype : toAsciiLowercase r.instanceFqdn.toList ≠ SERVICE.toList) :
    r.RecognisesAdvertised ↔ KeptName r.instanceFqdn ∧
      (r.addrs ≠ [] →
        KeptName r.hostFqdn ∧ toAsciiLowercase r.hostFqdn.toList ≠ SERVICE.toList) := by
  constructor
  · rintro ⟨hsrv, ha⟩
    constructor
    · -- a question for the SRV record is only matched with the instance
      have hasks := (r.asks_iff.mp (hsrv _ (r.advertises_srv_iff.mpr rfl)).1).2
      rw [AsksUs, received_received] at hasks
      rcases hasks with ⟨hname, -⟩ | ⟨-, hqtype⟩
      · exact (toAsciiLowercase_received_iff hinst).mp hname
      · exact absurd hqtype (by decide)
    · intro haddrs
      obtain ⟨haskA, haskAny⟩ := ha _ (r.advertises_a_iff.mpr ⟨haddrs, rfl⟩)
      have hasks := (r.asks_iff.mp haskA).2
      rw [AsksUs, received_received] at hasks
      have hkept : KeptName r.hostFqdn := by
        rcases hasks with ⟨-, hqtype⟩ | ⟨hname, -⟩
        · exact absurd hqtype (by decide)
        · exact (toAsciiLowercase_received_iff hhost).mp hname
      refine ⟨hkept, fun hservice => ?_⟩
      -- a question for any record of that name is taken for one for the service type
      have hnot := (r.asks_iff.mp haskAny).1
      rw [AsksType, received_received, received_of_keptName hkept] at hnot
      exact hnot ⟨hservice, .inr rfl⟩
  · rintro ⟨hinstKept, haddrs⟩
    constructor
    · rintro name hname
      have heq : name = r.instanceFqdn :=
        (r.advertises_srv_iff.mp hname).trans (received_of_keptName hinstKept)
      have hasks : ∀ qtype, qtype = TYPE_SRV ∨ qtype = TYPE_TXT ∨ qtype = TYPE_ANY →
          r.Asks name qtype := by
        intro qtype hqtype
        rw [asks_iff, AsksType, AsksUs, heq, received_of_keptName hinstKept]
        exact ⟨fun h => htype h.1, .inl ⟨rfl, hqtype⟩⟩
      exact ⟨hasks _ (.inl rfl), hasks _ (.inr (.inl rfl)), hasks _ (.inr (.inr rfl))⟩
    · rintro name hname
      obtain ⟨hne, hreceived⟩ := r.advertises_a_iff.mp hname
      obtain ⟨hhostKept, hservice⟩ := haddrs hne
      have heq : name = r.hostFqdn := hreceived.trans (received_of_keptName hhostKept)
      have hasks : ∀ qtype, qtype = TYPE_A ∨ qtype = TYPE_ANY → r.Asks name qtype := by
        intro qtype hqtype
        rw [asks_iff, AsksType, AsksUs, heq, received_of_keptName hhostKept]
        exact ⟨fun h => hservice h.1, .inr ⟨rfl, hqtype⟩⟩
      exact ⟨hasks _ (.inl rfl), hasks _ (.inr rfl)⟩

/-- **Which names are recognised**: those whose labels are all sent as they are. A host that is
called like the service type is not, since a question for any record of its name is taken for one
for the service type. -/
theorem recognisesAdvertised_iff (inst host : String) (port : UInt16) (addrs : List Ipv4Addr)
    (txt : List String) : (new inst host port addrs txt).RecognisesAdvertised ↔
      KeptName inst ∧ (addrs ≠ [] →
        KeptName host ∧ toAsciiLowercase host.toList ≠ "_usbip._tcp".toList) := by
  have hinstFqdn := toList_instanceFqdn inst
  have hhostFqdn := toList_hostFqdn host
  have hinst : labels (inst ++ "." ++ SERVICE) ≠ [] := by
    rw [labels_of_append hinstFqdn]
    exact List.append_ne_nil_of_right_ne_nil _ (by decide +kernel)
  have hhost : labels (host ++ ".local") ≠ [] := by
    rw [labels_of_append hhostFqdn]
    exact List.append_ne_nil_of_right_ne_nil _ (by decide +kernel)
  have htype : toAsciiLowercase (inst ++ "." ++ SERVICE).toList ≠ SERVICE.toList := by
    intro h
    have hlength := congrArg List.length h
    rw [hinstFqdn, toAsciiLowercase, List.length_map, List.length_append,
      List.length_cons] at hlength
    omega
  have hservice : toAsciiLowercase (host ++ ".local").toList ≠ SERVICE.toList ↔
      toAsciiLowercase host.toList ≠ "_usbip._tcp".toList := by
    have hsplit : SERVICE.toList = "_usbip._tcp".toList ++ toAsciiLowercase ".local".toList := by
      decide +kernel
    rw [hsplit, hhostFqdn, toAsciiLowercase, List.map_append]
    exact not_congr (List.append_left_inj _)
  have hkeptInst : KeptName (inst ++ "." ++ SERVICE) ↔ KeptName inst :=
    (keptName_of_append hinstFqdn).trans (and_iff_left (by decide +kernel))
  have hkeptHost : KeptName (host ++ ".local") ↔ KeptName host :=
    (keptName_of_append hhostFqdn).trans (and_iff_left (by decide +kernel))
  refine ((new inst host port addrs txt).recognisesAdvertised_iff_keptName hinst hhost htype).trans
    ?_
  dsimp only [new]
  rw [hkeptInst, hkeptHost, hservice]

/-- A host name of 64 letters is advertised with 63 of them, and nobody can ask for its address. -/
theorem not_recognisesAdvertised_longHost :
    ¬ (new "deck" (String.ofList (List.replicate 64 'a')) 3240 [⟨100, 101, 102, 103⟩]
      ["allow=28de:1304"]).RecognisesAdvertised := by
  intro h
  have hadvertised : (new "deck" (String.ofList (List.replicate 64 'a')) 3240
      [⟨100, 101, 102, 103⟩] ["allow=28de:1304"]).Advertises TYPE_A
        (String.ofList (List.replicate 63 'a') ++ ".local") :=
    ⟨false, none, 173, 244, by decide +kernel, by decide +kernel⟩
  obtain ⟨ptr, unicast, hasked⟩ := (h.2 _ hadvertised).1 0 0 CLASS_IN rfl
  have hanswer : (new "deck" (String.ofList (List.replicate 64 'a')) 3240
      [⟨100, 101, 102, 103⟩] ["allow=28de:1304"]).matchQuestions
        ((Message.new 0 0).question (String.ofList (List.replicate 63 'a') ++ ".local") TYPE_A
          CLASS_IN).finish = ok (false, false, false) := by
    decide +kernel
  rw [hanswer] at hasked
  injection hasked with htriple
  exact absurd (Prod.mk.inj (Prod.mk.inj htriple).2).1 (by decide)

end Responder

end Padwire.Mdns
