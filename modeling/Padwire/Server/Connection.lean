import Padwire.Server.Socket

/-!
# What goes over the socket

What the two ends of a connection make of each other (`connection_in_order`). An importer that
writes whole commands one after another, in pieces of any size, and reads the replies off its end
of the socket sees a session that reads exactly its commands in order, and a reply stream in which
it finds exactly the posted replies in order, up to wherever the stream has got to.
-/

namespace Padwire

variable {d : UsbfsDevice} {c c' : Conn} {st st' : State} {a : Action}

/-! ### The way out -/

def Action.writes : Action → Bool
  | .write _ => true
  | _ => false

/-- `post` sends only while the channel has room. -/
theorem room_of_sent {full : Bool} (h : postTurn st full = .sent) :
    st.queue.length < OUTBOX_DEPTH := by
  unfold postTurn at h
  split_ifs at h with h₁ h₂ h₃ h₄
  exact h₄

/-- Within a session, a step that is not the writer's leaves the channel alone or puts one reply
at its end, if there is room. -/
theorem queue_of_step (hno : a.begins = false) (hw : a.writes = false)
    (h : step d st a = some st') :
    (st'.queue = st.queue ∧ st'.outbox = st.outbox) ∨
      ∃ out, st.queue.length < OUTBOX_DEPTH ∧ st'.queue = st.queue ++ [out.reply.buf] ∧
        st'.outbox = st.outbox ++ [out] := by
  cases a with
  | start opts answers => cases hno
  | write ok => cases hw
  | mainPost =>
    simp only [step] at h
    split at h
    · rename_i out full hmain
      split at h
      · rename_i hturn
        cases h
        exact .inr ⟨out, room_of_sent hturn, rfl, rfl⟩
      · cases h
        exact .inl ⟨rfl, rfl⟩
      · cases h
        exact .inl ⟨rfl, rfl⟩
      · cases h
        exact .inl ⟨rfl, rfl⟩
    · cases h
  | reaperPost =>
    simp only [step] at h
    split at h
    · rename_i out full r hreaper
      split at h
      · rename_i hturn
        cases h
        exact .inr ⟨out, room_of_sent hturn, rfl, rfl⟩
      · cases h
        exact .inl ⟨rfl, rfl⟩
      · cases h
        exact .inl ⟨rfl, rfl⟩
      · cases h
        exact .inl ⟨rfl, rfl⟩
    · cases h
  | read input =>
    simp only [step] at h
    split at h
    · split at h
      · cases h
        exact .inl ⟨rfl, rfl⟩
      · obtain ⟨pc, -, rfl⟩ := Option.map_eq_some_iff.mp h
        exact .inl ⟨rfl, rfl⟩
    · cases h
  | reap k now =>
    simp only [step] at h
    split at h
    · obtain ⟨x, -, rfl⟩ := Option.map_eq_some_iff.mp h
      split_ifs <;> exact .inl ⟨rfl, rfl⟩
    · cases h
  | spawn ok =>
    simp only [step] at h
    split at h
    · cases h
      cases ok <;> exact .inl ⟨rfl, rfl⟩
    · cases h
  | join =>
    simp only [step] at h
    split at h
    · split_ifs at h
      cases h
      exact .inl ⟨rfl, rfl⟩
    · cases h
  | hangUp =>
    simp only [step] at h
    split at h
    · split_ifs at h
      cases h
      exact .inl ⟨rfl, rfl⟩
    · cases h
  | check _ | take _ | submit _ | unlink | devUnlink _ | halt | shutdown _ | cancel _ _ | poll
  | wake _ _ | waitFails | reapNone | reapFails | deliver _ | leave | writerStop =>
    simp only [step] at h
    split at h
    · cases h
      exact .inl ⟨rfl, rfl⟩
    · cases h

/-- The way out is first in, first out: what the writer has taken off the channel and what is
still in it make up the posted replies, in order. -/
structure Conn.Outgoing (c : Conn) : Prop where
  split : c.written ++ c.st.queue = c.st.outbox.map fun out => out.reply.buf
  room : c.st.queue.length ≤ OUTBOX_DEPTH

/-- A step that writes nothing keeps the order. -/
private theorem outgoing_quiet (hc : c.Outgoing) (hno : a.begins = false) (hw : a.writes = false)
    (h : step d c.st a = some c'.st) (hwritten : c'.written = c.written) : c'.Outgoing := by
  rcases queue_of_step hno hw h with ⟨hq, ho⟩ | ⟨out, hroom, hq, ho⟩
  · exact ⟨by rw [hwritten, hq, ho]; exact hc.split, by rw [hq]; exact hc.room⟩
  · refine ⟨?_, ?_⟩
    · rw [hwritten, hq, ho, List.map_append, ← List.append_assoc, hc.split]
      rfl
    · rw [hq, List.length_append]
      exact hroom

theorem outgoing_of_conn (h : ConnReachable d c) : c.Outgoing := by
  refine h.invariant Conn.Outgoing (fun c hc => ?_) fun c a c' hc _ hstep => ?_
  · rw [hc]
    exact ⟨rfl, Nat.zero_le _⟩
  · cases a with
    | send bs | drain n | goAway =>
      cases hstep
      exact ⟨hc.split, hc.room⟩
    | close t =>
      rw [connStep] at hstep
      split_ifs at hstep
      cases hstep
      exact ⟨hc.split, hc.room⟩
    | pump a =>
      have hst := step_of_connStep hstep
      obtain ⟨-, st', hs, rfl⟩ := connStep_pump.mp hstep
      cases a with
      | start opts answers =>
        -- a session starts with an empty channel
        simp only [step] at hs
        split at hs
        · cases hs
          exact ⟨rfl, Nat.zero_le _⟩
        · cases hs
          exact ⟨rfl, Nat.zero_le _⟩
        · cases hs
      | write ok =>
        simp only [step] at hs
        split at hs
        · rename_i buf rest hwriter hqueue
          cases hs
          have hsplit := hc.split
          have hroom := hc.room
          rw [hqueue] at hsplit hroom
          refine ⟨?_, Nat.le_of_succ_le hroom⟩
          dsimp only [Conn.after]
          rw [hqueue, ← hsplit, List.append_assoc]
          rfl
        · cases hs
      | _ => exact outgoing_quiet hc rfl rfl hst rfl

/-! ### The way in -/

/-- A step that is not a read leaves the log of a session alone. -/
theorem log_of_step (hc : Control st) (hno : a.begins = false) (hread : ∀ input, a ≠ .read input)
    (h : step d st a = some st') : st'.log = st.log := by
  cases effect_of_step hc h with
  | quiet hq => exact hq.log
  | started _ => cases hno
  | read _ _ _ => exact absurd rfl (hread _)
  | _ => rfl

/-- What a read does: it fails, or it reads one command. -/
theorem log_of_read {input : Bytes} (h : step d st (.read input) = some st') :
    (st'.log = st.log ∧ ∃ e, (readPdu d.maxTransfer).run input = .error e) ∨
      ∃ pdu rest, Parse.Accepts (readPdu d.maxTransfer) input pdu rest ∧
        st'.log = st.log ++ [pdu] := by
  simp only [step] at h
  split at h
  · split at h
    · rename_i e he
      cases h
      exact .inl ⟨rfl, e, he⟩
    · rename_i pdu rest hread
      obtain ⟨pc, -, rfl⟩ := Option.map_eq_some_iff.mp h
      exact .inr ⟨pdu, rest, hread, rfl⟩
  · cases h

/-- The way in: what the importer has sent is the commands the reader has read, and what is
still in the socket. -/
def Conn.Incoming (c : Conn) (ps : List Pdu) : Prop :=
  c.st.log <+: ps ∧ c.received = c.st.log.flatMap Pdu.encode ++ c.inbox

/-- A read from a stream of commands reads the next of them and leaves the others. -/
theorem readPdu_prefix {maxTransfer : ℕ} {qs : List Pdu} (hqs : ∀ q ∈ qs, q.ClientSends maxTransfer)
    {inbox rest : Bytes} {p : Pdu} (hin : inbox <+: qs.flatMap Pdu.encode)
    (hread : Parse.Accepts (readPdu maxTransfer) inbox p rest) :
    ∃ qs', qs = p :: qs' ∧ inbox = p.encode ++ rest := by
  obtain ⟨hp, bs, hspells, rfl⟩ := accepts_readPdu.mp hread
  obtain ⟨more, hmore⟩ := hin
  cases qs with
  | nil =>
    have hlen := congrArg List.length hmore
    simp only [List.length_append, hspells.length, List.flatMap_nil, List.length_nil] at hlen
    omega
  | cons q qs =>
    -- with the rest of the stream behind it, the same read finds the first command
    have hread₁ : Parse.Accepts (readPdu maxTransfer) ((q :: qs).flatMap Pdu.encode) p
        (rest ++ more) :=
      accepts_readPdu.mpr ⟨hp, bs, hspells, by rw [← hmore, List.append_assoc]⟩
    have hread₂ : Parse.Accepts (readPdu maxTransfer) ((q :: qs).flatMap Pdu.encode) q
        (qs.flatMap Pdu.encode) :=
      accepts_readPdu.mpr ⟨hqs q List.mem_cons_self, _, q.spells_encode, List.flatMap_cons⟩
    obtain ⟨rfl, hrest⟩ := hread₁.inj hread₂
    refine ⟨qs, rfl, ?_⟩
    rw [List.flatMap_cons, ← hrest, ← List.append_assoc] at hmore
    exact List.append_cancel_right hmore

/-- A command is read off what has arrived. -/
theorem input_of_accepts {input rest : Bytes} {pdu : Pdu} (h : c.allows d (.read input) = true)
    (hread : Parse.Accepts (readPdu d.maxTransfer) input pdu rest) : input = c.inbox := by
  simp only [Conn.allows, Bool.or_eq_true, Bool.and_eq_true, decide_eq_true_eq] at h
  rcases h with ⟨rfl, -⟩ | ⟨rfl, -⟩
  · rfl
  · obtain ⟨-, bs, hspells, hnil⟩ := accepts_readPdu.mp hread
    have hlen := congrArg List.length hnil
    rw [List.length_append, hspells.length, List.length_nil] at hlen
    omega

theorem incoming_of_conn (h : ConnReachable d c) {ps : List Pdu}
    (hps : ∀ p ∈ ps, p.ClientSends d.maxTransfer) (hsent : c.received <+: ps.flatMap Pdu.encode) :
    c.Incoming ps := by
  revert hsent
  have hsession : ∀ c, ConnReachable d c → SessionReachable d c.st := fun c hr => session_of_conn hr
  refine h.invariant_of (fun c => c.received <+: ps.flatMap Pdu.encode → c.Incoming ps) hsession
    (fun c hc _ => ?_) fun c a c' hr ih _ hstep hsent => ?_
  · rw [hc]
    exact ⟨List.nil_prefix, rfl⟩
  · cases a with
    | send bs =>
      cases hstep
      obtain ⟨hlog, hsplit⟩ := ih ((List.prefix_append _ _).trans hsent)
      exact ⟨hlog, by dsimp only; rw [hsplit, List.append_assoc]⟩
    | drain n | goAway =>
      cases hstep
      exact ih hsent
    | close t =>
      rw [connStep] at hstep
      split_ifs at hstep
      cases hstep
      exact ih hsent
    | pump a =>
      have hst := step_of_connStep hstep
      obtain ⟨hallows, st', hs, rfl⟩ := connStep_pump.mp hstep
      cases a with
      | start opts answers =>
        -- a session starts with nothing read
        simp only [step] at hs
        split at hs
        · cases hs
          exact ⟨List.nil_prefix, rfl⟩
        · cases hs
          exact ⟨List.nil_prefix, rfl⟩
        · cases hs
      | read input =>
        obtain ⟨⟨qs, rfl⟩, hsplit⟩ := ih hsent
        rcases log_of_read hst with ⟨hlog, e, he⟩ | ⟨pdu, rest, hread, hlog⟩
        · refine ⟨?_, ?_⟩
          · rw [hlog]
            exact List.prefix_append _ _
          · simp only [Conn.after, Conn.leftover, he]
            rw [Conn.after_st] at hlog
            rw [hlog]
            exact hsplit
        · obtain rfl := input_of_accepts hallows hread
          have hin : c.inbox <+: qs.flatMap Pdu.encode := by
            have hall : c.received <+: (c.st.log ++ qs).flatMap Pdu.encode := hsent
            rw [hsplit, List.flatMap_append] at hall
            exact (List.prefix_append_right_inj _).mp hall
          obtain ⟨qs', rfl, hinbox⟩ :=
            readPdu_prefix (fun q hq => hps q (List.mem_append_right _ hq)) hin hread
          have hleft : c.leftover d.maxTransfer c.inbox = rest := by
            rw [Conn.leftover, show (readPdu d.maxTransfer).run c.inbox = _ from hread]
          rw [Conn.after_st] at hlog
          refine ⟨?_, ?_⟩
          · rw [Conn.after_st, hlog]
            exact ⟨qs', by rw [List.append_assoc]; rfl⟩
          · dsimp only [Conn.after]
            rw [hlog, hleft, hsplit, List.flatMap_append, List.append_assoc, hinbox]
            simp
      | _ =>
        have hlog := log_of_step (control_of_reach hr) rfl (fun _ => Action.noConfusion) hst
        obtain ⟨hpre, hsplit⟩ := ih hsent
        exact ⟨by rw [hlog]; exact hpre, by rw [hlog]; exact hsplit⟩

/-! ### The reply stream as the importer sees it -/

/-- A reply that is cut off is not read. -/
theorem readFramed_cut {len : Header → Except IoError ℕ} {header : Header} {data : Bytes}
    (hc : header.base.command = header.body.command) (hlen : len header = .ok data.length)
    {bs : Bytes} (hbs : bs <+: header.encode ++ data) (hne : bs ≠ header.encode ++ data) :
    (readFramed len).run bs = .error .unexpectedEof := by
  unfold readFramed
  by_cases hfull : header.encode <+: bs
  -- the header is there, and the payload is not
  · obtain ⟨bs, rfl⟩ := hfull
    have hshort : bs.length < data.length := by
      have hpre := (List.prefix_append_right_inj _).mp hbs
      refine lt_of_le_of_ne hpre.length_le fun heq => hne ?_
      rw [hpre.eq_of_length heq]
    have hread : Parse.Accepts (readExact SIZE_CMD_HEADER) (header.encode ++ bs) header.encode bs :=
      accepts_readExact.mpr ⟨header.length_encode, rfl⟩
    have hdec := Header.accepts_decode_encode hc []
    rw [List.append_nil] at hdec
    have hdecode : Parse.Accepts (decodeBuf Header.decode header.encode) bs header bs :=
      accepts_decodeBuf.mpr ⟨⟨[], hdec⟩, rfl⟩
    have hlift : Parse.Accepts (liftM (len header) : Parse IoError ℕ) bs data.length bs :=
      Parse.accepts_lift.mpr ⟨hlen, rfl⟩
    rw [hread.run_bind, hdecode.run_bind, hlift.run_bind]
    exact Parse.run_bind_of_error (Parse.run_take_of_lt hshort) _
  · have hpre := (List.prefix_or_prefix_of_prefix hbs (List.prefix_append _ _)).resolve_right hfull
    have hshort : bs.length < SIZE_CMD_HEADER := by
      rw [← header.length_encode]
      refine lt_of_le_of_ne hpre.length_le fun heq => hfull ?_
      exact hpre.eq_of_length heq ▸ List.prefix_rfl
    exact Parse.run_bind_of_error (Parse.run_take_of_lt hshort) _

/-- The buffer of a reply is what the importer reads it from. -/
theorem Reply.buf_eq (reply : Reply) : reply.buf = reply.parts.1.encode ++ reply.parts.2 := by
  cases reply with
  | retSubmit s ret data => rfl
  | retUnlink s status => exact (List.append_nil _).symm

theorem Reply.command_parts (reply : Reply) :
    reply.parts.1.base.command = reply.parts.1.body.command := by
  cases reply <;> rfl

/-- The record an importer keeps serves for any replies that fit what it has asked for so far,
wherever the stream is cut off. -/
theorem exists_replies_of_prefix {ps : List Pdu} {maxTransfer : ℕ}
    (hps : ∀ p ∈ ps, p.ClientSends maxTransfer) (hd : (ps.filterMap Pdu.submit?).Nodup)
    {replies : List Reply} (hfits : ∀ reply ∈ replies, reply.Fits ps) {bs : Bytes}
    (hbs : bs <+: replies.flatMap Reply.buf) :
    ∃ k ≤ replies.length, ∃ rest,
      (Parse.repeat k (readReply (dirFor ps) maxTransfer)).run bs =
        .ok ((replies.take k).map Reply.parts, rest) ∧
      (bs = replies.flatMap Reply.buf → k = replies.length) ∧
      (k < replies.length →
        (readReply (dirFor ps) maxTransfer).run rest = .error .unexpectedEof) := by
  have hbuf : replies.flatMap Reply.buf =
      (replies.map Reply.parts).flatMap fun x => x.1.encode ++ x.2 := by
    rw [List.flatMap_map]
    exact List.flatMap_congr fun reply _ => reply.buf_eq
  have hgood : ∀ x ∈ replies.map Reply.parts, x.1.base.command = x.1.body.command ∧
      replyLen (dirFor ps) maxTransfer x.1 = .ok x.2.length := by
    intro x hx
    obtain ⟨reply, hreply, rfl⟩ := List.mem_map.mp hx
    exact ⟨reply.command_parts, replyLen_eq_of_fits hps hd (hfits reply hreply)⟩
  rw [hbuf] at hbs ⊢
  obtain ⟨k, hk, rest, hread, -, hend, -, hmore⟩ := Parse.exists_accepts_of_prefix
    (p := readReply (dirFor ps) maxTransfer)
    (fun x : Header × Bytes => x.1.base.command = x.1.body.command ∧
      replyLen (dirFor ps) maxTransfer x.1 = .ok x.2.length) .unexpectedEof
    (fun x rest hx => accepts_readFramed hx.1 hx.2 rest)
    (fun x bs hx hpre hne => readFramed_cut hx.1 hx.2 hpre hne) hgood hbs
  rw [List.length_map] at hk hend hmore
  exact ⟨k, hk, rest, by rw [List.map_take]; exact hread, hend, hmore⟩

/-- **A session over its socket.** Let the importer write the encodings of the commands `ps` one
after another, in any pieces. In every state that any interleaving reaches: the commands the
reader has read are the first ones of `ps`, in order, and the bytes sent are their encodings and
what is still in the socket; what the writer has taken and what is still in the channel, which is
never over its depth, are the posted replies, in order; and if the submits have pairwise distinct
seqnums, then from any part of the reply stream that has arrived, cut off anywhere, the importer
reads exactly the first of the posted replies, all of the written ones if everything has
arrived, and finds the next one incomplete if not. -/
theorem connection_in_order (h : ConnReachable d c) {ps : List Pdu}
    (hps : ∀ p ∈ ps, p.ClientSends d.maxTransfer) (hsent : c.received <+: ps.flatMap Pdu.encode) :
    (c.st.log <+: ps ∧ c.received = c.st.log.flatMap Pdu.encode ++ c.inbox) ∧
    (c.written ++ c.st.queue = c.st.outbox.map (fun out => out.reply.buf) ∧
      c.st.queue.length ≤ OUTBOX_DEPTH) ∧
    ((ps.filterMap Pdu.submit?).Nodup → ∀ bs, bs <+: c.written.flatten →
      ∃ k ≤ c.written.length, ∃ rest,
        (Parse.repeat k (readReply (dirFor ps) d.maxTransfer)).run bs =
          .ok ((c.st.outbox.take k).map (fun out => out.reply.parts), rest) ∧
        (bs = c.written.flatten → k = c.written.length) ∧
        (k < c.written.length →
          (readReply (dirFor ps) d.maxTransfer).run rest = .error .unexpectedEof)) := by
  have hin := incoming_of_conn h hps hsent
  have hout := outgoing_of_conn h
  refine ⟨hin, ⟨hout.split, hout.room⟩, fun hd bs hbs => ?_⟩
  have hsrc := sourced_of_reach (session_of_conn h)
  have hlen : c.written.length ≤ c.st.outbox.length := by
    have hlen := congrArg List.length hout.split
    rw [List.length_append, List.length_map] at hlen
    omega
  -- what has been written is what was posted first
  have hwritten : c.written =
      ((c.st.outbox.take c.written.length).map fun out => out.reply).map Reply.buf := by
    have htake := congrArg (List.take c.written.length) hout.split
    rwa [List.take_left, ← List.map_take, ← Function.comp_def Reply.buf, ← List.map_map] at htake
  have hflat : c.written.flatten =
      ((c.st.outbox.take c.written.length).map fun out => out.reply).flatMap Reply.buf := by
    rw [List.flatMap_def, ← hwritten]
  have hfits : ∀ reply ∈ (c.st.outbox.take c.written.length).map fun out => out.reply,
      reply.Fits ps := by
    intro reply hreply
    obtain ⟨out, hout, rfl⟩ := List.mem_map.mp hreply
    exact (hsrc.outbox out (List.mem_of_mem_take hout)).mono hin.1.subset
  obtain ⟨k, hk, rest, hread, hend, hmore⟩ :=
    exists_replies_of_prefix hps hd hfits (hflat ▸ hbs)
  rw [List.length_map, List.length_take, Nat.min_eq_left hlen] at hk hend hmore
  refine ⟨k, hk, rest, ?_, fun heq => hend (heq.trans hflat), hmore⟩
  rw [hread, ← List.map_take, List.take_take, Nat.min_eq_left hk, List.map_map]
  rfl

/-- An importer that sends a submit in two pieces and a second one half-way, and gets the first
report back. -/
def pieces : List ConnAction :=
  List.map .pump (begin true) ++
    [.send ((Pdu.submitIn 1 1 2).encode.take 20), .pump (.check false),
      .send ((Pdu.submitIn 1 1 2).encode.drop 20 ++ (Pdu.submitIn 2 1 2).encode.take 9),
      .pump (.read ((Pdu.submitIn 1 1 2).encode ++ (Pdu.submitIn 2 1 2).encode.take 9))] ++
    List.map ConnAction.pump ([.take .ok] ++ reapOne 0x80000000 0 [7, 8, 9] ++
      [.deliver .ok, .reaperPost]) ++ [.drain 64, .pump (.write true)]

theorem connection_in_order_pieces :
    ∃ c, ConnReachable gamepad c ∧ c.st.log = [.submitIn 1 1 2] ∧ c.inbox.length = 9 ∧
      c.written.flatten.length = 50 ∧
      ∃ k ≤ c.written.length, ∃ rest,
        (Parse.repeat k (readReply (dirFor [.submitIn 1 1 2, .submitIn 2 1 2]) 4096)).run
            (c.written.flatten.take 49) =
          .ok ((c.st.outbox.take k).map (fun out => out.reply.parts), rest) := by
  have hrun : (run (connStep gamepad) Conn.initial pieces).any (fun c =>
      decide (c.st.log = [.submitIn 1 1 2]) && decide (c.inbox.length = 9) &&
      decide (c.written.flatten.length = 50) &&
      decide (c.received <+: [Pdu.submitIn 1 1 2, .submitIn 2 1 2].flatMap Pdu.encode)) = true := by
    decide +kernel
  obtain ⟨c, hc, hp⟩ := exists_reachable_of_run (· = Conn.initial) rfl hrun
  simp only [Bool.and_eq_true, decide_eq_true_eq] at hp
  obtain ⟨⟨⟨hlog, hinbox⟩, hlen⟩, hsent⟩ := hp
  have hps : ∀ p ∈ [Pdu.submitIn 1 1 2, .submitIn 2 1 2], p.ClientSends gamepad.maxTransfer := by
    intro p hp
    rcases List.mem_pair.mp hp with rfl | rfl
    · exact ⟨rfl, by decide, by decide, by decide, rfl, rfl⟩
    · exact ⟨rfl, by decide, by decide, by decide, rfl, rfl⟩
  obtain ⟨-, -, hreplies⟩ := connection_in_order hc hps hsent
  obtain ⟨k, hk, rest, hread, -⟩ :=
    hreplies (by decide) _ (List.take_prefix 49 c.written.flatten)
  exact ⟨c, hc, hlog, hinbox, hlen, k, hk, rest, hread⟩

end Padwire
