/-
From a datagram to a packet. `handleDatagram_crashed_iff` says which datagrams crash the handling: those
that call for an answer and count more than 16 bytes of hardware address. `handleDatagram_exact` says, byte
for byte, what a chain that a configuration asked for answers: the header, the entries behind it, and the
destination. The options of a reply have no order of their own, so this is said of every packet that may be sent
(`Server.Answers`).
-/
import ProxyDhcp.Proofs.AnswerBytes
import ProxyDhcp.Proofs.PluginChain
import ProxyDhcp.Server

namespace ProxyDhcp

/-! ## Reading a message -/

/-- An option in one segment is read and kept, when no other segment of its code follows. -/
theorem Message.readOptions_segment {code : UInt8} (hpad : code ≠ DhcpOption.padCode)
    (hend : code ≠ DhcpOption.endCode) {payload rest : Bytes} (hlen : payload.length ≤ 255)
    (hrest : rest.head? ≠ some code) {option : DhcpOption}
    (hcontent : DhcpOption.ofContent code payload = .ok option) (table : OptionTable) :
    readOptions table (DhcpOption.segment code payload ++ rest) = readOptions (table.add option) rest := by
  have hdecode := DhcpOption.wireLaws.decode_segment hpad hend hlen hrest
  rw [hcontent, DhcpOption.segment, List.cons_append] at hdecode
  rw [DhcpOption.segment, List.cons_append, readOptions, if_neg hpad, if_neg hend]
  split
  · next h => rw [hdecode] at h; cases h
  · next held after h =>
    rw [hdecode] at h
    cases h
    rfl

/-- The server that `relayedRequest` names. -/
def relayedContext : ReplyContext := ⟨some ⟨10, 0, 0, 254⟩, .broadcast, 67, 68⟩

/-- The options of `relayedRequest`, as they are sent. -/
def relayedOptions : Bytes :=
  DhcpOption.segment 53 [3] ++ (DhcpOption.segment 54 [10, 0, 0, 254] ++
    (DhcpOption.segment 60 relayedClass ++ (DhcpOption.segment 97 relayedIdentifier ++ [DhcpOption.endCode])))

theorem readOptions_relayedOptions : Message.readOptions .empty relayedOptions = relayedRequest.options := by
  rw [relayedOptions, Message.readOptions_segment (by decide) (by decide) (by decide) (by decide) rfl,
    Message.readOptions_segment (by decide) (by decide) (by decide) (by decide) rfl,
    Message.readOptions_segment (by decide) (by decide) (by decide) (by decide) rfl,
    Message.readOptions_segment (by decide) (by decide) (by decide) (by decide) rfl, Message.readOptions]
  rfl

theorem decode_relayedOptions {header : Header} (hsname : header.sname.terminated = header.sname)
    (hfile : header.file.terminated = header.file) :
    Message.decode (header.encode ++ relayedOptions) = .ok ⟨header, relayedRequest.options⟩ := by
  rw [Message.decode_encode_append, readOptions_relayedOptions, hsname, hfile]

/-! ## Datagrams -/

theorem handleDatagram_of_error {datagram : Bytes} {cause : DecodeError}
    (hdecode : Message.decode datagram = .error cause) (chain : Chain) (context : ReplyContext) :
    (handleDatagram chain context datagram).value = .dropped (.ofDecode cause) := by
  rw [handleDatagram, hdecode]
  rfl

theorem handleDatagram_of_ok {datagram : Bytes} {request : Message}
    (hdecode : Message.decode datagram = .ok request) (chain : Chain) (context : ReplyContext) :
    (handleDatagram chain context datagram).value =
      match (newReply request context.serverId).value with
      | .ignored => .ignored
      | .crashed => .crashed
      | .reply reply =>
        match (chain.run request reply).value.encode with
        | .error cause => .dropped (.ofEncode cause)
        | .ok packet => .answered packet (replyDestination request context) := by
  rw [handleDatagram, hdecode]
  simp only [Logged.value_bind]
  cases (newReply request context.serverId).value with
  | ignored => rfl
  | crashed => rfl
  | reply reply =>
    simp only [Logged.value_bind]
    cases (chain.run request reply).value.encode <;> rfl

theorem handledReply?_eq_some_iff {chain : Chain} {context : ReplyContext} {datagram : Bytes} {final : Message}
    {destination : Endpoint} :
    handledReply? chain context datagram = some (final, destination) ↔
      ∃ request reply, Message.decode datagram = .ok request ∧ (newReply request context.serverId).value = .reply reply ∧
        (chain.run request reply).value = final ∧ replyDestination request context = destination := by
  cases hdecode : Message.decode datagram with
  | error cause => simp [handledReply?, hdecode]
  | ok request =>
    simp only [handledReply?, hdecode, Except.ok.injEq, exists_and_left, exists_eq_left']
    cases (newReply request context.serverId).value with
    | ignored | crashed => simp
    | reply reply => simp

theorem handleDatagram_answered_iff {chain : Chain} {context : ReplyContext} {datagram packet : Bytes}
    {destination : Endpoint} :
    (handleDatagram chain context datagram).value = .answered packet destination ↔
      ∃ reply, handledReply? chain context datagram = some (reply, destination) ∧ reply.encode = .ok packet := by
  cases hdecode : Message.decode datagram with
  | error cause =>
    rw [handleDatagram_of_error hdecode, handledReply?, hdecode]
    simp
  | ok request =>
    rw [handleDatagram_of_ok hdecode, handledReply?, hdecode]
    dsimp only
    cases (newReply request context.serverId).value with
    | ignored => simp
    | crashed => simp
    | reply reply =>
      simp only [Option.some.injEq, Prod.mk.injEq, and_assoc, exists_eq_left']
      cases (chain.run request reply).value.encode with
      | error cause => simp
      | ok written => simp [and_comm]

/-- **Which datagrams crash the handling**, whatever the chain: those that hold a request that calls for an
answer, and count more bytes of hardware address than its field has. -/
theorem handleDatagram_crashed_iff (chain : Chain) (context : ReplyContext) (datagram : Bytes) :
    (handleDatagram chain context datagram).value = .crashed ↔
      ∃ request, Message.decode datagram = .ok request ∧ Answerable context.serverId request ∧
        16 < request.header.hlen := by
  cases hdecode : Message.decode datagram with
  | error cause =>
    rw [handleDatagram_of_error hdecode]
    simp
  | ok request =>
    rw [handleDatagram_of_ok hdecode]
    simp only [Except.ok.injEq, exists_eq_left']
    have proper := Message.wireLaws.proper_decode hdecode
    have typed := Message.decode_serverTyped hdecode
    rcases newReply_cases proper typed context.serverId with
      ⟨hnot, hvalue⟩ | ⟨ha, hgt, hvalue⟩ | ⟨-, hlen, type, -, hvalue⟩
    · rw [hvalue]
      simp [hnot]
    · rw [hvalue]
      simp [ha, hgt]
    · rw [hvalue]
      simp only [UInt8.not_lt.2 hlen, and_false, iff_false]
      split <;> exact fun h => by cases h

/-- The request with a count of 32 bytes of hardware address. -/
def oversizedRequest : Message := { relayedRequest with header.hlen := 32 }

theorem handleDatagram_oversizedRequest :
    (Chain.ofSpecs [⟨"pxe", []⟩]).value = .ok [Handler.pxe .standard] ∧
      (handleDatagram [Handler.pxe .standard] relayedContext
        (oversizedRequest.header.encode ++ relayedOptions)).value = .crashed := by
  constructor
  · refine Chain.value_ofSpecs_pxe fun spec h => ?_
    rw [List.mem_singleton.1 h]
    rfl
  · have hdecode : Message.decode (oversizedRequest.header.encode ++ relayedOptions) = .ok oversizedRequest :=
      decode_relayedOptions rfl rfl
    have hcrashed : (newReply oversizedRequest relayedContext.serverId).value = .crashed := by cbv
    rw [handleDatagram_of_ok hdecode, hcrashed]

/-- **The answer, byte for byte**, of a chain that a configuration with at least one plugin asked for. There always is
one, and it can be written with its options in any order. Whatever the order, behind the header stand entries of
different codes and a terminator, and nothing else: the type, the server where one is configured, and the PXE options
where the request has a machine identifier. -/
theorem handleDatagram_exact {specs : List PluginSpec} {chain : Chain} {context : ReplyContext}
    {datagram : Bytes} {request reply : Message} (hspecs : specs ≠ [])
    (hchain : (Chain.ofSpecs specs).value = .ok chain) (hdecode : Message.decode datagram = .ok request)
    (hreply : (newReply request context.serverId).value = .reply reply) :
    ∃ type final destination, Reply.Answers request type ∧
      destination = (if request.header.giaddr = .unspecified then ⟨context.broadcast, context.clientPort⟩
        else ⟨request.header.giaddr, context.serverPort⟩) ∧
      handledReply? chain context datagram = some (final, destination) ∧
      (∀ options, options.Perm (final.options.entries.map (·.2)) → ∃ body, Message.encodeOptions options = .ok body) ∧
      (∃ packet, (handleDatagram chain context datagram).value = .answered packet destination ∧
        Server.Answers ⟨context, chain⟩ datagram (packet, destination)) ∧
      ∀ answer, Server.Answers ⟨context, chain⟩ datagram answer → answer.2 = destination ∧
        (∃ entries, Tlv.decode (answer.1.drop 240) = .ok (entries ++ [Tlv.terminator]) ∧
          Tlv.encode (entries ++ [Tlv.terminator]) = .ok (answer.1.drop 240) ∧
          (entries.map Tlv.code).Nodup ∧
          entries.Perm (Reply.entries type context.serverId request.machineIdentifier?)) ∧
        answer.1.take 44 =
          [Header.reply, request.header.htype, request.header.hlen, 0] ++ Bytes.ofWord32 request.header.xid ++
            [0, 0] ++ Bytes.ofWord16 request.header.flags ++ List.replicate 12 0 ++ request.header.giaddr.bytes ++
            (request.header.chaddr.bytes.take request.header.hlen.toNat ++
              List.replicate (16 - request.header.hlen.toNat) 0) := by
  have proper := Message.wireLaws.proper_decode hdecode
  have typed := Message.decode_serverTyped hdecode
  obtain ⟨ha, hlen, type, htype, rfl⟩ := newReply_eq_reply proper typed hreply
  obtain ⟨final, hfinal, hheader, hsingles, hperm⟩ :=
    Reply.augment_bare proper ha.client type request.header.address context.serverId
  have hhandled : handledReply? chain context datagram = some (final, replyDestination request context) :=
    handledReply?_eq_some_iff.2 ⟨request, _, hdecode, hreply, by rw [Chain.run_of_ofSpecs hspecs hchain, hfinal], rfl⟩
  rw [Reply.header_bare hlen] at hheader
  obtain ⟨packet, hpacket⟩ := Message.exists_encode_of_singles hsingles
  refine ⟨type, final, replyDestination request context, htype, rfl, hhandled, fun options hoptions => ?_,
    ⟨packet, handleDatagram_answered_iff.2 ⟨final, hhandled, hpacket⟩, final, hhandled,
      Message.wireLaws.writes_encode hpacket⟩, ?_⟩
  · exact ⟨_, Message.encodeOptions_of_single fun option hmem =>
      OptionTable.single_of_mem hsingles (hoptions.mem_iff.1 hmem)⟩
  · rintro ⟨sent, destination⟩ ⟨written, hwritten, hwrites⟩
    obtain ⟨rfl, rfl⟩ := Prod.mk.inj (Option.some.inj (hhandled.symm.trans hwritten))
    obtain ⟨hfront, entries, hentries, hread, hback⟩ := Message.wireLaws.entries_of_writes hsingles hwrites
    have hanswer := hentries.trans hperm
    refine ⟨rfl, ⟨entries, hread, hback, ?_, hanswer⟩, ?_⟩
    · exact (hanswer.map Tlv.code).nodup_iff.2 (Reply.nodup_code_entries ..)
    · rw [hfront, hheader]
      exact Reply.front_header request.header hlen

/-- Two plugins answer the relayed request with every option once, at the relay. -/
theorem handleDatagram_relayedRequest :
    (Chain.ofSpecs [⟨"pxe", []⟩, ⟨"pxe", ["late"]⟩]).value = .ok (List.replicate 2 (Handler.pxe .standard)) ∧
      Message.decode (relayedHeader.encode ++ relayedOptions) = .ok relayedRequest ∧
      (∃ reply, (newReply relayedRequest relayedContext.serverId).value = .reply reply) ∧
      (∃ packet, (handleDatagram (List.replicate 2 (Handler.pxe .standard)) relayedContext
        (relayedHeader.encode ++ relayedOptions)).value = .answered packet ⟨⟨10, 0, 0, 1⟩, 67⟩) ∧
      ∀ answer, Server.Answers ⟨relayedContext, List.replicate 2 (Handler.pxe .standard)⟩
          (relayedHeader.encode ++ relayedOptions) answer →
        answer.2 = ⟨⟨10, 0, 0, 1⟩, 67⟩ ∧ ∃ entries,
          Tlv.decode (answer.1.drop 240) = .ok (entries ++ [Tlv.terminator]) ∧
          entries.Perm [⟨53, [5]⟩, ⟨54, [10, 0, 0, 254]⟩, ⟨60, ClassIdentifier.name⟩, ⟨97, relayedIdentifier⟩,
            ⟨43, [0x06, 0x01, 0x08, 0xFF]⟩] := by
  have hchain : (Chain.ofSpecs [⟨"pxe", []⟩, ⟨"pxe", ["late"]⟩]).value =
      .ok (List.replicate 2 (Handler.pxe .standard)) :=
    Chain.value_ofSpecs_pxe (List.forall_mem_cons.2 ⟨rfl, List.forall_mem_singleton.2 rfl⟩)
  have hdecode : Message.decode (relayedHeader.encode ++ relayedOptions) = .ok relayedRequest :=
    decode_relayedOptions rfl rfl
  have hanswers : Reply.Answers relayedRequest .ack := .inr ⟨.inl rfl, rfl⟩
  have hanswerable : Answerable relayedContext.serverId relayedRequest :=
    ⟨rfl, isPxeClient_relayedRequest, .inr ⟨_, rfl, rfl⟩, .ack, hanswers⟩
  obtain ⟨reply, hreply⟩ := newReply_of_answerable relayedRequest_proper
    (Message.serverTyped_of_canonical relayedRequest_canonical) hanswerable (by decide)
  obtain ⟨type, final, destination, htype, hdestination, -, -, ⟨packet, hanswered, -⟩, hsent⟩ :=
    handleDatagram_exact (List.cons_ne_nil _ _) hchain hdecode hreply
  have hrelay : destination = ⟨⟨10, 0, 0, 1⟩, 67⟩ := hdestination
  have hmachine : relayedRequest.machineIdentifier? = some relayedIdentifier := by
    rw [Message.machineIdentifier?, option?_relayedRequest.2]
    decide
  rw [htype.unique hanswers, hmachine, hrelay] at hsent
  refine ⟨hchain, hdecode, ⟨reply, hreply⟩, ⟨packet, hrelay ▸ hanswered⟩, fun answer hanswer => ?_⟩
  obtain ⟨hto, ⟨entries, hread, -, -, hperm⟩, -⟩ := hsent answer hanswer
  exact ⟨hto, entries, hread, hperm⟩

end ProxyDhcp
