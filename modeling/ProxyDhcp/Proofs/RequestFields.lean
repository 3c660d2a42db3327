/-
What of a request its answer depends on. Two requests that agree on seven header fields, on the hardware address
and on options 53, 54, 60 and 97 (`Message.Agrees`) are classified alike, get the same bare reply
(`Message.Agrees.newReply_eq`), and every handler does the same for both (`Message.Agrees.run_eq`). So the two are
answered alike, and no other field, no byte of the hardware address field behind the address and no other option
has a part in what is sent.
-/
import ProxyDhcp.Proofs.Handlers
import ProxyDhcp.Proofs.Serving

namespace ProxyDhcp

/-- Two requests that agree on what an answer may depend on. -/
structure Message.Agrees (request other : Message) : Prop where
  opcode : other.header.opcode = request.header.opcode
  htype : other.header.htype = request.header.htype
  hlen : other.header.hlen = request.header.hlen
  xid : other.header.xid = request.header.xid
  flags : other.header.flags = request.header.flags
  giaddr : other.header.giaddr = request.header.giaddr
  /-- The first `hlen` bytes of `chaddr`. -/
  address : other.header.address = request.header.address
  type : other.options.get? (.known 53) = request.options.get? (.known 53)
  server : other.options.get? (.known 54) = request.options.get? (.known 54)
  client : other.options.get? (.known 60) = request.options.get? (.known 60)
  machine : other.options.get? (.known 97) = request.options.get? (.known 97)

namespace Message.Agrees

variable {request other : Message} (h : request.Agrees other)
include h

theorem isPxeClient_eq : (isPxeClient other).value = (isPxeClient request).value :=
  congrArg Logged.value (isPxeClient_congr h.client)

theorem otherServer?_eq (serverId : Option Ipv4) :
    Reply.otherServer? other serverId = Reply.otherServer? request serverId := by
  rw [Reply.otherServer?, Reply.otherServer?, Message.serverIdentifier?, Message.serverIdentifier?, h.server]

theorem answerType?_eq : Reply.answerType? other = Reply.answerType? request := by
  rw [Reply.answerType?, Reply.answerType?, Message.messageType?, Message.messageType?, h.type]

theorem hardwareAddress?_eq : other.header.hardwareAddress? = request.header.hardwareAddress? := by
  have haddress : other.header.chaddr.bytes.take request.header.hlen.toNat =
      request.header.chaddr.bytes.take request.header.hlen.toNat := by
    rw [← h.hlen]
    exact h.address.trans (by rw [Header.address, h.hlen])
  rw [Header.hardwareAddress?, Header.hardwareAddress?, h.hlen, haddress]

theorem bare_eq (type : MessageType) (address : Bytes) (serverId : Option Ipv4) :
    Reply.bare other type address serverId = Reply.bare request type address serverId := by
  simp only [Reply.bare, h.htype, h.xid, h.flags, h.giaddr]

/-- Both are ignored, or get the same reply. -/
theorem newReply_eq (serverId : Option Ipv4) :
    (newReply other serverId).value = (newReply request serverId).value := by
  rw [newReply, newReply, h.opcode]
  by_cases hopcode : request.header.opcode ≠ Header.request
  · rw [if_pos hopcode, if_pos hopcode]
  · rw [if_neg hopcode, if_neg hopcode, Logged.value_bind, Logged.value_bind, h.isPxeClient_eq]
    by_cases hclient : (isPxeClient request).value = true
    · simp only [hclient, Bool.not_true, Bool.false_eq_true, if_false, h.otherServer?_eq, h.answerType?_eq,
        h.hardwareAddress?_eq, h.bare_eq]
      cases Reply.otherServer? request serverId <;> rfl
    · simp only [hclient, Bool.not_false, if_true]

theorem replyDestination_eq (context : ReplyContext) :
    replyDestination other context = replyDestination request context := by
  rw [replyDestination, replyDestination, h.giaddr]

theorem augment_eq (templates : Templates) (reply : Message) :
    (augment templates other reply).value = (augment templates request reply).value := by
  have hmachine : other.options.get? (.ofByte machineIdentifierCode) =
      request.options.get? (.ofByte machineIdentifierCode) := by
    rw [ofByte_machineIdentifierCode]
    exact h.machine
  simp only [augment, Logged.value_bind, h.isPxeClient_eq, hmachine]

/-- A chain that sees a request through its PXE handlers alone does the same for both. -/
theorem run_eq {chain : Chain} (hchain : ∀ handler ∈ chain, handler.IsPxe ∨ handler.BlindSetter)
    (reply : Message) : (chain.run other reply).value = (chain.run request reply).value := by
  refine Chain.run_congr (fun handler hmem reply => ?_) reply
  rcases hchain handler hmem with hpxe | hblind
  · rw [hpxe.value_handle, hpxe.value_handle, h.augment_eq]
  · obtain ⟨settings, flow, hvalue⟩ := hblind reply
    rw [hvalue, hvalue]

end Message.Agrees

/-- **Only these fields of a request have a part in what is sent.** Two datagrams whose requests agree have the
same outcome of any chain of PXE handlers and blind setters: both are ignored, or both are answered with the same
packet at the same destination. With the options in any order, what may be sent for one is what may be sent for
the other. -/
theorem handleDatagram_agrees {chain : Chain} (hchain : ∀ handler ∈ chain, handler.IsPxe ∨ handler.BlindSetter)
    (context : ReplyContext) {first second : Bytes} {request other : Message}
    (hfirst : Message.decode first = .ok request) (hsecond : Message.decode second = .ok other)
    (hlen : request.header.hlen ≤ 16) (hagrees : request.Agrees other) :
    (((handleDatagram chain context first).value = .ignored ∧ (handleDatagram chain context second).value = .ignored) ∨
      ∃ packet destination, (handleDatagram chain context first).value = .answered packet destination ∧
        (handleDatagram chain context second).value = .answered packet destination) ∧
    ∀ answer, Server.Answers ⟨context, chain⟩ second answer ↔ Server.Answers ⟨context, chain⟩ first answer := by
  have proper := Message.wireLaws.proper_decode hfirst
  have typed := Message.decode_serverTyped hfirst
  have hreply := hagrees.newReply_eq context.serverId
  have hrun := hagrees.run_eq hchain
  have hdestination := hagrees.replyDestination_eq context
  have houtcome : (handleDatagram chain context second).value = (handleDatagram chain context first).value := by
    rw [handleDatagram_of_ok hfirst, handleDatagram_of_ok hsecond, hreply, hdestination]
    simp only [hrun]
  have hhandled : handledReply? chain context second = handledReply? chain context first := by
    rw [handledReply?, handledReply?, hfirst, hsecond]
    simp only [hreply, hrun, hdestination]
  refine ⟨?_, fun answer => ?_⟩
  · rw [houtcome, and_self]
    rcases newReply_cases proper typed context.serverId with
      ⟨-, hvalue⟩ | ⟨-, hgt, -⟩ | ⟨-, -, type, -, hvalue⟩
    · refine .inl ?_
      rw [handleDatagram_of_ok hfirst, hvalue]
    · -- Only a longer address would crash the server.
      exact absurd hlen (UInt8.not_le.2 hgt)
    · obtain ⟨packet, hanswered⟩ := handleDatagram_answered
        (fun handler hmem => (hchain handler hmem).imp_right Handler.BlindSetter.setter) hfirst hvalue
      exact .inr ⟨packet, _, hanswered, hanswered⟩
  · rw [Server.Answers, Server.Answers, hhandled]

/-- The header of `relayedRequest` with other values in all fields that have no part in the answer. -/
def rewrittenHeader : Header :=
  { relayedHeader with
    hops := 5
    secs := 0
    ciaddr := .unspecified
    yiaddr := ⟨10, 0, 0, 8⟩
    siaddr := ⟨10, 0, 0, 9⟩
    chaddr := .fit 16 [0x00, 0x0C, 0x29, 0xA8, 0x92, 0xF4, 0xDE, 0xAD]
    sname := .fit 64 (ClassIdentifier.ascii "server")
    file := .fit 128 (ClassIdentifier.ascii "image")
    magic := ⟨[1, 2, 3, 4], rfl⟩ }

/-- `relayedRequest` under that header, with a name of the client's. -/
def rewrittenRequest : Message :=
  ⟨rewrittenHeader, relayedRequest.options.add ⟨.known 12, ClassIdentifier.ascii "client"⟩⟩

theorem decode_rewrittenRequest :
    Message.decode (rewrittenHeader.encode ++
      (DhcpOption.segment 12 (ClassIdentifier.ascii "client") ++ relayedOptions)) = .ok rewrittenRequest := by
  rw [Message.decode_encode_append, relayedOptions,
    Message.readOptions_segment (by decide) (by decide) (by decide) (by decide) rfl,
    Message.readOptions_segment (by decide) (by decide) (by decide) (by decide) rfl,
    Message.readOptions_segment (by decide) (by decide) (by decide) (by decide) rfl,
    Message.readOptions_segment (by decide) (by decide) (by decide) (by decide) rfl,
    Message.readOptions_segment (by decide) (by decide) (by decide) (by decide) rfl, Message.readOptions]
  rfl

theorem relayedRequest_agrees : relayedRequest.Agrees rewrittenRequest :=
  ⟨rfl, rfl, rfl, rfl, rfl, rfl, rfl, rfl, rfl, rfl, rfl⟩

/-- The third handler stops the chain in front of a second PXE handler. -/
def stoppedChain : Chain :=
  [Handler.setOption 12 (ClassIdentifier.ascii "boot"), Handler.pxe .standard, Handler.stop, Handler.pxe .standard]

theorem handleDatagram_agrees_rewrittenRequest :
    (∀ handler ∈ stoppedChain, handler.IsPxe ∨ handler.BlindSetter) ∧ relayedRequest.Agrees rewrittenRequest ∧
      ∃ packet destination,
        (handleDatagram stoppedChain relayedContext (relayedHeader.encode ++ relayedOptions)).value =
          .answered packet destination ∧
        (handleDatagram stoppedChain relayedContext (rewrittenHeader.encode ++
          (DhcpOption.segment 12 (ClassIdentifier.ascii "client") ++ relayedOptions))).value =
            .answered packet destination := by
  have hchain : ∀ handler ∈ stoppedChain, handler.IsPxe ∨ handler.BlindSetter := by
    intro handler hmem
    simp only [stoppedChain, List.mem_cons, List.not_mem_nil, or_false] at hmem
    rcases hmem with rfl | rfl | rfl | rfl
    · exact .inr (Handler.blindSetter_setOption _ _)
    · exact .inl rfl
    · exact .inr Handler.blindSetter_stop
    · exact .inl rfl
  have hfirst : Message.decode (relayedHeader.encode ++ relayedOptions) = .ok relayedRequest :=
    decode_relayedOptions rfl rfl
  obtain ⟨bare, hbare⟩ := exists_newReply_relayedRequest
  obtain ⟨sent, hsent⟩ := handleDatagram_answered
    (fun handler hmem => (hchain handler hmem).imp_right Handler.BlindSetter.setter) hfirst hbare
  rcases (handleDatagram_agrees hchain relayedContext hfirst decode_rewrittenRequest (by decide)
    relayedRequest_agrees).1 with ⟨hignored, -⟩ | hanswered
  · rw [hsent] at hignored
    cases hignored
  · exact ⟨hchain, relayedRequest_agrees, hanswered⟩

end ProxyDhcp
