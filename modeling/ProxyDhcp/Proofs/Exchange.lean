/-
Replies provoke no replies. The chain leaves the opcode of a reply alone (`handledReply?_opcode`), the packet
carries it in front of whatever options the handlers set, and a message with that opcode is ignored before its
options are looked at (`ignored_of_writtenAs`). So an exchange between responders ends with its first answer.
-/
import ProxyDhcp.Proofs.Handlers
import ProxyDhcp.Proofs.Serving

namespace ProxyDhcp

/-! ## The opcode of a reply -/

/-- Whatever options the handlers set, a reply stays a reply. -/
theorem handledReply?_opcode {chain : Chain} (hchain : ∀ handler ∈ chain, handler.IsPxe ∨ handler.Setter)
    {context : ReplyContext} {datagram : Bytes} {reply : Message} {destination : Endpoint}
    (h : handledReply? chain context datagram = some (reply, destination)) :
    reply.header.opcode = Header.reply := by
  obtain ⟨request, bare, hdecode, hbare, rfl, -⟩ := handledReply?_eq_some_iff.1 h
  have proper := Message.wireLaws.proper_decode hdecode
  have typed := Message.decode_serverTyped hdecode
  rw [Chain.header_run hchain proper, (newReply_isBare proper typed hbare).header]
  rfl

/-! ## A reply as a datagram -/

theorem handleDatagram_ignored {datagram : Bytes} {message : Message}
    (hdecode : Message.decode datagram = .ok message) (hopcode : message.header.opcode ≠ Header.request)
    (chain : Chain) (context : ReplyContext) : (handleDatagram chain context datagram).value = .ignored := by
  have hignored : (newReply message context.serverId).value = .ignored := by
    rw [newReply, if_pos hopcode]
    rfl
  rw [handleDatagram_of_ok hdecode, hignored]

/-- A packet of a message with the opcode of a reply is ignored, also when it is cut off behind its header. -/
theorem ignored_of_writtenAs {message : Message} {packet : Bytes} (hwritten : message.WrittenAs packet)
    (hopcode : message.header.opcode = Header.reply) {n : Nat} (hn : 240 ≤ n) (chain : Chain)
    (context : ReplyContext) : (handleDatagram chain context (packet.take n)).value = .ignored := by
  -- The cut is behind the header, and whatever is left of the options, the message decodes.
  obtain ⟨options, hdecode⟩ := Message.wireLaws.decode_take_of_writes hwritten hn
  refine handleDatagram_ignored hdecode ?_ chain context
  show message.header.opcode ≠ Header.request
  rw [hopcode]
  decide

/-! ## Exchanges -/

/-- A responder, whose chain is one of PXE handlers and setters, answers a message with the next one. What it
receives of the message is what its buffer holds. -/
def Provokes (message next : Bytes) : Prop :=
  ∃ (server : Server) (destination : Endpoint), (∀ handler ∈ server.chain, handler.IsPxe ∨ handler.Setter) ∧
    server.Answers (message.take Server.bufferSize) (next, destination)

theorem not_answers_of_ignored {server : Server} {copy : Bytes}
    (h : (handleDatagram server.chain server.context copy).value = .ignored) (answer : Bytes × Endpoint) :
    ¬ server.Answers copy answer := by
  rintro ⟨reply, hreply, hwritten⟩
  obtain ⟨packet, hpacket⟩ := Message.wireLaws.exists_encode_of_writes hwritten
  have hanswered := handleDatagram_answered_iff.2 ⟨reply, hreply, hpacket⟩
  rw [h] at hanswered
  cases hanswered

/-- What was provoked provokes nothing. -/
theorem Provokes.last {first message next : Bytes} (h : Provokes first message) : ¬ Provokes message next := by
  obtain ⟨server, destination, hchain, reply, hreply, hwritten⟩ := h
  rintro ⟨other, target, -, hanswers⟩
  have hignored := ignored_of_writtenAs hwritten (handledReply?_opcode hchain hreply)
    (show 240 ≤ Server.bufferSize by decide) other.chain other.context
  exact not_answers_of_ignored hignored _ hanswers

/-- **Replies provoke no replies.** What a chain of PXE handlers and setters answers is ignored by any chain in any
context, with its options in any order, and cut off anywhere behind its header. So an exchange of messages, each
the answer of some responder to the one before, ends with the first answer. -/
theorem answer_ignored {chain : Chain} (hchain : ∀ handler ∈ chain, handler.IsPxe ∨ handler.Setter)
    (context : ReplyContext) (datagram : Bytes) :
    (∀ packet destination, (handleDatagram chain context datagram).value = .answered packet destination →
      ∀ other otherContext, (handleDatagram other otherContext packet).value = .ignored) ∧
    (∀ packet destination, Server.Answers ⟨context, chain⟩ datagram (packet, destination) →
      ∀ other otherContext n, 240 ≤ n → (handleDatagram other otherContext (packet.take n)).value = .ignored) ∧
    ∀ messages : List Bytes, (datagram :: messages).IsChain Provokes → messages.length ≤ 1 := by
  have hignored : ∀ packet destination, Server.Answers ⟨context, chain⟩ datagram (packet, destination) →
      ∀ other otherContext n, 240 ≤ n → (handleDatagram other otherContext (packet.take n)).value = .ignored := by
    rintro packet destination ⟨reply, hreply, hwritten⟩ other otherContext n hn
    exact ignored_of_writtenAs hwritten (handledReply?_opcode hchain hreply) hn other otherContext
  refine ⟨?_, hignored, ?_⟩
  · intro packet destination hanswered other otherContext
    obtain ⟨reply, hreply, hpacket⟩ := handleDatagram_answered_iff.1 hanswered
    have h := hignored packet destination ⟨reply, hreply, Message.wireLaws.writes_encode hpacket⟩ other otherContext
      (max 240 packet.length) (Nat.le_max_left ..)
    rwa [List.take_of_length_le (Nat.le_max_right ..)] at h
  · intro messages hexchange
    match messages, hexchange with
    | [], _ => exact Nat.zero_le 1
    | [answer], _ => exact Nat.le_refl 1
    | answer :: next :: rest, hexchange =>
      obtain ⟨hfirst, hrest⟩ := List.isChain_cons_cons.1 hexchange
      exact absurd (List.isChain_cons_cons.1 hrest).1 hfirst.last

/-- A PXE handler, and then settings that make the reply look like the request of a PXE client. -/
def mimicChain : Chain :=
  [Handler.pxe .standard, Handler.setOption 53 [3], Handler.setOption classIdentifierCode relayedClass]

theorem answer_ignored_mimicChain :
    (∀ handler ∈ mimicChain, handler.IsPxe ∨ handler.Setter) ∧
      ∃ packet, (handleDatagram mimicChain relayedContext (relayedHeader.encode ++ relayedOptions)).value =
          .answered packet ⟨⟨10, 0, 0, 1⟩, 67⟩ ∧
        (handleDatagram [Handler.pxe .standard] relayedContext packet).value = .ignored := by
  have hchain : ∀ handler ∈ mimicChain, handler.IsPxe ∨ handler.Setter := by
    intro handler hmem
    simp only [mimicChain, List.mem_cons, List.not_mem_nil, or_false] at hmem
    rcases hmem with rfl | rfl | rfl
    · exact .inl rfl
    · exact .inr (Handler.blindSetter_setOption _ _).setter
    · exact .inr (Handler.blindSetter_setOption _ _).setter
  obtain ⟨bare, hbare⟩ := exists_newReply_relayedRequest
  obtain ⟨packet, hanswered⟩ := handleDatagram_answered hchain (decode_relayedOptions rfl rfl) hbare
  have hignored := (answer_ignored hchain relayedContext _).1 packet _ hanswered
  exact ⟨hchain, packet, hanswered, hignored [Handler.pxe .standard] relayedContext⟩

end ProxyDhcp
