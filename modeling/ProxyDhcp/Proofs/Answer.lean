/-
Which requests are answered and what the bare reply holds. The conditions are those of `Answerable`, told
by the options themselves; `newReply_cases` is the whole of the decision: without them the request is
ignored, and with them the length of the hardware address alone decides between a bare reply and a crash.

A message is taken to hold its options under their own codes, and an address in its option 54
(`Message.ServerTyped`), as every message from the wire does.
-/
import ProxyDhcp.Reply
import ProxyDhcp.Proofs.PxeClient

namespace ProxyDhcp

/-! ## The conditions -/

/-- The type of the answer to a request: an offer to a discover, an ack to a request or an inform. -/
def Reply.Answers (request : Message) (type : MessageType) : Prop :=
  (request.options.get? (.known 53) = some (typeOption .discover) ∧ type = .offer) ∨
  ((request.options.get? (.known 53) = some (typeOption .request) ∨
    request.options.get? (.known 53) = some (typeOption .inform)) ∧ type = .ack)

/-- The request names no server, or the one with this identifier. -/
def Reply.Meant (serverId : Option Ipv4) (request : Message) : Prop :=
  request.options.get? (.known 54) = none ∨
  ∃ server, serverId = some server ∧ request.options.get? (.known 54) = some (serverOption server)

/-- A request that calls for an answer of the server with this identifier. -/
structure Answerable (serverId : Option Ipv4) (request : Message) : Prop where
  opcode : request.header.opcode = Header.request
  client : (isPxeClient request).value = true
  meant : Reply.Meant serverId request
  answers : ∃ type, Reply.Answers request type

/-! ## Options 53 and 54 -/

theorem MessageType.byte_of_ofByte? {byte : UInt8} {type : MessageType} (h : ofByte? byte = some type) :
    type.byte = byte := by
  simpa using List.find?_some h

theorem MessageType.ofByte?_byte (type : MessageType) : ofByte? type.byte = some type := by
  cases type <;> rfl

theorem Message.messageType?_eq_some_iff {message : Message} {value : UInt8} :
    message.messageType? = some value ↔ message.options.get? (.known 53) = some ⟨.known 53, [value]⟩ := by
  rw [messageType?]
  split
  · next held h => rw [h]; simp
  · next h => exact ⟨fun hnone => (by cases hnone), fun hheld => absurd hheld (h value)⟩

theorem Reply.answerType?_eq_some_iff {request : Message} {type : MessageType} :
    answerType? request = some type ↔ Answers request type := by
  simp only [answerType?, Option.bind_eq_bind, Option.bind_eq_some_iff, Message.messageType?_eq_some_iff]
  constructor
  · rintro ⟨value, hheld, kind, hkind, hanswer⟩
    obtain rfl := MessageType.byte_of_ofByte? hkind
    cases kind with
    | discover => exact .inl ⟨hheld, by simpa [MessageType.answer?] using hanswer.symm⟩
    | request => exact .inr ⟨.inl hheld, by simpa [MessageType.answer?] using hanswer.symm⟩
    | inform => exact .inr ⟨.inr hheld, by simpa [MessageType.answer?] using hanswer.symm⟩
    | offer | decline | ack | nak | release => cases hanswer
  · rintro (⟨hheld, rfl⟩ | ⟨hheld | hheld, rfl⟩)
    · exact ⟨_, hheld, .discover, MessageType.ofByte?_byte _, rfl⟩
    · exact ⟨_, hheld, .request, MessageType.ofByte?_byte _, rfl⟩
    · exact ⟨_, hheld, .inform, MessageType.ofByte?_byte _, rfl⟩

theorem Ipv4.eq_bytes_of_length {content : Bytes} (h : content.length = 4) :
    ∃ address : Ipv4, content = address.bytes := by
  match content, h with
  | [a, b, c, d], _ => exact ⟨⟨a, b, c, d⟩, rfl⟩

/-- An option 54 holds an address. -/
def Message.ServerTyped (message : Message) : Prop :=
  ∀ content, message.options.get? (.known 54) = some ⟨.known 54, content⟩ → content.length = 4

theorem Message.serverTyped_of_canonical {message : Message} (h : message.options.Canonical) :
    message.ServerTyped := by
  intro content hget
  have hcontent : (Layout.exact 4).content content = .ok content := h _ _ hget
  exact Layout.contentLaws.length_content_exact hcontent

theorem Message.decode_serverTyped {bytes : Bytes} {message : Message} (h : decode bytes = .ok message) :
    message.ServerTyped :=
  serverTyped_of_canonical (wireLaws.canonical_decode h)

theorem Message.serverOption_of_get? {message : Message} (proper : message.options.Proper)
    (typed : message.ServerTyped) {option : DhcpOption} (h : message.options.get? (.known 54) = some option) :
    ∃ server, option = Reply.serverOption server := by
  obtain ⟨code, content⟩ := option
  obtain rfl : code = .known 54 := proper _ _ h
  obtain ⟨server, rfl⟩ := Ipv4.eq_bytes_of_length (typed content h)
  exact ⟨server, rfl⟩

theorem Reply.serverOption_injective {server other : Ipv4} (h : serverOption server = serverOption other) :
    server = other := by
  have hbytes : server.bytes = other.bytes := congrArg DhcpOption.content h
  simpa using congrArg Ipv4.ofBytes? hbytes

theorem Reply.otherServer?_eq_none_iff {request : Message} (proper : request.options.Proper)
    (typed : request.ServerTyped) {serverId : Option Ipv4} :
    otherServer? request serverId = none ↔ Meant serverId request := by
  rw [otherServer?, Message.serverIdentifier?, Meant]
  cases hget : request.options.get? (.known 54) with
  | none => simp
  | some option =>
    obtain ⟨server, rfl⟩ := Message.serverOption_of_get? proper typed hget
    show ((some server).filter fun server => some server != serverId) = none ↔ _
    simp only [Option.filter_some, bne_iff_ne, ite_eq_right_iff, reduceCtorEq, imp_false,
      Decidable.not_not, false_or, Option.some.injEq]
    constructor
    · intro h
      exact ⟨server, h.symm, rfl⟩
    · rintro ⟨other, rfl, h⟩
      rw [serverOption_injective h]

/-! ## The decision -/

/-- The hardware address, as many bytes of it as the field has. -/
def Header.address (header : Header) : Bytes := header.chaddr.bytes.take header.hlen.toNat

section Decision

variable {request : Message} (proper : request.options.Proper) (typed : request.ServerTyped)
include proper typed

/-- **The decision in full.** -/
theorem newReply_cases (serverId : Option Ipv4) :
    (¬ Answerable serverId request ∧ (newReply request serverId).value = .ignored) ∨
    (Answerable serverId request ∧ 16 < request.header.hlen ∧
      (newReply request serverId).value = .crashed) ∨
    (Answerable serverId request ∧ request.header.hlen ≤ 16 ∧ ∃ type, Reply.Answers request type ∧
      (newReply request serverId).value =
        .reply (Reply.bare request type request.header.address serverId)) := by
  rw [newReply]
  split
  · next hopcode => exact .inl ⟨fun h => hopcode h.opcode, rfl⟩
  next hopcode =>
  rw [Logged.value_bind]
  cases hclient : (isPxeClient request).value with
  | false => exact .inl ⟨fun h => Bool.false_ne_true (hclient.symm.trans h.client), rfl⟩
  | true =>
    simp only [Bool.not_true, Bool.false_eq_true, if_false]
    split
    · next server hserver =>
      refine .inl ⟨fun h => ?_, rfl⟩
      rw [(Reply.otherServer?_eq_none_iff proper typed).2 h.meant] at hserver
      cases hserver
    next hserver =>
    have hmeant := (Reply.otherServer?_eq_none_iff proper typed).1 hserver
    split
    · next htype =>
      refine .inl ⟨fun h => ?_, rfl⟩
      obtain ⟨type, hanswers⟩ := h.answers
      rw [Reply.answerType?_eq_some_iff.2 hanswers] at htype
      cases htype
    next type htype =>
    have hanswers := Reply.answerType?_eq_some_iff.1 htype
    have hanswerable : Answerable serverId request :=
      ⟨Decidable.not_not.1 hopcode, hclient, hmeant, type, hanswers⟩
    -- Only now is the hardware address read.
    rw [Header.hardwareAddress?]
    by_cases hlen : request.header.hlen ≤ 16
    · rw [if_pos hlen]
      exact .inr (.inr ⟨hanswerable, hlen, type, hanswers, rfl⟩)
    · rw [if_neg hlen]
      exact .inr (.inl ⟨hanswerable, UInt8.not_le.1 hlen, rfl⟩)

theorem newReply_eq_reply {serverId : Option Ipv4} {reply : Message}
    (h : (newReply request serverId).value = .reply reply) :
    Answerable serverId request ∧ request.header.hlen ≤ 16 ∧
      ∃ type, Reply.Answers request type ∧ reply = Reply.bare request type request.header.address serverId := by
  rcases newReply_cases proper typed serverId with
    ⟨-, hvalue⟩ | ⟨-, -, hvalue⟩ | ⟨ha, hlen, type, htype, hvalue⟩
  · rw [hvalue] at h; cases h
  · rw [hvalue] at h; cases h
  · rw [hvalue] at h
    cases h
    exact ⟨ha, hlen, type, htype, rfl⟩

theorem newReply_of_answerable {serverId : Option Ipv4} (h : Answerable serverId request)
    (hlen : request.header.hlen ≤ 16) : ∃ reply, (newReply request serverId).value = .reply reply := by
  rcases newReply_cases proper typed serverId with ⟨hnot, -⟩ | ⟨-, hgt, -⟩ | ⟨-, -, type, -, hvalue⟩
  · exact absurd h hnot
  · exact absurd hlen (UInt8.not_le.2 hgt)
  · exact ⟨_, hvalue⟩

theorem newReply_of_not_answerable {serverId : Option Ipv4} (h : ¬ Answerable serverId request) :
    (newReply request serverId).value = .ignored := by
  rcases newReply_cases proper typed serverId with ⟨-, hvalue⟩ | ⟨ha, -⟩ | ⟨ha, -⟩
  · exact hvalue
  · exact absurd ha h
  · exact absurd ha h

end Decision

/-! ## The bare reply -/

/-- The header of every answer: the opcode of a reply, six fields of the request, and nothing else. -/
def Reply.header (request : Header) : Header where
  opcode := Header.reply
  htype := request.htype
  hlen := request.hlen
  hops := 0
  xid := request.xid
  secs := 0
  flags := request.flags
  ciaddr := .unspecified
  yiaddr := .unspecified
  siaddr := .unspecified
  giaddr := request.giaddr
  chaddr := .fit 16 request.address
  sname := .zero 64
  file := .zero 128
  magic := Header.cookie

/-- A reply with the header of an answer and no options but 53, the answer's type, and 54, the identifier of
the server if it has one. -/
structure Reply.IsBare (request : Message) (serverId : Option Ipv4) (reply : Message) : Prop where
  header : reply.header = Reply.header request.header
  type : ∃ type, Reply.Answers request type ∧ reply.options.get? (.known 53) = some (typeOption type)
  server : reply.options.get? (.known 54) = serverId.map serverOption
  others : ∀ code, code ≠ .known 53 → code ≠ .known 54 → reply.options.get? code = none

theorem Header.length_address {header : Header} (hlen : header.hlen ≤ 16) :
    header.address.length = header.hlen.toNat := by
  have hle : header.hlen.toNat ≤ 16 := UInt8.le_iff_toNat_le.1 hlen
  rw [address, List.length_take, Bytes.Field.length_eq]
  omega

theorem Reply.header_bare {request : Message} (hlen : request.header.hlen ≤ 16) (type : MessageType)
    (serverId : Option Ipv4) :
    (bare request type request.header.address serverId).header = header request.header := by
  simp only [bare, Header.withHardwareAddress, Header.length_address hlen, UInt8.ofNat_toNat]
  rfl

theorem Reply.get?_bare (request : Message) (type : MessageType) (address : Bytes) (serverId : Option Ipv4)
    (code : OptionCode) :
    (bare request type address serverId).options.get? code =
      if code = .known 54 ∧ serverId.isSome then serverId.map serverOption
      else if code = .known 53 then some (typeOption type) else none := by
  cases serverId with
  | none => simp [bare, OptionTable.get?_add, typeOption]
  | some server => simp [bare, OptionTable.get?_add, typeOption, serverOption]

theorem Reply.isBare_bare {request : Message} (hlen : request.header.hlen ≤ 16) {type : MessageType}
    (htype : Answers request type) (serverId : Option Ipv4) :
    IsBare request serverId (bare request type request.header.address serverId) where
  header := header_bare hlen type serverId
  type := ⟨type, htype, by simp [get?_bare]⟩
  server := by cases serverId <;> simp [get?_bare]
  others code h53 h54 := by simp [get?_bare, h53, h54]

/-! ## Several servers -/

theorem Answerable.of_unnamed {request : Message} (hget : request.options.get? (.known 54) = none)
    {first : Option Ipv4} (h : Answerable first request) (second : Option Ipv4) : Answerable second request :=
  { h with meant := .inl hget }

theorem Answerable.eq_of_named {request : Message} {option : DhcpOption}
    (hget : request.options.get? (.known 54) = some option) {serverId : Option Ipv4}
    (h : Answerable serverId request) :
    ∃ server, serverId = some server ∧ option = Reply.serverOption server := by
  rcases h.meant with hnone | ⟨server, rfl, hsome⟩
  · rw [hget] at hnone; cases hnone
  · rw [hget] at hsome
    cases hsome
    exact ⟨server, rfl, rfl⟩

theorem Reply.Answers.unique {request : Message} {type other : MessageType} (h : Answers request type)
    (h' : Answers request other) : type = other := by
  have hsome := (answerType?_eq_some_iff.2 h).symm.trans (answerType?_eq_some_iff.2 h')
  exact Option.some.inj hsome

/-- Bare replies of two servers to one request differ in option 54 only. -/
theorem Reply.IsBare.agree {request reply other : Message} {first second : Option Ipv4}
    (h : IsBare request first reply) (h' : IsBare request second other) :
    other.header = reply.header ∧
      ∀ code, code ≠ .known 54 → other.options.get? code = reply.options.get? code := by
  refine ⟨h'.header.trans h.header.symm, fun code h54 => ?_⟩
  by_cases h53 : code = .known 53
  · subst h53
    obtain ⟨type, htype, hget⟩ := h.type
    obtain ⟨type', htype', hget'⟩ := h'.type
    rw [hget, hget', htype.unique htype']
  · rw [h.others code h53 h54, h'.others code h53 h54]

theorem newReply_isBare {request reply : Message} (proper : request.options.Proper)
    (typed : request.ServerTyped) {serverId : Option Ipv4}
    (h : (newReply request serverId).value = .reply reply) : Reply.IsBare request serverId reply := by
  obtain ⟨-, hlen, type, htype, rfl⟩ := newReply_eq_reply proper typed h
  exact Reply.isBare_bare hlen htype serverId

/-- **Which messages are answered, and with what.** A message whose hardware address is readable gets a reply
if and only if it is `Answerable`; without one of those conditions it is ignored, readable or not. The reply is
bare: it takes six header fields from the request and no option. Of servers with different identifiers at most
one answers a request that names a server, and none without an identifier does; a request that names none gets
the same reply of all of them but for option 54. -/
theorem newReply_exact {request : Message} (proper : request.options.Proper)
    (typed : request.ServerTyped) (serverId : Option Ipv4) :
    (request.header.hlen ≤ 16 →
      ((∃ reply, (newReply request serverId).value = .reply reply) ↔ Answerable serverId request)) ∧
    (¬ Answerable serverId request → (newReply request serverId).value = .ignored) ∧
    (∀ reply, (newReply request serverId).value = .reply reply → Reply.IsBare request serverId reply) ∧
    (request.options.get? (.known 54) ≠ none →
      (newReply request none).value = .ignored ∧
      ∀ first second reply other, (newReply request (some first)).value = .reply reply →
        (newReply request (some second)).value = .reply other → first = second) ∧
    (request.options.get? (.known 54) = none → ∀ first second reply,
      (newReply request (some first)).value = .reply reply →
        ∃ other, (newReply request (some second)).value = .reply other ∧ other.header = reply.header ∧
          ∀ code, code ≠ .known 54 → other.options.get? code = reply.options.get? code) := by
  refine ⟨fun hlen => ⟨?_, fun h => newReply_of_answerable proper typed h hlen⟩,
    newReply_of_not_answerable proper typed, fun _ => newReply_isBare proper typed, fun hnamed => ?_,
    fun hunnamed first second reply hreply => ?_⟩
  · rintro ⟨reply, hreply⟩
    exact (newReply_eq_reply proper typed hreply).1
  · obtain ⟨option, hget⟩ := Option.ne_none_iff_exists'.1 hnamed
    constructor
    · refine newReply_of_not_answerable proper typed fun h => ?_
      obtain ⟨server, hserver, -⟩ := h.eq_of_named hget
      cases hserver
    · intro first second reply other hreply hother
      obtain ⟨_, hfirst, rfl⟩ := (newReply_eq_reply proper typed hreply).1.eq_of_named hget
      obtain ⟨_, hsecond, hsame⟩ := (newReply_eq_reply proper typed hother).1.eq_of_named hget
      cases hfirst
      cases hsecond
      exact Reply.serverOption_injective hsame
  · obtain ⟨ha, hlen, -⟩ := newReply_eq_reply proper typed hreply
    obtain ⟨other, hother⟩ :=
      newReply_of_answerable proper typed (ha.of_unnamed hunnamed (some second)) hlen
    have hfirst := newReply_isBare proper typed hreply
    have hsecond := newReply_isBare proper typed hother
    exact ⟨other, hother, hfirst.agree hsecond⟩

/-- The server that the request names answers it with an ack, and a server without an identifier does not. -/
theorem newReply_relayedRequest :
    relayedRequest.options.Proper ∧ relayedRequest.ServerTyped ∧
      (∃ reply, (newReply relayedRequest (some ⟨10, 0, 0, 254⟩)).value = .reply reply ∧
        Reply.IsBare relayedRequest (some ⟨10, 0, 0, 254⟩) reply) ∧
      (newReply relayedRequest none).value = .ignored := by
  have typed := Message.serverTyped_of_canonical relayedRequest_canonical
  obtain ⟨hiff, -, hbare, hnamed, -⟩ := newReply_exact relayedRequest_proper typed (some ⟨10, 0, 0, 254⟩)
  have hserver : relayedRequest.options.get? (.known 54) = some (Reply.serverOption ⟨10, 0, 0, 254⟩) := rfl
  have hanswerable : Answerable (some ⟨10, 0, 0, 254⟩) relayedRequest :=
    ⟨rfl, isPxeClient_relayedRequest, .inr ⟨_, rfl, hserver⟩, .ack, .inr ⟨.inl rfl, rfl⟩⟩
  obtain ⟨reply, hreply⟩ := (hiff (by decide)).2 hanswerable
  have hignored := (hnamed (by simp [hserver])).1
  exact ⟨relayedRequest_proper, typed, ⟨reply, hreply, hbare reply hreply⟩, hignored⟩

end ProxyDhcp
