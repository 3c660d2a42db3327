/-
What handlers do to a reply. A PXE handler and a handler that only sets options both add options of at most 255
bytes, if anything, so a chain of them keeps whatever adding such an option keeps (`Chain.run_keeps`): the header
(`Chain.header_run`), and that every option of the reply is short (`Chain.short_run`). A reply with short options
can always be written, so a request that is to be answered is answered (`handleDatagram_answered`).
-/
import ProxyDhcp.Proofs.Datagram
import ProxyDhcp.Proofs.Settings

namespace ProxyDhcp

/-! ## Kinds of handlers -/

namespace Handler

/-- A handler that adds the PXE options, whatever name the chain knows it by. -/
def IsPxe (handler : Handler) : Prop := handler.handle = (pxe .standard).handle

/-- A handler that does no more than set options of the reply, and lets the chain go on or stops it. One that sets
nothing and stops is among them. -/
def Setter (handler : Handler) : Prop :=
  ∀ request reply, ∃ settings flow, (handler.handle request reply).value = (OptionStore.setAll reply settings, flow)

/-- For a request, a handler that makes one setting of the reply and lets the chain go on, whatever name the chain
knows it by. -/
def Sets (request : Message) (handler : Handler) (setting : Setting) : Prop :=
  ∀ reply, (handler.handle request reply).value = (OptionStore.set reply setting, .proceed)

/-- A setter that does the same for every request. -/
def BlindSetter (handler : Handler) : Prop :=
  ∀ reply, ∃ settings flow, ∀ request,
    (handler.handle request reply).value = (OptionStore.setAll reply settings, flow)

variable {handler : Handler}

theorem BlindSetter.setter (h : handler.BlindSetter) : handler.Setter := by
  intro request reply
  obtain ⟨settings, flow, hvalue⟩ := h reply
  exact ⟨settings, flow, hvalue request⟩

theorem blindSetter_stop : stop.BlindSetter := fun _ => ⟨[], .stop, fun _ => rfl⟩

theorem sets_setOption (code : UInt8) (payload : Bytes) (request : Message) :
    Sets request (setOption code payload) ⟨code, payload⟩ := by
  intro reply
  simp only [setOption, OptionStore.set, OptionStore.setOption_message, Message.setOption]
  cases DhcpOption.ofPayload code payload <;> rfl

theorem blindSetter_setOption (code : UInt8) (payload : Bytes) : (setOption code payload).BlindSetter :=
  fun reply => ⟨[⟨code, payload⟩], .proceed, fun request => sets_setOption code payload request reply⟩

theorem IsPxe.value_handle (h : handler.IsPxe) (request reply : Message) :
    (handler.handle request reply).value = ((augment .standard request reply).value.1, .proceed) := by
  rw [h, value_pxe]

end Handler

/-! ## Runs -/

namespace Chain

theorem value_run_cons (handler : Handler) (chain : Chain) (request reply : Message) :
    (run (handler :: chain) request reply).value =
      match (handler.handle request reply).value with
      | (reply, .proceed) => (run chain request reply).value
      | (reply, .stop) => reply := by
  rw [run, Logged.value_bind]
  obtain ⟨after, flow⟩ := (handler.handle request reply).value
  cases flow <;> rfl

/-- What each handler keeps, the run keeps. -/
theorem run_invariant {P : Message → Prop} {chain : Chain} {request : Message}
    (hstep : ∀ handler ∈ chain, ∀ reply, P reply → P (handler.handle request reply).value.1)
    {reply : Message} (h : P reply) : P (run chain request reply).value := by
  induction chain generalizing reply with
  | nil => exact h
  | cons handler chain ih =>
    rw [List.forall_mem_cons] at hstep
    have hafter := hstep.1 reply h
    rw [value_run_cons]
    rcases hvalue : (handler.handle request reply).value with ⟨after, flow⟩
    rw [hvalue] at hafter
    cases flow with
    | proceed => exact ih hstep.2 hafter
    | stop => exact hafter

/-- Where the handlers do the same for two requests, so do their runs. -/
theorem run_congr {chain : Chain} {request other : Message}
    (h : ∀ handler ∈ chain, ∀ reply, (handler.handle other reply).value = (handler.handle request reply).value)
    (reply : Message) : (run chain other reply).value = (run chain request reply).value := by
  induction chain generalizing reply with
  | nil => rfl
  | cons handler chain ih =>
    rw [List.forall_mem_cons] at h
    rw [value_run_cons, value_run_cons, h.1 reply]
    obtain ⟨after, flow⟩ := (handler.handle request reply).value
    cases flow with
    | proceed => exact ih h.2 after
    | stop => rfl

end Chain

/-! ## Short options -/

/-- Every option of the table holds at most 255 bytes. -/
def OptionTable.Short (table : OptionTable) : Prop :=
  ∀ code option, table.get? code = some option → option.content.length ≤ 255

theorem OptionTable.Singles.short {table : OptionTable} (h : table.Singles) : table.Short :=
  fun code option hget => (h code option hget).length

theorem OptionTable.Short.add {table : OptionTable} (h : table.Short) {option : DhcpOption}
    (hlen : option.content.length ≤ 255) : (table.add option).Short := by
  intro code other hget
  rw [get?_add] at hget
  by_cases hcode : code = option.code
  · rw [if_pos hcode, Option.some.injEq] at hget
    rw [← hget]
    exact hlen
  · rw [if_neg hcode] at hget
    exact h code other hget

/-- A message with short options can be written. -/
theorem Message.exists_encode {message : Message} (h : message.options.Short) :
    ∃ packet, message.encode = .ok packet := by
  refine wireLaws.exists_encode fun option hmem => ?_
  obtain ⟨⟨code, held⟩, hplace, rfl⟩ := List.mem_map.1 hmem
  exact DhcpOption.wireLaws.exists_encode (h code held (OptionTable.lookup_of_mem message.options.ascending hplace))

/-! ## What a chain keeps -/

namespace Chain

/-- What adding short options keeps, a PXE handler keeps. -/
theorem keeps_withPxeOptions {P : Message → Prop}
    (hadd : ∀ message option, P message → option.content.length ≤ 255 → P (message.withOption option))
    {reply : Message} (h : P reply) {id : Bytes} (hid : id.length = machineIdentifierLength) :
    P (reply.withPxeOptions id) := by
  have hname := hadd reply Templates.standard.classIdentifier h (by decide)
  have hmachine := hadd _ ⟨.known machineIdentifierCode, id⟩ hname (by rw [hid]; decide)
  exact hadd _ Templates.standard.vendorSpecific hmachine (by decide)

variable {chain : Chain} (hchain : ∀ handler ∈ chain, handler.IsPxe ∨ handler.Setter) {request : Message}
  (proper : request.options.Proper)
include hchain proper

/-- **What adding short options keeps, a chain of PXE handlers and setters keeps.** -/
theorem run_keeps {P : Message → Prop}
    (hadd : ∀ message option, P message → option.content.length ≤ 255 → P (message.withOption option))
    {reply : Message} (h : P reply) : P (run chain request reply).value := by
  refine run_invariant (fun handler hmem reply h => ?_) h
  rcases hchain handler hmem with hpxe | hsetter
  · -- The client's identifier is as short as the templates are.
    rw [hpxe.value_handle]
    rcases augment_cases proper reply with ⟨-, hvalue⟩ | ⟨-, id, -, hid, hvalue⟩
    · rw [hvalue]
      exact h
    · rw [hvalue]
      exact keeps_withPxeOptions hadd h hid
  · obtain ⟨settings, flow, hvalue⟩ := hsetter request reply
    rw [hvalue]
    exact OptionStore.setAll_invariant
      (fun message setting option h hoption => hadd message option h (Setting.length_of_option? hoption)) h settings

theorem header_run (reply : Message) : (run chain request reply).value.header = reply.header :=
  run_keeps hchain proper (P := fun after => after.header = reply.header) (fun _ _ h _ => h) rfl

theorem short_run {reply : Message} (h : reply.options.Short) : (run chain request reply).value.options.Short :=
  run_keeps hchain proper (P := fun after => after.options.Short) (fun _ _ h hlen => h.add hlen) h

end Chain

/-- **A request that gets a reply is answered**: what the chain makes of the reply can be written. -/
theorem handleDatagram_answered {chain : Chain} (hchain : ∀ handler ∈ chain, handler.IsPxe ∨ handler.Setter)
    {context : ReplyContext} {datagram : Bytes} {request reply : Message}
    (hdecode : Message.decode datagram = .ok request)
    (hreply : (newReply request context.serverId).value = .reply reply) :
    ∃ packet, (handleDatagram chain context datagram).value =
      .answered packet (replyDestination request context) := by
  have proper := Message.wireLaws.proper_decode hdecode
  have typed := Message.decode_serverTyped hdecode
  obtain ⟨-, -, type, -, rfl⟩ := newReply_eq_reply proper typed hreply
  have hshort := (Reply.singles_bare request type request.header.address context.serverId).short
  obtain ⟨packet, hpacket⟩ := Message.exists_encode (Chain.short_run hchain proper hshort)
  refine ⟨packet, ?_⟩
  rw [handleDatagram_of_ok hdecode, hreply]
  simp only [hpacket]

/-- The server that the request names has a reply to it. -/
theorem exists_newReply_relayedRequest :
    ∃ reply, (newReply relayedRequest relayedContext.serverId).value = .reply reply := by
  have typed := Message.serverTyped_of_canonical relayedRequest_canonical
  have hanswerable : Answerable relayedContext.serverId relayedRequest :=
    ⟨rfl, isPxeClient_relayedRequest, .inr ⟨_, rfl, rfl⟩, .ack, .inr ⟨.inl rfl, rfl⟩⟩
  exact newReply_of_answerable relayedRequest_proper typed hanswerable (by decide)

end ProxyDhcp
