/-
From a datagram to its answer. A request is answered if it is a PXE client's, is not meant for another
server, and is a discover, a request or an inform. The answer starts from a bare reply, runs through the
chain, and goes back to the relay that passed the request on, or to every host.

The address of the client is read only when everything else speaks for an answer; where the header's
length byte exceeds the field, that reading is a crash (`Verdict.crashed`) and not a refusal.
-/
import ProxyDhcp.Chain

namespace ProxyDhcp

inductive MessageType where
  | discover
  | offer
  | request
  | decline
  | ack
  | nak
  | release
  | inform
  deriving DecidableEq, Repr

namespace MessageType

def byte : MessageType → UInt8
  | .discover => 1
  | .offer => 2
  | .request => 3
  | .decline => 4
  | .ack => 5
  | .nak => 6
  | .release => 7
  | .inform => 8

def all : List MessageType := [.discover, .offer, .request, .decline, .ack, .nak, .release, .inform]

def ofByte? (byte : UInt8) : Option MessageType :=
  all.find? (·.byte == byte)

/-- The kind of the answer, for the kinds that are answered. -/
def answer? : MessageType → Option MessageType
  | .discover => some .offer
  | .request | .inform => some .ack
  | _ => none

end MessageType

/-- What a reply needs to know of its server. -/
structure ReplyContext where
  serverId : Option Ipv4
  broadcast : Ipv4
  serverPort : UInt16
  clientPort : UInt16
  deriving DecidableEq, Repr

namespace Reply

/-- Option 53. -/
def typeOption (type : MessageType) : DhcpOption := ⟨.known 53, [type.byte]⟩

/-- Option 54. -/
def serverOption (server : Ipv4) : DhcpOption := ⟨.known 54, server.bytes⟩

/-- The reply before any handler has run: it offers no address and has options 53 and 54 alone, the
latter where a server identifier is configured. -/
def bare (request : Message) (type : MessageType) (address : Bytes) (serverId : Option Ipv4) : Message where
  header :=
    { Header.blank with
      opcode := Header.reply
      htype := request.header.htype
      xid := request.header.xid
      flags := request.header.flags
      giaddr := request.header.giaddr }.withHardwareAddress address
  options :=
    match serverId with
    | none => OptionTable.empty.add (typeOption type)
    | some server => (OptionTable.empty.add (typeOption type)).add (serverOption server)

/-- The server that a request names, when it is not this one. -/
def otherServer? (request : Message) (serverId : Option Ipv4) : Option Ipv4 :=
  request.serverIdentifier?.filter fun server => some server != serverId

def answerType? (request : Message) : Option MessageType := do
  let value ← request.messageType?
  let type ← MessageType.ofByte? value
  type.answer?

end Reply

/-- What becomes of a request before any handler runs. -/
inductive Verdict where
  | ignored
  | reply (message : Message)
  /-- The request calls for an answer, but its hardware address cannot be read. -/
  | crashed
  deriving DecidableEq

/-- Whether and how a request is answered. -/
def newReply (request : Message) (serverId : Option Ipv4) : Logged Verdict :=
  if request.header.opcode ≠ Header.request then pure .ignored
  else do
    let pxe ← isPxeClient request
    if !pxe then return .ignored
    else match Reply.otherServer? request serverId with
      | some server => do
        Logged.report (.otherServer request.header.xid server)
        return .ignored
      | none =>
        match Reply.answerType? request with
        | none => return .ignored
        | some type =>
          match request.header.hardwareAddress? with
          | none => return .crashed
          | some address => return .reply (Reply.bare request type address serverId)

def replyDestination (request : Message) (context : ReplyContext) : Endpoint :=
  if request.header.giaddr = .unspecified then ⟨context.broadcast, context.clientPort⟩
  else ⟨request.header.giaddr, context.serverPort⟩

inductive Outcome where
  /-- It cannot be read, or its answer cannot be written. -/
  | dropped (cause : Error)
  | ignored
  | answered (packet : Bytes) (destination : Endpoint)
  /-- The handling breaks off, with neither an answer nor a refusal. -/
  | crashed
  deriving DecidableEq, Repr

/-- Reads a datagram, runs the chain over its reply and writes the result. -/
def handleDatagram (chain : Chain) (context : ReplyContext) (datagram : Bytes) : Logged Outcome :=
  match Message.decode datagram with
  | .error cause => do
    Logged.report (.messageNotRead cause)
    return .dropped (.ofDecode cause)
  | .ok request => do
    match ← newReply request context.serverId with
    | .ignored => do
      Logged.report (.messageIgnored request.header.xid)
      return .ignored
    | .crashed => return .crashed
    | .reply reply => do
      let reply ← Chain.run chain request reply
      match reply.encode with
      | .error cause => return .dropped (.ofEncode cause)
      | .ok packet => return .answered packet (replyDestination request context)

/-- The reply of a datagram as the last handler leaves it, and its destination. -/
def handledReply? (chain : Chain) (context : ReplyContext) (datagram : Bytes) : Option (Message × Endpoint) :=
  match Message.decode datagram with
  | .error _ => none
  | .ok request =>
    match (newReply request context.serverId).value with
    | .reply reply => some ((Chain.run chain request reply).value, replyDestination request context)
    | _ => none

def handlersReached (chain : Chain) (context : ReplyContext) (datagram : Bytes) : List Handler :=
  match Message.decode datagram with
  | .error _ => []
  | .ok request =>
    match (newReply request context.serverId).value with
    | .reply reply => chain.reached request reply
    | _ => []

end ProxyDhcp
