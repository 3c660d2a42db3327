/-
The server: its configuration, its start on a host, and its work. A datagram is cut to the size of the
receive buffer and handled on its own (`Server.respond`).

`Server.Step` is the work as it happens, with any number of datagrams in the making at once: a datagram
is received into the one buffer and copied out of it, a copy is handled at any later time, and its answer
sent at any time after that. `serve` is the same work one datagram after the other.
-/
import ProxyDhcp.Plugin
import ProxyDhcp.Reply

namespace ProxyDhcp

structure ServerConfig where
  interface : String
  serverPort : UInt16 := 67
  clientPort : UInt16 := 68
  serverId : Option Ipv4 := none
  broadcast : Ipv4 := .broadcast
  plugins : List PluginSpec := [⟨"pxe", []⟩]
  deriving DecidableEq, Repr

def ServerConfig.context (config : ServerConfig) : ReplyContext where
  serverId := config.serverId
  broadcast := config.broadcast
  serverPort := config.serverPort
  clientPort := config.clientPort

structure Host where
  /-- The system's refusal to restrict a socket to an interface, if it refuses. -/
  refusal? : String → Option String
  /-- Whether a client on the same machine can exchange datagrams with the server. -/
  loopback : Bool

/-- What a host makes of a socket for an interface and a port. -/
def Host.prepare (host : Host) (interface : String) (_ : UInt16) : Except SocketError Unit :=
  match host.refusal? interface with
  | some cause => .error (.bindToDevice interface cause)
  | none => .ok ()

structure Server where
  context : ReplyContext
  chain : Chain

namespace Server

/-- Sets up the plugins and then the socket. A plugin that fails is reported before the socket is tried. -/
def start (host : Host) (config : ServerConfig) : Logged (Except Error Server) := do
  match ← Chain.ofSpecs config.plugins with
  | .error cause => return .error cause
  | .ok chain =>
    match host.refusal? config.interface with
    | some cause => return .error (.socket (.bindToDevice config.interface cause))
    | none => do
      Logged.report (.listening config.interface config.serverPort chain.names)
      return .ok ⟨config.context, chain⟩

/-- The end of a start whose plugins are set up, with what the host made of the socket. -/
def listen (config : ServerConfig) (chain : Chain) (events : List Event) :
    Except SocketError Unit → Logged (Except Error Server)
  | .error cause => ⟨.error (.socket cause), events⟩
  | .ok () =>
    ⟨.ok ⟨config.context, chain⟩, events ++ [.listening config.interface config.serverPort chain.names]⟩

/-- The start of a server where a socket is prepared by work of its own, whatever kind of work that is. -/
def startWith {m : Type → Type} [Monad m] (prepare : String → UInt16 → m (Except SocketError Unit))
    (config : ServerConfig) : m (Logged (Except Error Server)) :=
  let setup := Chain.ofSpecs config.plugins
  match setup.value with
  | .error cause => return ⟨.error cause, setup.events⟩
  | .ok chain => do
    return listen config chain setup.events (← prepare config.interface config.serverPort)

def bufferSize : Nat := 1500

def respond (server : Server) (datagram : Bytes) : Logged Outcome :=
  handleDatagram server.chain server.context (datagram.take bufferSize)

/-- The packet that a datagram is answered with, and its destination. -/
def answer? (server : Server) (datagram : Bytes) : Option (Bytes × Endpoint) :=
  match (server.respond datagram).value with
  | .answered packet destination => some (packet, destination)
  | _ => none

def serve (server : Server) (datagrams : List Bytes) : List (Bytes × Endpoint) :=
  datagrams.filterMap server.answer?

/-! ## Many datagrams at once -/

/-- What the handling of a datagram may send: its reply, with the options in any order. -/
def Answers (server : Server) (copy : Bytes) (answer : Bytes × Endpoint) : Prop :=
  ∃ reply, handledReply? server.chain server.context copy = some (reply, answer.2) ∧ reply.WrittenAs answer.1

/-- The work on one datagram, beside all the others. -/
inductive Task where
  | handling (copy : Bytes)
  | sending (answer : Bytes × Endpoint)
  deriving DecidableEq

structure State where
  /-- Datagrams on their way to the server. -/
  arriving : List Bytes
  /-- The one buffer for what is received. Behind a short datagram stands the end of a longer one before it. -/
  buffer : Bytes.Field bufferSize
  /-- The length of the datagram in the buffer, as long as no task has its copy. -/
  received : Option Nat
  tasks : List Task
  /-- The packets sent so far, in the order of sending. -/
  sent : List (Bytes × Endpoint)
  deriving DecidableEq

def State.initial (datagrams : List Bytes) : State := ⟨datagrams, .zero bufferSize, none, [], []⟩

inductive Step (server : Server) : State → State → Prop where
  /-- The next datagram goes over the front of the buffer, cut to its size. -/
  | receive (datagram : Bytes) (arriving : List Bytes) (buffer : Bytes.Field bufferSize) (tasks : List Task)
      (sent : List (Bytes × Endpoint)) :
      Step server ⟨datagram :: arriving, buffer, none, tasks, sent⟩
        ⟨arriving, buffer.overwrite datagram, some (min datagram.length bufferSize), tasks, sent⟩
  /-- A task gets a copy of it, and the buffer is free again. -/
  | spawn (arriving : List Bytes) (buffer : Bytes.Field bufferSize) (length : Nat) (tasks : List Task)
      (sent : List (Bytes × Endpoint)) :
      Step server ⟨arriving, buffer, some length, tasks, sent⟩
        ⟨arriving, buffer, none, tasks ++ [.handling (buffer.bytes.take length)], sent⟩
  /-- Any one of the tasks handles its copy, and has an answer. -/
  | answer (arriving : List Bytes) (buffer : Bytes.Field bufferSize) (received : Option Nat) (before : List Task)
      (copy : Bytes) (after : List Task) (sent : List (Bytes × Endpoint)) (answer : Bytes × Endpoint) :
      server.Answers copy answer →
      Step server ⟨arriving, buffer, received, before ++ .handling copy :: after, sent⟩
        ⟨arriving, buffer, received, before ++ .sending answer :: after, sent⟩
  /-- Any one of the tasks handles its copy, and ends without an answer: the copy is dropped or ignored, or
  the handling crashes and takes its own task with it. -/
  | finish (arriving : List Bytes) (buffer : Bytes.Field bufferSize) (received : Option Nat) (before : List Task)
      (copy : Bytes) (after : List Task) (sent : List (Bytes × Endpoint)) :
      (∀ answer, ¬ server.Answers copy answer) →
      Step server ⟨arriving, buffer, received, before ++ .handling copy :: after, sent⟩
        ⟨arriving, buffer, received, before ++ after, sent⟩
  /-- Any one of the answers is sent. -/
  | send (arriving : List Bytes) (buffer : Bytes.Field bufferSize) (received : Option Nat) (before : List Task)
      (answer : Bytes × Endpoint) (after : List Task) (sent : List (Bytes × Endpoint)) :
      Step server ⟨arriving, buffer, received, before ++ .sending answer :: after, sent⟩
        ⟨arriving, buffer, received, before ++ after, sent ++ [answer]⟩

inductive Steps (server : Server) : State → State → Prop where
  | refl (state : State) : Steps server state state
  | tail {first middle last : State} : Steps server first middle → Step server middle last → Steps server first last

/-- Nothing is left to do. -/
def State.Idle (state : State) : Prop := state.arriving = [] ∧ state.received = none ∧ state.tasks = []

/-! ## A client on the same machine -/

/-- The packets that come back to a client on the same machine for one datagram: those for its own address
and port. Without a loopback network the datagram does not even arrive. -/
def exchangeOne? (host : Host) (server : Server) (datagram : Bytes) : Option (List Bytes) :=
  if host.loopback then
    match server.answer? datagram with
    | some (packet, destination) =>
      if destination = ⟨server.context.broadcast, server.context.clientPort⟩ then some [packet] else some []
    | none => some []
  else none

/-- What comes back for each datagram of a row. The first that cannot be exchanged ends the attempt; where
there is nothing to exchange, no network is needed. -/
def exchange? (host : Host) (server : Server) (datagrams : List Bytes) : Option (List (List Bytes)) :=
  datagrams.mapM (exchangeOne? host server)

end Server

end ProxyDhcp
