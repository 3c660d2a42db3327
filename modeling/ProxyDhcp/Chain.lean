/-
Handlers and the chain that runs them. A handler turns a reply into another and says whether the next
one runs; the chain runs its handlers in order, each on the reply of the one before, and ends after the
first that stops it.
-/
import ProxyDhcp.Templates

namespace ProxyDhcp

/-- Whether the handlers after this one run. -/
inductive Flow where
  | proceed
  | stop
  deriving DecidableEq, Repr

/-- What a plugin does for a request: from the request and the reply so far to the reply after it. -/
structure Handler where
  name : String
  handle : Message → Message → Logged (Message × Flow)

namespace Handler

/-- Adds the PXE options. Other handlers may add theirs, so it never stops the chain. -/
def pxe (templates : Templates) : Handler where
  name := "pxe"
  handle request reply := do
    let (reply, added) ← augment templates request reply
    if added then
      let id ← request.classIdentifier
      Logged.report (.optionsAdded request.header.xid (id.bind ClassIdentifier.parse?))
    return (reply, .proceed)

/-- Stops the chain and leaves the reply as it is. -/
def stop : Handler where
  name := "stop"
  handle _ reply := return (reply, .stop)

/-- Sets one option of the reply. Where that fails the reply stays as it is, and the chain goes on. -/
def setOption (code : UInt8) (payload : Bytes) : Handler where
  name := "set"
  handle _ reply :=
    match reply.setOption code payload with
    | .ok reply => return (reply, .proceed)
    | .error _ => return (reply, .proceed)

end Handler

abbrev Chain := List Handler

namespace Chain

def run : Chain → Message → Message → Logged Message
  | [], _, reply => pure reply
  | handler :: rest, request, reply => do
    let (reply, flow) ← handler.handle request reply
    match flow with
    | .proceed => run rest request reply
    | .stop => do
      Logged.report (.chainStopped handler.name)
      return reply

/-- The handlers that run: all up to the first that stops the chain, itself included. -/
def reached : Chain → Message → Message → List Handler
  | [], _, _ => []
  | handler :: rest, request, reply =>
    match (handler.handle request reply).value with
    | (reply, .proceed) => handler :: reached rest request reply
    | (_, .stop) => [handler]

def names (chain : Chain) : List String := chain.map Handler.name

/-- The chain as events show it. -/
def text (chain : Chain) : String := Text.quotedList chain.names

end Chain

end ProxyDhcp
