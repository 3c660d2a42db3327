/-
Raw access to options by code. Anything that gives and takes payloads is an `OptionStore`; its class
identifier is the payload of option 60 unless the store has a shorter way to it.

Two stores: a message, whose payloads go through typed options and back, and a plain map from codes to
payloads, which says what a message amounts to where options are raw bytes.
-/
import ProxyDhcp.DhcpOption.Payload
import ProxyDhcp.Message.Basic

namespace ProxyDhcp

def vendorSpecificCode : UInt8 := 43

def classIdentifierCode : UInt8 := 60

def machineIdentifierCode : UInt8 := 97

/-- Payloads by option code. -/
class OptionStore (σ : Type) where
  option? : σ → UInt8 → Logged (Option Bytes)
  /-- Sets an option, in place of any earlier value. -/
  setOption : σ → UInt8 → Bytes → Except Error σ
  classIdentifier : σ → Logged (Option Bytes) := fun store => option? store classIdentifierCode

/-- Whether a store belongs to a PXE client. No identifier, or another one, is no fault. -/
def isPxeClient {σ : Type} [OptionStore σ] (store : σ) : Logged Bool := do
  let id ← OptionStore.classIdentifier store
  return id.any ClassIdentifier.isPxe

namespace Message

/-- The payload of an option, through what the option writes. -/
def option? (message : Message) (code : UInt8) : Logged (Option Bytes) :=
  match message.options.get? (.ofByte code) with
  | none => pure none
  | some option => option.payload code

def setOption (message : Message) (code : UInt8) (payload : Bytes) : Except Error Message := do
  let option ← DhcpOption.ofPayload code payload
  return { message with options := message.options.add option }

/-- The message with an option, in place of the one under its code. -/
def withOption (message : Message) (option : DhcpOption) : Message :=
  { message with options := message.options.add option }

/-- Sets an option of a message in place. What is changed before a fault stays changed. -/
def assign (code : UInt8) (payload : Bytes) : EStateM Error Message Unit := do
  match DhcpOption.ofPayload code payload with
  | .error cause => throw cause
  | .ok option => modify (·.withOption option)

/-- The bytes of option 60 as they are held; of any other kind of option under that code, its payload. -/
def classIdentifier (message : Message) : Logged (Option Bytes) :=
  match message.options.get? (.known classIdentifierCode) with
  | none => pure none
  | some option =>
    if option.code = .known classIdentifierCode then pure (some option.content)
    else option.payload classIdentifierCode

instance : OptionStore Message where
  option? := option?
  setOption := setOption
  classIdentifier := classIdentifier

end Message

def PayloadMap := UInt8 → Option Bytes

namespace PayloadMap

def empty : PayloadMap := fun _ => none

def insert (map : PayloadMap) (code : UInt8) (payload : Bytes) : PayloadMap :=
  fun other => if other = code then some payload else map other

/-- Sets a payload of at most 255 bytes under a code that is not reserved. -/
def setOption (map : PayloadMap) (code : UInt8) (payload : Bytes) : Except Error PayloadMap :=
  if code = DhcpOption.padCode ∨ code = DhcpOption.endCode then .error (.reservedOptionCode code)
  else if payload.length ≤ 255 then .ok (map.insert code payload)
  else .error (.payloadTooLong code payload.length)

instance : OptionStore PayloadMap where
  option? map code := pure (map code)
  setOption := setOption

end PayloadMap

end ProxyDhcp
