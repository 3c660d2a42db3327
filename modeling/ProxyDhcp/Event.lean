/-
What the responder reports while it works: each event with its level and its wording. An event belongs
to the work that caused it, so it is part of that work's result (`ProxyDhcp.Logged`), and not written
anywhere here.
-/
import ProxyDhcp.ClassIdentifier
import ProxyDhcp.Error
import ProxyDhcp.Ipv4
import ProxyDhcp.Text.Quoted

namespace ProxyDhcp

inductive Level where
  | debug
  | info
  | warn
  deriving DecidableEq, Repr

def Level.name : Level → String
  | .debug => "DEBUG"
  | .info => "INFO"
  | .warn => "WARN"

inductive Event where
  /-- An option's payload was asked for, but the option cannot be written. -/
  | optionNotWritten (code : UInt8) (cause : EncodeError)
  /-- An option's payload was asked for, but what it writes is no sequence of entries. -/
  | optionNotEntries (code : UInt8) (cause : Error)
  | machineIdentifierMissing
  /-- A client whose option 97 has the wrong length, or no payload at all. -/
  | machineIdentifierLength (length : Option Nat)
  | argumentsIgnored (arguments : List String)
  | templatesLoaded
  | optionsAdded (xid : UInt32) (id : Option ClassIdentifier)
  | pluginLoaded (name : String)
  | chainStopped (name : String)
  | otherServer (xid : UInt32) (server : Ipv4)
  | messageNotRead (cause : DecodeError)
  | messageIgnored (xid : UInt32)
  | listening (interface : String) (port : UInt16) (plugins : List String)
  deriving DecidableEq, Repr

namespace Event

def level : Event → Level
  | .argumentsIgnored _ => .warn
  | .templatesLoaded | .pluginLoaded _ | .listening .. => .info
  | _ => .debug

def message : Event → String
  | .optionNotWritten code cause => s!"Failed to encode option {code.toNat}: {cause.message}"
  | .optionNotEntries code cause => s!"Option {code.toNat} did not re-encode as TLV: {cause.message}"
  | .machineIdentifierMissing => "PXE client without a machine identifier, skipping"
  | .machineIdentifierLength none => "PXE client machine identifier has length None, skipping"
  | .machineIdentifierLength (some length) =>
    s!"PXE client machine identifier has length Some({length}), skipping"
  | .argumentsIgnored arguments => "PXE plugin ignores its arguments: " ++ Text.quotedList arguments
  | .templatesLoaded => "Loaded PXE plugin for DHCPv4"
  | .optionsAdded xid none => "Added PXE options for xid 0x" ++ Text.hexDigits xid.toNat
  | .optionsAdded xid (some id) =>
    "Added PXE options for xid 0x" ++ Text.hexDigits xid.toNat ++
      s!" (arch {id.arch.toNat}, UNDI {id.undiMajor.val}.{id.undiMinor.val})"
  | .pluginLoaded name => s!"Loaded plugin '{name}'"
  | .chainStopped name => s!"Plugin '{name}' stopped the handler chain"
  | .otherServer xid server =>
    "Request XID=" ++ Text.hexDigits xid.toNat ++ " is for server " ++ server.text ++ ", ignoring"
  | .messageNotRead cause => s!"Failed to decode DHCP message: {cause.message}"
  | .messageIgnored xid => "Ignoring message with XID=" ++ Text.hexDigits xid.toNat
  | .listening interface port plugins =>
    s!"Listening on {interface}:{port.toNat} with plugins " ++ Text.quotedList plugins

/-- The event as a line: its level, a space and its text. -/
def line (event : Event) : String :=
  event.level.name ++ " " ++ event.message

end Event

end ProxyDhcp
