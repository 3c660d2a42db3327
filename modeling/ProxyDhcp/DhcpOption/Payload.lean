/-
Options and their raw payloads. `ofPayload` makes an option of a payload by the same reading that
options on the wire go through; `payload` reads a payload back from what the option writes, joining the
segments of a long one.
-/
import ProxyDhcp.DhcpOption.Wire
import ProxyDhcp.Logged
import ProxyDhcp.Tlv

namespace ProxyDhcp.DhcpOption

/-- The option that a code and a payload stand for. Pad and end carry no payload; any other payload has
to fit in one entry and to suit the layout of its code. -/
def ofPayload (code : UInt8) (payload : Bytes) : Except Error DhcpOption :=
  if code = padCode ∨ code = endCode then .error (.reservedOptionCode code)
  else do
    let wire ← Tlv.encode [⟨code, payload⟩]
    match decode wire with
    | .error cause => .error (.ofDecode cause)
    | .ok (option, _) => .ok option

/-- What the entries of `code` carry, joined; nothing when no entry has the code. -/
def joined (code : UInt8) (entries : List Tlv) : Option Bytes :=
  match entries.filter (·.code == code) with
  | [] => none
  | found => some (found.flatMap Tlv.payload)

/-- The payload that the option writes under `code`. An option that writes nothing, or nothing under
this code, has none. -/
def payload (code : UInt8) (option : DhcpOption) : Logged (Option Bytes) :=
  match option.encode with
  | .error cause => do
    Logged.report (.optionNotWritten code cause)
    return none
  | .ok wire =>
    match Tlv.decode wire with
    | .error cause => do
      Logged.report (.optionNotEntries code cause)
      return none
    | .ok entries => pure (joined code entries)

end ProxyDhcp.DhcpOption
