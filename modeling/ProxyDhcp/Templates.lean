/-
What a PXE client's reply carries: option 60 with the bare name, option 43 with discovery control, and
the client's own option 97. All of them are added or none: `augment` leaves the reply as it is unless the
request is a PXE client's and its option 97 has the right length.
-/
import ProxyDhcp.Vendor

namespace ProxyDhcp

structure Templates where
  classIdentifier : DhcpOption
  vendorSpecific : DhcpOption
  deriving DecidableEq, Repr

namespace Templates

def build : Except Error Templates := do
  let classIdentifier ← DhcpOption.ofPayload classIdentifierCode ClassIdentifier.name
  let vendorSpecific ← discoveryControlOption
  return { classIdentifier, vendorSpecific }

end Templates

/-- The length of option 97: a type byte and sixteen bytes of identifier. -/
def machineIdentifierLength : Nat := 17

/-- Adds the PXE options to the reply for a PXE client, and says whether it did. -/
def augment (templates : Templates) (request reply : Message) : Logged (Message × Bool) := do
  let pxe ← isPxeClient request
  if !pxe then return (reply, false)
  else match request.options.get? (.ofByte machineIdentifierCode) with
    | none => do
      Logged.report .machineIdentifierMissing
      return (reply, false)
    | some identifier => do
      let payload ← identifier.payload machineIdentifierCode
      let length := payload.map List.length
      if length = some machineIdentifierLength then
        let options := ((reply.options.add templates.classIdentifier).add identifier).add templates.vendorSpecific
        return ({ reply with options }, true)
      else do
        Logged.report (.machineIdentifierLength length)
        return (reply, false)

end ProxyDhcp
