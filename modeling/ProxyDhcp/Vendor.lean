/-
The PXE options inside option 43: their codes, the flags of discovery control, a builder for the payload
and its reading. A payload is a sequence of entries; one that is not empty has to be closed by the end
option, which the builder writes unless it is told not to.
-/
import ProxyDhcp.OptionStore

namespace ProxyDhcp

/-- The options that PXE defines inside option 43. -/
inductive VendorOption where
  | mtftpIpAddress
  | mtftpClientPort
  | mtftpServerPort
  | mtftpTimeout
  | mtftpDelay
  | discoveryControl
  | discoveryMulticastAddress
  | bootServers
  | bootMenu
  | menuPrompt
  | multicastAddressAllocation
  | credentialTypes
  | bootItem
  | close
  deriving DecidableEq, Repr

def VendorOption.code : VendorOption → UInt8
  | .mtftpIpAddress => 1
  | .mtftpClientPort => 2
  | .mtftpServerPort => 3
  | .mtftpTimeout => 4
  | .mtftpDelay => 5
  | .discoveryControl => 6
  | .discoveryMulticastAddress => 7
  | .bootServers => 8
  | .bootMenu => 9
  | .menuPrompt => 10
  | .multicastAddressAllocation => 11
  | .credentialTypes => 12
  | .bootItem => 71
  | .close => 255

/-! ## Discovery control -/

/-- What discovery control says of a client's search for boot servers. -/
inductive DiscoveryFlag where
  | noBroadcast
  | noMulticast
  | serverListOnly
  /-- The boot file is loaded at once, without a prompt. -/
  | bootWithoutPrompt
  deriving DecidableEq, Repr

namespace DiscoveryFlag

def bit : DiscoveryFlag → UInt8
  | .noBroadcast => 1
  | .noMulticast => 2
  | .serverListOnly => 4
  | .bootWithoutPrompt => 8

def all : List DiscoveryFlag := [.noBroadcast, .noMulticast, .serverListOnly, .bootWithoutPrompt]

end DiscoveryFlag

/-- A set of discovery flags as eight bits. The upper four have no meaning and are kept. -/
structure DiscoveryControl where
  bits : UInt8
  deriving DecidableEq, Repr

namespace DiscoveryControl

def knownBits : UInt8 := 0x0F

/-- The flags that a byte stands for, if it has no other bits. -/
def ofBits? (bits : UInt8) : Option DiscoveryControl :=
  if bits &&& ~~~knownBits = 0 then some ⟨bits⟩ else none

/-- The flags that a byte holds, without its other bits. -/
def truncate (bits : UInt8) : DiscoveryControl := ⟨bits &&& knownBits⟩

def ofFlag (flag : DiscoveryFlag) : DiscoveryControl := ⟨flag.bit⟩

def isEmpty (a : DiscoveryControl) : Bool := a.bits == 0

def isAll (a : DiscoveryControl) : Bool := a.bits &&& knownBits == knownBits

def contains (a b : DiscoveryControl) : Bool := a.bits &&& b.bits == b.bits

def intersects (a b : DiscoveryControl) : Bool := a.bits &&& b.bits != 0

def union (a b : DiscoveryControl) : DiscoveryControl := ⟨a.bits ||| b.bits⟩

def intersection (a b : DiscoveryControl) : DiscoveryControl := ⟨a.bits &&& b.bits⟩

def difference (a b : DiscoveryControl) : DiscoveryControl := ⟨a.bits &&& ~~~b.bits⟩

def symmetricDifference (a b : DiscoveryControl) : DiscoveryControl := ⟨a.bits ^^^ b.bits⟩

def complement (a : DiscoveryControl) : DiscoveryControl := truncate (~~~a.bits)

/-- The flags that are set, in ascending order of their bits. -/
def flags (a : DiscoveryControl) : List DiscoveryFlag :=
  DiscoveryFlag.all.filter fun flag => a.contains (ofFlag flag)

end DiscoveryControl

/-! ## Building option 43 -/

structure VendorBuilder where
  subOptions : List Tlv := []
  terminate : Bool := true
  deriving DecidableEq, Repr

namespace VendorBuilder

def empty : VendorBuilder := {}

def subOption (builder : VendorBuilder) (option : VendorOption) (payload : Bytes) : VendorBuilder :=
  { builder with subOptions := builder.subOptions ++ [⟨option.code, payload⟩] }

def discoveryControl (builder : VendorBuilder) (control : DiscoveryControl) : VendorBuilder :=
  builder.subOption .discoveryControl [control.bits]

def withTerminate (builder : VendorBuilder) (terminate : Bool) : VendorBuilder :=
  { builder with terminate }

/-- What can be asked of a builder. -/
inductive Call where
  | subOption (option : VendorOption) (payload : Bytes)
  | discoveryControl (control : DiscoveryControl)
  | terminate (close : Bool)

def call (builder : VendorBuilder) : Call → VendorBuilder
  | .subOption option payload => builder.subOption option payload
  | .discoveryControl control => builder.discoveryControl control
  | .terminate close => builder.withTerminate close

/-- The builder after a row of calls. -/
def ofCalls (calls : List Call) : VendorBuilder := calls.foldl call .empty

def entries (builder : VendorBuilder) : List Tlv :=
  if builder.terminate then builder.subOptions ++ [Tlv.terminator] else builder.subOptions

def payload (builder : VendorBuilder) : Except Error Bytes :=
  Tlv.encode builder.entries

def build (builder : VendorBuilder) : Except Error DhcpOption := do
  let payload ← builder.payload
  DhcpOption.ofPayload vendorSpecificCode payload

end VendorBuilder

/-- Option 43 that tells a client to boot without a prompt, and nothing else. -/
def discoveryControlOption : Except Error DhcpOption :=
  (VendorBuilder.empty.discoveryControl (.ofFlag .bootWithoutPrompt)).build

/-! ## Reading option 43 -/

/-- The vendor options of a payload, the end option among them. An empty payload has none; any other has
to be closed. -/
def parseVendorOptions (payload : Bytes) : Except Error (List Tlv) := do
  let entries ← Tlv.decode payload
  if entries.isEmpty || Tlv.terminated entries then return entries
  else throw (.malformedTlv payload.length .unterminated)

end ProxyDhcp
