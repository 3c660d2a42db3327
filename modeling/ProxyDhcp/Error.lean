/-
What can go wrong, as causes, with the wording of each in one place: `Error.message` is the text shown
first, `Error.sources` the texts of the causes beneath it, the nearest first.
-/
namespace ProxyDhcp

/-- Why a code-length-value sequence cannot be read. -/
inductive TlvFault where
  /-- The bytes end after a code. -/
  | missingLength
  /-- The length counts more bytes than there are. -/
  | overrun
  | unterminated
  | other (text : String)
  deriving DecidableEq, Repr

def TlvFault.message : TlvFault → String
  | .missingLength => "missing length byte"
  | .overrun => "length runs past end of buffer"
  | .unterminated => "vendor options are not terminated"
  | .other text => text

/-- Why a message or an option cannot be read from the wire. -/
inductive DecodeError where
  | notEnoughBytes
  /-- A text that stops being UTF-8 at `index`, where `length` bytes can begin no character. -/
  | invalidText (index length : Nat)
  /-- A text that ends inside the character that begins at `index`. -/
  | incompleteText (index : Nat)
  | invalidAutoconfiguration
  deriving DecidableEq, Repr

def DecodeError.message : DecodeError → String
  | .notEnoughBytes => "parser ran out of data-- not enough bytes"
  | .invalidText index length =>
    s!"error converting to UTF-8 invalid utf-8 sequence of {length} bytes from index {index}"
  | .incompleteText index => s!"error converting to UTF-8 incomplete utf-8 byte sequence from index {index}"
  | .invalidAutoconfiguration => "io error invalid number in disable SLAAC autoconfig"

inductive EncodeError where
  /-- A list of names that exceeds the size of a message. -/
  | namesTooLong
  deriving DecidableEq, Repr

def EncodeError.message : EncodeError → String
  | .namesTooLong => "domain encoding error maximum buffer size exceeded: 65535"

/-- What fails while the server's socket is prepared. `cause` is the system's text. -/
inductive SocketError where
  | createSocket (cause : String)
  | setBroadcast (cause : String)
  | setReuseAddress (cause : String)
  | bindToDevice (interface cause : String)
  | bindSocket (port : UInt16) (cause : String)
  | setNonBlocking (cause : String)
  | register (cause : String)
  | unsupportedPlatform
  deriving DecidableEq, Repr

namespace SocketError

def message : SocketError → String
  | .createSocket _ => "Failed to create a new socket"
  | .setBroadcast _ => "Failed to enable broadcast on socket"
  | .setReuseAddress _ => "Failed to set SO_REUSEADDR on socket"
  | .bindToDevice interface _ => s!"Failed to set SO_BINDTODEVICE on interface '{interface}'"
  | .bindSocket port _ => s!"Failed to bind socket to port {port.toNat}"
  | .setNonBlocking _ => "Failed to set socket to non-blocking mode"
  | .register _ => "Failed to convert socket to TokioUdpSocket"
  | .unsupportedPlatform => "Binding to a specific device is not implemented on this platform"

/-- The system's text, where the system had a part in it. -/
def cause? : SocketError → Option String
  | .createSocket cause | .setBroadcast cause | .setReuseAddress cause | .bindToDevice _ cause
  | .bindSocket _ cause | .setNonBlocking cause | .register cause => some cause
  | .unsupportedPlatform => none

end SocketError

inductive Error where
  | malformedTlv (offset : Nat) (fault : TlvFault)
  | payloadTooLong (code : UInt8) (length : Nat)
  /-- Pad and end are codes that carry no payload. -/
  | reservedOptionCode (code : UInt8)
  | setup (text : String)
  | unknownPlugin (name : String)
  | invalidPluginSpec (spec : String)
  | socket (cause : SocketError)
  /-- Input or output failed; `cause` is the system's text. -/
  | transport (cause : String)
  | protocol (cause : String)
  deriving DecidableEq, Repr

namespace Error

def message : Error → String
  | .malformedTlv offset fault => s!"Malformed TLV data at offset {offset}: {fault.message}"
  | .payloadTooLong code length => s!"Option {code.toNat} payload of {length} bytes cannot be TLV encoded"
  | .reservedOptionCode code => s!"Option code {code.toNat} is reserved and cannot carry a payload"
  | .setup text => s!"Plugin setup failed: {text}"
  | .unknownPlugin name => s!"Unknown plugin '{name}'"
  | .invalidPluginSpec spec => s!"Invalid plugin specification '{spec}'"
  | .socket _ => "Socket operation failed"
  | .transport _ => "I/O error"
  | .protocol _ => "DHCP protocol error"

/-- The texts of the causes beneath the error, the nearest first. -/
def sources : Error → List String
  | .socket cause => cause.message :: cause.cause?.toList
  | .transport cause | .protocol cause => [cause]
  | _ => []

def ofDecode (cause : DecodeError) : Error := .protocol cause.message

def ofEncode (cause : EncodeError) : Error := .protocol cause.message

end Error

end ProxyDhcp
