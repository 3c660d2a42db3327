/-
The vendor class identifier of a PXE client, `PXEClient:Arch:xxxxx:UNDI:yyyzzz`: a fixed string of 32
bytes with three decimal numbers in it. A client is recognised by the length and the name in front
alone; the numbers are read where they are well formed.
-/
import ProxyDhcp.Bytes
import ProxyDhcp.Text.Decimal

namespace ProxyDhcp

/-- The numbers of a client's class identifier. -/
structure ClassIdentifier where
  arch : UInt16
  undiMajor : Fin 1000
  undiMinor : Fin 1000
  deriving DecidableEq, Repr

namespace ClassIdentifier

def ascii (text : String) : Bytes :=
  text.toList.map fun c => UInt8.ofNat c.toNat

/-- What a client's identifier begins with, and the whole of a reply's. -/
def name : Bytes := ascii "PXEClient"

def archLabel : Bytes := ascii "PXEClient:Arch:"

def undiLabel : Bytes := ascii ":UNDI:"

def length : Nat := 32

/-- Whether an identifier is that of a PXE client. -/
def isPxe (id : Bytes) : Bool :=
  id.length == length && name.isPrefixOf id

def digits (width n : Nat) : Bytes :=
  (Text.padded width n).map UInt8.ofNat

def number? (bytes : Bytes) : Option Nat :=
  Text.value? (bytes.map UInt8.toNat)

/-- The identifier that carries these numbers. -/
def format (id : ClassIdentifier) : Bytes :=
  archLabel ++ digits 5 id.arch.toNat ++ undiLabel ++ digits 3 id.undiMajor.val ++ digits 3 id.undiMinor.val

/-- The numbers of an identifier, when it has the full shape: both labels in their places, digits after
them, and an architecture that sixteen bits hold. -/
def parse? (id : Bytes) : Option ClassIdentifier := do
  let (label, rest) ← id.split? 15
  let (arch, rest) ← rest.split? 5
  let (undi, rest) ← rest.split? 6
  let (major, minor) ← rest.split? 3
  let arch ← number? arch
  let undiMajor ← number? major
  let undiMinor ← number? minor
  if label = archLabel ∧ undi = undiLabel ∧ minor.length = 3 ∧ arch ≤ 65535 then
    if h : undiMajor < 1000 ∧ undiMinor < 1000 then
      return ⟨UInt16.ofNat arch, ⟨undiMajor, h.1⟩, ⟨undiMinor, h.2⟩⟩
    else none
  else none

end ClassIdentifier

end ProxyDhcp
