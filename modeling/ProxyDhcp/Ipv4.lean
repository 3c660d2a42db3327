/-
IPv4 addresses: four bytes on the wire, four decimal numbers in text. Reading a text is strict: four
numbers of one to three digits, none above 255, and no zero in front of another digit.
-/
import ProxyDhcp.Bytes

namespace ProxyDhcp

structure Ipv4 where
  a : UInt8
  b : UInt8
  c : UInt8
  d : UInt8
  deriving DecidableEq, Repr

namespace Ipv4

/-- The address 0.0.0.0, which stands for no address. -/
def unspecified : Ipv4 := ⟨0, 0, 0, 0⟩

/-- The address of every host of the local network. -/
def broadcast : Ipv4 := ⟨255, 255, 255, 255⟩

def bytes (address : Ipv4) : Bytes :=
  [address.a, address.b, address.c, address.d]

def ofBytes? : Bytes → Option Ipv4
  | [a, b, c, d] => some ⟨a, b, c, d⟩
  | _ => none

def read? : Bytes → Option (Ipv4 × Bytes)
  | a :: b :: c :: d :: rest => some (⟨a, b, c, d⟩, rest)
  | _ => none

@[simp] theorem length_bytes (address : Ipv4) : address.bytes.length = 4 := rfl

@[simp] theorem ofBytes?_bytes (address : Ipv4) : ofBytes? address.bytes = some address := rfl

@[simp] theorem read?_bytes (address : Ipv4) (rest : Bytes) :
    read? (address.bytes ++ rest) = some (address, rest) := rfl

def text (address : Ipv4) : String :=
  String.intercalate "." (address.bytes.map fun b => toString b.toNat)

def octet? (digits : List Char) : Option UInt8 :=
  if digits.isEmpty || digits.length > 3 || !digits.all Char.isDigit then none
  else if digits.length > 1 && digits.head? == some '0' then none
  else
    let n := digits.foldl (fun n c => 10 * n + (c.toNat - 0x30)) 0
    if n ≤ 255 then some (UInt8.ofNat n) else none

def ofText? (text : String) : Option Ipv4 := do
  let numbers ← ((text.toList.splitOn '.').mapM octet?)
  ofBytes? numbers

end Ipv4

/-- Where a datagram goes: an address and a port. -/
structure Endpoint where
  address : Ipv4
  port : UInt16
  deriving DecidableEq, Repr

namespace Endpoint

def text (endpoint : Endpoint) : String :=
  endpoint.address.text ++ ":" ++ toString endpoint.port.toNat

end Endpoint

end ProxyDhcp
