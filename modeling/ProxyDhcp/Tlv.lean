/-
Code-length-value entries: the layout that DHCP options and the vendor options inside option 43 share.
One code byte, one length byte, then as many bytes of payload; code 255 is a terminator of one byte.

`encode` fails at the first entry that does not fit, and `decode` at the first entry that the bytes do
not hold; the bytes after a terminator are never looked at.
-/
import ProxyDhcp.Bytes
import ProxyDhcp.Error

namespace ProxyDhcp

structure Tlv where
  code : UInt8
  payload : Bytes
  deriving DecidableEq, Repr

namespace Tlv

def endCode : UInt8 := 255

def terminator : Tlv := ⟨endCode, []⟩

def isEnd (entry : Tlv) : Bool := entry.code == endCode

def encodedLength (entry : Tlv) : Nat :=
  if entry.isEnd then 1 else 2 + entry.payload.length

/-- The bytes of one entry. A terminator carries no payload, and one length byte counts to 255. -/
def encodeOne (entry : Tlv) : Except Error Bytes :=
  if entry.isEnd then
    if entry.payload.isEmpty then .ok [endCode] else .error (.payloadTooLong entry.code entry.payload.length)
  else if entry.payload.length ≤ 255 then
    .ok (entry.code :: UInt8.ofNat entry.payload.length :: entry.payload)
  else .error (.payloadTooLong entry.code entry.payload.length)

def encode : List Tlv → Except Error Bytes
  | [] => .ok []
  | entry :: entries => do
    let front ← encodeOne entry
    let rest ← encode entries
    return front ++ rest

/-- The entries of `bytes`, the first of which stands at `offset` in the data they come from. A terminator
is the last entry and what follows it is ignored; a sequence need not be terminated. -/
def decodeAt (offset : Nat) : Bytes → Except Error (List Tlv)
  | [] => .ok []
  | [code] => if code = endCode then .ok [terminator] else .error (.malformedTlv offset .missingLength)
  | code :: length :: rest =>
    if code = endCode then .ok [terminator]
    else match h : Bytes.split? length.toNat rest with
      | none => .error (.malformedTlv offset .overrun)
      | some (payload, after) => do
        let entries ← decodeAt (offset + 2 + length.toNat) after
        return ⟨code, payload⟩ :: entries
termination_by bytes => bytes.length
decreasing_by
  have := Bytes.length_of_split? h
  simp only [List.length_cons]
  omega

def decode (bytes : Bytes) : Except Error (List Tlv) := decodeAt 0 bytes

def terminated (entries : List Tlv) : Bool :=
  entries.getLast?.any isEnd

end Tlv

end ProxyDhcp
