/-
The fixed part of a message: 240 bytes of fields. `decode_encode` says that a header reads back from
its bytes, but for the two text fields, of which only a text that a zero byte closes is kept.
-/
import ProxyDhcp.Ipv4

namespace ProxyDhcp

/-- The fields in front of the options, in the order of the wire. -/
structure Header where
  /-- 1 for a request and 2 for a reply; other values are kept as they are. -/
  opcode : UInt8
  htype : UInt8
  /-- How many bytes of `chaddr` are the hardware address. -/
  hlen : UInt8
  hops : UInt8
  /-- The number that ties a reply to its request. -/
  xid : UInt32
  secs : UInt16
  flags : UInt16
  ciaddr : Ipv4
  yiaddr : Ipv4
  siaddr : Ipv4
  /-- The relay that passed the request on, if there is one. -/
  giaddr : Ipv4
  chaddr : Bytes.Field 16
  sname : Bytes.Field 64
  file : Bytes.Field 128
  magic : Bytes.Field 4
  deriving DecidableEq

namespace Header

def request : UInt8 := 1

def reply : UInt8 := 2

/-- The four bytes that announce options. -/
def cookie : Bytes.Field 4 := ⟨[0x63, 0x82, 0x53, 0x63], rfl⟩

def blank : Header where
  opcode := 0
  htype := 0
  hlen := 0
  hops := 0
  xid := 0
  secs := 0
  flags := 0
  ciaddr := .unspecified
  yiaddr := .unspecified
  siaddr := .unspecified
  giaddr := .unspecified
  chaddr := .zero 16
  sname := .zero 64
  file := .zero 128
  magic := cookie

/-- The hardware address of the client, which cannot be longer than its field. -/
def hardwareAddress? (header : Header) : Option Bytes :=
  if header.hlen ≤ 16 then some (header.chaddr.bytes.take header.hlen.toNat) else none

/-- Writes a hardware address: as much of it as the field holds, and its length as far as a byte counts. -/
def withHardwareAddress (header : Header) (address : Bytes) : Header :=
  { header with chaddr := .fit 16 address, hlen := UInt8.ofNat address.length }

def encode (header : Header) : Bytes :=
  [header.opcode, header.htype, header.hlen, header.hops] ++
    (Bytes.ofWord32 header.xid ++ (Bytes.ofWord16 header.secs ++ (Bytes.ofWord16 header.flags ++
      (header.ciaddr.bytes ++ (header.yiaddr.bytes ++ (header.siaddr.bytes ++ (header.giaddr.bytes ++
        (header.chaddr.bytes ++ (header.sname.bytes ++ (header.file.bytes ++ header.magic.bytes))))))))))

def decode? (bytes : Bytes) : Option (Header × Bytes) := do
  let (opcode, rest) ← Bytes.byte? bytes
  let (htype, rest) ← Bytes.byte? rest
  let (hlen, rest) ← Bytes.byte? rest
  let (hops, rest) ← Bytes.byte? rest
  let (xid, rest) ← Bytes.word32? rest
  let (secs, rest) ← Bytes.word16? rest
  let (flags, rest) ← Bytes.word16? rest
  let (ciaddr, rest) ← Ipv4.read? rest
  let (yiaddr, rest) ← Ipv4.read? rest
  let (siaddr, rest) ← Ipv4.read? rest
  let (giaddr, rest) ← Ipv4.read? rest
  let (chaddr, rest) ← Bytes.Field.read? 16 rest
  let (sname, rest) ← Bytes.Field.read? 64 rest
  let (file, rest) ← Bytes.Field.read? 128 rest
  let (magic, rest) ← Bytes.Field.read? 4 rest
  return ({ opcode, htype, hlen, hops, xid, secs, flags, ciaddr, yiaddr, siaddr, giaddr, chaddr,
            sname := sname.terminated, file := file.terminated, magic }, rest)

theorem length_encode (header : Header) : header.encode.length = 240 := by
  simp only [encode, List.length_append, List.length_cons, List.length_nil, Bytes.length_ofWord32,
    Bytes.length_ofWord16, Ipv4.length_bytes, Bytes.Field.length_eq]

theorem bind_of_eq_some {α β : Type} {x : Option α} {a : α} {f : α → Option β} (h : x = some a) :
    (x >>= f) = f a := by
  rw [h]
  rfl

theorem decode_encode (header : Header) (rest : Bytes) :
    decode? (header.encode ++ rest) =
      some ({ header with sname := header.sname.terminated, file := header.file.terminated }, rest) := by
  rw [encode, decode?]
  simp only [List.append_assoc, List.cons_append, List.nil_append]
  rw [bind_of_eq_some (Bytes.byte?_cons _ _), bind_of_eq_some (Bytes.byte?_cons _ _),
    bind_of_eq_some (Bytes.byte?_cons _ _), bind_of_eq_some (Bytes.byte?_cons _ _),
    bind_of_eq_some (Bytes.word32?_ofWord32 _ _), bind_of_eq_some (Bytes.word16?_ofWord16 _ _),
    bind_of_eq_some (Bytes.word16?_ofWord16 _ _), bind_of_eq_some (Ipv4.read?_bytes _ _),
    bind_of_eq_some (Ipv4.read?_bytes _ _), bind_of_eq_some (Ipv4.read?_bytes _ _),
    bind_of_eq_some (Ipv4.read?_bytes _ _), bind_of_eq_some (Bytes.Field.read?_append _ _),
    bind_of_eq_some (Bytes.Field.read?_append _ _), bind_of_eq_some (Bytes.Field.read?_append _ _),
    bind_of_eq_some (Bytes.Field.read?_append _ _)]
  rfl

end Header

end ProxyDhcp
