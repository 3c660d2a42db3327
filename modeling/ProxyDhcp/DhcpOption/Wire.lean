/-
Options on the wire: a code, a length and a payload. A payload longer than a length byte counts is cut
into segments, each with the code in front, and neighbouring segments of one code are one option.

`decode_lt`: reading an option uses up at least one byte, which is why reading all options ends.
-/
import ProxyDhcp.DhcpOption.Content

namespace ProxyDhcp

/-- An option: what it is, and its content in the form that its layout keeps. -/
structure DhcpOption where
  code : OptionCode
  content : Bytes
  deriving DecidableEq, Repr

namespace DhcpOption

def padCode : UInt8 := 0

def endCode : UInt8 := 255

/-! ## Reading -/

/-- A length byte and as many bytes as it counts. -/
def segment? : Bytes → Option (Bytes × Bytes)
  | [] => none
  | length :: rest => Bytes.split? length.toNat rest

theorem length_of_segment? {bytes front rest : Bytes} (h : segment? bytes = some (front, rest)) :
    rest.length < bytes.length := by
  cases bytes with
  | nil => cases h
  | cons length bytes =>
    have := Bytes.length_of_split? h
    simp only [List.length_cons]
    omega

/-- The payloads of all segments of `code` that stand at the front, joined, and the bytes after them. -/
def segments? (code : UInt8) : Bytes → Option (Bytes × Bytes)
  | [] => some ([], [])
  | c :: rest =>
    if c = code then
      match _h : segment? rest with
      | none => none
      | some (front, after) => (segments? code after).map fun (more, left) => (front ++ more, left)
    else some ([], c :: rest)
termination_by bytes => bytes.length
decreasing_by
  have := length_of_segment? _h
  simp only [List.length_cons]
  omega

theorem length_of_segments? {code : UInt8} {bytes payload rest : Bytes}
    (h : segments? code bytes = some (payload, rest)) : rest.length ≤ bytes.length := by
  fun_induction segments? code bytes generalizing payload rest with
  | case1 => simp_all
  | case2 => cases h
  | case3 bytes front after hs ih =>
    obtain ⟨⟨more, left⟩, hm, heq⟩ := Option.map_eq_some_iff.1 h
    simp only [Prod.mk.injEq] at heq
    obtain ⟨-, rfl⟩ := heq
    have h1 := ih hm
    have h2 := length_of_segment? hs
    simp only [List.length_cons]
    omega
  | case4 => simp_all

/-- The code that an option is kept under. The default time to live of TCP, 37, is kept as that of IP, 23. -/
def keptCode (code : UInt8) : UInt8 := if code = 37 then 23 else code

def ofContent (code : UInt8) (payload : Bytes) : Except DecodeError DhcpOption := do
  let kept := OptionCode.ofByte (keptCode code)
  let content ← kept.layout.content payload
  return ⟨kept, content⟩

def decode : Bytes → Except DecodeError (DhcpOption × Bytes)
  | [] => .error .notEnoughBytes
  | code :: rest =>
    if code = padCode ∨ code = endCode then .ok (⟨.known code, []⟩, rest)
    else match segments? code (code :: rest) with
      | none => .error .notEnoughBytes
      | some (payload, after) => do
        let option ← ofContent code payload
        return (option, after)

/-- The single segment at the front of the bytes as a generic option, whatever its code. -/
def decodeGeneric : Bytes → Except DecodeError DhcpOption
  | [] => .error .notEnoughBytes
  | code :: rest =>
    match segment? rest with
    | none => .error .notEnoughBytes
    | some (payload, _) => .ok ⟨.generic code, payload⟩

theorem decode_lt {bytes rest : Bytes} {option : DhcpOption} (h : decode bytes = .ok (option, rest)) :
    rest.length < bytes.length := by
  cases bytes with
  | nil => cases h
  | cons code bytes =>
    rw [decode] at h
    split at h
    · cases h
      simp
    split at h
    · cases h
    next payload after hs =>
    cases ho : ofContent code payload with
    | error e => simp [ho, bind, Except.bind] at h
    | ok o =>
      simp only [ho, bind, Except.bind, pure, Except.pure, Except.ok.injEq, Prod.mk.injEq] at h
      obtain ⟨-, rfl⟩ := h
      rw [segments?] at hs
      simp only [if_true] at hs
      split at hs
      · cases hs
      · next front after' hf =>
        obtain ⟨⟨more, left⟩, hm, heq⟩ := Option.map_eq_some_iff.1 hs
        simp only [Prod.mk.injEq] at heq
        obtain ⟨-, rfl⟩ := heq
        have h1 := length_of_segments? hm
        have h2 := length_of_segment? hf
        simp only [List.length_cons]
        omega

/-! ## Writing -/

def segment (code : UInt8) (payload : Bytes) : Bytes :=
  code :: UInt8.ofNat payload.length :: payload

/-- As many segments as the content needs, none if there is no content. -/
def segments (code : UInt8) (limit : Nat) (content : Bytes) : Bytes :=
  (content.chunks limit).flatMap (segment code)

def namesLimit : Nat := 65535

/-- The bytes of an option. An option of a fixed shape is one segment; a list or a string is as many as
it needs. -/
def encode (option : DhcpOption) : Except EncodeError Bytes :=
  let code := option.code.byte
  match option.code.layout with
  | .pad => .ok [padCode]
  | .close => .ok [endCode]
  | .exact _ | .leading _ | .flag | .autoconfigure | .status => .ok (segment code option.content)
  | .rootNames =>
    if namesLimit < option.content.length then .error .namesTooLong
    else .ok (segments code 255 option.content)
  | layout => .ok (segments code layout.segmentLimit option.content)

end DhcpOption

end ProxyDhcp
