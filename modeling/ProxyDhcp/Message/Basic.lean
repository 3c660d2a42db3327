/-
Whole messages: a header and a table of options. Reading a message never fails on its options: it keeps
those in front of the terminator or of the first one that cannot be read, the last of each code. Writing one puts
the options in the order of their codes; `Message.WrittenAs` leaves the order open.
-/
import ProxyDhcp.Message.Header
import ProxyDhcp.OptionTable

namespace ProxyDhcp

structure Message where
  header : Header
  options : OptionTable
  deriving DecidableEq

namespace Message

/-- The options of a byte string, added to a table one after the other. -/
def readOptions (table : OptionTable) : Bytes → OptionTable
  | [] => table
  | code :: rest =>
    if code = DhcpOption.padCode then readOptions table rest
    else if code = DhcpOption.endCode then table
    else match _h : DhcpOption.decode (code :: rest) with
      | .error _ => table
      | .ok (option, after) => readOptions (table.add option) after
termination_by bytes => bytes.length
decreasing_by
  · simp
  · exact DhcpOption.decode_lt _h

def decode (bytes : Bytes) : Except DecodeError Message :=
  match Header.decode? bytes with
  | none => .error .notEnoughBytes
  | some (header, rest) => .ok ⟨header, readOptions .empty rest⟩

def encodeOptions : List DhcpOption → Except EncodeError Bytes
  | [] => .ok []
  | option :: options => do
    let front ← option.encode
    let rest ← encodeOptions options
    return front ++ rest

/-- The bytes of a message: its header, its options by ascending code, and the terminator. -/
def encode (message : Message) : Except EncodeError Bytes := do
  let options ← encodeOptions (message.options.entries.map (·.2))
  return message.header.encode ++ options ++ [DhcpOption.endCode]

/-- A packet that carries the message, with its options in any order. `encode` writes one of these packets. -/
def WrittenAs (message : Message) (packet : Bytes) : Prop :=
  ∃ options body, options.Perm (message.options.entries.map (·.2)) ∧ encodeOptions options = .ok body ∧
    packet = message.header.encode ++ body ++ [DhcpOption.endCode]

theorem writtenAs_of_encode {message : Message} {packet : Bytes} (h : message.encode = .ok packet) :
    message.WrittenAs packet := by
  rw [encode] at h
  cases hbody : encodeOptions (message.options.entries.map (·.2)) with
  | error cause => rw [hbody] at h; cases h
  | ok body =>
    rw [hbody] at h
    cases h
    exact ⟨_, body, .refl _, hbody, rfl⟩

/-- Options are written, in whatever order, if each of them is. -/
theorem encodeOptions_ok_iff {options : List DhcpOption} :
    (∃ body, encodeOptions options = .ok body) ↔ ∀ option ∈ options, ∃ wire, option.encode = .ok wire := by
  induction options with
  | nil => simp [encodeOptions]
  | cons option options ih =>
    rw [List.forall_mem_cons, ← ih, encodeOptions]
    cases option.encode with
    | error cause => simp [bind, Except.bind]
    | ok wire => cases encodeOptions options <;> simp [bind, Except.bind, pure, Except.pure]

/-- The value of option 53, if the message has it. An option of another kind under that code is not it. -/
def messageType? (message : Message) : Option UInt8 :=
  match message.options.get? (.known 53) with
  | some ⟨.known 53, [value]⟩ => some value
  | _ => none

/-- The value of option 54, if the message has it. An option of another kind under that code is not it. -/
def serverIdentifier? (message : Message) : Option Ipv4 :=
  match message.options.get? (.known 54) with
  | some ⟨.known 54, content⟩ => Ipv4.ofBytes? content
  | _ => none

end Message

end ProxyDhcp
