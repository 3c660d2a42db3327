/-
Which messages belong to a PXE client, told by the raw payload of option 60 (`isPxeClient_iff`). The
class identifier is read from the option as it is held, a payload from what the option writes; for plain
bytes the two agree but for an empty option, which is nobody's identifier.
-/
import ProxyDhcp.OptionStore
import ProxyDhcp.Proofs.Canonical
import ProxyDhcp.Proofs.PlainBytes

namespace ProxyDhcp

namespace Message

/-- **The payload under a code of plain bytes** is the content of the option there, unless it is empty. -/
theorem option?_bytes {message : Message} (proper : message.options.Proper) {code : UInt8}
    (hlayout : (OptionCode.ofByte code).layout = .bytes) (hcode : code ≠ DhcpOption.endCode) :
    message.option? code =
      pure ((message.options.get? (.ofByte code)).bind fun option =>
        if option.content = [] then none else some option.content) := by
  rw [option?]
  cases hget : message.options.get? (.ofByte code) with
  | none => rfl
  | some option =>
    have hown := proper _ _ hget
    have hbyte : option.code.byte = code := by rw [hown, OptionCode.byte_ofByte]
    have h := DhcpOption.payload_self (hown ▸ hlayout) (hbyte ▸ hcode)
    rw [hbyte] at h
    exact h

/-- The option behind a payload under a code of plain bytes. -/
theorem get?_of_option? {message : Message} (proper : message.options.Proper) {code : UInt8}
    (hlayout : (OptionCode.ofByte code).layout = .bytes) (hcode : code ≠ DhcpOption.endCode) {payload : Bytes}
    (h : (message.option? code).value = some payload) :
    payload ≠ [] ∧ message.options.get? (.ofByte code) = some ⟨.ofByte code, payload⟩ := by
  rw [option?_bytes proper hlayout hcode] at h
  obtain ⟨option, hget, hcontent⟩ := Option.bind_eq_some_iff.1 h
  have hown := proper _ _ hget
  split at hcontent
  · cases hcontent
  · next hne =>
    cases hcontent
    exact ⟨hne, by rw [hget, ← hown]⟩

/-- A payload under a code of plain bytes whose option is known. -/
theorem option?_of_get? {message : Message} {code : UInt8}
    (hlayout : (OptionCode.ofByte code).layout = .bytes) (hcode : code ≠ DhcpOption.endCode)
    {payload : Bytes} (hne : payload ≠ [])
    (h : message.options.get? (.ofByte code) = some ⟨.ofByte code, payload⟩) :
    (message.option? code).value = some payload := by
  have hbyte : (⟨.ofByte code, payload⟩ : DhcpOption).code.byte = code := OptionCode.byte_ofByte code
  have hpayload := DhcpOption.payload_self hlayout (hbyte ▸ hcode)
  rw [hbyte, if_neg hne] at hpayload
  simp only [option?, h, hpayload, Logged.value_pure]

end Message

/-- The identifier of a PXE client: 32 bytes that begin with the name. -/
theorem ClassIdentifier.isPxe_iff {id : Bytes} : isPxe id = true ↔ id.length = 32 ∧ name <+: id := by
  simp [isPxe, length]

theorem ofByte_classIdentifierCode : OptionCode.ofByte classIdentifierCode = .known classIdentifierCode := by
  decide

theorem value_isPxeClient (message : Message) :
    (isPxeClient message).value = message.classIdentifier.value.any ClassIdentifier.isPxe := rfl

/-- Messages with the same option 60 are judged alike. -/
theorem isPxeClient_congr {message other : Message}
    (h : other.options.get? (.known classIdentifierCode) = message.options.get? (.known classIdentifierCode)) :
    isPxeClient other = isPxeClient message := by
  show (do return Option.any _ (← other.classIdentifier)) = (do return Option.any _ (← message.classIdentifier))
  rw [Message.classIdentifier, Message.classIdentifier, h]

namespace Message

variable {message : Message}

/-- **Who is a PXE client is told by the content of option 60.** -/
theorem value_isPxeClient_eq (proper : message.options.Proper) :
    (isPxeClient message).value =
      (message.options.get? (.ofByte classIdentifierCode)).any fun option => ClassIdentifier.isPxe option.content := by
  rw [value_isPxeClient, classIdentifier, ofByte_classIdentifierCode]
  cases hget : message.options.get? (.known classIdentifierCode) with
  | none => rfl
  | some option =>
    simp only [proper _ _ hget, if_true]
    rfl

/-- The payload of option 60 gives the same verdict as its content. -/
theorem any_isPxe_option? (proper : message.options.Proper) :
    (message.option? classIdentifierCode).value.any ClassIdentifier.isPxe = (isPxeClient message).value := by
  rw [value_isPxeClient_eq proper, option?_bytes proper (by decide) (by decide)]
  cases message.options.get? (.ofByte classIdentifierCode) with
  | none => rfl
  | some option =>
    rw [Logged.value_pure, Option.bind_some, Option.any_some]
    by_cases hempty : option.content = []
    · rw [if_pos hempty, hempty]
      rfl
    · rw [if_neg hempty, Option.any_some]

end Message

/-- **A PXE client's message is one whose option 60 carries the identifier of a PXE client.** -/
theorem isPxeClient_iff {message : Message} (proper : message.options.Proper) :
    (isPxeClient message).value = true ↔
      ∃ id, (message.option? classIdentifierCode).value = some id ∧ id.length = 32 ∧
        ClassIdentifier.name <+: id := by
  rw [← Message.any_isPxe_option? proper, Option.any_eq_true]
  simp only [ClassIdentifier.isPxe_iff]

/-! ## A request -/

/-- The class identifier of a PXE client, with its numbers. -/
def relayedClass : Bytes := ClassIdentifier.format ⟨0, 2, 1⟩

/-- The identifier of a machine: its type and sixteen bytes. -/
def relayedIdentifier : Bytes :=
  [0x00, 0x4C, 0x4C, 0x45, 0x44, 0x00, 0x42, 0x4E, 0x10, 0x80, 0x34, 0xB2, 0xC0, 0x4F, 0x51, 0x4A, 0x32]

/-- The header of a request that a relay passed on, from a client with an address of its own. -/
def relayedHeader : Header :=
  { Header.blank with
    opcode := Header.request
    htype := 1
    hlen := 6
    hops := 1
    xid := 0x12345678
    secs := 4
    flags := 0x8000
    ciaddr := ⟨10, 0, 0, 7⟩
    giaddr := ⟨10, 0, 0, 1⟩
    chaddr := .fit 16 [0x00, 0x0C, 0x29, 0xA8, 0x92, 0xF4] }

/-- A PXE client's request that names the server 10.0.0.254. -/
def relayedRequest : Message where
  header := relayedHeader
  options :=
    (((OptionTable.empty.add ⟨.known 53, [3]⟩).add ⟨.known 54, [10, 0, 0, 254]⟩).add
      ⟨.known classIdentifierCode, relayedClass⟩).add ⟨.known machineIdentifierCode, relayedIdentifier⟩

theorem relayedRequest_proper : relayedRequest.options.Proper :=
  OptionTable.add_proper (OptionTable.add_proper (OptionTable.add_proper (OptionTable.add_proper
    OptionTable.empty_proper _) _) _) _

theorem relayedRequest_canonical : relayedRequest.options.Canonical := by
  refine OptionTable.add_canonical (OptionTable.add_canonical (OptionTable.add_canonical
    (OptionTable.add_canonical OptionTable.empty_canonical ?_) ?_) ?_) ?_ <;> rfl

theorem option?_relayedRequest :
    (relayedRequest.option? classIdentifierCode).value = some relayedClass ∧
    (relayedRequest.option? machineIdentifierCode).value = some relayedIdentifier :=
  ⟨Message.option?_of_get? (by decide) (by decide) (by decide) rfl,
    Message.option?_of_get? (by decide) (by decide) (by decide) rfl⟩

theorem isPxeClient_relayedRequest : (isPxeClient relayedRequest).value = true :=
  (isPxeClient_iff relayedRequest_proper).2 ⟨relayedClass, option?_relayedRequest.1, by decide, by decide⟩

end ProxyDhcp
