/-
What tells a PXE client, and what does not. All there is to it is the content of option 60
(`Message.value_isPxeClient_eq`): whether it is read as it is held or from what the option writes, and into how many
segments the wire cuts it. The two readings differ for an empty identifier alone, which is nobody's.

So an operation that names another code cannot change who is a PXE client. `Change` lists what can be done to a
message; one change spares the option under a code that it does not name (`Message.get?_apply`), and so do any number
of them.
-/
import ProxyDhcp.Proofs.RawOptions

namespace ProxyDhcp

/-! ## Changes of a message -/

/-- What can be done to a message. An option may be put under another code than its own. -/
inductive Change where
  | header (change : Header → Header)
  | set (setting : Setting)
  | insert (place : OptionCode) (option : DhcpOption)
  | erase (place : OptionCode)

namespace Change

def apply (message : Message) : Change → Message
  | header change => { message with header := change message.header }
  | set setting => OptionStore.set message setting
  | insert place option => { message with options := message.options.insert place option }
  | erase place => { message with options := message.options.erase place }

/-- Whether a change is of another code, if of any. -/
def Spares (code : UInt8) : Change → Prop
  | header _ => True
  | set setting => setting.code ≠ code
  | insert place _ | erase place => place ≠ .ofByte code

instance (code : UInt8) (change : Change) : Decidable (change.Spares code) :=
  match change with
  | header _ => isTrue trivial
  | set setting => inferInstanceAs (Decidable (setting.code ≠ code))
  | insert place _ | erase place => inferInstanceAs (Decidable (place ≠ .ofByte code))

end Change

namespace Message

/-- **A change of another code spares an option.** Option 23 is left out: it is set under the code 37, too. -/
theorem get?_apply {code : UInt8} (hcode : code ≠ 23) {change : Change} (h : change.Spares code) (message : Message) :
    (change.apply message).options.get? (.ofByte code) = message.options.get? (.ofByte code) := by
  cases change with
  | header change => rfl
  | set setting =>
    rw [Change.apply, OptionStore.set_message]
    cases hoption : setting.option? with
    | none => rfl
    | some option =>
      have hplace : option.code ≠ .ofByte code := Setting.ne_of_option? hoption h hcode
      show (message.options.add option).get? _ = _
      rw [OptionTable.get?_add, if_neg hplace.symm]
  | insert place option => exact OptionTable.get?_insert_other message.options option (Ne.symm h)
  | erase place => exact OptionTable.get?_erase_other message.options (Ne.symm h)

theorem get?_foldl_apply {code : UInt8} (hcode : code ≠ 23) {changes : List Change}
    (h : ∀ change ∈ changes, change.Spares code) (message : Message) :
    (changes.foldl Change.apply message).options.get? (.ofByte code) = message.options.get? (.ofByte code) := by
  induction changes generalizing message with
  | nil => rfl
  | cons change changes ih =>
    rw [List.forall_mem_cons] at h
    rw [List.foldl_cons, ih h.2, get?_apply hcode h.1]

theorem option?_congr {message other : Message} {code : UInt8}
    (h : other.options.get? (.ofByte code) = message.options.get? (.ofByte code)) :
    other.option? code = message.option? code := by
  rw [option?, option?, h]

end Message

/-! ## Option 60 on the wire -/

namespace DhcpOption

/-- Option 60 is written in segments that read back as entries of its code, and together they carry its content. -/
theorem exists_segments_classIdentifier {option : DhcpOption} (hown : option.code = .ofByte classIdentifierCode) :
    ∃ pieces : List Bytes, option.encode = .ok (pieces.flatMap (segment classIdentifierCode)) ∧
      Tlv.decode (pieces.flatMap (segment classIdentifierCode)) =
        .ok (pieces.map fun piece => ⟨classIdentifierCode, piece⟩) ∧
      pieces.flatten = option.content := by
  have hlayout : option.code.layout = .bytes := by rw [hown]; rfl
  have hwire := wireLaws.encode_bytes hlayout
  rw [hown, OptionCode.byte_ofByte] at hwire
  exact ⟨option.content.chunks 255, hwire, decode_segments (by decide) (by decide) (by decide) option.content,
    Bytes.flatten_chunks 255 option.content⟩

/-- Segments of code 60 are read as option 60 with all that they carry. -/
theorem decode_segments_classIdentifier {pieces : List Bytes} (hne : pieces ≠ [])
    (hlen : ∀ piece ∈ pieces, piece.length ≤ 255) :
    decode (pieces.flatMap (segment classIdentifierCode)) =
      .ok (⟨.ofByte classIdentifierCode, pieces.flatten⟩, []) := by
  have hcontent : ofContent classIdentifierCode pieces.flatten =
      .ok ⟨.ofByte classIdentifierCode, pieces.flatten⟩ := rfl
  have hnone : ([] : Bytes).head? ≠ some classIdentifierCode := by simp
  have h := wireLaws.decode_row (by decide) (by decide) hne hlen hnone
  rw [List.append_nil, hcontent] at h
  exact h

end DhcpOption

/-! ## Stores without a shorter way -/

theorem OptionStore.value_isPxeClient_of_default {σ : Type} [OptionStore σ] {store : σ}
    (h : classIdentifier store = option? store classIdentifierCode) :
    (isPxeClient store).value = (option? store classIdentifierCode).value.any ClassIdentifier.isPxe := by
  show (classIdentifier store).value.any _ = _
  rw [h]

theorem Setting.last?_eq_none {code : UInt8} {settings : List Setting} (h : ∀ setting ∈ settings, setting.code ≠ code) :
    last? code settings = none := by
  have hnone : (settings.filter fun setting => setting.code = code ∧ setting.Admitted) = [] := by
    rw [List.filter_eq_nil_iff]
    intro setting hmem
    simp [h setting hmem]
  rw [last?, hnone]
  rfl

/-- Settings of other codes leave a map's verdict as it is. -/
theorem PayloadMap.value_isPxeClient_setAll {settings : List Setting}
    (h : ∀ setting ∈ settings, setting.code ≠ classIdentifierCode) (map : PayloadMap) :
    (isPxeClient (OptionStore.setAll map settings)).value = (isPxeClient map).value := by
  rw [OptionStore.value_isPxeClient_of_default rfl, OptionStore.value_isPxeClient_of_default rfl, option?_setAll,
    Setting.last?_eq_none h, Option.none_or]

/-! ## All of it -/

/-- **A PXE client is told by the content of option 60, and by nothing else.** The content is what all segments carry
together, as they are written and as they are read. A store that gets the identifier by its code judges as the message
does, and what is done under other codes changes neither verdict. -/
theorem isPxeClient_exact {message : Message} (proper : message.options.Proper) :
    ((isPxeClient message).value = true ↔
      ∃ option, message.options.get? (.ofByte classIdentifierCode) = some option ∧
        option.content.length = 32 ∧ ClassIdentifier.ascii "PXEClient" <+: option.content) ∧
    (∀ option, message.options.get? (.ofByte classIdentifierCode) = some option →
      (∃ pieces : List Bytes, option.encode = .ok (pieces.flatMap (DhcpOption.segment classIdentifierCode)) ∧
        Tlv.decode (pieces.flatMap (DhcpOption.segment classIdentifierCode)) =
          .ok (pieces.map fun piece => ⟨classIdentifierCode, piece⟩) ∧
        pieces.flatten = option.content) ∧
      ∀ pieces : List Bytes, pieces ≠ [] → (∀ piece ∈ pieces, piece.length ≤ 255) →
        pieces.flatten = option.content →
        DhcpOption.decode (pieces.flatMap (DhcpOption.segment classIdentifierCode)) = .ok (option, [])) ∧
    (∀ {σ : Type} [OptionStore σ] (store : σ),
      OptionStore.classIdentifier store = OptionStore.option? store classIdentifierCode →
      (OptionStore.option? store classIdentifierCode).value =
        (OptionStore.option? message classIdentifierCode).value →
      (isPxeClient store).value = (isPxeClient message).value) ∧
    (∀ changes : List Change, (∀ change ∈ changes, change.Spares classIdentifierCode) →
      isPxeClient (changes.foldl Change.apply message) = isPxeClient message ∧
      OptionStore.option? (changes.foldl Change.apply message) classIdentifierCode =
        OptionStore.option? message classIdentifierCode) ∧
    ∀ (map : PayloadMap) (settings : List Setting), (∀ setting ∈ settings, setting.code ≠ classIdentifierCode) →
      (isPxeClient (OptionStore.setAll map settings)).value = (isPxeClient map).value := by
  refine ⟨?_, fun option hget => ?_, fun store hdefault hpayload => ?_, fun changes h => ?_,
    fun map settings h => PayloadMap.value_isPxeClient_setAll h map⟩
  · rw [Message.value_isPxeClient_eq proper, Option.any_eq_true]
    simp only [ClassIdentifier.isPxe_iff, ClassIdentifier.name]
  · have hown := proper _ _ hget
    refine ⟨DhcpOption.exists_segments_classIdentifier hown, fun pieces hne hlen hcontent => ?_⟩
    rw [DhcpOption.decode_segments_classIdentifier hne hlen, hcontent, ← hown]
  · rw [OptionStore.value_isPxeClient_of_default hdefault, hpayload]
    exact Message.any_isPxe_option? proper
  · have hget := Message.get?_foldl_apply (by decide) h message
    exact ⟨isPxeClient_congr (ofByte_classIdentifierCode ▸ hget), Message.option?_congr hget⟩

/-- Other options that go, come and are put over each other, one of them under the number 60 and yet another. -/
def relayedChanges : List Change :=
  [.header fun header => { header with xid := 0 }, .erase (.known machineIdentifierCode),
    .set ⟨vendorSpecificCode, [DhcpOption.endCode]⟩,
    .insert (.generic classIdentifierCode) ⟨.generic classIdentifierCode, []⟩]

/-- A PXE client, by the message and by a map of its payloads, whatever becomes of other options; and an identifier
that is empty and has no payload. -/
theorem isPxeClient_exact_relayedRequest :
    (isPxeClient relayedRequest).value = true ∧
    (isPxeClient relayedRequest.payloads).value = true ∧
    (isPxeClient (relayedChanges.foldl Change.apply relayedRequest)).value = true ∧
    DhcpOption.decode (DhcpOption.segment classIdentifierCode (relayedClass.take 9) ++
      DhcpOption.segment classIdentifierCode (relayedClass.drop 9)) =
        .ok (⟨.known classIdentifierCode, relayedClass⟩, []) ∧
    (isPxeClient emptyIdentifier.payloads).value = (isPxeClient emptyIdentifier).value := by
  obtain ⟨hclient, hsegments, hstore, hchanges, -⟩ := isPxeClient_exact relayedRequest_proper
  obtain ⟨-, -, hempty, -, -⟩ := isPxeClient_exact emptyIdentifier_proper
  have hverdict : (isPxeClient relayedRequest).value = true :=
    hclient.2 ⟨⟨.known classIdentifierCode, relayedClass⟩, rfl, by decide, by decide⟩
  have hspared : ∀ change ∈ relayedChanges, change.Spares classIdentifierCode := by decide
  refine ⟨hverdict, (hstore relayedRequest.payloads rfl rfl).trans hverdict, ?_, ?_,
    hempty emptyIdentifier.payloads rfl rfl⟩
  · rw [(hchanges relayedChanges hspared).1]
    exact hverdict
  · have h := (hsegments _ rfl).2 [relayedClass.take 9, relayedClass.drop 9] (by simp) (by decide) (by decide)
    rw [List.flatMap_cons, List.flatMap_singleton] at h
    exact h

end ProxyDhcp
