/-
What is set and what is read back. A payload is set as the option that it becomes, and reading gives what this option
writes, if it lies under the code that was set. Where the layouts describe an option (`DhcpOption.Described`), setting
keeps of a payload what its layout counts. So the payloads that are read back as they were set are those that their
layout keeps whole, and no empty one but that of option 80; option 37 is kept under another code and never read back
(`Message.option?_setOption`).

The class identifier is read from option 60 as it is held, so it differs from the payload of option 60 where
that option is empty, and nowhere else (`classIdentifier_eq_option?_iff`).
-/
import ProxyDhcp.Proofs.Payloads
import ProxyDhcp.Proofs.PxeClient

namespace ProxyDhcp

/-! ## Setting an option -/

namespace DhcpOption

/-- A payload becomes an option if its code is not reserved, one entry can carry it, and it suits the layout
of its code. -/
theorem ofPayload_eq_ok_iff {code : UInt8} {payload : Bytes} {option : DhcpOption} :
    ofPayload code payload = .ok option ↔
      (code ≠ padCode ∧ code ≠ endCode ∧ payload.length ≤ 255) ∧ ofContent code payload = .ok option := by
  by_cases hcode : code = padCode ∨ code = endCode
  · rw [ofPayload, if_pos hcode]
    simp only [reduceCtorEq, false_iff]
    exact fun h => hcode.elim h.1.1 h.1.2.1
  obtain ⟨hpad, hend⟩ := not_or.1 hcode
  by_cases hlen : payload.length ≤ 255
  · rw [ofPayload_eq hpad hend hlen]
    cases ofContent code payload with
    | error cause =>
      constructor
      · intro h
        cases h
      · rintro ⟨-, h⟩
        cases h
    | ok read =>
      constructor
      · intro h
        cases h
        exact ⟨⟨hpad, hend, hlen⟩, rfl⟩
      · rintro ⟨-, h⟩
        cases h
        rfl
  · rw [ofPayload_long hpad hend (Nat.not_le.1 hlen)]
    simp only [hlen, and_false, false_and, reduceCtorEq]

/-- What the layouts describe of the options that are set: all codes but those in `OptionCode.undescribed` and the one
of a search list, and of the sub-options of a relay agent no more than one, since several have no order. -/
def Described (code : UInt8) (payload : Bytes) : Prop :=
  code ∉ OptionCode.undescribed ∧ (OptionCode.ofByte code).layout ≠ .rootNames ∧
    ((OptionCode.ofByte code).layout = .relay → (Relay.latest (Relay.items payload)).length ≤ 1)

end DhcpOption

namespace Message

theorem setOption_eq_ok_iff {message after : Message} {code : UInt8} {payload : Bytes} :
    message.setOption code payload = .ok after ↔
      ∃ option, DhcpOption.ofPayload code payload = .ok option ∧
        after = { message with options := message.options.add option } := by
  rw [setOption]
  cases DhcpOption.ofPayload code payload with
  | error cause => simp [bind, Except.bind]
  | ok option => simp [bind, Except.bind, pure, Except.pure, eq_comm]

/-- What setting an option does, when its layout admits the payload. -/
theorem setOption_of_content {code : UInt8} (hpad : code ≠ DhcpOption.padCode) (hend : code ≠ DhcpOption.endCode)
    (hkept : DhcpOption.keptCode code = code) {payload content : Bytes} (hlen : payload.length ≤ 255)
    (hcontent : (OptionCode.ofByte code).layout.content payload = .ok content) (message : Message) :
    message.setOption code payload =
      .ok { message with options := message.options.add ⟨.ofByte code, content⟩ } := by
  refine setOption_eq_ok_iff.2 ⟨_, DhcpOption.ofPayload_eq_ok_iff.2 ⟨⟨hpad, hend, hlen⟩, ?_⟩, rfl⟩
  exact DhcpOption.ofContent_eq_ok_iff.2 ⟨content, by rw [hkept]; exact hcontent, by rw [hkept]⟩

/-- The default time to live of TCP, whose option is kept under the code of IP's. -/
def tcpTimeToLive : UInt8 := 37

/-- After an option was set, its own payload is read under its code. Under any other code nothing has changed. -/
theorem option?_setOption_added {message after : Message} {code : UInt8} {payload : Bytes}
    (h : message.setOption code payload = .ok after) :
    ∃ option, DhcpOption.ofPayload code payload = .ok option ∧
      after.option? code = if option.code = .ofByte code then option.payload code else message.option? code := by
  obtain ⟨option, hoption, rfl⟩ := setOption_eq_ok_iff.1 h
  refine ⟨option, hoption, ?_⟩
  simp only [option?, OptionTable.get?_add]
  by_cases hown : option.code = .ofByte code
  · rw [if_pos hown.symm, if_pos hown]
  · rw [if_neg (Ne.symm hown), if_neg hown]

/-- Setting option 37 leaves what is read under 37. -/
theorem option?_setOption_tcpTimeToLive {message after : Message} {payload : Bytes}
    (h : message.setOption tcpTimeToLive payload = .ok after) :
    after.option? tcpTimeToLive = message.option? tcpTimeToLive := by
  obtain ⟨option, hoption, hread⟩ := option?_setOption_added h
  have hcode := DhcpOption.wireLaws.code_ofContent (DhcpOption.ofPayload_eq_ok_iff.1 hoption).2
  have hother : option.code ≠ .ofByte tcpTimeToLive := by
    rw [hcode]
    decide
  rw [hread, if_neg hother]

/-- Setting any other option keeps what its layout counts of the payload, and this is read back unless it is
nothing. -/
theorem option?_setOption_kept {message after : Message} {code : UInt8} {payload : Bytes}
    (h : message.setOption code payload = .ok after) (hkept : code ≠ tcpTimeToLive) :
    ∃ content, (OptionCode.ofByte code).layout.content payload = .ok content ∧
      after.option? code =
        pure (if content = [] ∧ code ≠ OptionCode.rapidCommit then none else some content) := by
  obtain ⟨option, hoption, hread⟩ := option?_setOption_added h
  obtain ⟨⟨hpad, hend, hlen⟩, hmade⟩ := DhcpOption.ofPayload_eq_ok_iff.1 hoption
  obtain ⟨content, hcontent, rfl⟩ := DhcpOption.ofContent_eq_ok_iff.1 hmade
  have hcode : DhcpOption.keptCode code = code := if_neg hkept
  rw [hcode] at hcontent hread
  refine ⟨content, hcontent, ?_⟩
  have hshort := Nat.le_trans (Layout.contentLaws.length_content_le hcontent) hlen
  have hwritten : content = [] ∧ (OptionCode.ofByte code).layout.fixed = false ↔
      content = [] ∧ code ≠ OptionCode.rapidCommit := by
    refine and_congr_right fun hempty => ?_
    subst hempty
    rw [← Bool.not_eq_true, OptionCode.fixed_iff hcontent]
  rw [hread, if_pos rfl, DhcpOption.payload_ofByte hpad hend hshort]
  simp only [hwritten]

/-- So a payload reads back as it was set if its layout keeps all of it and there is something to read. -/
theorem option?_setOption_self_iff {message after : Message} {code : UInt8} {payload : Bytes}
    (h : message.setOption code payload = .ok after) (hkept : code ≠ tcpTimeToLive) :
    (after.option? code).value = some payload ↔
      (OptionCode.ofByte code).layout.content payload = .ok payload ∧ (payload = [] → code = OptionCode.rapidCommit) := by
  obtain ⟨content, hcontent, hread⟩ := option?_setOption_kept h hkept
  rw [hread, hcontent, Logged.value_pure, Except.ok.injEq]
  constructor
  · intro hvalue
    split at hvalue
    · cases hvalue
    · next hwritten =>
      cases hvalue
      exact ⟨rfl, fun hempty => Classical.byContradiction fun hcode => hwritten ⟨hempty, hcode⟩⟩
  · rintro ⟨rfl, hempty⟩
    rw [if_neg fun hlost => hlost.2 (hempty hlost.1)]

/-- **What is read back after setting an option.** The payload becomes an option, and what is read is the payload of
this option if it lies under the code that was set, and what was read before if it does not, as it is with 37. Where the
layouts describe the option, it is what the layout keeps of the payload, and nothing if that is empty and the code is
not 80. So a payload reads back as it was set if and only if its layout keeps all of it and it is not empty, but for
these two codes. -/
theorem option?_setOption {message after : Message} {code : UInt8} {payload : Bytes}
    (h : message.setOption code payload = .ok after) :
    (∃ option, DhcpOption.ofPayload code payload = .ok option ∧
      after.option? code = if option.code = .ofByte code then option.payload code else message.option? code) ∧
    (code = tcpTimeToLive → after.option? code = message.option? code) ∧
    (DhcpOption.Described code payload →
      (code ≠ tcpTimeToLive → ∃ content, (OptionCode.ofByte code).layout.content payload = .ok content ∧
        after.option? code =
          pure (if content = [] ∧ code ≠ OptionCode.rapidCommit then none else some content)) ∧
      ((after.option? code).value = some payload ↔
        if code = tcpTimeToLive then (message.option? code).value = some payload
        else (OptionCode.ofByte code).layout.content payload = .ok payload ∧
          (payload = [] → code = OptionCode.rapidCommit))) := by
  refine ⟨option?_setOption_added h, ?_, fun _ => ⟨option?_setOption_kept h, ?_⟩⟩
  · rintro rfl
    exact option?_setOption_tcpTimeToLive h
  by_cases hkept : code = tcpTimeToLive
  · subst hkept
    rw [if_pos rfl, option?_setOption_tcpTimeToLive h]
  · rw [if_neg hkept, option?_setOption_self_iff h hkept]

/-- A message type with a byte behind it loses the byte, and a class identifier is read back whole. -/
theorem option?_setOption_messageType :
    (∃ after, relayedRequest.setOption 53 [1, 9] = .ok after ∧ (after.option? 53).value = some [1]) ∧
      ∃ after, relayedRequest.setOption classIdentifierCode ClassIdentifier.name = .ok after ∧
        (after.option? classIdentifierCode).value = some ClassIdentifier.name := by
  have htype := setOption_of_content (by decide) (by decide) (by decide) (by decide)
    (rfl : (OptionCode.ofByte 53).layout.content [1, 9] = .ok [1]) relayedRequest
  have hname := setOption_of_content (by decide) (by decide) (by decide) (by decide)
    (rfl : (OptionCode.ofByte classIdentifierCode).layout.content ClassIdentifier.name = .ok _) relayedRequest
  have htypes : DhcpOption.Described 53 [1, 9] := ⟨by decide, by decide, fun h => absurd h (by decide)⟩
  have hnames : DhcpOption.Described classIdentifierCode ClassIdentifier.name :=
    ⟨by decide, by decide, fun h => absurd h (by decide)⟩
  obtain ⟨content, hcontent, hread⟩ := ((option?_setOption htype).2.2 htypes).1 (by decide)
  cases hcontent
  refine ⟨⟨_, htype, by rw [hread]; rfl⟩, _, hname, ((option?_setOption hname).2.2 hnames).2.2 ?_⟩
  exact ⟨rfl, by decide⟩

end Message

/-- A message whose option 60 is there and empty. -/
def emptyIdentifier : Message where
  header := Header.blank
  options := OptionTable.empty.add ⟨.known classIdentifierCode, []⟩

theorem emptyIdentifier_proper : emptyIdentifier.options.Proper :=
  OptionTable.add_proper OptionTable.empty_proper _

theorem option?_emptyIdentifier : emptyIdentifier.option? classIdentifierCode = pure none := by
  rw [Message.option?_bytes emptyIdentifier_proper (by decide) (by decide)]
  rfl

/-- An empty identifier is set, and none is read back. -/
theorem setOption_emptyIdentifier :
    (⟨Header.blank, .empty⟩ : Message).setOption classIdentifierCode [] = .ok emptyIdentifier ∧
      (emptyIdentifier.option? classIdentifierCode).value = none := by
  constructor
  · exact Message.setOption_of_content (by decide) (by decide) (by decide) (by decide)
      (rfl : (OptionCode.ofByte classIdentifierCode).layout.content [] = .ok []) ⟨Header.blank, .empty⟩
  · rw [option?_emptyIdentifier]
    rfl

/-! ## The class identifier -/

/-- **The identifier as it is held and the payload of option 60** are the same, with the same events, but for
an option 60 that is there and empty: its identifier is empty and its payload is none. -/
theorem classIdentifier_eq_option?_iff (message : Message) :
    (OptionStore.classIdentifier message = OptionStore.option? message classIdentifierCode ↔
      message.options.get? (.known classIdentifierCode) ≠ some ⟨.known classIdentifierCode, []⟩) ∧
    (message.options.get? (.known classIdentifierCode) = some ⟨.known classIdentifierCode, []⟩ →
      OptionStore.classIdentifier message = pure (some []) ∧
      OptionStore.option? message classIdentifierCode = pure none) := by
  show (message.classIdentifier = message.option? classIdentifierCode ↔ _) ∧
    (_ → message.classIdentifier = pure (some []) ∧ message.option? classIdentifierCode = pure none)
  rw [Message.classIdentifier, Message.option?, ofByte_classIdentifierCode]
  cases hget : message.options.get? (.known classIdentifierCode) with
  | none => simp
  | some option =>
    obtain ⟨code, content⟩ := option
    by_cases hown : code = .known classIdentifierCode
    · subst hown
      have hlayout : (OptionCode.known classIdentifierCode).layout = .bytes := by decide
      have hpayload : DhcpOption.payload classIdentifierCode ⟨.known classIdentifierCode, content⟩ =
          pure (if content = [] then none else some content) :=
        @DhcpOption.payload_self ⟨.known classIdentifierCode, content⟩ hlayout (show (60 : UInt8) ≠ 255 by decide)
      simp only [if_true, hpayload]
      by_cases hempty : content = []
      · subst hempty
        have hdiffer : (pure (some []) : Logged (Option Bytes)) ≠ pure none := fun h => by
          cases congrArg Logged.value h
        simp [hdiffer]
      · simp [hempty]
    · -- An option of another kind under this code is read by its payload either way.
      simp [hown]

/-- Read as it is held, the identifier of `emptyIdentifier` is empty; read by its payload, there is none. -/
theorem classIdentifier_emptyIdentifier :
    emptyIdentifier.options.Proper ∧
      (OptionStore.classIdentifier emptyIdentifier).value = some [] ∧
      (OptionStore.option? emptyIdentifier classIdentifierCode).value = none :=
  ⟨emptyIdentifier_proper, rfl, congrArg Logged.value option?_emptyIdentifier⟩

end ProxyDhcp
