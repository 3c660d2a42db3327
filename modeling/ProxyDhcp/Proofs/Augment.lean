/-
Adding the PXE options is all or nothing. Whether they are added depends on the request alone
(`Eligible`), and then the reply differs in options 60, 97 and 43 and in nothing else
(`Message.withPxeOptions`, `augment_cases`).
-/
import ProxyDhcp.Templates
import ProxyDhcp.Proofs.PxeClient

namespace ProxyDhcp

/-! ## The templates -/

/-- The options that every PXE reply carries: the bare name, and discovery control that asks for no
prompt. -/
def Templates.standard : Templates where
  classIdentifier := ⟨.known classIdentifierCode, ClassIdentifier.name⟩
  vendorSpecific := ⟨.known vendorSpecificCode, [0x06, 0x01, 0x08, 0xFF]⟩

theorem discoveryControl_payload :
    (VendorBuilder.empty.discoveryControl (.ofFlag .bootWithoutPrompt)).payload =
      .ok [0x06, 0x01, 0x08, 0xFF] := by
  rw [VendorBuilder.payload, Tlv.encode_eq_ok_iff]
  exact ⟨by decide, rfl⟩

theorem discoveryControlOption_eq : discoveryControlOption = .ok Templates.standard.vendorSpecific := by
  have hoption : DhcpOption.ofPayload vendorSpecificCode [0x06, 0x01, 0x08, 0xFF] =
      .ok Templates.standard.vendorSpecific :=
    DhcpOption.ofPayload_bytes (by decide) (by decide) (by decide) (by decide) (by decide)
  rw [discoveryControlOption, VendorBuilder.build, discoveryControl_payload]
  exact hoption

/-- **The templates can always be built**, and are the standard ones. -/
theorem Templates.build_eq : Templates.build = .ok Templates.standard := by
  have hname : DhcpOption.ofPayload classIdentifierCode ClassIdentifier.name = .ok standard.classIdentifier :=
    DhcpOption.ofPayload_bytes (by decide) (by decide) (by decide) (by decide) (by decide)
  rw [Templates.build, hname, discoveryControlOption_eq]
  rfl

/-! ## Whether and what -/

/-- A request whose reply gets the PXE options: a PXE client's, with a machine identifier of the right
length, whatever its bytes are. -/
structure Eligible (request : Message) : Prop where
  client : (isPxeClient request).value = true
  identifier : ∃ id, (request.option? machineIdentifierCode).value = some id ∧
    id.length = machineIdentifierLength

theorem ne_nil_of_machineIdentifierLength {id : Bytes} (h : id.length = machineIdentifierLength) :
    id ≠ [] := by
  rintro rfl
  cases h

/-- The reply with the PXE options, each in place of what was under its code. -/
def Message.withPxeOptions (reply : Message) (id : Bytes) : Message :=
  { reply with
    options :=
      ((reply.options.add Templates.standard.classIdentifier).add ⟨.known machineIdentifierCode, id⟩).add
        Templates.standard.vendorSpecific }

theorem Message.get?_withPxeOptions (reply : Message) (id : Bytes) (code : OptionCode) :
    (reply.withPxeOptions id).options.get? code =
      if code = .known vendorSpecificCode then some Templates.standard.vendorSpecific
      else if code = .known machineIdentifierCode then some ⟨.known machineIdentifierCode, id⟩
      else if code = .known classIdentifierCode then some Templates.standard.classIdentifier
      else reply.options.get? code := by
  simp only [withPxeOptions, OptionTable.get?_add, Templates.standard]

theorem ofByte_machineIdentifierCode :
    OptionCode.ofByte machineIdentifierCode = .known machineIdentifierCode := by
  decide

/-- **All or nothing**: the reply of an eligible request gets the options, with the request's own machine
identifier; any other reply stays as it is. -/
theorem augment_cases {request : Message} (proper : request.options.Proper) (reply : Message) :
    (¬ Eligible request ∧ (augment .standard request reply).value = (reply, false)) ∨
    (Eligible request ∧ ∃ id, (request.option? machineIdentifierCode).value = some id ∧
      id.length = machineIdentifierLength ∧
      (augment .standard request reply).value = (reply.withPxeOptions id, true)) := by
  simp only [augment, Logged.value_bind]
  cases hclient : (isPxeClient request).value with
  | false => exact .inl ⟨fun h => Bool.false_ne_true (hclient.symm.trans h.client), rfl⟩
  | true =>
    simp only [Bool.not_true, Bool.false_eq_true, if_false]
    cases hget : request.options.get? (.ofByte machineIdentifierCode) with
    | none =>
      refine .inl ⟨fun h => ?_, rfl⟩
      obtain ⟨id, hid, -⟩ := h.identifier
      simp [Message.option?, hget] at hid
    | some identifier =>
      have hoption : request.option? machineIdentifierCode = identifier.payload machineIdentifierCode := by
        rw [Message.option?, hget]
      simp only [Logged.value_bind, ← hoption]
      split
      · next hlength =>
        obtain ⟨id, hid, hlen⟩ := Option.map_eq_some_iff.1 hlength
        -- A payload that is read under 97 is the content of the option that stands there.
        have hheld := (Message.get?_of_option? proper (by decide) (by decide) hid).2
        rw [hget, ofByte_machineIdentifierCode, Option.some.injEq] at hheld
        subst hheld
        exact .inr ⟨⟨hclient, id, hid, hlen⟩, id, hid, hlen, rfl⟩
      · next hlength => exact .inl ⟨fun h => hlength (Option.map_eq_some_iff.2 h.identifier), rfl⟩

theorem option?_withPxeOptions (reply : Message) {id : Bytes} (hid : id ≠ []) :
    ((reply.withPxeOptions id).option? classIdentifierCode).value = some ClassIdentifier.name ∧
    ((reply.withPxeOptions id).option? machineIdentifierCode).value = some id ∧
    ((reply.withPxeOptions id).option? vendorSpecificCode).value = some [0x06, 0x01, 0x08, 0xFF] := by
  refine ⟨Message.option?_of_get? (by decide) (by decide) (by decide) ?_,
    Message.option?_of_get? (by decide) (by decide) hid ?_,
    Message.option?_of_get? (by decide) (by decide) (by decide) ?_⟩ <;>
    rw [Message.get?_withPxeOptions] <;> rfl

/-- **Augmentation, exactly.** The templates can be built, and with them the PXE options are added if and
only if option 60 of the request is a PXE client's and option 97 carries 17 bytes. If not, the reply stays as
it is. If so, options 60, 97 and 43 of the reply carry the name, the request's bytes and the vendor template,
and every other option and the whole header are as before. -/
theorem augment_all_or_nothing (request reply : Message) (proper : request.options.Proper) :
    ∃ templates after added, Templates.build = .ok templates ∧
      (augment templates request reply).value = (after, added) ∧
      (added = true ↔
        (∃ id, (request.option? classIdentifierCode).value = some id ∧ id.length = 32 ∧
          ClassIdentifier.name <+: id) ∧
        ∃ id, (request.option? machineIdentifierCode).value = some id ∧ id.length = 17) ∧
      (added = false → after = reply) ∧
      (added = true →
        (after.option? classIdentifierCode).value = some ClassIdentifier.name ∧
        (after.option? machineIdentifierCode).value = (request.option? machineIdentifierCode).value ∧
        (after.option? vendorSpecificCode).value = some [0x06, 0x01, 0x08, 0xFF] ∧
        after.header = reply.header ∧
        ∀ code, code ≠ .known classIdentifierCode → code ≠ .known machineIdentifierCode →
          code ≠ .known vendorSpecificCode → after.options.get? code = reply.options.get? code) := by
  rw [← isPxeClient_iff proper]
  rcases augment_cases proper reply with ⟨hnot, hvalue⟩ | ⟨heligible, id, hid, hlen, hvalue⟩
  · refine ⟨.standard, reply, false, Templates.build_eq, hvalue, ⟨fun h => ?_, fun h => ?_⟩, fun _ => rfl,
      fun h => ?_⟩
    · cases h
    · exact absurd ⟨h.1, h.2⟩ hnot
    · cases h
  · refine ⟨.standard, reply.withPxeOptions id, true, Templates.build_eq, hvalue, ⟨fun _ => ?_, fun _ => rfl⟩,
      fun h => ?_, fun _ => ?_⟩
    · exact ⟨heligible.client, id, hid, hlen⟩
    · cases h
    · obtain ⟨hclass, hmachine, hvendor⟩ :=
        option?_withPxeOptions reply (ne_nil_of_machineIdentifierLength hlen)
      refine ⟨hclass, hmachine.trans hid.symm, hvendor, rfl, fun code hclass hmachine hvendor => ?_⟩
      rw [Message.get?_withPxeOptions, if_neg hvendor, if_neg hmachine, if_neg hclass]

/-- A reply with a name of its host, and other options in the places of the PXE options. -/
def occupiedReply : Message where
  header := { Header.blank with opcode := Header.reply, siaddr := ⟨10, 0, 0, 9⟩ }
  options :=
    (((OptionTable.empty.add ⟨.known 12, ClassIdentifier.ascii "boot"⟩).add
      ⟨.known vendorSpecificCode, [1, 2]⟩).add
      ⟨.known classIdentifierCode, ClassIdentifier.ascii "HTTPClient"⟩).add
      ⟨.known machineIdentifierCode, []⟩

theorem augment_occupiedReply :
    relayedRequest.options.Proper ∧ ∃ templates after, Templates.build = .ok templates ∧
      (augment templates relayedRequest occupiedReply).value = (after, true) ∧
      (after.option? classIdentifierCode).value = some ClassIdentifier.name ∧
      (after.option? machineIdentifierCode).value = some relayedIdentifier ∧
      (after.option? vendorSpecificCode).value = some [0x06, 0x01, 0x08, 0xFF] ∧
      after.header = occupiedReply.header ∧
      after.options.get? (.known 12) = some ⟨.known 12, ClassIdentifier.ascii "boot"⟩ := by
  obtain ⟨templates, after, added, hbuild, hvalue, hiff, -, hadded⟩ :=
    augment_all_or_nothing relayedRequest occupiedReply relayedRequest_proper
  obtain ⟨hclient, hmachine⟩ := option?_relayedRequest
  have htrue := hiff.2 ⟨⟨relayedClass, hclient, by decide, by decide⟩, relayedIdentifier, hmachine, by decide⟩
  obtain ⟨hname, hidentifier, hvendor, hheader, hothers⟩ := hadded htrue
  rw [htrue] at hvalue
  have hhost := hothers (.known 12) (by decide) (by decide) (by decide)
  exact ⟨relayedRequest_proper, templates, after, hbuild, hvalue, hname, hidentifier.trans hmachine, hvendor,
    hheader, hhost⟩

end ProxyDhcp
