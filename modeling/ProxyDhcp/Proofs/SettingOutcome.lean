/-
Setting one option, from its outcome to what it leaves. There are four outcomes, and of the faults the first one
that applies is reported: a code that is reserved, a payload that one entry cannot carry, a payload that is refused
when the entry is read as an option (`Message.setOption_cases`).

The option is made before the message is touched. So of a message that is set in place every fault leaves all as
it was (`Message.run_assign`), and success changes one place of its table, which holds the new option and no other
(`OptionTable.filter_entries`).
-/
import ProxyDhcp.Proofs.Settings

namespace ProxyDhcp

/-! ## The places of a table -/

namespace OptionTable

theorem filter_of_ascending {entries : List (OptionCode × DhcpOption)}
    (hasc : entries.Pairwise fun p q => p.1.rank < q.1.rank) (code : OptionCode) :
    entries.filter (·.1 = code) = (lookup code entries).toList.map fun option => (code, option) := by
  induction entries with
  | nil => rfl
  | cons entry rest ih =>
    obtain ⟨here, there⟩ := entry
    obtain ⟨hhere, hrest⟩ := List.pairwise_cons.1 hasc
    by_cases hcode : here = code
    · subst hcode
      -- Every later place has a higher rank, so none of them is this one.
      have hlater : rest.filter (·.1 = here) = [] := by
        rw [List.filter_eq_nil_iff]
        intro other hother heq
        have hlt := hhere other hother
        rw [of_decide_eq_true heq] at hlt
        exact Nat.lt_irrefl _ hlt
      simp [lookup, hlater]
    · simp [lookup, hcode, ih hrest]

/-- **A place holds one option or none.** -/
theorem filter_entries (table : OptionTable) (code : OptionCode) :
    table.entries.filter (·.1 = code) = (table.get? code).toList.map fun option => (code, option) :=
  filter_of_ascending table.ascending code

end OptionTable

/-! ## One entry as an option -/

namespace DhcpOption

/-- A code that no option may be set under. -/
def Reserved (code : UInt8) : Prop := code = padCode ∨ code = endCode

instance (code : UInt8) : Decidable (Reserved code) := inferInstanceAs (Decidable (_ ∨ _))

variable {code : UInt8} {payload : Bytes}

theorem ofPayload_reserved (h : Reserved code) : ofPayload code payload = .error (.reservedOptionCode code) :=
  if_pos h

theorem decode_segment_self (hcode : ¬ Reserved code) (hlen : payload.length ≤ 255) :
    decode (segment code payload) = (ofContent code payload).map (·, []) := by
  obtain ⟨hpad, hend⟩ := not_or.1 hcode
  have hnone : ([] : Bytes).head? ≠ some code := by simp
  have hread := wireLaws.decode_segment hpad hend hlen hnone
  rwa [List.append_nil] at hread

/-- What is read of one entry lies under the code of the entry, but for option 37, which is kept under 23. -/
theorem code_of_decode_segment (hcode : ¬ Reserved code) (hlen : payload.length ≤ 255) {option : DhcpOption}
    (h : decode (segment code payload) = .ok (option, [])) :
    option.code = .ofByte (keptCode code) := by
  rw [decode_segment_self hcode hlen] at h
  cases hread : ofContent code payload with
  | error cause => rw [hread] at h; cases h
  | ok found =>
    rw [hread] at h
    cases h
    exact wireLaws.code_ofContent hread

end DhcpOption

namespace Message

open DhcpOption (Reserved segment)

/-! ## Outcomes -/

/-- **The outcomes of setting an option**, and what each takes. -/
theorem setOption_cases (message : Message) (code : UInt8) (payload : Bytes) :
    (Reserved code ∧ message.setOption code payload = .error (.reservedOptionCode code)) ∨
    (¬ Reserved code ∧ 255 < payload.length ∧
      message.setOption code payload = .error (.payloadTooLong code payload.length)) ∨
    (¬ Reserved code ∧ payload.length ≤ 255 ∧ ∃ cause, DhcpOption.decode (segment code payload) = .error cause ∧
      message.setOption code payload = .error (.ofDecode cause)) ∨
    (¬ Reserved code ∧ payload.length ≤ 255 ∧ ∃ option,
      DhcpOption.decode (segment code payload) = .ok (option, []) ∧
        message.setOption code payload = .ok (message.withOption option)) := by
  have hset : message.setOption code payload = (DhcpOption.ofPayload code payload).map message.withOption :=
    OptionStore.setOption_message message code payload
  rw [hset]
  by_cases hcode : Reserved code
  · rw [DhcpOption.ofPayload_reserved hcode]
    exact .inl ⟨hcode, rfl⟩
  obtain ⟨hpad, hend⟩ := not_or.1 hcode
  by_cases hlen : payload.length ≤ 255
  · rw [DhcpOption.decode_segment_self hcode hlen, DhcpOption.ofPayload_eq hpad hend hlen]
    cases DhcpOption.ofContent code payload with
    | error cause => exact .inr (.inr (.inl ⟨hcode, hlen, cause, rfl, rfl⟩))
    | ok option => exact .inr (.inr (.inr ⟨hcode, hlen, option, rfl, rfl⟩))
  · have hlong := Nat.lt_of_not_le hlen
    rw [DhcpOption.ofPayload_long hpad hend hlong]
    exact .inr (.inl ⟨hcode, hlong, rfl⟩)

section

variable {message after : Message} {code : UInt8} {payload : Bytes}

theorem setOption_eq_reserved_iff :
    message.setOption code payload = .error (.reservedOptionCode code) ↔ Reserved code := by
  rcases setOption_cases message code payload with
    ⟨hcode, h⟩ | ⟨hcode, -, h⟩ | ⟨hcode, -, cause, -, h⟩ | ⟨hcode, -, option, -, h⟩ <;>
    simp [h, hcode, Error.ofDecode]

theorem setOption_eq_tooLong_iff :
    message.setOption code payload = .error (.payloadTooLong code payload.length) ↔
      ¬ Reserved code ∧ 255 < payload.length := by
  rcases setOption_cases message code payload with
    ⟨hcode, h⟩ | ⟨hcode, hlen, h⟩ | ⟨hcode, hlen, cause, -, h⟩ | ⟨hcode, hlen, option, -, h⟩
  · simp [h, hcode]
  · simp [h, hcode, hlen]
  · simp [h, hcode, Error.ofDecode, Nat.not_lt.2 hlen]
  · simp [h, hcode, Nat.not_lt.2 hlen]

theorem setOption_eq_protocol_iff {text : String} :
    message.setOption code payload = .error (.protocol text) ↔
      ¬ Reserved code ∧ payload.length ≤ 255 ∧
        ∃ cause, DhcpOption.decode (segment code payload) = .error cause ∧ cause.message = text := by
  rcases setOption_cases message code payload with
    ⟨hcode, h⟩ | ⟨hcode, hlen, h⟩ | ⟨hcode, hlen, cause, hread, h⟩ | ⟨hcode, hlen, option, hread, h⟩
  · simp [h, hcode]
  · simp [h, hcode, Nat.not_le.2 hlen]
  · simp [h, hcode, hlen, hread, Error.ofDecode]
  · simp [h, hcode, hlen, hread]

theorem setOption_eq_ok_withOption_iff :
    message.setOption code payload = .ok after ↔
      ¬ Reserved code ∧ payload.length ≤ 255 ∧
        ∃ option, DhcpOption.decode (segment code payload) = .ok (option, []) ∧ message.withOption option = after := by
  rcases setOption_cases message code payload with
    ⟨hcode, h⟩ | ⟨hcode, hlen, h⟩ | ⟨hcode, hlen, cause, hread, h⟩ | ⟨hcode, hlen, option, hread, h⟩
  · simp [h, hcode]
  · simp [h, hcode, Nat.not_le.2 hlen]
  · simp [h, hcode, hlen, hread]
  · simp [h, hcode, hlen, hread]

theorem exists_setOption_iff :
    (∃ after, message.setOption code payload = .ok after) ↔
      ¬ Reserved code ∧ payload.length ≤ 255 ∧
        ¬ ∃ cause, DhcpOption.decode (segment code payload) = .error cause := by
  rcases setOption_cases message code payload with
    ⟨hcode, h⟩ | ⟨hcode, hlen, h⟩ | ⟨hcode, hlen, cause, hread, h⟩ | ⟨hcode, hlen, option, hread, h⟩
  · simp [h, hcode]
  · simp [h, Nat.not_le.2 hlen]
  · simp [h, hread]
  · simp [h, hcode, hlen, hread]

end

/-! ## In place -/

/-- **A fault leaves the message as it was.** -/
theorem run_assign (code : UInt8) (payload : Bytes) (message : Message) :
    (assign code payload).run message =
      match message.setOption code payload with
      | .ok after => .ok () after
      | .error cause => .error cause message := by
  have hset : message.setOption code payload = (DhcpOption.ofPayload code payload).map message.withOption :=
    OptionStore.setOption_message message code payload
  rw [hset, assign]
  cases DhcpOption.ofPayload code payload <;> rfl

theorem run_assign_eq_error_iff {code : UInt8} {payload : Bytes} {message left : Message} {fault : Error} :
    (assign code payload).run message = .error fault left ↔
      message.setOption code payload = .error fault ∧ left = message := by
  rw [run_assign]
  cases message.setOption code payload with
  | ok after => simp
  | error cause => simp [eq_comm]

theorem run_assign_eq_ok_iff {code : UInt8} {payload : Bytes} {message after : Message} :
    (assign code payload).run message = .ok () after ↔ message.setOption code payload = .ok after := by
  rw [run_assign]
  cases message.setOption code payload <;> simp

/-- **Setting an option, exactly.** A reserved code is refused whatever the payload, any other code if the payload
is longer than one entry carries, and any other payload if the entry is refused when it is read as an option; there
is no other fault. A fault leaves the message that is set in place as it was. If there is none, the option that is
read takes the place of the one under its code, and the header and all other options stay. Its code is the code
that is set, but for 37, whose option is kept under 23. -/
theorem setOption_exact (message : Message) (code : UInt8) (payload : Bytes) :
    (message.setOption code payload = .error (.reservedOptionCode code) ↔ code = 0 ∨ code = 255) ∧
    (message.setOption code payload = .error (.payloadTooLong code payload.length) ↔
      ¬ (code = 0 ∨ code = 255) ∧ 255 < payload.length) ∧
    (∀ text, message.setOption code payload = .error (.protocol text) ↔
      ¬ (code = 0 ∨ code = 255) ∧ payload.length ≤ 255 ∧
        ∃ cause, DhcpOption.decode (code :: UInt8.ofNat payload.length :: payload) = .error cause ∧
          cause.message = text) ∧
    ((∃ after, message.setOption code payload = .ok after) ↔
      ¬ (code = 0 ∨ code = 255) ∧ payload.length ≤ 255 ∧
        ¬ ∃ cause, DhcpOption.decode (code :: UInt8.ofNat payload.length :: payload) = .error cause) ∧
    (∀ fault left, (assign code payload).run message = .error fault left ↔
      message.setOption code payload = .error fault ∧ left = message) ∧
    (∀ after, (assign code payload).run message = .ok () after ↔ message.setOption code payload = .ok after) ∧
    (∀ after, message.setOption code payload = .ok after → ∃ option,
      DhcpOption.decode (code :: UInt8.ofNat payload.length :: payload) = .ok (option, []) ∧
      option.code = (if code = tcpTimeToLive then .known 23 else .ofByte code) ∧
      after.header = message.header ∧
      (∀ place, place ≠ option.code → after.options.get? place = message.options.get? place) ∧
      after.options.get? option.code = some option ∧
      after.options.entries.filter (·.1 = option.code) = [(option.code, option)]) := by
  refine ⟨setOption_eq_reserved_iff, setOption_eq_tooLong_iff, fun text => setOption_eq_protocol_iff,
    exists_setOption_iff, fun fault left => run_assign_eq_error_iff, fun after => run_assign_eq_ok_iff,
    fun after h => ?_⟩
  obtain ⟨hcode, hlen, option, hread, rfl⟩ := setOption_eq_ok_withOption_iff.1 h
  have hown := DhcpOption.code_of_decode_segment hcode hlen hread
  have hself : (message.withOption option).options.get? option.code = some option := by
    rw [withOption, OptionTable.get?_add, if_pos rfl]
  refine ⟨option, hread, ?_, rfl, fun place hne => ?_, hself, ?_⟩
  · rw [hown, DhcpOption.keptCode, tcpTimeToLive]
    split <;> rfl
  · rw [withOption, OptionTable.get?_add, if_neg hne]
  · rw [OptionTable.filter_entries, hself]
    rfl

/-- A server identifier that is replaced, the same with three bytes, a reserved code with a payload that would be
too long, and a name that is too long. -/
theorem setOption_exact_relayedRequest :
    (∃ after, relayedRequest.setOption 54 [10, 0, 0, 9] = .ok after ∧
      after.options.entries.filter (·.1 = .known 54) = [(.known 54, ⟨.known 54, [10, 0, 0, 9]⟩)] ∧
      after.options.get? (.known 53) = some ⟨.known 53, [3]⟩) ∧
    (assign 54 [10, 0, 0]).run relayedRequest =
      .error (.protocol "parser ran out of data-- not enough bytes") relayedRequest ∧
    (assign 255 (List.replicate 256 0)).run relayedRequest = .error (.reservedOptionCode 255) relayedRequest ∧
    (assign 12 (List.replicate 256 0)).run relayedRequest = .error (.payloadTooLong 12 256) relayedRequest := by
  have hread : DhcpOption.decode (segment 54 [10, 0, 0, 9]) = .ok (⟨.known 54, [10, 0, 0, 9]⟩, []) := by
    rw [DhcpOption.decode_segment_self (by decide) (by decide)]
    rfl
  have hrefused : DhcpOption.decode (segment 54 [10, 0, 0]) = .error .notEnoughBytes := by
    rw [DhcpOption.decode_segment_self (by decide) (by decide)]
    rfl
  obtain ⟨-, -, -, hset, -, -, hchanged⟩ := setOption_exact relayedRequest 54 [10, 0, 0, 9]
  obtain ⟨-, -, hshort, -, hserver, -⟩ := setOption_exact relayedRequest 54 [10, 0, 0]
  obtain ⟨hreserved, -, -, -, hend, -⟩ := setOption_exact relayedRequest 255 (List.replicate 256 0)
  obtain ⟨-, hlong, -, -, hname, -⟩ := setOption_exact relayedRequest 12 (List.replicate 256 0)
  rw [List.length_replicate] at hlong
  refine ⟨?_, ?_, (hend _ _).2 ⟨hreserved.2 (.inr rfl), rfl⟩, (hname _ _).2 ⟨hlong.2 (by decide), rfl⟩⟩
  · obtain ⟨after, hafter⟩ := hset.2 ⟨by decide, by decide, fun ⟨cause, hcause⟩ => by cases hread.symm.trans hcause⟩
    obtain ⟨option, hoption, -, -, hothers, -, hplaces⟩ := hchanged after hafter
    cases hread.symm.trans hoption
    exact ⟨after, hafter, hplaces, (hothers (.known 53) (by decide)).trans rfl⟩
  · exact (hserver _ _).2 ⟨(hshort _).2 ⟨by decide, by decide, _, hrefused, rfl⟩, rfl⟩

end Message

end ProxyDhcp
