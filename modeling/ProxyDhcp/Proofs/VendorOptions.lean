/-
Option 43, built and read. A payload is read if it is empty or a terminator closes it, and nothing behind the first
terminator matters (`parseVendorOptions_exact`). What a builder makes depends on the sub-options it was given, in
their order, and on whether it closes them (`VendorBuilder.ofCalls_eq`). Two limits apply: one byte counts each
sub-option, and one byte counts option 43 as a whole (`VendorBuilder.build_eq`).
-/
import ProxyDhcp.Vendor
import ProxyDhcp.Proofs.Faults
import ProxyDhcp.Proofs.RawOptions

namespace ProxyDhcp

/-! ## Reading -/

section Reading

variable {payload : Bytes} {entries : List Tlv} {cause : Error}

theorem parseVendorOptions_of_ok (h : Tlv.decode payload = .ok entries) :
    parseVendorOptions payload =
      if entries = [] ∨ Tlv.terminated entries = true then .ok entries
      else .error (.malformedTlv payload.length .unterminated) := by
  rw [parseVendorOptions, h]
  simp only [bind, Except.bind, Bool.or_eq_true, List.isEmpty_iff]
  rfl

theorem parseVendorOptions_of_error (h : Tlv.decode payload = .error cause) :
    parseVendorOptions payload = .error cause := by
  rw [parseVendorOptions, h]
  rfl

theorem parseVendorOptions_eq_ok_iff :
    parseVendorOptions payload = .ok entries ↔
      Tlv.decode payload = .ok entries ∧ (entries = [] ∨ Tlv.terminated entries = true) := by
  cases hread : Tlv.decode payload with
  | error cause => simp [parseVendorOptions_of_error hread]
  | ok found =>
    rw [parseVendorOptions_of_ok hread, Except.ok.injEq]
    constructor
    · intro h
      split at h
      · next hclosed =>
        cases h
        exact ⟨rfl, hclosed⟩
      · cases h
    · rintro ⟨rfl, hclosed⟩
      rw [if_pos hclosed]

theorem parseVendorOptions_eq_error_iff :
    parseVendorOptions payload = .error cause ↔
      ((∃ entries, entries ≠ [] ∧ Tlv.decode payload = .ok entries ∧ Tlv.terminated entries = false) ∧
        cause = .malformedTlv payload.length .unterminated) ∨
      Tlv.decode payload = .error cause := by
  cases hread : Tlv.decode payload with
  | error other => simp [parseVendorOptions_of_error hread]
  | ok found =>
    rw [parseVendorOptions_of_ok hread]
    constructor
    · intro h
      split at h
      · cases h
      · next hopen =>
        cases h
        obtain ⟨hne, hlast⟩ := not_or.1 hopen
        exact .inl ⟨⟨found, hne, rfl, Bool.eq_false_iff.2 hlast⟩, rfl⟩
    · rintro (⟨⟨entries, hne, hentries, hlast⟩, rfl⟩ | h)
      · cases hentries
        rw [if_neg (by simp [hne, hlast])]
      · cases h

end Reading

/-- Entries that a terminator closes, and that no other terminator stands among. -/
structure Tlv.Closed (entries : List Tlv) : Prop where
  terminated : terminated entries = true
  once : ∀ entry ∈ entries.dropLast, entry.isEnd = false
  short : ∀ entry ∈ entries, entry.payload.length ≤ 255

theorem Tlv.WellFormed.closed {entries : List Tlv} (h : WellFormed entries)
    (hterminated : Tlv.terminated entries = true) : Closed entries where
  terminated := hterminated
  once := h.last
  short entry hentry := by
    cases hend : entry.isEnd with
    | false => exact h.short entry hentry hend
    | true =>
      rw [h.bare entry hentry hend]
      exact Nat.zero_le _

/-- What is read is nothing of an empty payload, or entries that the front of the payload closes. -/
theorem parseVendorOptions_eq_ok_iff_closed {payload : Bytes} {entries : List Tlv} :
    parseVendorOptions payload = .ok entries ↔
      (payload = [] ∧ entries = []) ∨
      (Tlv.Closed entries ∧ ∃ written rest, Tlv.encode entries = .ok written ∧ payload = written ++ rest) := by
  rw [parseVendorOptions_eq_ok_iff, Tlv.decode_eq_ok_iff]
  constructor
  · rintro ⟨⟨hwell, rest, rfl, hrest⟩, rfl | hterminated⟩
    · exact .inl ⟨hrest rfl, rfl⟩
    · exact .inr ⟨hwell.closed hterminated, _, rest, hwell.encode_eq, rfl⟩
  · rintro (⟨rfl, rfl⟩ | ⟨hclosed, written, rest, hwritten, rfl⟩)
    · exact ⟨⟨Tlv.wellFormed_of_row Tlv.row_nil, [], rfl, fun _ => rfl⟩, .inl rfl⟩
    · obtain ⟨hfits, rfl⟩ := Tlv.encode_eq_ok_iff.1 hwritten
      refine ⟨⟨.of_fits hfits hclosed.once, rest, rfl, fun hopen => ?_⟩, .inr hclosed.terminated⟩
      rw [hclosed.terminated] at hopen
      cases hopen

/-- What follows the first terminator is not read. -/
theorem parseVendorOptions_terminated {entries : List Tlv} {written : Bytes}
    (hopen : ∀ entry ∈ entries, entry.isEnd = false) (hwritten : Tlv.encode entries = .ok written) (rest : Bytes) :
    parseVendorOptions (written ++ Tlv.endCode :: rest) = .ok (entries ++ [Tlv.terminator]) := by
  obtain ⟨hrow, rfl⟩ := Tlv.row_iff.2 ⟨hopen, hwritten⟩
  have hread : Tlv.decode (entries.flatMap Tlv.wire ++ Tlv.endCode :: rest) = .ok (entries ++ [Tlv.terminator]) :=
    Tlv.decode_terminated hopen (fun entry hentry => (hrow entry hentry).fits) rest
  rw [parseVendorOptions_of_ok hread, if_pos (.inr (Tlv.terminated_concat_terminator entries))]

/-- **Vendor options are read from an empty payload and from one that a terminator closes**, and what follows the
first terminator is not read. Of any other payload the entries are all there and nothing closes them, which is
reported at its end, or it ends inside of an entry, which is reported where that entry begins. -/
theorem parseVendorOptions_exact (payload : Bytes) :
    (∀ entries, parseVendorOptions payload = .ok entries ↔
      (payload = [] ∧ entries = []) ∨
      (Tlv.Closed entries ∧ ∃ written rest, Tlv.encode entries = .ok written ∧ payload = written ++ rest)) ∧
    (∀ cause, parseVendorOptions payload = .error cause ↔
      ((∃ entries, entries ≠ [] ∧ (∀ entry ∈ entries, entry.isEnd = false) ∧ Tlv.encode entries = .ok payload) ∧
        cause = .malformedTlv payload.length .unterminated) ∨
      (∃ entries written tail fault, (∀ entry ∈ entries, entry.isEnd = false) ∧
        Tlv.encode entries = .ok written ∧ payload = written ++ tail ∧ Tlv.Incomplete tail fault ∧
        cause = .malformedTlv written.length fault)) ∧
    (∀ entries written rest, (∀ entry ∈ entries, entry.isEnd = false) → Tlv.encode entries = .ok written →
      payload = written ++ Tlv.endCode :: rest →
      ∀ other, parseVendorOptions (written ++ Tlv.endCode :: other) = parseVendorOptions payload) := by
  refine ⟨fun entries => parseVendorOptions_eq_ok_iff_closed, fun cause => ?_, ?_⟩
  · simp only [parseVendorOptions_eq_error_iff, Tlv.decode_open_iff, Tlv.decode_eq_error_iff]
  · intro entries written rest hopen hwritten hpayload other
    rw [hpayload, parseVendorOptions_terminated hopen hwritten, parseVendorOptions_terminated hopen hwritten]

/-- A payload with the byte of a terminator inside of an entry and two bytes behind its terminator, one without a
terminator, and one that ends inside of its second entry. -/
theorem parseVendorOptions_exact_bootServers :
    parseVendorOptions [6, 1, 8, 8, 2, 255, 0, 255, 0xDE, 0xAD] =
        .ok [⟨6, [8]⟩, ⟨8, [255, 0]⟩, Tlv.terminator] ∧
      parseVendorOptions [6, 1, 8, 8, 2, 255, 0] = .error (.malformedTlv 7 .unterminated) ∧
      parseVendorOptions [6, 1, 8, 8, 2, 255] = .error (.malformedTlv 3 .overrun) := by
  obtain ⟨hok, -, -⟩ := parseVendorOptions_exact [6, 1, 8, 8, 2, 255, 0, 255, 0xDE, 0xAD]
  obtain ⟨-, hopen, -⟩ := parseVendorOptions_exact [6, 1, 8, 8, 2, 255, 0]
  obtain ⟨-, hcut, -⟩ := parseVendorOptions_exact [6, 1, 8, 8, 2, 255]
  refine ⟨(hok _).2 (.inr ⟨⟨by decide, by decide, by decide⟩, _, [0xDE, 0xAD], rfl, rfl⟩), ?_, ?_⟩
  · exact (hopen _).2 (.inl ⟨⟨[⟨6, [8]⟩, ⟨8, [255, 0]⟩], by decide, by decide, rfl⟩, rfl⟩)
  · exact (hcut _).2 (.inr ⟨[⟨6, [8]⟩], _, [8, 2, 255], _, by decide, rfl, rfl, .short (by decide) (by decide), rfl⟩)

/-! ## Building -/

namespace VendorBuilder

theorem misfit?_entries (builder : VendorBuilder) : Tlv.misfit? builder.entries = Tlv.misfit? builder.subOptions := by
  rw [entries]
  cases builder.terminate with
  | true => exact Tlv.misfit?_concat_terminator builder.subOptions
  | false => rfl

/-- **What a builder builds.** A sub-option that does not fit is reported first, and then a payload that one entry
cannot carry. -/
theorem build_eq (builder : VendorBuilder) :
    builder.build =
      match Tlv.misfit? builder.subOptions with
      | some entry => .error (.payloadTooLong entry.code entry.payload.length)
      | none =>
        if Tlv.occupied builder.entries ≤ 255 then
          .ok ⟨.known vendorSpecificCode, builder.entries.flatMap Tlv.wire⟩
        else .error (.payloadTooLong vendorSpecificCode (Tlv.occupied builder.entries)) := by
  rw [build, payload, Tlv.encode_eq, misfit?_entries]
  cases Tlv.misfit? builder.subOptions with
  | some entry => rfl
  | none =>
    have hlength := Tlv.length_flatMap_wire builder.entries
    show DhcpOption.ofPayload vendorSpecificCode (builder.entries.flatMap Tlv.wire) = _
    by_cases hlen : Tlv.occupied builder.entries ≤ 255
    · rw [if_pos hlen]
      exact DhcpOption.ofPayload_bytes (by decide) (by decide) (by decide) (by decide) (hlength ▸ hlen)
    · rw [if_neg hlen, DhcpOption.ofPayload_long (by decide) (by decide) (by omega), hlength]

theorem build_eq_ok_iff {builder : VendorBuilder} {option : DhcpOption} :
    builder.build = .ok option ↔
      ((∀ entry ∈ builder.subOptions, entry.Fits) ∧ Tlv.occupied builder.entries ≤ 255) ∧
        option = ⟨.known vendorSpecificCode, builder.entries.flatMap Tlv.wire⟩ := by
  rw [build_eq, ← Tlv.misfit?_eq_none_iff]
  cases Tlv.misfit? builder.subOptions with
  | some entry => simp
  | none =>
    by_cases hlen : Tlv.occupied builder.entries ≤ 255
    · simp [hlen, eq_comm]
    · simp [hlen]

theorem build_eq_error {builder : VendorBuilder}
    (h : ¬ ((∀ entry ∈ builder.subOptions, entry.Fits) ∧ Tlv.occupied builder.entries ≤ 255)) :
    builder.build = .error
      (match Tlv.misfit? builder.subOptions with
        | some entry => .payloadTooLong entry.code entry.payload.length
        | none => .payloadTooLong vendorSpecificCode (Tlv.occupied builder.entries)) := by
  rw [← Tlv.misfit?_eq_none_iff] at h
  rw [build_eq]
  cases hmisfit : Tlv.misfit? builder.subOptions with
  | some entry => rfl
  | none => simp only [if_neg fun hlen => h ⟨hmisfit, hlen⟩]

/-- **What is built carries the payload**, and the payload reads back as far as its first terminator. -/
theorem payload_of_build {builder : VendorBuilder} {option : DhcpOption} (h : builder.build = .ok option) :
    ∃ bytes, builder.payload = .ok bytes ∧
      option.payload vendorSpecificCode = pure (if bytes = [] then none else some bytes) ∧
      (builder.entries.any Tlv.isEnd = true → parseVendorOptions bytes = .ok (Tlv.throughEnd builder.entries)) := by
  obtain ⟨⟨hfits, -⟩, rfl⟩ := build_eq_ok_iff.1 h
  have hwritten : Tlv.encode builder.entries = .ok (builder.entries.flatMap Tlv.wire) := by
    rw [Tlv.encode_eq, misfit?_entries, Tlv.misfit?_eq_none_iff.2 hfits]
  have hlayout : (OptionCode.known vendorSpecificCode).layout = .bytes := by decide
  have hend : vendorSpecificCode ≠ DhcpOption.endCode := by decide
  refine ⟨_, hwritten, @DhcpOption.payload_self ⟨.known vendorSpecificCode, _⟩ hlayout hend, fun hclosed => ?_⟩
  rw [parseVendorOptions_of_ok (Tlv.decode_of_encode hwritten), if_pos (.inr (Tlv.terminated_throughEnd hclosed))]

namespace Call

/-- The sub-option that a call gives to the builder. -/
def entry? : Call → Option Tlv
  | .subOption option payload => some ⟨option.code, payload⟩
  | .discoveryControl control => some ⟨VendorOption.discoveryControl.code, [control.bits]⟩
  | .terminate _ => none

/-- Whether the payload is to be closed, if the call says so. -/
def close? : Call → Option Bool
  | .terminate close => some close
  | _ => none

/-- The sub-options that the calls give, in their order. -/
def entries (calls : List Call) : List Tlv := calls.filterMap entry?

/-- What the last call that says so says of closing the payload, and `start` if none does. -/
def closes (start : Bool) (calls : List Call) : Bool := (calls.filterMap close?).getLast?.getD start

/-- The entries of the payload. -/
def written (calls : List Call) : List Tlv :=
  entries calls ++ if closes true calls then [Tlv.terminator] else []

theorem entries_cons (call : Call) (calls : List Call) :
    entries (call :: calls) = call.entry?.toList ++ entries calls := by
  rw [entries, List.filterMap_cons]
  cases call.entry? <;> rfl

theorem closes_cons (start : Bool) (call : Call) (calls : List Call) :
    closes start (call :: calls) = closes (call.close?.getD start) calls := by
  rw [closes, List.filterMap_cons]
  cases call.close? with
  | none => rfl
  | some close =>
    rw [List.getLast?_cons]
    rfl

end Call

/-- **What one call does.** -/
theorem call_eq (builder : VendorBuilder) (next : Call) :
    builder.call next = ⟨builder.subOptions ++ next.entry?.toList, next.close?.getD builder.terminate⟩ := by
  cases next <;> simp [call, subOption, discoveryControl, withTerminate, Call.entry?, Call.close?]

theorem foldl_call (calls : List Call) (builder : VendorBuilder) :
    calls.foldl call builder =
      ⟨builder.subOptions ++ Call.entries calls, Call.closes builder.terminate calls⟩ := by
  induction calls generalizing builder with
  | nil => simp [Call.entries, Call.closes]
  | cons next calls ih =>
    rw [List.foldl_cons, ih, call_eq, Call.entries_cons, Call.closes_cons, List.append_assoc]

/-- **Of the calls a builder keeps the sub-options in their order and the last word on closing.** -/
theorem ofCalls_eq (calls : List Call) : ofCalls calls = ⟨Call.entries calls, Call.closes true calls⟩ :=
  foldl_call calls .empty

theorem entries_ofCalls (calls : List Call) : (ofCalls calls).entries = Call.written calls := by
  rw [ofCalls_eq, entries, Call.written]
  cases Call.closes true calls <;> simp

/-- **A builder, from its calls to what is read of its option.** The payload is written of the sub-options in the
order of the calls, and of a terminator unless the last call on closing says no. Option 43 is built if each
sub-option fits and all of the payload does, terminator included; if not, the first sub-option that does not fit is
reported, or else the payload as a whole. The option carries the payload, and if there is a terminator in it, then
what is read of the payload are the entries up to the first one. -/
theorem build_ofCalls (calls : List Call) :
    (ofCalls calls).payload = Tlv.encode (Call.written calls) ∧
    (∀ bytes, (ofCalls calls).payload = .ok bytes → bytes.length = Tlv.occupied (Call.written calls)) ∧
    ((∃ option, (ofCalls calls).build = .ok option) ↔
      (∀ entry ∈ Call.entries calls, entry.Fits) ∧ Tlv.occupied (Call.written calls) ≤ 255) ∧
    (¬ ((∀ entry ∈ Call.entries calls, entry.Fits) ∧ Tlv.occupied (Call.written calls) ≤ 255) →
      (ofCalls calls).build = .error
        (match Tlv.misfit? (Call.entries calls) with
          | some entry => .payloadTooLong entry.code entry.payload.length
          | none => .payloadTooLong vendorSpecificCode (Tlv.occupied (Call.written calls)))) ∧
    (∀ option, (ofCalls calls).build = .ok option → ∃ bytes, (ofCalls calls).payload = .ok bytes ∧
      option.payload vendorSpecificCode = pure (if bytes = [] then none else some bytes) ∧
      ((Call.written calls).any Tlv.isEnd = true →
        parseVendorOptions bytes = .ok (Tlv.throughEnd (Call.written calls)))) := by
  have hsubOptions : (ofCalls calls).subOptions = Call.entries calls := congrArg subOptions (ofCalls_eq calls)
  have hwritten := entries_ofCalls calls
  rw [← hwritten, ← hsubOptions]
  refine ⟨rfl, fun bytes hbytes => ?_, ⟨fun ⟨option, hoption⟩ => (build_eq_ok_iff.1 hoption).1, fun h => ?_⟩,
    build_eq_error, fun option => payload_of_build⟩
  · rw [(Tlv.encode_eq_ok_iff.1 hbytes).2, Tlv.length_flatMap_wire]
  · exact ⟨_, build_eq_ok_iff.2 ⟨h, rfl⟩⟩

/-- An end among the sub-options, and none at the end. -/
def reopenedCalls : List Call :=
  [.discoveryControl (.ofFlag .bootWithoutPrompt), .terminate true, .subOption .close [],
    .subOption .bootServers [0, 1], .terminate false]

/-- A boot menu that fills option 43 to its last byte. -/
def fullMenu : Call := .subOption .bootMenu (List.replicate 253 0)

theorem fits_fullMenu : ∀ entry ∈ Call.entries [fullMenu], entry.Fits := by
  decide +kernel

/-- What stands behind the end is carried and not read. A terminator is one byte too many for a full menu. -/
theorem build_ofCalls_reopenedCalls :
    (∃ option, (ofCalls reopenedCalls).build = .ok option ∧
      option.payload vendorSpecificCode = pure (some [6, 1, 8, 255, 8, 2, 0, 1])) ∧
      parseVendorOptions [6, 1, 8, 255, 8, 2, 0, 1] = .ok [⟨6, [8]⟩, Tlv.terminator] ∧
      (∃ option, (ofCalls [fullMenu, .terminate false]).build = .ok option) ∧
      (ofCalls [fullMenu]).build = .error (.payloadTooLong vendorSpecificCode 256) := by
  obtain ⟨hpayload, -, hbuilt, -, hread⟩ := build_ofCalls reopenedCalls
  obtain ⟨option, hoption⟩ := hbuilt.2 (by decide)
  obtain ⟨bytes, hbytes, hcarried, hparsed⟩ := hread option hoption
  have hwritten : Tlv.encode (Call.written reopenedCalls) = .ok [6, 1, 8, 255, 8, 2, 0, 1] := rfl
  rw [hpayload, hwritten] at hbytes
  cases hbytes
  obtain ⟨-, -, hfull, -⟩ := build_ofCalls [fullMenu, .terminate false]
  have hsize : Tlv.occupied (Call.written [fullMenu, .terminate false]) = 255 := by decide +kernel
  have hclosed : Tlv.occupied (Call.written [fullMenu]) = 256 := by decide +kernel
  obtain ⟨-, -, -, hlong, -⟩ := build_ofCalls [fullMenu]
  rw [Tlv.misfit?_eq_none_iff.2 fits_fullMenu, hclosed] at hlong
  exact ⟨⟨option, hoption, hcarried⟩, hparsed rfl, hfull.2 ⟨fits_fullMenu, Nat.le_of_eq hsize⟩,
    hlong fun h => absurd h.2 (by decide)⟩

end VendorBuilder

end ProxyDhcp
