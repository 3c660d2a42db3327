/-
Where writing and reading entries break off. Writing fails at the first entry that does not fit and nowhere else
(`encode_eq`). Reading fails in front of the first entry that the bytes begin and do not hold, at its offset
(`decode_eq_error_iff`). What is written reads back as far as its first terminator (`decode_of_encode`), so the
round trip of entries is whole only where nothing stands behind one (`encode_exact`).
-/
import ProxyDhcp.Proofs.Grammar

namespace ProxyDhcp.Tlv

/-! ## Writing -/

/-- The first entry that cannot be written. -/
def misfit? (entries : List Tlv) : Option Tlv := entries.find? fun entry => ¬ entry.Fits

theorem misfit?_eq_none_iff {entries : List Tlv} : misfit? entries = none ↔ ∀ entry ∈ entries, entry.Fits := by
  simp [misfit?]

theorem misfit?_concat_terminator (entries : List Tlv) :
    misfit? (entries ++ [terminator]) = misfit? entries := by
  simp [misfit?, List.find?_append, fits_terminator]

theorem encodeOne_misfit {entry : Tlv} (h : ¬ entry.Fits) :
    encodeOne entry = .error (.payloadTooLong entry.code entry.payload.length) := by
  rw [Fits] at h
  rw [encodeOne]
  cases hend : entry.isEnd with
  | true =>
    rw [hend, if_pos rfl] at h
    rw [if_pos rfl, if_neg (mt List.isEmpty_iff.1 h)]
  | false =>
    simp only [hend, Bool.false_eq_true, if_false] at h ⊢
    rw [if_neg h]

/-- **Writing breaks off at the first entry that does not fit**, whatever comes after it. -/
theorem encode_eq (entries : List Tlv) :
    encode entries =
      match misfit? entries with
      | none => .ok (entries.flatMap wire)
      | some entry => .error (.payloadTooLong entry.code entry.payload.length) := by
  induction entries with
  | nil => rfl
  | cons entry entries ih =>
    rw [encode, misfit?, List.find?_cons]
    by_cases hfits : entry.Fits
    · have hone := encodeOne_eq_ok_iff.2 ⟨hfits, rfl⟩
      rw [hone, ih, misfit?]
      simp only [hfits, not_true, decide_false, List.flatMap_cons]
      cases entries.find? fun entry => ¬ entry.Fits <;> rfl
    · rw [encodeOne_misfit hfits]
      simp only [hfits, not_false_iff, decide_true]
      rfl

theorem misfit?_eq_some_iff {entries : List Tlv} {entry : Tlv} :
    misfit? entries = some entry ↔
      ∃ before after, entries = before ++ entry :: after ∧ (∀ other ∈ before, other.Fits) ∧ ¬ entry.Fits := by
  rw [misfit?, List.find?_eq_some_iff_append]
  constructor
  · intro ⟨hmisfit, before, after, hentries, hbefore⟩
    exact ⟨before, after, hentries, by simpa using hbefore, by simpa using hmisfit⟩
  · intro ⟨before, after, hentries, hbefore, hmisfit⟩
    exact ⟨by simpa using hmisfit, before, after, hentries, by simpa using hbefore⟩

theorem encode_eq_error_iff {entries : List Tlv} {cause : Error} :
    encode entries = .error cause ↔
      ∃ before entry after, entries = before ++ entry :: after ∧ (∀ other ∈ before, other.Fits) ∧ ¬ entry.Fits ∧
        cause = .payloadTooLong entry.code entry.payload.length := by
  have hfirst : encode entries = .error cause ↔
      ∃ entry, misfit? entries = some entry ∧ cause = .payloadTooLong entry.code entry.payload.length := by
    rw [encode_eq]
    cases misfit? entries with
    | none => simp
    | some entry => simp [eq_comm]
  rw [hfirst]
  constructor
  · intro ⟨entry, hentry, hcause⟩
    obtain ⟨before, after, hentries, hbefore, hmisfit⟩ := misfit?_eq_some_iff.1 hentry
    exact ⟨before, entry, after, hentries, hbefore, hmisfit, hcause⟩
  · intro ⟨before, entry, after, hentries, hbefore, hmisfit, hcause⟩
    exact ⟨entry, misfit?_eq_some_iff.2 ⟨before, after, hentries, hbefore, hmisfit⟩, hcause⟩

/-- Entries behind others are written behind them. -/
theorem encode_append (entries more : List Tlv) :
    encode (entries ++ more) = do
      let front ← encode entries
      let rest ← encode more
      return front ++ rest := by
  induction entries with
  | nil =>
    show encode more = do
      let rest ← encode more
      return [] ++ rest
    cases encode more <;> rfl
  | cons entry entries ih =>
    rw [List.cons_append, encode, encode, ih]
    cases encodeOne entry with
    | error cause => rfl
    | ok one =>
      cases encode entries with
      | error cause => rfl
      | ok front =>
        cases encode more with
        | error cause => rfl
        | ok rest => simp only [bind, Except.bind, pure, Except.pure, List.append_assoc]

/-- A row is what can be written of entries without a terminator. -/
theorem row_iff {entries : List Tlv} {written : Bytes} :
    Row entries ∧ written = entries.flatMap wire ↔
      (∀ entry ∈ entries, entry.isEnd = false) ∧ encode entries = .ok written := by
  rw [encode_eq_ok_iff]
  constructor
  · intro ⟨hrow, hwritten⟩
    exact ⟨fun entry hentry => (hrow entry hentry).notEnd, fun entry hentry => (hrow entry hentry).fits, hwritten⟩
  · intro ⟨hopen, hfits, hwritten⟩
    exact ⟨fun entry hentry => ⟨hopen entry hentry, hfits entry hentry⟩, hwritten⟩

/-! ## Reading -/

/-- The front of an entry that the bytes do not hold whole, and what is wrong with it. -/
inductive Incomplete : Bytes → TlvFault → Prop where
  | lone {code : UInt8} (hcode : code ≠ endCode) : Incomplete [code] .missingLength
  | short {code length : UInt8} {rest : Bytes} (hcode : code ≠ endCode) (hlen : rest.length < length.toNat) :
      Incomplete (code :: length :: rest) .overrun

theorem Incomplete.decodeAt {bytes : Bytes} {fault : TlvFault} (h : Incomplete bytes fault) (offset : Nat) :
    decodeAt offset bytes = .error (.malformedTlv offset fault) := by
  cases h with
  | lone hcode => exact decodeAt_lone offset hcode
  | short hcode hlen => exact decodeAt_short offset hcode hlen

theorem decode_row_incomplete {entries : List Tlv} (hrow : Row entries) {tail : Bytes} {fault : TlvFault}
    (h : Incomplete tail fault) :
    decode (entries.flatMap wire ++ tail) = .error (.malformedTlv (entries.flatMap wire).length fault) := by
  rw [decode_row hrow, h.decodeAt]
  rfl

/-- Reading that breaks off has read a row in front of an entry that is not there whole. -/
theorem exists_row_of_decode_error {bytes : Bytes} {cause : Error} (h : decode bytes = .error cause) :
    ∃ entries tail fault, Row entries ∧ bytes = entries.flatMap wire ++ tail ∧ Incomplete tail fault := by
  obtain ⟨entries, tail, hrow, rfl, hstop⟩ := exists_row bytes
  cases hstop with
  | nothing =>
    rw [List.append_nil, (wellFormed_of_row hrow).decode_self] at h
    cases h
  | terminator rest =>
    rw [decode_row hrow, decodeAt_terminator] at h
    cases h
  | lone hcode => exact ⟨entries, _, _, hrow, rfl, .lone hcode⟩
  | short hcode hlen => exact ⟨entries, _, _, hrow, rfl, .short hcode hlen⟩

/-- **Reading breaks off in front of the first entry that is not there whole**, at the offset where it begins. -/
theorem decode_eq_error_iff {bytes : Bytes} {cause : Error} :
    decode bytes = .error cause ↔
      ∃ entries written tail fault, (∀ entry ∈ entries, entry.isEnd = false) ∧ encode entries = .ok written ∧
        bytes = written ++ tail ∧ Incomplete tail fault ∧ cause = .malformedTlv written.length fault := by
  constructor
  · intro h
    obtain ⟨entries, tail, fault, hrow, rfl, hincomplete⟩ := exists_row_of_decode_error h
    obtain ⟨hopen, hwritten⟩ := row_iff.1 ⟨hrow, rfl⟩
    rw [decode_row_incomplete hrow hincomplete] at h
    cases h
    exact ⟨entries, _, tail, fault, hopen, hwritten, rfl, hincomplete, rfl⟩
  · intro ⟨entries, written, tail, fault, hopen, hwritten, hbytes, hincomplete, hcause⟩
    obtain ⟨hrow, rfl⟩ := row_iff.2 ⟨hopen, hwritten⟩
    rw [hbytes, hcause]
    exact decode_row_incomplete hrow hincomplete

/-- The bytes that read as entries without a terminator are those that writing the entries gives. -/
theorem decode_open_iff {bytes : Bytes} {entries : List Tlv} :
    decode bytes = .ok entries ∧ terminated entries = false ↔
      (∀ entry ∈ entries, entry.isEnd = false) ∧ encode entries = .ok bytes := by
  rw [← row_iff]
  constructor
  · intro ⟨hread, hopen⟩
    obtain ⟨hwell, rest, hbytes, hrest⟩ := decode_eq_ok_iff.1 hread
    rcases hwell.cases with hrow | ⟨row, -, rfl⟩
    · rw [hrest hopen, List.append_nil] at hbytes
      exact ⟨hrow, hbytes⟩
    · rw [terminated_concat_terminator] at hopen
      cases hopen
  · intro ⟨hrow, hbytes⟩
    exact ⟨hbytes ▸ (wellFormed_of_row hrow).decode_self, terminated_of_row hrow⟩

/-! ## Reading what was written -/

/-- The entries up to the first terminator, itself included. -/
def throughEnd : List Tlv → List Tlv
  | [] => []
  | entry :: entries => if entry.isEnd then [entry] else entry :: throughEnd entries

theorem terminated_throughEnd {entries : List Tlv} (h : entries.any isEnd = true) :
    terminated (throughEnd entries) = true := by
  induction entries with
  | nil => cases h
  | cons entry entries ih =>
    rw [throughEnd]
    cases hend : entry.isEnd with
    | true => exact hend
    | false =>
      have hrest : terminated (throughEnd entries) = true := ih (by simpa [hend] using h)
      rw [terminated] at hrest
      simp only [Bool.false_eq_true, if_false, terminated, List.getLast?_cons]
      cases hlast : (throughEnd entries).getLast? with
      | none => rw [hlast] at hrest; cases hrest
      | some last => rw [hlast] at hrest; exact hrest

/-- **What is written reads back as far as its first terminator.** -/
theorem decode_of_encode {entries : List Tlv} {bytes : Bytes} (h : encode entries = .ok bytes) :
    decode bytes = .ok (throughEnd entries) := by
  obtain ⟨hfits, rfl⟩ := encode_eq_ok_iff.1 h
  clear h
  induction entries with
  | nil => exact decode_nil
  | cons entry entries ih =>
    rw [List.forall_mem_cons] at hfits
    rw [List.flatMap_cons, throughEnd]
    cases hend : entry.isEnd with
    | true =>
      obtain rfl := eq_terminator hend hfits.1
      exact decodeAt_terminator 0 _
    | false => exact decode_wire_append ⟨hend, hfits.1⟩ (ih hfits.2)

/-- **What can be written, and what is written of it.** Entries can be written if and only if each of them fits. If
not, the first one that does not is reported, by its code and the length of its payload, whatever comes after it.
What is written is as long as the entries say beforehand, and it reads back as far as its first terminator, with
entries behind that one or without. More entries are written behind it. -/
theorem encode_exact (entries : List Tlv) :
    ((∃ written, encode entries = .ok written) ↔
      ∀ entry ∈ entries, (entry.code = endCode → entry.payload = []) ∧
        (entry.code ≠ endCode → entry.payload.length ≤ 255)) ∧
    (∀ cause, encode entries = .error cause ↔
      ∃ before entry after, entries = before ++ entry :: after ∧ (∀ other ∈ before, other.Fits) ∧ ¬ entry.Fits ∧
        cause = .payloadTooLong entry.code entry.payload.length) ∧
    (∀ written, encode entries = .ok written →
      written.length = (entries.map encodedLength).sum ∧ decode written = .ok (throughEnd entries)) ∧
    (∀ more, encode (entries ++ more) = do
      let front ← encode entries
      let rest ← encode more
      return front ++ rest) := by
  refine ⟨?_, fun cause => encode_eq_error_iff, fun written hwritten => ?_, encode_append entries⟩
  · simp only [← fits_iff, encode_eq_ok_iff, exists_and_left, exists_eq, and_true]
  · have hlength : written.length = (entries.map encodedLength).sum := by
      rw [(encode_eq_ok_iff.1 hwritten).2, length_flatMap_wire, occupied_eq_sum]
    exact ⟨hlength, decode_of_encode hwritten⟩

/-- A sub-option with a terminator and another sub-option behind it, and the same row with a payload in its
terminator and a long one behind that. -/
theorem encode_exact_reopened :
    encode ([⟨6, [8]⟩, terminator] ++ [⟨9, []⟩]) = .ok [6, 1, 8, 255, 9, 0] ∧
      decode [6, 1, 8, 255, 9, 0] = .ok [⟨6, [8]⟩, terminator] ∧
      encode [⟨6, [8]⟩, ⟨endCode, [1]⟩, ⟨9, List.replicate 256 0⟩] = .error (.payloadTooLong endCode 1) := by
  obtain ⟨-, -, -, hmore⟩ := encode_exact [⟨6, [8]⟩, terminator]
  obtain ⟨-, -, hread, -⟩ := encode_exact [⟨6, [8]⟩, terminator, ⟨9, []⟩]
  obtain ⟨-, herror, -, -⟩ := encode_exact [⟨6, [8]⟩, ⟨endCode, [1]⟩, ⟨9, List.replicate 256 0⟩]
  refine ⟨hmore [⟨9, []⟩], (hread _ rfl).2, (herror _).2 ?_⟩
  exact ⟨[⟨6, [8]⟩], ⟨endCode, [1]⟩, [⟨9, List.replicate 256 0⟩], rfl, by decide, by decide, rfl⟩

end ProxyDhcp.Tlv
