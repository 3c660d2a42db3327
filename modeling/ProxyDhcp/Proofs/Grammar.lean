/-
Which bytes read as entries, and as which. Any bytes are a row of entries in front of a place where no entry
can be read (`exists_row`): the end, a terminator, a lone code, or an entry that counts more bytes than there
are. The row is read back and each such place settles what becomes of the reading, so the bytes that read as
given entries are those that writing the entries gives, and anything may follow a terminator
(`decode_eq_ok_iff`).
-/
import Mathlib.Algebra.GroupWithZero.Nat
import ProxyDhcp.Proofs.Entries

namespace ProxyDhcp.Tlv

/-! ## Rows of entries -/

/-- An entry with a length byte that counts its payload. -/
structure Plain (entry : Tlv) : Prop where
  notEnd : entry.isEnd = false
  fits : entry.Fits

/-- Entries that are read one after the other, none of which ends the reading. -/
def Row (entries : List Tlv) : Prop := ∀ entry ∈ entries, Plain entry

/-- Where no further entry can be read. -/
inductive Stop : Bytes → Prop where
  | nothing : Stop []
  | terminator (rest : Bytes) : Stop (terminator.wire ++ rest)
  | lone {code : UInt8} (hcode : code ≠ endCode) : Stop [code]
  | short {code length : UInt8} {rest : Bytes} (hcode : code ≠ endCode) (hlen : rest.length < length.toNat) :
      Stop (code :: length :: rest)

theorem row_nil : Row [] := fun _ h => by cases h

/-- **Any bytes are a row of entries in front of a stop.** -/
theorem exists_row : ∀ bytes : Bytes, ∃ (entries : List Tlv) (rest : Bytes),
    Row entries ∧ bytes = entries.flatMap wire ++ rest ∧ Stop rest
  | [] => ⟨[], [], row_nil, rfl, .nothing⟩
  | [code] => by
    by_cases hcode : code = endCode
    · exact ⟨[], [code], row_nil, rfl, hcode ▸ .terminator []⟩
    · exact ⟨[], [code], row_nil, rfl, .lone hcode⟩
  | code :: length :: rest => by
    by_cases hcode : code = endCode
    · exact ⟨[], code :: length :: rest, row_nil, rfl, hcode ▸ .terminator (length :: rest)⟩
    cases hsplit : Bytes.split? length.toNat rest with
    | none => exact ⟨[], _, row_nil, rfl, .short hcode (Bytes.split?_eq_none_iff.1 hsplit)⟩
    | some halves =>
      obtain ⟨payload, after⟩ := halves
      obtain ⟨hrest, hlen⟩ := Bytes.split?_eq_some_iff.1 hsplit
      have hshorter := Bytes.length_of_split? hsplit
      obtain ⟨entries, left, hrow, hafter, hstop⟩ := exists_row after
      have hend : isEnd ⟨code, payload⟩ = false := isEnd_eq_false_iff.2 hcode
      have hfits : Fits ⟨code, payload⟩ := by
        have := length.toNat_lt
        rw [fits_of_not_end hend]
        show payload.length ≤ 255
        omega
      refine ⟨⟨code, payload⟩ :: entries, left, List.forall_mem_cons.2 ⟨⟨hend, hfits⟩, hrow⟩, ?_, hstop⟩
      rw [List.flatMap_cons, wire_of_not_end hend, hlen, UInt8.ofNat_toNat, hrest, hafter]
      simp
termination_by bytes => bytes.length
decreasing_by
  simp only [List.length_cons]
  omega

theorem decodeAt_lone (offset : Nat) {code : UInt8} (hcode : code ≠ endCode) :
    decodeAt offset [code] = .error (.malformedTlv offset .missingLength) := by
  rw [decodeAt, if_neg hcode]

theorem decodeAt_short (offset : Nat) {code length : UInt8} {rest : Bytes} (hcode : code ≠ endCode)
    (hlen : rest.length < length.toNat) :
    decodeAt offset (code :: length :: rest) = .error (.malformedTlv offset .overrun) := by
  have hsplit := Bytes.split?_eq_none_iff.2 hlen
  rw [decodeAt, if_neg hcode]
  split
  · rfl
  · next h => rw [hsplit] at h; cases h

/-- A row in front of a stop is read back, and the stop is read at the offset behind it. -/
theorem decode_row {entries : List Tlv} (hrow : Row entries) (rest : Bytes) :
    decode (entries.flatMap wire ++ rest) =
      (decodeAt (entries.flatMap wire).length rest).map (entries ++ ·) := by
  have h := decodeAt_flatMap_wire 0 (fun entry hentry => (hrow entry hentry).notEnd)
    (fun entry hentry => (hrow entry hentry).fits) rest
  rwa [Nat.zero_add] at h

/-! ## Well-formed sequences -/

/-- Entries as they are read: those that can be written, and a terminator nowhere but at the end, so there is
at most one. -/
structure WellFormed (entries : List Tlv) : Prop where
  short : ∀ entry ∈ entries, entry.isEnd = false → entry.payload.length ≤ 255
  bare : ∀ entry ∈ entries, entry.isEnd = true → entry.payload = []
  last : ∀ entry ∈ entries.dropLast, entry.isEnd = false

theorem WellFormed.fits {entries : List Tlv} (h : WellFormed entries) : ∀ entry ∈ entries, entry.Fits := by
  intro entry hentry
  cases hend : entry.isEnd with
  | false => exact (fits_of_not_end hend).2 (h.short entry hentry hend)
  | true =>
    rw [Fits, if_pos hend]
    exact h.bare entry hentry hend

theorem WellFormed.of_fits {entries : List Tlv} (hfits : ∀ entry ∈ entries, entry.Fits)
    (hlast : ∀ entry ∈ entries.dropLast, entry.isEnd = false) : WellFormed entries where
  short entry hentry hend := (fits_of_not_end hend).1 (hfits entry hentry)
  bare entry hentry hend := congrArg payload (eq_terminator hend (hfits entry hentry))
  last := hlast

theorem wellFormed_of_row {entries : List Tlv} (hrow : Row entries) :
    WellFormed entries := by
  refine .of_fits (fun entry h => (hrow entry h).fits) fun entry h => ?_
  exact (hrow entry ((List.dropLast_sublist entries).subset h)).notEnd

theorem wellFormed_concat_terminator {entries : List Tlv} (hrow : Row entries) :
    WellFormed (entries ++ [terminator]) := by
  refine .of_fits (List.forall_mem_append.2 ⟨fun entry h => (hrow entry h).fits, fun entry h => ?_⟩)
    fun entry h => ?_
  · rw [List.mem_singleton.1 h]
    exact fits_terminator
  · rw [List.dropLast_concat] at h
    exact (hrow entry h).notEnd

/-- A well-formed sequence is a row, or a row and a terminator. -/
theorem WellFormed.cases {entries : List Tlv} (h : WellFormed entries) :
    Row entries ∨ ∃ row, Row row ∧ entries = row ++ [terminator] := by
  rcases List.eq_nil_or_concat entries with rfl | ⟨row, entry, rfl⟩
  · exact .inl row_nil
  rw [List.concat_eq_append] at h ⊢
  have hrow : Row row := fun other hother =>
    ⟨h.last other (by simpa using hother), h.fits other (by simp [hother])⟩
  have hentry := h.fits entry (by simp)
  cases hend : entry.isEnd with
  | false =>
    refine .inl (List.forall_mem_append.2 ⟨hrow, fun other hother => ?_⟩)
    rw [List.mem_singleton.1 hother]
    exact ⟨hend, hentry⟩
  | true => exact .inr ⟨row, hrow, by rw [eq_terminator hend hentry]⟩

theorem WellFormed.cons {entry : Tlv} (hplain : Plain entry) {entries : List Tlv} (h : WellFormed entries) :
    WellFormed (entry :: entries) := by
  rcases h.cases with hrow | ⟨row, hrow, rfl⟩
  · exact wellFormed_of_row (List.forall_mem_cons.2 ⟨hplain, hrow⟩)
  · exact wellFormed_concat_terminator (List.forall_mem_cons.2 ⟨hplain, hrow⟩)

theorem terminated_of_row {entries : List Tlv} (hrow : Row entries) :
    terminated entries = false := by
  rw [terminated]
  cases hlast : entries.getLast? with
  | none => rfl
  | some entry => exact (hrow entry (List.mem_of_getLast? hlast)).notEnd

theorem terminated_concat_terminator (entries : List Tlv) : terminated (entries ++ [terminator]) = true := by
  rw [terminated, List.getLast?_concat]
  rfl

theorem terminated_cons {entry : Tlv} (hplain : Plain entry) (entries : List Tlv) :
    terminated (entry :: entries) = terminated entries := by
  rw [terminated, terminated, List.getLast?_cons]
  cases entries.getLast? with
  | none => exact hplain.notEnd
  | some last => rfl

/-! ## Reading and writing -/

theorem WellFormed.encode_eq {entries : List Tlv} (h : WellFormed entries) :
    encode entries = .ok (entries.flatMap wire) :=
  encode_eq_ok_iff.2 ⟨h.fits, rfl⟩

/-- What is written of a well-formed sequence reads back, and anything may follow a terminator. -/
theorem WellFormed.decode_append {entries : List Tlv} (h : WellFormed entries) {rest : Bytes}
    (hrest : terminated entries = false → rest = []) :
    decode (entries.flatMap wire ++ rest) = .ok entries := by
  rcases h.cases with hrow | ⟨row, hrow, rfl⟩
  · rw [decode_row hrow, hrest (terminated_of_row hrow), decodeAt]
    simp [Except.map]
  · rw [List.flatMap_append, List.flatMap_singleton, List.append_assoc, decode_row hrow, decodeAt_terminator]
    rfl

theorem WellFormed.decode_self {entries : List Tlv} (h : WellFormed entries) :
    decode (entries.flatMap wire) = .ok entries := by
  have hread : decode (entries.flatMap wire ++ []) = .ok entries := h.decode_append fun _ => rfl
  rwa [List.append_nil] at hread

/-- What is read is well-formed, and its bytes are all that was read. -/
theorem wellFormed_of_decode {bytes : Bytes} {entries : List Tlv} (h : decode bytes = .ok entries) :
    WellFormed entries ∧ ∃ rest, bytes = entries.flatMap wire ++ rest ∧
      (terminated entries = false → rest = []) := by
  obtain ⟨row, rest, hrow, rfl, hstop⟩ := exists_row bytes
  rw [decode_row hrow] at h
  cases hstop with
  | nothing =>
    rw [decodeAt] at h
    simp only [Except.map, List.append_nil, Except.ok.injEq] at h
    subst h
    exact ⟨wellFormed_of_row hrow, [], rfl, fun _ => rfl⟩
  | terminator rest =>
    rw [decodeAt_terminator] at h
    cases h
    refine ⟨wellFormed_concat_terminator hrow, rest, by simp, fun hopen => ?_⟩
    rw [terminated_concat_terminator] at hopen
    cases hopen
  | lone hcode =>
    rw [decodeAt_lone _ hcode] at h
    cases h
  | short hcode hlen =>
    rw [decodeAt_short _ hcode hlen] at h
    cases h

/-- **The bytes that read as given entries** are those that writing the entries gives, and whatever follows a
terminator. -/
theorem decode_eq_ok_iff {bytes : Bytes} {entries : List Tlv} :
    decode bytes = .ok entries ↔
      WellFormed entries ∧ ∃ rest, bytes = entries.flatMap wire ++ rest ∧
        (terminated entries = false → rest = []) := by
  refine ⟨wellFormed_of_decode, ?_⟩
  rintro ⟨hwell, rest, rfl, hrest⟩
  exact hwell.decode_append hrest

/-- How many bytes the entries occupy. -/
def occupied : List Tlv → Nat
  | [] => 0
  | entry :: entries => entry.encodedLength + occupied entries

theorem occupied_eq_sum (entries : List Tlv) : occupied entries = (entries.map encodedLength).sum := by
  induction entries with
  | nil => rfl
  | cons entry entries ih => rw [occupied, List.map_cons, List.sum_cons, ih]

theorem length_flatMap_wire (entries : List Tlv) : (entries.flatMap wire).length = occupied entries := by
  induction entries with
  | nil => rfl
  | cons entry entries ih => rw [List.flatMap_cons, List.length_append, length_wire, ih, occupied]

/-- Entries in front of others were read from the front of the bytes, from as many as they occupy. -/
theorem encode_front_of_decode {bytes : Bytes} {before after : List Tlv} (h : decode bytes = .ok (before ++ after)) :
    encode before = .ok (bytes.take (occupied before)) := by
  obtain ⟨hwell, rest, rfl, -⟩ := wellFormed_of_decode h
  rw [List.flatMap_append, List.append_assoc, List.take_left' (length_flatMap_wire before)]
  exact encode_eq_ok_iff.2 ⟨fun entry hentry => hwell.fits entry (List.mem_append_left _ hentry), rfl⟩

/-- What is read of some bytes, written again, is the front of the bytes that its entries occupy. -/
theorem encode_of_decode {bytes : Bytes} {entries : List Tlv} (h : decode bytes = .ok entries) :
    encode entries = .ok (bytes.take (occupied entries)) := by
  rw [← List.append_nil entries] at h
  exact encode_front_of_decode h

/-- Different well-formed sequences are written differently. -/
theorem WellFormed.eq_of_encode_eq {first second : List Tlv} (hfirst : WellFormed first)
    (hsecond : WellFormed second) (h : encode first = encode second) : first = second := by
  rw [hfirst.encode_eq, hsecond.encode_eq, Except.ok.injEq] at h
  have hread := hfirst.decode_self
  rw [h, hsecond.decode_self, Except.ok.injEq] at hread
  exact hread.symm

theorem decode_nil : decode [] = .ok [] := by
  rw [decode, decodeAt]

/-- An entry in front of bytes that read. -/
theorem decode_wire_append {entry : Tlv} (hplain : Plain entry) {rest : Bytes} {entries : List Tlv}
    (h : decode rest = .ok entries) : decode (entry.wire ++ rest) = .ok (entry :: entries) := by
  obtain ⟨hwell, after, rfl, hafter⟩ := decode_eq_ok_iff.1 h
  refine decode_eq_ok_iff.2 ⟨hwell.cons hplain, after, by simp, fun hopen => hafter ?_⟩
  rwa [terminated_cons hplain] at hopen

/-- **The grammar of entries.** Bytes read as given entries if and only if the entries are well-formed and the
bytes are what writing them gives, with nothing behind it unless a terminator comes last. So what is written of
well-formed entries reads as them, different ones are written differently, and what was read is written as the
bytes that its entries occupy. Code 0 is no exception: its entry has a length byte and is read like any other. -/
theorem decode_grammar (bytes : Bytes) (entries : List Tlv) :
    (decode bytes = .ok entries ↔
      WellFormed entries ∧ ∃ written rest, encode entries = .ok written ∧ bytes = written ++ rest ∧
        (rest = [] ∨ terminated entries = true)) ∧
    (WellFormed entries → ∃ written, encode entries = .ok written ∧ decode written = .ok entries) ∧
    (decode bytes = .ok entries → encode entries = .ok (bytes.take (occupied entries))) ∧
    (WellFormed entries → ∀ others, WellFormed others → encode entries = encode others → entries = others) ∧
    (decode bytes = .ok entries → ∀ payload : Bytes, payload.length ≤ 255 →
      decode (0 :: UInt8.ofNat payload.length :: payload ++ bytes) = .ok (⟨0, payload⟩ :: entries)) := by
  refine ⟨⟨fun h => ?_, ?_⟩, fun hwell => ⟨_, hwell.encode_eq, hwell.decode_self⟩, encode_of_decode,
    fun hwell others hothers => hwell.eq_of_encode_eq hothers, fun h payload hlen => ?_⟩
  · obtain ⟨hwell, rest, hbytes, hrest⟩ := wellFormed_of_decode h
    refine ⟨hwell, _, rest, hwell.encode_eq, hbytes, ?_⟩
    cases hterminated : terminated entries with
    | false => exact .inl (hrest hterminated)
    | true => exact .inr rfl
  · rintro ⟨hwell, written, rest, hwritten, rfl, hrest⟩
    rw [hwell.encode_eq, Except.ok.injEq] at hwritten
    subst hwritten
    refine hwell.decode_append fun hopen => hrest.resolve_right ?_
    simp [hopen]
  · have hplain : Plain ⟨0, payload⟩ := ⟨rfl, (fits_of_not_end rfl).2 hlen⟩
    exact decode_wire_append hplain h

/-- A pad that carries the code of a terminator, a terminator, and two bytes that are not read. -/
theorem decode_grammar_pad :
    WellFormed [⟨0, [255, 6]⟩, terminator] ∧
      decode ([0, 2, 255, 6, 255] ++ [0xDE, 0xAD]) = .ok [⟨0, [255, 6]⟩, terminator] ∧
      encode [⟨0, [255, 6]⟩, terminator] = .ok [0, 2, 255, 6, 255] ∧
      decode [0, 1, 7, 0, 2, 255, 6, 255, 0xDE, 0xAD] = .ok [⟨0, [7]⟩, ⟨0, [255, 6]⟩, terminator] := by
  obtain ⟨hiff, -, htake, -, hpad⟩ :=
    decode_grammar ([0, 2, 255, 6, 255] ++ [0xDE, 0xAD]) [⟨0, [255, 6]⟩, terminator]
  have hwell : WellFormed [⟨0, [255, 6]⟩, terminator] := ⟨by decide, by decide, by decide⟩
  have hread := hiff.2 ⟨hwell, _, _, rfl, rfl, .inr rfl⟩
  exact ⟨hwell, hread, htake hread, hpad hread [7] (by decide)⟩

end ProxyDhcp.Tlv
