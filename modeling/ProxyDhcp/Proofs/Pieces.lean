/-
Readings that break off, and readings of bytes that are joined or cut. A reading breaks off where an entry begins that
the bytes do not hold whole (`decode_eq_malformed_iff`); the bytes in front only move that offset (`decodeAt_eq`). So
bytes behind entries without a terminator are read as if they stood alone (`decode_append`), and bytes that are cut
read as the entries in front of the cut, unless it falls inside of one (`decode_take_cases`).
-/
import ProxyDhcp.Proofs.Faults

namespace ProxyDhcp

/-- The same error, of bytes that stand behind `n` others. -/
def Error.behind (n : Nat) : Error → Error
  | .malformedTlv offset fault => .malformedTlv (n + offset) fault
  | cause => cause

namespace Tlv

/-! ## Breaking off -/

/-- At `offset`, behind whole entries, an entry begins that the bytes do not hold whole: its code is the last byte, or
its length counts more bytes than there are. -/
structure BreaksOff (bytes : Bytes) (offset : Nat) (fault : TlvFault) : Prop where
  front : ∃ entries, (∀ entry ∈ entries, entry.isEnd = false) ∧ encode entries = .ok (bytes.take offset)
  begun : ∃ code, bytes[offset]? = some code ∧ code ≠ endCode
  short : (fault = .missingLength ∧ offset + 1 = bytes.length) ∨
    (fault = .overrun ∧ ∃ length, bytes[offset + 1]? = some length ∧ bytes.length < offset + 2 + length.toNat)

section

variable {bytes : Bytes} {offset : Nat} {fault : TlvFault}

theorem Incomplete.length_pos (h : Incomplete bytes fault) : 0 < bytes.length := by
  cases h <;> exact Nat.succ_pos _

theorem incomplete_iff :
    Incomplete bytes fault ↔
      (∃ code, bytes[0]? = some code ∧ code ≠ endCode) ∧
        ((fault = .missingLength ∧ bytes.length = 1) ∨
          (fault = .overrun ∧ ∃ length, bytes[1]? = some length ∧ bytes.length < 2 + length.toNat)) := by
  constructor
  · intro h
    cases h with
    | lone hcode => exact ⟨⟨_, rfl, hcode⟩, .inl ⟨rfl, rfl⟩⟩
    | short hcode hlen => exact ⟨⟨_, rfl, hcode⟩, .inr ⟨rfl, _, rfl, by simp only [List.length_cons]; omega⟩⟩
  · intro ⟨⟨code, hcode, hne⟩, hshort⟩
    cases bytes with
    | nil => cases hcode
    | cons first rest =>
      cases hcode
      rcases hshort with ⟨rfl, hlen⟩ | ⟨rfl, length, hlength, hlen⟩
      · obtain rfl := List.length_eq_zero_iff.1 (Nat.succ.inj hlen)
        exact .lone hne
      · cases rest with
        | nil => cases hlength
        | cons second rest =>
          cases hlength
          exact .short hne (by simp only [List.length_cons] at hlen; omega)

theorem breaksOff_iff :
    BreaksOff bytes offset fault ↔
      (∃ entries, (∀ entry ∈ entries, entry.isEnd = false) ∧ encode entries = .ok (bytes.take offset)) ∧
        Incomplete (bytes.drop offset) fault := by
  rw [incomplete_iff]
  simp only [List.getElem?_drop, List.length_drop, Nat.add_zero]
  constructor
  · intro ⟨hfront, hbegun, hshort⟩
    refine ⟨hfront, hbegun, hshort.imp ?_ ?_⟩
    · exact fun ⟨hfault, hlast⟩ => ⟨hfault, by omega⟩
    · exact fun ⟨hfault, length, hlength, hlen⟩ => ⟨hfault, length, hlength, by omega⟩
  · intro ⟨hfront, ⟨code, hcode, hne⟩, hshort⟩
    have hwithin := (List.getElem?_eq_some_iff.1 hcode).1
    refine ⟨hfront, ⟨code, hcode, hne⟩, hshort.imp ?_ ?_⟩
    · exact fun ⟨hfault, hlast⟩ => ⟨hfault, by omega⟩
    · exact fun ⟨hfault, length, hlength, hlen⟩ => ⟨hfault, length, hlength, by omega⟩

theorem exists_malformed_of_decode {cause : Error} (h : decode bytes = .error cause) :
    ∃ offset fault, cause = .malformedTlv offset fault := by
  obtain ⟨-, written, -, fault, -, -, -, -, hcause⟩ := decode_eq_error_iff.1 h
  exact ⟨written.length, fault, hcause⟩

/-- **A reading fails where it breaks off.** -/
theorem decode_eq_malformed_iff :
    decode bytes = .error (.malformedTlv offset fault) ↔ BreaksOff bytes offset fault := by
  rw [decode_eq_error_iff, breaksOff_iff]
  constructor
  · rintro ⟨entries, written, tail, fault, hopen, hwritten, rfl, hincomplete, hcause⟩
    cases hcause
    rw [List.take_left, List.drop_left]
    exact ⟨⟨entries, hopen, hwritten⟩, hincomplete⟩
  · intro ⟨⟨entries, hopen, hwritten⟩, hincomplete⟩
    have hwithin := hincomplete.length_pos
    rw [List.length_drop] at hwithin
    have hoffset : (bytes.take offset).length = offset := List.length_take_of_le (by omega)
    refine ⟨entries, _, _, fault, hopen, hwritten, (List.take_append_drop offset bytes).symm, hincomplete, ?_⟩
    rw [hoffset]

end

/-- A terminator behind whole entries ends the reading. -/
theorem decode_of_terminator {bytes : Bytes} {start : Nat} {entries : List Tlv}
    (hopen : ∀ entry ∈ entries, entry.isEnd = false) (hwritten : encode entries = .ok (bytes.take start))
    (hend : bytes[start]? = some endCode) : decode bytes = .ok (entries ++ [terminator]) := by
  obtain ⟨hrow, hfront⟩ := row_iff.2 ⟨hopen, hwritten⟩
  obtain ⟨hstart, hbyte⟩ := List.getElem?_eq_some_iff.1 hend
  have hbytes : bytes = entries.flatMap wire ++ (terminator.wire ++ bytes.drop (start + 1)) := by
    rw [← hfront, wire_terminator, List.singleton_append, ← hbyte, List.getElem_cons_drop, List.take_append_drop]
  rw [hbytes]
  exact decode_terminated hopen (fun entry hentry => (hrow entry hentry).fits) _

/-- **A reading breaks off at the first entry that is not there whole**, and there alone. Behind entries that were read
it finds an entry whose code is the last byte, or one whose length counts past the end; the offset and the fault are
the only ones of the bytes, and bytes without such a place are read. So nothing fails at a terminator or behind it. -/
theorem decode_breaksOff (bytes : Bytes) :
    (∀ offset fault, decode bytes = .error (.malformedTlv offset fault) ↔ BreaksOff bytes offset fault) ∧
    (((∃ entries, decode bytes = .ok entries) ∧ ∀ offset fault, ¬ BreaksOff bytes offset fault) ∨
      ((∀ entries, decode bytes ≠ .ok entries) ∧ ∃ offset fault, BreaksOff bytes offset fault ∧
        ∀ other otherFault, BreaksOff bytes other otherFault → other = offset ∧ otherFault = fault)) ∧
    (∀ start entries, (∀ entry ∈ entries, entry.isEnd = false) → encode entries = .ok (bytes.take start) →
      bytes[start]? = some endCode → decode bytes = .ok (entries ++ [terminator])) := by
  refine ⟨fun offset fault => decode_eq_malformed_iff, ?_, fun start entries => decode_of_terminator⟩
  simp only [← decode_eq_malformed_iff]
  cases hread : decode bytes with
  | ok entries => exact .inl ⟨⟨entries, rfl⟩, nofun⟩
  | error cause =>
    obtain ⟨offset, fault, rfl⟩ := exists_malformed_of_decode hread
    refine .inr ⟨nofun, offset, fault, rfl, fun other otherFault h => ?_⟩
    cases h
    exact ⟨rfl, rfl⟩

/-- A code that nothing follows, a length that counts one byte too far, and such an entry behind a terminator. -/
theorem decode_breaksOff_secondEntry :
    decode [6, 1, 8, 10] = .error (.malformedTlv 3 .missingLength) ∧
      TlvFault.missingLength.message = "missing length byte" ∧
      decode [6, 1, 8, 8, 2, 255] = .error (.malformedTlv 3 .overrun) ∧
      TlvFault.overrun.message = "length runs past end of buffer" ∧
      decode [6, 1, 8, 255, 8, 2] = .ok [⟨6, [8]⟩, terminator] := by
  obtain ⟨hlone, -, -⟩ := decode_breaksOff [6, 1, 8, 10]
  obtain ⟨hshort, -, -⟩ := decode_breaksOff [6, 1, 8, 8, 2, 255]
  obtain ⟨-, -, hclosed⟩ := decode_breaksOff [6, 1, 8, 255, 8, 2]
  refine ⟨(hlone _ _).2 ?_, rfl, (hshort _ _).2 ?_, rfl, hclosed 3 [⟨6, [8]⟩] (by decide) rfl rfl⟩
  · exact ⟨⟨[⟨6, [8]⟩], by decide, rfl⟩, ⟨10, rfl, by decide⟩, .inl ⟨rfl, rfl⟩⟩
  · exact ⟨⟨[⟨6, [8]⟩], by decide, rfl⟩, ⟨8, rfl, by decide⟩, .inr ⟨rfl, 2, rfl, by decide⟩⟩

/-! ## Bytes behind others -/

/-- **The offset at which a reading begins only moves its error.** -/
theorem decodeAt_eq (offset : Nat) (bytes : Bytes) :
    decodeAt offset bytes = (decode bytes).mapError (·.behind offset) := by
  -- The row is read alike at every offset, so what is left is the stop behind it.
  obtain ⟨entries, rest, hrow, rfl, hstop⟩ := exists_row bytes
  rw [decode_row hrow, decodeAt_flatMap_wire offset (fun entry hentry => (hrow entry hentry).notEnd)
    (fun entry hentry => (hrow entry hentry).fits)]
  cases hstop with
  | nothing => rw [decodeAt, decodeAt]; rfl
  | terminator rest => rw [decodeAt_terminator, decodeAt_terminator]; rfl
  | lone hcode => rw [decodeAt_lone _ hcode, decodeAt_lone _ hcode]; rfl
  | short hcode hlen => rw [decodeAt_short _ hcode hlen, decodeAt_short _ hcode hlen]; rfl

section

variable {front back : Bytes} {entries more : List Tlv} {cause : Error}

/-- **Bytes behind entries that no terminator closes are read as if they stood alone.** -/
theorem decode_append (h : decode front = .ok entries) (hopen : terminated entries = false) (back : Bytes) :
    decode (front ++ back) = ((decode back).map (entries ++ ·)).mapError (·.behind front.length) := by
  obtain ⟨hopen, hwritten⟩ := decode_open_iff.1 ⟨h, hopen⟩
  obtain ⟨hrow, rfl⟩ := row_iff.2 ⟨hopen, hwritten⟩
  rw [decode_row hrow, decodeAt_eq]
  cases decode back <;> rfl

theorem decode_append_of_ok (h : decode front = .ok entries) (hopen : terminated entries = false)
    (hback : decode back = .ok more) : decode (front ++ back) = .ok (entries ++ more) := by
  rw [decode_append h hopen, hback]
  rfl

theorem decode_append_of_error (h : decode front = .ok entries) (hopen : terminated entries = false)
    (hback : decode back = .error cause) : decode (front ++ back) = .error (cause.behind front.length) := by
  rw [decode_append h hopen, hback]
  rfl

theorem decode_append_of_terminated (h : decode front = .ok entries) (hclosed : terminated entries = true)
    (back : Bytes) : decode (front ++ back) = .ok entries := by
  obtain ⟨hwell, rest, rfl, -⟩ := wellFormed_of_decode h
  rw [List.append_assoc]
  exact hwell.decode_append (by simp [hclosed])

/-- **Readings compose.** Bytes that end with a terminator read the same whatever follows them. Any others leave what
follows them as it is: its entries come behind theirs, and its fault stays what it is, as many bytes further on. -/
theorem decode_joined (h : decode front = .ok entries) (back : Bytes) :
    (terminated entries = true → decode (front ++ back) = .ok entries) ∧
    (terminated entries = false →
      (∀ all, decode (front ++ back) = .ok all ↔ ∃ more, decode back = .ok more ∧ all = entries ++ more) ∧
      (∀ cause, decode (front ++ back) = .error cause ↔
        ∃ offset fault, decode back = .error (.malformedTlv offset fault) ∧
          cause = .malformedTlv (front.length + offset) fault)) := by
  refine ⟨fun hclosed => decode_append_of_terminated h hclosed back, fun hopen => ?_⟩
  cases hread : decode back with
  | ok more =>
    rw [decode_append_of_ok h hopen hread]
    exact ⟨by simp [eq_comm], by simp⟩
  | error cause =>
    obtain ⟨offset, fault, rfl⟩ := exists_malformed_of_decode hread
    rw [decode_append_of_error h hopen hread, Error.behind]
    refine ⟨by simp, fun cause => ⟨fun h => ?_, ?_⟩⟩
    · cases h
      exact ⟨offset, fault, rfl, rfl⟩
    · rintro ⟨other, otherFault, h, rfl⟩
      cases h
      rfl

end

/-- Behind a sub-option: a terminated one, one that is not there whole, and, once it is closed, anything. -/
theorem decode_joined_subOption :
    decode [6, 1, 8] = .ok [⟨6, [8]⟩] ∧
      decode ([6, 1, 8] ++ [8, 1, 255, 255]) = .ok [⟨6, [8]⟩, ⟨8, [255]⟩, terminator] ∧
      decode ([6, 1, 8] ++ [9, 0, 8, 2, 255]) = .error (.malformedTlv 5 .overrun) ∧
      decode ([6, 1, 8, 255] ++ [8, 2, 255]) = .ok [⟨6, [8]⟩, terminator] := by
  have hfront : decode [6, 1, 8] = .ok [⟨6, [8]⟩] := @decode_flatMap_wire [⟨6, [8]⟩] (by decide) (by decide)
  have hclosed : decode [6, 1, 8, 255] = .ok [⟨6, [8]⟩, terminator] :=
    @decode_terminated [⟨6, [8]⟩] (by decide) (by decide) []
  have hback : decode [8, 1, 255, 255] = .ok [⟨8, [255]⟩, terminator] :=
    @decode_terminated [⟨8, [255]⟩] (by decide) (by decide) []
  have hcut : decode [9, 0, 8, 2, 255] = .error (.malformedTlv 2 .overrun) :=
    decode_eq_malformed_iff.2
      ⟨⟨[⟨9, []⟩], by decide, rfl⟩, ⟨8, rfl, by decide⟩, .inr ⟨rfl, 2, rfl, by decide⟩⟩
  obtain ⟨hok, -⟩ := (decode_joined hfront [8, 1, 255, 255]).2 rfl
  obtain ⟨-, herror⟩ := (decode_joined hfront [9, 0, 8, 2, 255]).2 rfl
  exact ⟨hfront, (hok _).2 ⟨_, hback, rfl⟩, (herror _).2 ⟨2, .overrun, hcut, rfl⟩,
    (decode_joined hclosed [8, 2, 255]).1 rfl⟩

/-! ## Cut bytes -/

/-- A place in front of the end of entries lies at or inside one of them. -/
theorem exists_cut {entries : List Tlv} {n : Nat} (h : n < occupied entries) :
    ∃ before entry after, entries = before ++ entry :: after ∧ occupied before ≤ n ∧
      n < occupied before + entry.encodedLength := by
  induction entries generalizing n with
  | nil => exact absurd h (Nat.not_lt_zero n)
  | cons first entries ih =>
    by_cases hfirst : n < first.encodedLength
    · exact ⟨[], first, entries, rfl, Nat.zero_le n, by rw [occupied]; omega⟩
    · -- Behind the first entry the place lies that much nearer.
      rw [occupied] at h
      obtain ⟨before, entry, after, rfl, hstart, hend⟩ := @ih (n - first.encodedLength) (by omega)
      exact ⟨first :: before, entry, after, rfl, by rw [occupied]; omega, by rw [occupied]; omega⟩

/-- Entries in front of another one do not end the reading. -/
theorem WellFormed.row_front {before after : List Tlv} {entry : Tlv} (h : WellFormed (before ++ entry :: after)) :
    Row before := by
  intro other hother
  refine ⟨h.last other ?_, h.fits other (List.mem_append_left _ hother)⟩
  rw [List.dropLast_append_of_ne_nil (List.cons_ne_nil entry after)]
  exact List.mem_append_left _ hother

/-- An entry of which at least the code is there, and not all. -/
theorem incomplete_take_wire {entry : Tlv} (hfits : entry.Fits) {n : Nat} (hpos : 0 < n)
    (hlt : n < entry.encodedLength) :
    Incomplete (entry.wire.take n) (if n = 1 then .missingLength else .overrun) := by
  -- A terminator is one byte, so it is there whole or not at all.
  have hend : entry.isEnd = false := by
    cases hend : entry.isEnd with
    | false => rfl
    | true =>
      rw [encodedLength, if_pos hend] at hlt
      omega
  have hcode := isEnd_eq_false_iff.1 hend
  have hlen := (fits_of_not_end hend).1 hfits
  rw [encodedLength, if_neg (by simp [hend])] at hlt
  rw [wire_of_not_end hend]
  obtain ⟨n, rfl⟩ := Nat.exists_eq_succ_of_ne_zero (Nat.ne_of_gt hpos)
  rw [List.take_succ_cons]
  cases n with
  | zero => exact .lone hcode
  | succ n =>
    rw [if_neg (by omega), List.take_succ_cons]
    refine .short hcode ?_
    rw [List.length_take, UInt8.toNat_ofNat']
    omega

section

variable {bytes : Bytes} {entries before after : List Tlv} {entry : Tlv} {n : Nat}

/-- The bytes up to a place inside of an entry. -/
theorem take_of_decode (h : decode bytes = .ok (before ++ entry :: after)) (hstart : occupied before ≤ n)
    (hend : n < occupied before + entry.encodedLength) :
    bytes.take n = before.flatMap wire ++ entry.wire.take (n - occupied before) := by
  obtain ⟨-, rest, rfl, -⟩ := wellFormed_of_decode h
  have hwire : n - (before.flatMap wire).length ≤ entry.wire.length := by
    rw [length_flatMap_wire, length_wire]
    omega
  rw [List.flatMap_append, List.flatMap_cons, List.append_assoc, List.append_assoc, List.take_append,
    List.take_of_length_le (by rw [length_flatMap_wire]; exact hstart), List.take_append_of_le_length hwire,
    length_flatMap_wire]

/-- Bytes that end in front of an entry. -/
theorem decode_take_front (h : decode bytes = .ok (before ++ entry :: after)) :
    decode (bytes.take (occupied before)) = .ok before := by
  have hpos : 0 < entry.encodedLength := by
    rw [encodedLength]
    split <;> omega
  rw [take_of_decode h (Nat.le_refl _) (by omega), Nat.sub_self, List.take_zero, List.append_nil]
  exact (wellFormed_of_row (wellFormed_of_decode h).1.row_front).decode_self

/-- **Bytes that end inside of an entry** break off where it begins. -/
theorem decode_take_inside (h : decode bytes = .ok (before ++ entry :: after)) (hstart : occupied before < n)
    (hend : n < occupied before + entry.encodedLength) :
    decode (bytes.take n) =
      .error (.malformedTlv (occupied before) (if n = occupied before + 1 then .missingLength else .overrun)) := by
  have hwell := (wellFormed_of_decode h).1
  have hfits := hwell.fits entry (List.mem_append_right _ (List.mem_cons_self ..))
  have hincomplete := incomplete_take_wire hfits (n := n - occupied before) (by omega) (by omega)
  have hone : n - occupied before = 1 ↔ n = occupied before + 1 := by omega
  rw [take_of_decode h (Nat.le_of_lt hstart) hend, decode_row_incomplete hwell.row_front hincomplete,
    length_flatMap_wire]
  simp only [hone]

/-- Bytes that end behind the last entry. -/
theorem decode_take_all (h : decode bytes = .ok entries) (hn : occupied entries ≤ n) :
    decode (bytes.take n) = .ok entries := by
  obtain ⟨hwell, rest, rfl, hrest⟩ := wellFormed_of_decode h
  rw [List.take_append, List.take_of_length_le (by rw [length_flatMap_wire]; exact hn)]
  exact hwell.decode_append fun hopen => by rw [hrest hopen, List.take_nil]

/-- The first `n` bytes end inside of an entry, which begins at `start`. -/
def CutInside (entries : List Tlv) (n start : Nat) : Prop :=
  ∃ before entry after, entries = before ++ entry :: after ∧ start = occupied before ∧ start < n ∧
    n < start + entry.encodedLength

/-- The first bytes of what reads as entries end behind all of them, in front of one, or inside of one. -/
theorem decode_take_cases (h : decode bytes = .ok entries) (n : Nat) :
    (occupied entries ≤ n ∧ decode (bytes.take n) = .ok entries) ∨
    (∃ found, found <+: entries ∧ occupied found = n ∧ decode (bytes.take n) = .ok found) ∨
    (∃ start, CutInside entries n start ∧
      decode (bytes.take n) = .error (.malformedTlv start (if n = start + 1 then .missingLength else .overrun))) := by
  by_cases hn : occupied entries ≤ n
  · exact .inl ⟨hn, decode_take_all h hn⟩
  · obtain ⟨before, entry, after, rfl, hstart, hend⟩ := exists_cut (Nat.lt_of_not_le hn)
    rcases Nat.eq_or_lt_of_le hstart with rfl | hstart
    · exact .inr (.inl ⟨before, List.prefix_append before _, rfl, decode_take_front h⟩)
    · exact .inr (.inr ⟨_, ⟨before, entry, after, rfl, rfl, hstart, hend⟩, decode_take_inside h hstart hend⟩)

theorem decode_take_eq_ok_iff (h : decode bytes = .ok entries) {found : List Tlv} :
    decode (bytes.take n) = .ok found ↔
      found <+: entries ∧ (occupied found = n ∨ (found = entries ∧ occupied entries ≤ n)) := by
  constructor
  · intro hread
    rcases decode_take_cases h n with ⟨hn, hall⟩ | ⟨front, hprefix, hn, hfront⟩ | ⟨start, -, hinside⟩
    · rw [hread, Except.ok.injEq] at hall
      exact ⟨hall ▸ List.prefix_rfl, .inr ⟨hall, hn⟩⟩
    · rw [hread, Except.ok.injEq] at hfront
      exact ⟨hfront ▸ hprefix, .inl (hfront ▸ hn)⟩
    · rw [hread] at hinside
      cases hinside
  · rintro ⟨⟨rest, rfl⟩, rfl | ⟨hall, hn⟩⟩
    · cases rest with
      | nil =>
        rw [List.append_nil] at h
        exact decode_take_all h (Nat.le_refl _)
      | cons entry rest => exact decode_take_front h
    · rw [hall]
      exact decode_take_all h hn

theorem decode_take_eq_error_iff (h : decode bytes = .ok entries) {cause : Error} :
    decode (bytes.take n) = .error cause ↔
      ∃ start, CutInside entries n start ∧
        cause = .malformedTlv start (if n = start + 1 then .missingLength else .overrun) := by
  constructor
  · intro hread
    rcases decode_take_cases h n with ⟨-, hall⟩ | ⟨front, -, -, hfront⟩ | ⟨start, hcut, hinside⟩
    · rw [hread] at hall
      cases hall
    · rw [hread] at hfront
      cases hfront
    · rw [hread, Except.error.injEq] at hinside
      exact ⟨start, hcut, hinside⟩
  · rintro ⟨start, ⟨before, entry, after, rfl, rfl, hstart, hend⟩, rfl⟩
    exact decode_take_inside h hstart hend

/-- **A cut alters no entry.** Of bytes that read as entries, the first `n` read as the entries in front of the cut, if
it lies in front of an entry or behind all of them. If it falls inside of one, then its start is where the reading
breaks off: behind its code, or later. Each entry stands behind as many bytes as those in front of it occupy. So all
entries are read from just as many bytes as they occupy, and what is read never has another entry at its place. -/
theorem decode_take_exact (h : decode bytes = .ok entries) (n : Nat) :
    (∀ found, decode (bytes.take n) = .ok found ↔
      found <+: entries ∧ (occupied found = n ∨ (found = entries ∧ occupied entries ≤ n))) ∧
    (∀ cause, decode (bytes.take n) = .error cause ↔
      ∃ start, CutInside entries n start ∧
        cause = .malformedTlv start (if n = start + 1 then .missingLength else .overrun)) ∧
    (∀ before after, entries = before ++ after → encode before = .ok (bytes.take (occupied before))) ∧
    (decode (bytes.take n) = .ok entries ↔ occupied entries ≤ n) ∧
    (∀ found, decode (bytes.take n) = .ok found →
      ∀ (place : Nat) (entry : Tlv), found[place]? = some entry → entries[place]? = some entry) := by
  refine ⟨fun found => decode_take_eq_ok_iff h, fun cause => decode_take_eq_error_iff h, ?_, ?_, ?_⟩
  · rintro before after rfl
    exact encode_front_of_decode h
  · rw [decode_take_eq_ok_iff h]
    exact ⟨fun ⟨_, hn⟩ => hn.elim Nat.le_of_eq And.right, fun hn => ⟨List.prefix_rfl, .inr ⟨rfl, hn⟩⟩⟩
  · intro found hread place entry hplace
    obtain ⟨⟨rest, rfl⟩, -⟩ := (decode_take_eq_ok_iff h).1 hread
    rw [List.getElem?_append_left (List.getElem?_eq_some_iff.1 hplace).1]
    exact hplace

/-- Two sub-options, a terminator and a byte behind it, cut in front of the second one, behind its code, behind its
length, and behind the terminator. -/
theorem decode_take_exact_bootServers :
    decode [6, 1, 8, 8, 2, 255, 0, 255, 0xDE] = .ok [⟨6, [8]⟩, ⟨8, [255, 0]⟩, terminator] ∧
      decode [6, 1, 8] = .ok [⟨6, [8]⟩] ∧
      decode [6, 1, 8, 8] = .error (.malformedTlv 3 .missingLength) ∧
      decode [6, 1, 8, 8, 2] = .error (.malformedTlv 3 .overrun) ∧
      decode [6, 1, 8, 8, 2, 255, 0, 255] = .ok [⟨6, [8]⟩, ⟨8, [255, 0]⟩, terminator] := by
  have hread : decode [6, 1, 8, 8, 2, 255, 0, 255, 0xDE] = .ok [⟨6, [8]⟩, ⟨8, [255, 0]⟩, terminator] :=
    @decode_terminated [⟨6, [8]⟩, ⟨8, [255, 0]⟩] (by decide) (by decide) [0xDE]
  have hinside : ∀ n, 3 < n → n < 7 → CutInside [⟨6, [8]⟩, ⟨8, [255, 0]⟩, terminator] n 3 :=
    fun n hstart hend => ⟨[⟨6, [8]⟩], ⟨8, [255, 0]⟩, [terminator], rfl, rfl, hstart, hend⟩
  obtain ⟨hfront, -⟩ := decode_take_exact hread 3
  obtain ⟨-, hcode, -⟩ := decode_take_exact hread 4
  obtain ⟨-, hlength, -⟩ := decode_take_exact hread 5
  obtain ⟨-, -, -, hall, -⟩ := decode_take_exact hread 8
  exact ⟨hread, (hfront _).2 ⟨⟨_, rfl⟩, .inl rfl⟩,
    (hcode _).2 ⟨3, hinside 4 (by decide) (by decide), rfl⟩,
    (hlength _).2 ⟨3, hinside 5 (by decide) (by decide), rfl⟩, hall.2 (by decide)⟩

end

end Tlv

end ProxyDhcp
