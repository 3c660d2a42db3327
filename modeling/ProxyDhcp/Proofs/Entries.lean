/-
Writing and reading a sequence of entries. Writing succeeds exactly on entries that fit and gives their
bytes in a row (`encode_eq_ok_iff`). Reading such a row takes back every entry in front of a terminator
and goes on behind it (`decodeAt_flatMap_wire`): only the offset of what follows moves.
-/
import ProxyDhcp.Tlv

namespace ProxyDhcp.Tlv

/-! ## Writing -/

/-- An entry that can be written: a terminator without a payload, or a payload that one length byte
counts. -/
def Fits (entry : Tlv) : Prop :=
  if entry.isEnd then entry.payload = [] else entry.payload.length ≤ 255

instance (entry : Tlv) : Decidable entry.Fits :=
  inferInstanceAs (Decidable (if entry.isEnd then entry.payload = [] else entry.payload.length ≤ 255))

/-- The bytes of an entry that fits. -/
def wire (entry : Tlv) : Bytes :=
  if entry.isEnd then [endCode] else entry.code :: UInt8.ofNat entry.payload.length :: entry.payload

@[simp] theorem isEnd_terminator : terminator.isEnd = true := rfl

@[simp] theorem wire_terminator : terminator.wire = [endCode] := rfl

theorem fits_terminator : terminator.Fits := rfl

theorem isEnd_eq_false_iff {entry : Tlv} : entry.isEnd = false ↔ entry.code ≠ endCode := by
  simp [isEnd]

theorem eq_terminator {entry : Tlv} (hend : entry.isEnd = true) (hfits : entry.Fits) :
    entry = terminator := by
  obtain ⟨code, payload⟩ := entry
  simp only [Fits, hend, if_true] at hfits
  simp only [isEnd, beq_iff_eq] at hend
  subst hend hfits
  rfl

theorem fits_of_not_end {entry : Tlv} (hend : entry.isEnd = false) :
    entry.Fits ↔ entry.payload.length ≤ 255 := by
  simp [Fits, hend]

theorem fits_iff {entry : Tlv} :
    entry.Fits ↔
      (entry.code = endCode → entry.payload = []) ∧ (entry.code ≠ endCode → entry.payload.length ≤ 255) := by
  by_cases hcode : entry.code = endCode <;> simp [Fits, isEnd, hcode]

theorem wire_of_not_end {entry : Tlv} (hend : entry.isEnd = false) :
    entry.wire = entry.code :: UInt8.ofNat entry.payload.length :: entry.payload := by
  simp [wire, hend]

theorem length_wire {entry : Tlv} : entry.wire.length = entry.encodedLength := by
  rw [wire, encodedLength]
  split
  · rfl
  · simp only [List.length_cons]; omega

theorem encodeOne_eq_ok_iff {entry : Tlv} {bytes : Bytes} :
    encodeOne entry = .ok bytes ↔ entry.Fits ∧ bytes = entry.wire := by
  rw [encodeOne]
  split
  · next hend =>
    split
    · next hempty => simp [Fits, wire, hend, List.isEmpty_iff.1 hempty, eq_comm]
    · next hempty => simp [Fits, hend, mt List.isEmpty_iff.2 hempty]
  · next hend =>
    split
    · next hlen => simp [Fits, wire, hend, hlen, eq_comm]
    · next hlen => simp [Fits, hend, hlen]

theorem encode_cons_eq_ok_iff {entry : Tlv} {entries : List Tlv} {bytes : Bytes} :
    encode (entry :: entries) = .ok bytes ↔
      ∃ front rest, encodeOne entry = .ok front ∧ encode entries = .ok rest ∧ bytes = front ++ rest := by
  rw [encode]
  cases encodeOne entry with
  | error cause => simp [bind, Except.bind]
  | ok front =>
    cases encode entries with
    | error cause => simp [bind, Except.bind]
    | ok rest => simp [bind, Except.bind, pure, Except.pure, eq_comm]

/-- **Writing succeeds exactly on entries that fit**, and gives their bytes one after the other. -/
theorem encode_eq_ok_iff {entries : List Tlv} {bytes : Bytes} :
    encode entries = .ok bytes ↔ (∀ entry ∈ entries, entry.Fits) ∧ bytes = entries.flatMap wire := by
  induction entries generalizing bytes with
  | nil => simp [encode, eq_comm]
  | cons entry entries ih =>
    rw [encode_cons_eq_ok_iff, List.forall_mem_cons, List.flatMap_cons]
    constructor
    · rintro ⟨front, rest, hfront, hrest, rfl⟩
      obtain ⟨hentry, rfl⟩ := encodeOne_eq_ok_iff.1 hfront
      obtain ⟨hentries, rfl⟩ := ih.1 hrest
      exact ⟨⟨hentry, hentries⟩, rfl⟩
    · rintro ⟨⟨hentry, hentries⟩, rfl⟩
      exact ⟨_, _, encodeOne_eq_ok_iff.2 ⟨hentry, rfl⟩, ih.2 ⟨hentries, rfl⟩, rfl⟩

/-! ## Reading -/

/-- Reading stops at a terminator, whatever follows it. -/
theorem decodeAt_terminator (offset : Nat) (rest : Bytes) :
    decodeAt offset (terminator.wire ++ rest) = .ok [terminator] := by
  rw [wire_terminator, List.singleton_append]
  cases rest with
  | nil => rw [decodeAt, if_pos rfl]
  | cons b rest => rw [decodeAt, if_pos rfl]

/-- Any other entry is read back, and the reading goes on behind it. -/
theorem decodeAt_wire (offset : Nat) {entry : Tlv} (hend : entry.isEnd = false) (hfits : entry.Fits)
    (rest : Bytes) :
    decodeAt offset (entry.wire ++ rest) =
      (decodeAt (offset + entry.wire.length) rest).map (entry :: ·) := by
  have hlen := (fits_of_not_end hend).1 hfits
  have hcount : (UInt8.ofNat entry.payload.length).toNat = entry.payload.length := by
    rw [UInt8.toNat_ofNat']; omega
  have hsplit := Bytes.split?_append rest hcount.symm
  rw [length_wire, encodedLength, if_neg (by simp [hend]), wire_of_not_end hend]
  simp only [List.cons_append]
  rw [decodeAt, if_neg (isEnd_eq_false_iff.1 hend)]
  split
  · next h => rw [hsplit] at h; cases h
  · next payload after h =>
    rw [hsplit] at h
    cases h
    rw [hcount, Nat.add_assoc]
    cases decodeAt (offset + (2 + entry.payload.length)) rest <;> rfl

/-- **Entries in front of anything are read back**, and what follows them is read as it stands, at the
offset behind them. -/
theorem decodeAt_flatMap_wire (offset : Nat) {entries : List Tlv}
    (hend : ∀ entry ∈ entries, entry.isEnd = false) (hfits : ∀ entry ∈ entries, entry.Fits) (rest : Bytes) :
    decodeAt offset (entries.flatMap wire ++ rest) =
      (decodeAt (offset + (entries.flatMap wire).length) rest).map (entries ++ ·) := by
  induction entries generalizing offset with
  | nil =>
    rw [List.flatMap_nil, List.nil_append, List.length_nil, Nat.add_zero]
    cases decodeAt offset rest <;> rfl
  | cons entry entries ih =>
    rw [List.forall_mem_cons] at hend hfits
    rw [List.flatMap_cons, List.append_assoc, decodeAt_wire offset hend.1 hfits.1, ih _ hend.2 hfits.2,
      List.length_append, Nat.add_assoc]
    cases decodeAt (offset + (entry.wire.length + (entries.flatMap wire).length)) rest <;> rfl

/-- Entries that nothing follows. -/
theorem decode_flatMap_wire {entries : List Tlv} (hend : ∀ entry ∈ entries, entry.isEnd = false)
    (hfits : ∀ entry ∈ entries, entry.Fits) : decode (entries.flatMap wire) = .ok entries := by
  have h := decodeAt_flatMap_wire 0 hend hfits []
  rw [List.append_nil] at h
  rw [decode, h, decodeAt]
  simp [Except.map]

/-- Entries that a terminator closes. -/
theorem decode_terminated {entries : List Tlv} (hend : ∀ entry ∈ entries, entry.isEnd = false)
    (hfits : ∀ entry ∈ entries, entry.Fits) (rest : Bytes) :
    decode (entries.flatMap wire ++ (terminator.wire ++ rest)) = .ok (entries ++ [terminator]) := by
  rw [decode, decodeAt_flatMap_wire 0 hend hfits, decodeAt_terminator]
  rfl

end ProxyDhcp.Tlv
