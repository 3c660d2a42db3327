/-
All that is left of reading a class identifier as a text, step by step (`ClassIdentifier.read`), is the shape of the
identifier. Only digits pass, and no digit is a colon or a part of a longer character, so the label in the middle can
stand in one place alone, and the cut is between characters (`ClassIdentifier.fields?_eq_some_iff`,
`ClassIdentifier.cut?_of_digits`). Of the numbers only the architecture can be too large. So the steps read what
`ClassIdentifier.parse?` reads in fixed places (`ClassIdentifier.read_eq`), and that is what `ClassIdentifier.format`
writes (`ClassIdentifier.parse?_eq_some_iff`).
-/
import Mathlib.Data.List.Pairwise
import Mathlib.Data.Option.Basic
import ProxyDhcp.ClassIdentifier.Read

namespace ProxyDhcp

/-! ## Texts -/

namespace Text

namespace Utf8

theorem check_of_ascii {text : Bytes} (h : ∀ b ∈ text, b ≤ 0x7F) : check text = .ok () := by
  have hfrom : ∀ index, checkFrom .start index text = .ok () := by
    induction text with
    | nil => exact fun _ => rfl
    | cons b text ih =>
      intro index
      rw [List.forall_mem_cons] at h
      rw [checkFrom, lead, if_pos h.1]
      exact ih h.2 (index + 1)
  exact hfrom 0

end Utf8

theorem word?_eq_some_iff {text : Bytes} {w : UInt16} :
    word? text = some w ↔
      unsigned text ≠ [] ∧ ∃ n, value? ((unsigned text).map UInt8.toNat) = some n ∧ n ≤ 65535 ∧ UInt16.ofNat n = w := by
  simp [word?, Option.bind_eq_some_iff, Option.guard_eq_some']

theorem mem_padded {width n c : Nat} (h : c ∈ padded width n) : 0x30 ≤ c ∧ c ≤ 0x39 := by
  induction width generalizing n with
  | zero => cases h
  | succ width ih =>
    rcases List.mem_append.1 h with h | h
    · exact ih h
    · rw [List.mem_singleton] at h
      omega

end Text

namespace ClassIdentifier

/-! ## Digits -/

theorem isDigit_iff {b : UInt8} : isDigit b = true ↔ 0x30 ≤ b.toNat ∧ b.toNat ≤ 0x39 := by
  simp [isDigit, UInt8.le_iff_toNat_le]

@[simp] theorem length_digits (width n : Nat) : (digits width n).length = width := by
  rw [digits, List.length_map, Text.length_padded]

theorem isDigit_of_mem_digits {width n : Nat} {b : UInt8} (h : b ∈ digits width n) : isDigit b = true := by
  obtain ⟨c, hc, rfl⟩ := List.mem_map.1 h
  have hdigit := Text.mem_padded hc
  rw [isDigit_iff, UInt8.toNat_ofNat']
  omega

/-- **Digits spell a number**, if there are enough of them for it. -/
theorem number?_eq_some_iff {bytes : Bytes} {n : Nat} :
    number? bytes = some n ↔ n < Text.limit bytes.length ∧ bytes = digits bytes.length n := by
  constructor
  · intro h
    have hlt := Text.lt_of_value? h
    have hpadded := Text.padded_of_value? h
    rw [List.length_map] at hlt hpadded
    refine ⟨hlt, ?_⟩
    rw [digits, ← hpadded, List.map_map]
    have hback : UInt8.ofNat ∘ UInt8.toNat = id := funext fun b => UInt8.ofNat_toNat
    rw [hback, List.map_id]
  · intro ⟨hlt, hbytes⟩
    have hback : (digits bytes.length n).map UInt8.toNat = Text.padded bytes.length n := by
      rw [digits, List.map_map]
      conv => rhs; rw [← List.map_id (Text.padded bytes.length n)]
      refine List.map_congr_left fun c hc => ?_
      have hdigit := Text.mem_padded hc
      show (UInt8.ofNat c).toNat = c
      rw [UInt8.toNat_ofNat']
      omega
    rw [number?, hbytes, hback]
    exact Text.value?_padded hlt

theorem unsigned_of_digits {text : Bytes} (hdigits : text.all isDigit = true) : Text.unsigned text = text := by
  unfold Text.unsigned
  split
  · simp [isDigit] at hdigits
  · rfl

/-- A text of digits has no sign, so its number is that of the digits, if sixteen bits hold it. -/
theorem word?_of_digits {text : Bytes} (hdigits : text.all isDigit = true) {width : Nat}
    (hwidth : text.length = width) (hpos : 0 < width) {w : UInt16} :
    Text.word? text = some w ↔ w.toNat < Text.limit width ∧ text = digits width w.toNat := by
  have hne : text ≠ [] := List.ne_nil_of_length_pos (hwidth ▸ hpos)
  rw [← hwidth, ← number?_eq_some_iff, Text.word?_eq_some_iff, unsigned_of_digits hdigits, ← number?]
  have hlt := w.toNat_lt
  constructor
  · rintro ⟨-, n, hn, hsmall, rfl⟩
    rw [UInt16.toNat_ofNat', Nat.mod_eq_of_lt (by omega)]
    exact hn
  · intro h
    exact ⟨hne, w.toNat, h, by omega, UInt16.ofNat_toNat⟩

theorem all_digits (width n : Nat) : (digits width n).all isDigit = true :=
  List.all_eq_true.2 fun _ h => isDigit_of_mem_digits h

/-- The digits of a number are read back as the number. -/
theorem word?_digits {width : Nat} (hpos : 0 < width) {w : UInt16} (h : w.toNat < Text.limit width) :
    Text.word? (digits width w.toNat) = some w :=
  (word?_of_digits (all_digits width w.toNat) (length_digits width w.toNat) hpos).2 ⟨h, rfl⟩

/-! ## Fields -/

theorem le_of_isDigit {b : UInt8} (h : isDigit b = true) : b ≤ 0x39 := by
  rw [UInt8.le_iff_toNat_le]
  exact (isDigit_iff.1 h).2

/-- The label in the middle begins with a colon, and there is none among digits. -/
theorem dropInfix?_undiLabel {arch : Bytes} (hdigits : arch.all isDigit = true) (undi : Bytes) :
    (arch ++ undiLabel ++ undi).dropInfix? undiLabel = some (arch, undi) := by
  rw [List.dropInfix?_eq_some_iff]
  refine ⟨⟨undiLabel, rfl, beq_self_eq_true _⟩, fun front mark back heq hmark => ?_⟩
  obtain rfl := eq_of_beq hmark
  refine Nat.le_of_not_lt fun hlt => ?_
  have hcolon : (front ++ undiLabel ++ back)[front.length]? = some 0x3A := by
    rw [List.append_assoc, List.getElem?_append_right (Nat.le_refl _), Nat.sub_self]
    rfl
  rw [← heq, List.append_assoc, List.getElem?_append_left hlt] at hcolon
  have hdigit := List.all_eq_true.1 hdigits _ (List.mem_of_getElem? hcolon)
  exact absurd hdigit (by decide)

/-- **The fields of an identifier.** What is around them is the two labels, and nothing else. -/
theorem fields?_eq_some_iff {id arch undi : Bytes} :
    fields? id = some (arch, undi) ↔
      id = archLabel ++ (arch ++ undiLabel ++ undi) ∧ arch.length = 5 ∧ undi.length = 6 ∧
        arch.all isDigit = true ∧ undi.all isDigit = true := by
  simp only [fields?, Option.bind_eq_bind, Option.bind_eq_some_iff, Option.guard_eq_some', Option.pure_def]
  constructor
  · rintro ⟨-, -, -, -, rest, hrest, ⟨arch', undi'⟩, hfields, -, hshape, heq⟩
    cases heq
    obtain ⟨label, rfl, hlabel⟩ := List.dropPrefix?_eq_some_iff.1 hrest
    obtain ⟨⟨mark, rfl, hmark⟩, -⟩ := List.dropInfix?_eq_some_iff.1 hfields
    rw [eq_of_beq hlabel, eq_of_beq hmark]
    exact ⟨rfl, hshape⟩
  · rintro ⟨rfl, harch, hundi, hdigits, hmore⟩
    have hascii : ∀ b ∈ archLabel ++ (arch ++ undiLabel ++ undi), b ≤ 0x7F := by
      have hlabel : ∀ b ∈ archLabel, b ≤ 0x7F := by decide +kernel
      have hmark : ∀ b ∈ undiLabel, b ≤ 0x7F := by decide +kernel
      have hdigit : ∀ {text : Bytes}, text.all isDigit = true → ∀ b ∈ text, b ≤ 0x7F := fun htext b hb =>
        UInt8.le_trans (le_of_isDigit (List.all_eq_true.1 htext b hb)) (by decide)
      exact List.forall_mem_append.2 ⟨hlabel, List.forall_mem_append.2
        ⟨List.forall_mem_append.2 ⟨hdigit hdigits, hmark⟩, hdigit hmore⟩⟩
    have hlength : (archLabel ++ (arch ++ undiLabel ++ undi)).length = length := by
      have hlabel : archLabel.length = 15 := by decide
      have hmark : undiLabel.length = 6 := by decide
      simp only [List.length_append, harch, hundi, hlabel, hmark, length]
    refine ⟨(), hlength, (), ?_, _, List.dropPrefix?_append_of_beq _ (beq_self_eq_true _), (arch, undi),
      dropInfix?_undiLabel hdigits undi, (), ⟨harch, hundi, hdigits, hmore⟩, rfl⟩
    rw [Text.Utf8.check_of_ascii hascii]
    rfl

/-- A text of digits may be cut anywhere. -/
theorem cut?_of_digits {text : Bytes} (hdigits : text.all isDigit = true) {index : Nat}
    (hindex : index ≤ text.length) : Text.Utf8.cut? index text = some (text.take index, text.drop index) := by
  have hboundary : Text.Utf8.isBoundary text index = true := by
    rw [Text.Utf8.isBoundary, Bool.or_eq_true]
    rcases Nat.eq_or_lt_of_le hindex with rfl | hlt
    · simp
    · -- A digit is the first byte of a character.
      have hle := le_of_isDigit (List.all_eq_true.1 hdigits _ (List.getElem_mem hlt))
      rw [UInt8.le_iff_toNat_le] at hle
      have hfirst : ¬ 0x80 ≤ text[index].toNat := fun h => absurd (Nat.le_trans h hle) (by decide)
      simp [hlt, Text.Utf8.isContinuation, UInt8.le_iff_toNat_le, hfirst]
  rw [Text.Utf8.cut?, if_pos hboundary, List.splitAt_eq]

/-! ## Numbers -/

theorem read_of_fields {id arch undi : Bytes} (h : fields? id = some (arch, undi)) :
    read id =
      match Text.word? arch, Text.word? (undi.take 3), Text.word? (undi.drop 3) with
      | some arch, some major, some minor => .numbers arch major minor
      | _, _, _ => .refused := by
  obtain ⟨-, -, hundi, -, hmore⟩ := fields?_eq_some_iff.1 h
  have hcut : Text.Utf8.cut? 3 undi = some (undi.take 3, undi.drop 3) := cut?_of_digits hmore (by omega)
  simp only [read, h, hcut]
  cases Text.word? arch with
  | none => rfl
  | some arch => cases Text.word? (undi.take 3) <;> cases Text.word? (undi.drop 3) <;> rfl

/-- **No identifier makes the reading cut inside of a character.** -/
theorem read_ne_crashed (id : Bytes) : read id ≠ .crashed := by
  cases hfields : fields? id with
  | none => simp [read, hfields]
  | some fields =>
    rw [read_of_fields hfields]
    split <;> simp

/-- **The identifiers that are read**, each with its numbers. -/
theorem read_eq_numbers_iff {id : Bytes} {arch major minor : UInt16} :
    read id = .numbers arch major minor ↔
      major.toNat ≤ 999 ∧ minor.toNat ≤ 999 ∧
        id = archLabel ++ digits 5 arch.toNat ++ undiLabel ++ digits 3 major.toNat ++ digits 3 minor.toNat := by
  constructor
  · intro h
    cases hfields : fields? id with
    | none => simp [read, hfields] at h
    | some fields =>
      obtain ⟨archText, undi⟩ := fields
      rw [read_of_fields hfields] at h
      obtain ⟨rfl, harch, hundi, hdigits, hmore⟩ := fields?_eq_some_iff.1 hfields
      rw [← List.take_append_drop 3 undi, List.all_append, Bool.and_eq_true] at hmore
      have htake : (undi.take 3).length = 3 := by rw [List.length_take]; omega
      have hdrop : (undi.drop 3).length = 3 := by rw [List.length_drop]; omega
      split at h
      · next a b c ha hb hc =>
        cases h
        obtain ⟨-, rfl⟩ := (word?_of_digits hdigits harch (by decide)).1 ha
        obtain ⟨hmajor, hmajorText⟩ := (word?_of_digits hmore.1 htake (by decide)).1 hb
        obtain ⟨hminor, hminorText⟩ := (word?_of_digits hmore.2 hdrop (by decide)).1 hc
        refine ⟨Nat.le_of_lt_succ hmajor, Nat.le_of_lt_succ hminor, ?_⟩
        rw [← hmajorText, ← hminorText]
        simp only [List.append_assoc, List.take_append_drop]
      · cases h
  · rintro ⟨hmajor, hminor, rfl⟩
    have hfields : fields? (archLabel ++ digits 5 arch.toNat ++ undiLabel ++ digits 3 major.toNat ++
        digits 3 minor.toNat) = some (digits 5 arch.toNat, digits 3 major.toNat ++ digits 3 minor.toNat) := by
      refine fields?_eq_some_iff.2 ⟨by simp only [List.append_assoc], length_digits .., ?_, all_digits .., ?_⟩
      · simp
      · rw [List.all_append, all_digits, all_digits]
        rfl
    have harch : Text.word? (digits 5 arch.toNat) = some arch := by
      have hlt : arch.toNat < 65536 := arch.toNat_lt
      exact word?_digits (by decide) (Nat.lt_of_lt_of_le hlt (by decide))
    have hlength := length_digits 3 major.toNat
    rw [read_of_fields hfields, harch, List.take_left' hlength, List.drop_left' hlength,
      word?_digits (by decide) (Nat.lt_succ_of_le hmajor), word?_digits (by decide) (Nat.lt_succ_of_le hminor)]

/-! ## The identifier in fixed places -/

theorem number?_digits {width n : Nat} (h : n < Text.limit width) : number? (digits width n) = some n := by
  rw [number?_eq_some_iff, length_digits]
  exact ⟨h, rfl⟩

/-- Digits of a known width that spell a number are the number's. -/
theorem eq_digits_of_number? {bytes : Bytes} {width n : Nat} (hwidth : bytes.length = width)
    (h : number? bytes = some n) : bytes = digits width n := by
  have hdigits := (number?_eq_some_iff.1 h).2
  rwa [hwidth] at hdigits

/-- **What is read in fixed places is what is written.** -/
theorem parse?_eq_some_iff {id : Bytes} {value : ClassIdentifier} :
    parse? id = some value ↔ id = value.format := by
  simp only [parse?, Option.bind_eq_bind, Option.bind_eq_some_iff]
  constructor
  · rintro ⟨⟨label, afterLabel⟩, hlabel, ⟨archText, afterArch⟩, harch, ⟨mark, afterMark⟩, hmark,
      ⟨majorText, minorText⟩, hmajor, arch, hreadArch, major, hreadMajor, minor, hreadMinor, h⟩
    split at h
    case isFalse => cases h
    case isTrue hshape =>
      split at h
      case isFalse => cases h
      case isTrue hsmall =>
        cases h
        obtain ⟨rfl, rfl, hminorWidth, harchSmall⟩ := hshape
        obtain ⟨rfl, -⟩ := Bytes.split?_eq_some_iff.1 hlabel
        obtain ⟨rfl, harchWidth⟩ := Bytes.split?_eq_some_iff.1 harch
        obtain ⟨rfl, -⟩ := Bytes.split?_eq_some_iff.1 hmark
        obtain ⟨rfl, hmajorWidth⟩ := Bytes.split?_eq_some_iff.1 hmajor
        have hword : (UInt16.ofNat arch).toNat = arch := by
          rw [UInt16.toNat_ofNat']
          omega
        have harchText : archText = digits 5 arch := eq_digits_of_number? harchWidth hreadArch
        have hmajorText : majorText = digits 3 major := eq_digits_of_number? hmajorWidth hreadMajor
        have hminorText : minorText = digits 3 minor := eq_digits_of_number? hminorWidth hreadMinor
        rw [harchText, hmajorText, hminorText, format, hword]
        simp only [List.append_assoc]
  · rintro rfl
    have harch : value.arch.toNat < 65536 := value.arch.toNat_lt
    simp only [format, List.append_assoc]
    refine ⟨_, Bytes.split?_append _ rfl, _, Bytes.split?_append _ (length_digits ..), _, Bytes.split?_append _ rfl, _,
      Bytes.split?_append _ (length_digits ..), _, number?_digits (Nat.lt_of_lt_of_le harch (by decide)), _,
      number?_digits value.undiMajor.isLt, _, number?_digits value.undiMinor.isLt, ?_⟩
    rw [if_pos ⟨rfl, rfl, length_digits .., by omega⟩, dif_pos ⟨value.undiMajor.isLt, value.undiMinor.isLt⟩,
      UInt16.ofNat_toNat]
    rfl

/-- The reading that gives the numbers of an identifier, or refuses it where there are none. -/
def Reading.ofNumbers? : Option ClassIdentifier → Reading
  | none => .refused
  | some value => .numbers value.arch (UInt16.ofNat value.undiMajor.val) (UInt16.ofNat value.undiMinor.val)

theorem toNat_ofNat_val (n : Fin 1000) : (UInt16.ofNat n.val).toNat = n.val := by
  have := n.isLt
  rw [UInt16.toNat_ofNat']
  omega

/-- **The steps read what is in the fixed places.** -/
theorem read_eq (id : Bytes) : read id = .ofNumbers? (parse? id) := by
  cases hparse : parse? id with
  | some value =>
    rw [Reading.ofNumbers?, read_eq_numbers_iff, toNat_ofNat_val, toNat_ofNat_val]
    exact ⟨Nat.le_of_lt_succ value.undiMajor.isLt, Nat.le_of_lt_succ value.undiMinor.isLt,
      parse?_eq_some_iff.1 hparse⟩
  | none =>
    cases hread : read id with
    | refused => rfl
    | crashed => exact absurd hread (read_ne_crashed id)
    | numbers arch major minor =>
      obtain ⟨hmajor, hminor, hid⟩ := read_eq_numbers_iff.1 hread
      have hsome : parse? id = some ⟨arch, ⟨major.toNat, by omega⟩, ⟨minor.toNat, by omega⟩⟩ :=
        parse?_eq_some_iff.2 hid
      rw [hparse] at hsome
      cases hsome

theorem length_format (value : ClassIdentifier) : value.format.length = length := by
  have hlabel : archLabel.length = 15 := by decide
  have hmark : undiLabel.length = 6 := by decide
  simp only [format, List.length_append, hlabel, hmark, length_digits, length]

theorem name_prefix_format (value : ClassIdentifier) : name <+: value.format := by
  have hlabel : name <+: archLabel := by decide
  simp only [format, List.append_assoc]
  exact hlabel.trans (List.prefix_append _ _)

/-- What is written with numbers is the identifier of a PXE client. -/
theorem isPxe_format (value : ClassIdentifier) : isPxe value.format = true := by
  rw [isPxe, Bool.and_eq_true, beq_iff_eq, List.isPrefixOf_iff_prefix]
  exact ⟨length_format value, name_prefix_format value⟩

/-- **The identifiers with numbers are the ones that are written with numbers.** Every other byte string is refused,
none is cut inside of a character, and writing and reading undo each other. -/
theorem parse?_exact (id : Bytes) :
    (∀ arch major minor : UInt16, read id = .numbers arch major minor ↔
      major.toNat ≤ 999 ∧ minor.toNat ≤ 999 ∧
        id = ascii "PXEClient:Arch:" ++ digits 5 arch.toNat ++ ascii ":UNDI:" ++ digits 3 major.toNat ++
          digits 3 minor.toNat) ∧
    read id ≠ .crashed ∧
    read id = .ofNumbers? (parse? id) ∧
    (∀ value, parse? id = some value → value.format = id ∧ id.length = 32 ∧ name <+: id ∧ isPxe id = true) ∧
    (∀ value, parse? value.format = some value) := by
  refine ⟨fun arch major minor => read_eq_numbers_iff, read_ne_crashed id, read_eq id, fun value h => ?_,
    fun value => parse?_eq_some_iff.2 rfl⟩
  obtain rfl := parse?_eq_some_iff.1 h
  exact ⟨rfl, length_format value, name_prefix_format value, isPxe_format value⟩

/-- An identifier with numbers, one whose architecture is too large, one with the label in the middle twice, and one
that the cut would go through a character of. -/
theorem parse?_exact_arm64 :
    parse? (ascii "PXEClient:Arch:00011:UNDI:003016") = some ⟨11, 3, 16⟩ ∧
    read (ascii "PXEClient:Arch:00011:UNDI:003016") = .numbers 11 3 16 ∧
    read (ascii "PXEClient:Arch:65536:UNDI:003016") = .refused ∧
    read (ascii "PXEClient:Arch:00011:UNDI::UNDI:") = .refused ∧
    Text.Utf8.cut? 3 (ascii "00" ++ [0xC3, 0xA9] ++ ascii "16") = none ∧
    read (ascii "PXEClient:Arch:00011:UNDI:00" ++ [0xC3, 0xA9] ++ ascii "16") = .refused := by
  have hformat : format ⟨11, 3, 16⟩ = ascii "PXEClient:Arch:00011:UNDI:003016" := by decide
  obtain ⟨hnumbers, -, -, -, hwritten⟩ := parse?_exact (ascii "PXEClient:Arch:00011:UNDI:003016")
  obtain ⟨-, -, hlarge, -⟩ := parse?_exact (ascii "PXEClient:Arch:65536:UNDI:003016")
  obtain ⟨-, -, htwice, -⟩ := parse?_exact (ascii "PXEClient:Arch:00011:UNDI::UNDI:")
  obtain ⟨-, -, hcut, -⟩ := parse?_exact (ascii "PXEClient:Arch:00011:UNDI:00" ++ [0xC3, 0xA9] ++ ascii "16")
  refine ⟨hformat ▸ hwritten _, (hnumbers 11 3 16).2 ⟨by decide, by decide, by decide⟩, hlarge.trans ?_,
    htwice.trans ?_, by decide, hcut.trans ?_⟩ <;> decide

end ClassIdentifier

end ProxyDhcp
