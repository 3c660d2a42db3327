/-
Decimal digits, as code points. `value?_padded` and `padded_of_value?`: strings of a given number of
digits and the numbers below `limit` of it stand for each other, one to one. `word?` is the number of
sixteen bits that a text of bytes spells.
-/
import ProxyDhcp.Bytes

namespace ProxyDhcp.Text

/-- The number that `digits` continue when `number` stands in front of them. -/
def valueFrom (number : Nat) : List Nat → Option Nat
  | [] => some number
  | c :: digits => if 0x30 ≤ c ∧ c ≤ 0x39 then valueFrom (10 * number + (c - 0x30)) digits else none

/-- The number that decimal digits spell; nothing else is read. No digits spell zero. -/
def value? (digits : List Nat) : Option Nat := valueFrom 0 digits

/-- The digits of a number, without the plus sign that may stand in front of them. -/
def unsigned : Bytes → Bytes
  | 0x2B :: digits => digits
  | digits => digits

/-- The number that the digits of a text spell, if sixteen bits hold it. -/
def word? (text : Bytes) : Option UInt16 := do
  guard (unsigned text ≠ [])
  let n ← value? ((unsigned text).map UInt8.toNat)
  guard (n ≤ 65535)
  return UInt16.ofNat n

/-- The last `width` decimal digits of a number, with zeros in front of a shorter one. -/
def padded : Nat → Nat → List Nat
  | 0, _ => []
  | width + 1, n => padded width (n / 10) ++ [0x30 + n % 10]

/-- How many numbers `width` digits can spell. -/
def limit : Nat → Nat
  | 0 => 1
  | width + 1 => 10 * limit width

theorem limit_pos (width : Nat) : 0 < limit width := by
  induction width with
  | zero => decide
  | succ width ih => rw [limit]; omega

@[simp] theorem length_padded (width n : Nat) : (padded width n).length = width := by
  induction width generalizing n with
  | zero => rfl
  | succ width ih => simp [padded, ih]

theorem valueFrom_append (number : Nat) (front rest : List Nat) :
    valueFrom number (front ++ rest) = (valueFrom number front).bind (valueFrom · rest) := by
  induction front generalizing number with
  | nil => rfl
  | cons c front ih =>
    simp only [List.cons_append, valueFrom]
    split
    · exact ih _
    · rfl

theorem valueFrom_padded (number width n : Nat) :
    valueFrom number (padded width n) = some (number * limit width + n % limit width) := by
  induction width generalizing n with
  | zero => simp [padded, valueFrom, limit, Nat.mod_one]
  | succ width ih =>
    have hdigit : 0x30 ≤ 0x30 + n % 10 ∧ 0x30 + n % 10 ≤ 0x39 := by omega
    rw [padded, valueFrom_append, ih, Option.bind_some, valueFrom, if_pos hdigit, valueFrom, limit,
      Nat.mod_mul, Nat.mul_left_comm number 10]
    congr 1
    omega

/-- A number that the digits can spell is read back from them. -/
theorem value?_padded {width n : Nat} (h : n < limit width) : value? (padded width n) = some n := by
  rw [value?, valueFrom_padded, Nat.mod_eq_of_lt h, Nat.zero_mul, Nat.zero_add]

theorem valueFrom_eq_some {number n : Nat} {digits : List Nat} (h : valueFrom number digits = some n) :
    n / limit digits.length = number ∧ digits = padded digits.length n := by
  induction hl : digits.length generalizing digits n with
  | zero =>
    rw [List.length_eq_zero_iff] at hl
    subst hl
    simp only [valueFrom, Option.some.injEq] at h
    subst h
    simp [padded, limit]
  | succ width ih =>
    obtain ⟨front, c, rfl⟩ : ∃ front c, digits = front ++ [c] := by
      refine ⟨digits.dropLast, digits.getLast ?_, (List.dropLast_concat_getLast _).symm⟩
      rintro rfl
      simp at hl
    rw [valueFrom_append] at h
    obtain ⟨m, hm, hc⟩ := Option.bind_eq_some_iff.1 h
    simp only [valueFrom] at hc
    split at hc
    · next hdigit =>
      simp only [Option.some.injEq] at hc
      subst hc
      simp only [List.length_append, List.length_singleton, Nat.add_right_cancel_iff] at hl
      obtain ⟨hnumber, hfront⟩ := ih hm hl
      have hquot : (10 * m + (c - 0x30)) / 10 = m := by omega
      have hrem : (10 * m + (c - 0x30)) % 10 = c - 0x30 := by omega
      refine ⟨?_, ?_⟩
      · rw [limit, ← Nat.div_div_eq_div_mul, hquot, hnumber]
      · rw [padded, hquot, hrem, ← hfront]
        congr 2
        omega
    · cases hc

/-- A string of digits is the padded form of the number it spells. -/
theorem padded_of_value? {digits : List Nat} {n : Nat} (h : value? digits = some n) :
    digits = padded digits.length n :=
  (valueFrom_eq_some h).2

/-- A string of digits spells a number below the limit of its length. -/
theorem lt_of_value? {digits : List Nat} {n : Nat} (h : value? digits = some n) :
    n < limit digits.length :=
  (Nat.div_eq_zero_iff_lt (limit_pos _)).1 (valueFrom_eq_some h).1

end ProxyDhcp.Text
