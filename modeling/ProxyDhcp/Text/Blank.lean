/-
White space in the sense of the Unicode property, and trimming by it.
-/
namespace ProxyDhcp.Text

/-- The code points of the Unicode property White_Space. -/
def isBlank (c : Char) : Bool :=
  let n := c.toNat
  decide (0x09 ≤ n ∧ n ≤ 0x0D) || n == 0x20 || n == 0x85 || n == 0xA0 || n == 0x1680 ||
    decide (0x2000 ≤ n ∧ n ≤ 0x200A) || n == 0x2028 || n == 0x2029 || n == 0x202F || n == 0x205F || n == 0x3000

def trimBlanks (chars : List Char) : List Char :=
  ((chars.dropWhile isBlank).reverse.dropWhile isBlank).reverse

def trim (text : String) : String :=
  String.ofList (trimBlanks text.toList)

theorem dropWhile_isBlank_eq_nil_iff {chars : List Char} :
    chars.dropWhile isBlank = [] ↔ ∀ c ∈ chars, isBlank c = true := by
  induction chars with
  | nil => simp
  | cons c chars ih => by_cases hc : isBlank c = true <;> simp [hc, ih]

/-- What trims to nothing is blank throughout. -/
theorem trimBlanks_eq_nil_iff {chars : List Char} : trimBlanks chars = [] ↔ ∀ c ∈ chars, isBlank c = true := by
  rw [trimBlanks, List.reverse_eq_nil_iff, dropWhile_isBlank_eq_nil_iff]
  simp only [List.mem_reverse]
  constructor
  · intro h
    refine dropWhile_isBlank_eq_nil_iff.1 ?_
    cases hd : chars.dropWhile isBlank with
    | nil => rfl
    | cons c rest =>
      have hc : isBlank c = false := by
        have := List.head?_dropWhile_not isBlank chars
        simpa [hd] using this
      exact absurd (h c (by simp [hd])) (by simp [hc])
  · intro h c hc
    exact h c ((List.dropWhile_sublist isBlank).subset hc)

end ProxyDhcp.Text
