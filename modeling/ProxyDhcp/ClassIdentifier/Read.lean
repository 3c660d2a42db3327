/-
A class identifier read as a text, one step after the other: its length, its encoding, the label in front, the
first place of the label in the middle, digits on both sides of that, a number of sixteen bits, and a cut behind
the third byte, which a text admits only between two characters. `ClassIdentifier.parse?` reads the same in fixed
places.
-/
import Mathlib.Data.List.Defs
import ProxyDhcp.ClassIdentifier
import ProxyDhcp.Text.Utf8

namespace ProxyDhcp.ClassIdentifier

def isDigit (b : UInt8) : Bool := 0x30 ≤ b && b ≤ 0x39

/-- The texts of the two fields between and behind the labels, when there is nothing but digits in them. -/
def fields? (id : Bytes) : Option (Bytes × Bytes) := do
  guard (id.length = length)
  let _ ← (Text.Utf8.check id).toOption
  let rest ← id.dropPrefix? archLabel
  let (arch, undi) ← rest.dropInfix? undiLabel
  guard (arch.length = 5 ∧ undi.length = 6 ∧ arch.all isDigit ∧ undi.all isDigit)
  return (arch, undi)

/-- What becomes of the reading of an identifier. -/
inductive Reading where
  | refused
  | numbers (arch undiMajor undiMinor : UInt16)
  /-- The text was to be cut inside of a character. -/
  | crashed
  deriving DecidableEq, Repr

/-- Reads an identifier as a text, field by field. -/
def read (id : Bytes) : Reading :=
  match fields? id with
  | none => .refused
  | some (arch, undi) =>
    match Text.word? arch with
    | none => .refused
    | some arch =>
      match Text.Utf8.cut? 3 undi with
      | none => .crashed
      | some (major, minor) =>
        match Text.word? major, Text.word? minor with
        | some major, some minor => .numbers arch major minor
        | _, _ => .refused

end ProxyDhcp.ClassIdentifier
