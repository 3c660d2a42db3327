/-
UTF-8: which byte strings are text. The first byte of a character fixes how many follow and the range
of the second; every later byte is a continuation byte. `check` reports the index at which a byte
string stops being text, and whether it ends inside a character there or how many bytes of one it has.
A text can be cut in two between characters alone (`cut?`).
-/
import ProxyDhcp.Bytes
import ProxyDhcp.Error

namespace ProxyDhcp.Text.Utf8

def isContinuation (b : UInt8) : Bool := 0x80 ≤ b && b ≤ 0xBF

/-- For the first byte of a character: how many bytes follow it, and the least and greatest second byte. -/
def lead (b : UInt8) : Option (Nat × UInt8 × UInt8) :=
  if b ≤ 0x7F then some (0, 0, 0)
  else if 0xC2 ≤ b && b ≤ 0xDF then some (1, 0x80, 0xBF)
  else if b == 0xE0 then some (2, 0xA0, 0xBF)
  else if b == 0xED then some (2, 0x80, 0x9F)
  else if 0xE1 ≤ b && b ≤ 0xEF then some (2, 0x80, 0xBF)
  else if b == 0xF0 then some (3, 0x90, 0xBF)
  else if 0xF1 ≤ b && b ≤ 0xF3 then some (3, 0x80, 0xBF)
  else if b == 0xF4 then some (3, 0x80, 0x8F)
  else none

/-- The state between two bytes of a text. -/
inductive State where
  | start
  /-- Inside a character of which `read` bytes are read and `owed + 1` follow, the next of them between
  `low` and `high`. -/
  | inside (read owed : Nat) (low high : UInt8)

/-- The fault of the text that begins at `index` with the given state, if it has one. `index` is where
the character under way begins, or where the next one does. -/
def checkFrom : State → Nat → Bytes → Except DecodeError Unit
  | .start, _, [] => .ok ()
  | .inside .., index, [] => .error (.incompleteText index)
  | .start, index, b :: rest =>
    match lead b with
    | none => .error (.invalidText index 1)
    | some (0, _, _) => checkFrom .start (index + 1) rest
    | some (owed + 1, low, high) => checkFrom (.inside 1 owed low high) index rest
  | .inside read owed low high, index, b :: rest =>
    if low ≤ b && b ≤ high then
      match owed with
      | 0 => checkFrom .start (index + read + 1) rest
      | owed + 1 => checkFrom (.inside (read + 1) owed 0x80 0xBF) index rest
    else .error (.invalidText index read)

def check (bytes : Bytes) : Except DecodeError Unit := checkFrom .start 0 bytes

/-- Whether a text may be cut at `index`: at its ends, and in front of the first byte of a character. -/
def isBoundary (text : Bytes) (index : Nat) : Bool :=
  index == 0 || index == text.length || text[index]?.any fun b => !isContinuation b

/-- The two parts of a text that is cut at `index`. A text cannot be cut inside of a character, nor behind its
end. -/
def cut? (index : Nat) (text : Bytes) : Option (Bytes × Bytes) :=
  if isBoundary text index then some (text.splitAt index) else none

end ProxyDhcp.Text.Utf8
