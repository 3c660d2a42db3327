/-
What each option code says of its content. `Layout` lists the kinds of content, `layouts` gives the
codes of each, and every code that is not listed holds plain bytes.

The description has limits. Options 81, 88 and 114 are known options that hold names and locations
(`OptionCode.undescribed`). No layout is given for them: their payloads are kept as plain bytes, and none
is refused. Of the names that option 119 can hold only the root is described (`Layout.rootNames`); every
other one is refused. The sub-options of option 82 have no order of their own; they are held in the order in
which they were last given (`Relay.latest`). So what is said of every code is said of these five as
this description reads them.

`OptionCode` is the identity of an option. A listed code is known; an option may also be generic, held
as plain bytes under a code of its own, and then it is another option than the known one of that number.
-/
import ProxyDhcp.Bytes

namespace ProxyDhcp

inductive Layout where
  /-- One byte without a length, skipped. -/
  | pad
  /-- One byte without a length, which closes the options. -/
  | close
  | exact (width : Nat)
  /-- The first `width` bytes; what follows them does not count. -/
  | leading (width : Nat)
  /-- Any number of records of `width` bytes. -/
  | records (width : Nat)
  /-- Pairs of bytes; an odd last byte does not count. -/
  | pairs
  /-- A truth value: the first byte is 1 or it is not. -/
  | flag
  | autoconfigure
  | text
  | status
  /-- The sub-options of a relay agent, the last of each code. -/
  | relay
  /-- Routes: a prefix length, the bytes of the network it covers, and a gateway. -/
  | routes
  /-- A search list of root names, a zero byte each. Other names are not described. -/
  | rootNames
  | bytes
  deriving DecidableEq, Repr

namespace Layout

/-- The known codes by kind of content, but for those in `OptionCode.undescribed`. -/
def layouts : List (Layout × List UInt8) :=
  [(.pad, [0]), (.close, [255]),
    (.exact 4, [1, 16, 28, 32, 50, 54, 118, 150]), (.exact 0, [80]), (.exact 3, [94]),
    (.leading 1, [23, 37, 46, 52, 53, 156, 157]), (.leading 2, [13, 22, 26, 57, 93]),
    (.leading 4, [2, 24, 35, 38, 51, 58, 59, 91, 106, 152, 153, 154, 155]),
    (.records 4, [3, 4, 5, 6, 7, 8, 9, 10, 11, 41, 42, 44, 45, 48, 49, 65, 68, 69, 70, 71, 72, 73, 74, 75, 76,
      89, 92]),
    (.records 8, [21, 33]), (.pairs, [25]),
    (.flag, [19, 20, 27, 29, 30, 31, 34, 36, 39]), (.autoconfigure, [116]),
    (.text, [12, 14, 15, 17, 18, 40, 47, 56, 62, 64]), (.status, [151]), (.relay, [82]),
    (.routes, [121]), (.rootNames, [119]), (.bytes, [43, 55, 60, 61, 63, 66, 67, 77, 97])]

def ofCode? (code : UInt8) : Option Layout :=
  (layouts.find? (·.2.contains code)).map (·.1)

/-- How many bytes of content a segment holds at most: whole records, and no more than a length byte
counts. -/
def segmentLimit : Layout → Nat
  | .records width => 255 / width * width
  | .pairs => 254
  | _ => 255

end Layout

inductive OptionCode where
  /-- A code whose content has a layout. -/
  | known (code : UInt8)
  /-- A code whose content is plain bytes, whatever the layout of a known option of that number. -/
  | generic (code : UInt8)
  deriving DecidableEq, Repr

namespace OptionCode

/-- Codes of known options that hold names and locations. No layout is given for them. -/
def undescribed : List UInt8 := [81, 88, 114]

/-- The identity that a number stands for on the wire. -/
def ofByte (code : UInt8) : OptionCode :=
  if (Layout.ofCode? code).isSome then .known code else .generic code

def byte : OptionCode → UInt8
  | .known code | .generic code => code

def layout : OptionCode → Layout
  | .known code => (Layout.ofCode? code).getD .bytes
  | .generic _ => .bytes

/-- The place of an option among others: by number, a known option before a generic one. -/
def rank : OptionCode → Nat
  | .known code => 2 * code.toNat
  | .generic code => 2 * code.toNat + 1

@[simp] theorem byte_ofByte (code : UInt8) : (ofByte code).byte = code := by
  rw [ofByte]
  split <;> rfl

theorem ofByte_injective {c d : UInt8} (h : ofByte c = ofByte d) : c = d := by
  simpa using congrArg byte h

theorem rank_injective {c d : OptionCode} (h : c.rank = d.rank) : c = d := by
  cases c with
  | known a =>
    cases d with
    | known b => simp only [rank] at h; rw [UInt8.toNat_inj.1 (show a.toNat = b.toNat by omega)]
    | generic b => simp only [rank] at h; omega
  | generic a =>
    cases d with
    | known b => simp only [rank] at h; omega
    | generic b => simp only [rank] at h; rw [UInt8.toNat_inj.1 (show a.toNat = b.toNat by omega)]

end OptionCode

end ProxyDhcp
