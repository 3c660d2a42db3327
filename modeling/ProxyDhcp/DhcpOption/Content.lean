/-
The content of an option as it is held. `Layout.content` reads a payload by its layout and keeps what
the layout counts: the bytes that the option writes again. A payload that the layout does not admit is
refused with the fault.
-/
import ProxyDhcp.DhcpOption.Layout
import ProxyDhcp.Text.Utf8

namespace ProxyDhcp

/-! ## Sub-options of a relay agent -/

namespace Relay

/-- How many bytes follow the length byte of a sub-option. Two sub-options have a width of their own and
their length byte does not count; two others are addresses and admit no other length. -/
def width? (code length : UInt8) : Option Nat :=
  if code = 4 then some 4
  else if code = 10 then some 1
  else if (code = 5 ∨ code = 11) ∧ length ≠ 4 then none
  else some length.toNat

/-- The sub-options in front of the first one that cannot be read. -/
def items : Bytes → List (UInt8 × Bytes)
  | code :: length :: rest =>
    match width? code length with
    | none => []
    | some width =>
      match _h : Bytes.split? width rest with
      | none => []
      | some (payload, after) => (code, payload) :: items after
  | _ => []
termination_by bytes => bytes.length
decreasing_by
  have := Bytes.length_of_split? _h
  simp only [List.length_cons]
  omega

/-- The last sub-option of each code, in the order in which they were given. Sub-options are a table without an order,
so this order is one of many that they may be written in. -/
def latest (items : List (UInt8 × Bytes)) : List (UInt8 × Bytes) :=
  items.foldl (fun kept item => kept.filter (·.1 != item.1) ++ [item]) []

def write (items : List (UInt8 × Bytes)) : Bytes :=
  items.flatMap fun (code, payload) => code :: UInt8.ofNat payload.length :: payload

end Relay

/-! ## Routes -/

/-- The routes in front of a prefix length above 32, each as written. A route that is cut short is a
fault. -/
def wholeRoutes : Bytes → Except DecodeError Bytes
  | [] => .ok []
  | bits :: rest =>
    if bits > 32 then .ok []
    else match _h : Bytes.split? ((bits.toNat + 7) / 8 + 4) rest with
      | none => .error .notEnoughBytes
      | some (route, after) => do
        let routes ← wholeRoutes after
        return bits :: route ++ routes
termination_by bytes => bytes.length
decreasing_by
  have := Bytes.length_of_split? _h
  simp only [List.length_cons]
  omega

/-! ## All layouts -/

/-- The content that a payload holds under a layout. Of a search list only root names are read, and a code without
a layout keeps its payload, also where it is in `OptionCode.undescribed`. -/
def Layout.content (layout : Layout) (payload : Bytes) : Except DecodeError Bytes :=
  match layout with
  | .pad | .close => .ok []
  | .exact width => if payload.length = width then .ok payload else .error .notEnoughBytes
  | .leading width => if width ≤ payload.length then .ok (payload.take width) else .error .notEnoughBytes
  | .records width => if payload.length % width = 0 then .ok payload else .error .notEnoughBytes
  | .pairs => .ok (payload.take (payload.length / 2 * 2))
  | .flag =>
    match payload with
    | [] => .error .notEnoughBytes
    | b :: _ => .ok [if b = 1 then 1 else 0]
  | .autoconfigure =>
    match payload with
    | [] => .error .notEnoughBytes
    | b :: _ => if b ≤ 1 then .ok [b] else .error .invalidAutoconfiguration
  | .text => (Text.Utf8.check payload).map fun _ => payload
  | .status =>
    match payload with
    | [] => .error .notEnoughBytes
    | _ :: about => (Text.Utf8.check about).map fun _ => payload
  | .relay => .ok (Relay.write (Relay.latest (Relay.items payload)))
  | .routes => wholeRoutes payload
  | .rootNames => if payload.all (· == 0) then .ok payload else .error .notEnoughBytes
  | .bytes => .ok payload

end ProxyDhcp
