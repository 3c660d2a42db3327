/-
Bytes as the wire carries them. Three things are built from them here: a split that is refused when
the bytes run out (`Bytes.split?`), big-endian words, and fields of a fixed width.

Each reader returns what it read and the bytes after it. The lemma of each says that it reads back
what was written and leaves the following bytes alone; `split?_eq_some_iff` says that a split loses
nothing and invents nothing.
-/
namespace ProxyDhcp

/-- A run of bytes. Lists, because proofs can take them apart. -/
abbrev Bytes := List UInt8

namespace Bytes

/-! ## Splitting -/

/-- The first `n` bytes and the bytes after them, when there are that many. -/
def split? (n : Nat) (bytes : Bytes) : Option (Bytes × Bytes) :=
  let halves := bytes.splitAt n
  if halves.1.length = n then some halves else none

theorem split?_eq_some_iff {n : Nat} {bytes front rest : Bytes} :
    split? n bytes = some (front, rest) ↔ bytes = front ++ rest ∧ front.length = n := by
  simp only [split?, List.splitAt_eq]
  constructor
  · intro h
    split at h
    · next hlen =>
      simp only [Option.some.injEq, Prod.mk.injEq] at h
      obtain ⟨rfl, rfl⟩ := h
      exact ⟨(List.take_append_drop n bytes).symm, hlen⟩
    · cases h
  · rintro ⟨rfl, rfl⟩
    simp

theorem split?_eq_none_iff {n : Nat} {bytes : Bytes} : split? n bytes = none ↔ bytes.length < n := by
  simp only [split?, List.splitAt_eq, List.length_take]
  split
  · simp only [reduceCtorEq, false_iff]; omega
  · simp only [true_iff]; omega

/-- Splitting at the length of the front gives the two parts back. The width is a hypothesis, so that
a caller whose width is a literal need not restate it. -/
theorem split?_append {n : Nat} {front : Bytes} (rest : Bytes) (width : front.length = n) :
    split? n (front ++ rest) = some (front, rest) :=
  split?_eq_some_iff.2 ⟨rfl, width⟩

theorem length_of_split? {n : Nat} {bytes front rest : Bytes} (h : split? n bytes = some (front, rest)) :
    bytes.length = n + rest.length := by
  obtain ⟨rfl, hlen⟩ := split?_eq_some_iff.1 h
  simp [hlen]

def byte? : Bytes → Option (UInt8 × Bytes)
  | [] => none
  | b :: rest => some (b, rest)

@[simp] theorem byte?_cons (b : UInt8) (rest : Bytes) : byte? (b :: rest) = some (b, rest) := rfl

/-! ## Chunks -/

/-- The bytes cut into consecutive pieces of `limit` bytes, the last one shorter or equal. A piece
holds at least one byte, so no bytes have no piece. -/
def chunks (limit : Nat) : Bytes → List Bytes
  | [] => []
  | b :: rest => (b :: rest.take (limit - 1)) :: chunks limit (rest.drop (limit - 1))
termination_by bytes => bytes.length
decreasing_by simp only [List.length_cons, List.length_drop]; omega

@[simp] theorem chunks_nil (limit : Nat) : chunks limit [] = [] := by
  rw [chunks]

theorem chunks_cons (limit : Nat) (b : UInt8) (rest : Bytes) :
    chunks limit (b :: rest) = (b :: rest.take (limit - 1)) :: chunks limit (rest.drop (limit - 1)) := by
  rw [chunks]

/-- Cutting loses nothing. -/
theorem flatten_chunks (limit : Nat) (bytes : Bytes) : (chunks limit bytes).flatten = bytes := by
  fun_induction chunks limit bytes with
  | case1 => rfl
  | case2 b rest ih => simp [ih]

theorem length_le_of_mem_chunks {limit : Nat} (hlimit : 0 < limit) {bytes piece : Bytes}
    (h : piece ∈ chunks limit bytes) : piece.length ≤ limit := by
  fun_induction chunks limit bytes with
  | case1 => cases h
  | case2 b rest ih =>
    rcases List.mem_cons.1 h with rfl | h
    · simp only [List.length_cons, List.length_take]; omega
    · exact ih h

theorem ne_nil_of_mem_chunks {limit : Nat} {bytes piece : Bytes} (h : piece ∈ chunks limit bytes) :
    piece ≠ [] := by
  fun_induction chunks limit bytes with
  | case1 => cases h
  | case2 b rest ih =>
    rcases List.mem_cons.1 h with rfl | h
    · exact List.cons_ne_nil _ _
    · exact ih h

/-- Every piece but the last is full. -/
theorem length_of_mem_dropLast_chunks {limit : Nat} (hlimit : 0 < limit) {bytes piece : Bytes}
    (h : piece ∈ (chunks limit bytes).dropLast) : piece.length = limit := by
  fun_induction chunks limit bytes with
  | case1 => cases h
  | case2 b rest ih =>
    cases hmore : rest.drop (limit - 1) with
    | nil =>
      rw [hmore, chunks_nil] at h
      cases h
    | cons c more =>
      have hlong : limit - 1 < rest.length := by
        have := congrArg List.length hmore
        simp only [List.length_drop, List.length_cons] at this
        omega
      rw [hmore] at h ih
      rw [List.dropLast_cons_of_ne_nil (by simp [chunks_cons])] at h
      rcases List.mem_cons.1 h with rfl | h
      · simp only [List.length_cons, List.length_take]; omega
      · exact ih h

/-! ## Words -/

/-- Two bytes, the high one first. -/
def ofWord16 (w : UInt16) : Bytes :=
  [UInt8.ofNat (w.toNat / 256), UInt8.ofNat w.toNat]

/-- Four bytes, the highest first. -/
def ofWord32 (w : UInt32) : Bytes :=
  [UInt8.ofNat (w.toNat / 16777216), UInt8.ofNat (w.toNat / 65536), UInt8.ofNat (w.toNat / 256),
    UInt8.ofNat w.toNat]

def word16? : Bytes → Option (UInt16 × Bytes)
  | a :: b :: rest => some (UInt16.ofNat (a.toNat * 256 + b.toNat), rest)
  | _ => none

def word32? : Bytes → Option (UInt32 × Bytes)
  | a :: b :: c :: d :: rest =>
    some (UInt32.ofNat (a.toNat * 16777216 + b.toNat * 65536 + c.toNat * 256 + d.toNat), rest)
  | _ => none

@[simp] theorem length_ofWord16 (w : UInt16) : (ofWord16 w).length = 2 := rfl

@[simp] theorem length_ofWord32 (w : UInt32) : (ofWord32 w).length = 4 := rfl

@[simp] theorem word16?_ofWord16 (w : UInt16) (rest : Bytes) : word16? (ofWord16 w ++ rest) = some (w, rest) := by
  have hw := w.toNat_lt
  simp only [ofWord16, List.cons_append, List.nil_append, word16?, Option.some.injEq, Prod.mk.injEq, and_true]
  apply UInt16.toNat_inj.1
  simp only [UInt16.toNat_ofNat', UInt8.toNat_ofNat']
  omega

@[simp] theorem word32?_ofWord32 (w : UInt32) (rest : Bytes) : word32? (ofWord32 w ++ rest) = some (w, rest) := by
  have hw := w.toNat_lt
  simp only [ofWord32, List.cons_append, List.nil_append, word32?, Option.some.injEq, Prod.mk.injEq, and_true]
  apply UInt32.toNat_inj.1
  simp only [UInt32.toNat_ofNat', UInt8.toNat_ofNat']
  omega

/-! ## Fields of a fixed width -/

structure Field (width : Nat) where
  bytes : Bytes
  length_eq : bytes.length = width
  deriving DecidableEq

namespace Field

attribute [simp] Field.length_eq

/-- As many of the bytes as fit, with zeros after them. -/
def fit (width : Nat) (bytes : Bytes) : Field width where
  bytes := (bytes ++ List.replicate width 0).take width
  length_eq := by simp

def zero (width : Nat) : Field width := fit width []

def read? (width : Nat) (bytes : Bytes) : Option (Field width × Bytes) :=
  if h : width ≤ bytes.length then some (⟨bytes.take width, by simp [h]⟩, bytes.drop width) else none

@[simp] theorem read?_append {width : Nat} (field : Field width) (rest : Bytes) :
    read? width (field.bytes ++ rest) = some (field, rest) := by
  obtain ⟨bytes, rfl⟩ := field
  simp [read?]

/-- The bytes put over the front of a field, as many as fit. What they do not reach stays. -/
def overwrite {width : Nat} (field : Field width) (bytes : Bytes) : Field width where
  bytes := (bytes ++ field.bytes.drop bytes.length).take width
  length_eq := by simp only [List.length_take, List.length_append, List.length_drop, length_eq]; omega

theorem take_overwrite {width : Nat} (field : Field width) (bytes : Bytes) :
    (field.overwrite bytes).bytes.take (min bytes.length width) = bytes.take width := by
  show ((bytes ++ field.bytes.drop bytes.length).take width).take (min bytes.length width) = bytes.take width
  rw [List.take_take, Nat.min_assoc, Nat.min_self, Nat.min_comm, ← List.take_take,
    List.take_left]

/-- A field that holds a text closed by a zero byte, cleared of what follows the zero. A field that no
zero closes holds no text and is cleared entirely. -/
def terminated {width : Nat} (field : Field width) : Field width :=
  if field.bytes.contains 0 then fit width (field.bytes.takeWhile (· != 0)) else zero width

end Field

end Bytes

end ProxyDhcp
