/-
Options that hold plain bytes. What such an option writes reads back as entries of its own code, one for
each chunk, so its payload is its content; an empty one writes nothing and has no payload
(`payload_self`). In the other direction a payload that one entry can carry becomes the option that holds it
(`ofPayload_bytes`).
-/
import ProxyDhcp.DhcpOption.Payload
import ProxyDhcp.Proofs.Faults
import ProxyDhcp.Proofs.WireLaws

namespace ProxyDhcp.DhcpOption

/-! ## Segments as entries -/

theorem segment_eq_wire {code : UInt8} (hcode : code ≠ endCode) (payload : Bytes) :
    segment code payload = Tlv.wire ⟨code, payload⟩ := by
  rw [Tlv.wire_of_not_end (Tlv.isEnd_eq_false_iff.2 hcode), segment]

/-- The entries that the segments of a content read as. -/
def chunkEntries (code : UInt8) (limit : Nat) (content : Bytes) : List Tlv :=
  (content.chunks limit).map fun piece => ⟨code, piece⟩

theorem segments_eq_flatMap_wire {code : UInt8} (hcode : code ≠ endCode) (limit : Nat) (content : Bytes) :
    segments code limit content = (chunkEntries code limit content).flatMap Tlv.wire := by
  rw [segments, chunkEntries, List.flatMap_map]
  congr 1
  funext piece
  exact segment_eq_wire hcode piece

theorem isEnd_of_mem_chunkEntries {code : UInt8} (hcode : code ≠ endCode) {limit : Nat} {content : Bytes}
    {entry : Tlv} (h : entry ∈ chunkEntries code limit content) : entry.isEnd = false := by
  obtain ⟨piece, -, rfl⟩ := List.mem_map.1 h
  exact Tlv.isEnd_eq_false_iff.2 hcode

theorem fits_of_mem_chunkEntries {code : UInt8} (hcode : code ≠ endCode) {limit : Nat} (hpos : 0 < limit)
    (hlimit : limit ≤ 255) {content : Bytes} {entry : Tlv} (h : entry ∈ chunkEntries code limit content) :
    entry.Fits := by
  have hend := isEnd_of_mem_chunkEntries hcode h
  obtain ⟨piece, hpiece, rfl⟩ := List.mem_map.1 h
  have := Bytes.length_le_of_mem_chunks hpos hpiece
  rw [Tlv.fits_of_not_end hend]
  show piece.length ≤ 255
  omega

/-- What is written in segments reads back as one entry a chunk. -/
theorem decode_segments {code : UInt8} (hcode : code ≠ endCode) {limit : Nat} (hpos : 0 < limit)
    (hlimit : limit ≤ 255) (content : Bytes) :
    Tlv.decode (segments code limit content) = .ok (chunkEntries code limit content) := by
  rw [segments_eq_flatMap_wire hcode]
  exact Tlv.decode_flatMap_wire (fun _ h => isEnd_of_mem_chunkEntries hcode h)
    (fun _ h => fits_of_mem_chunkEntries hcode hpos hlimit h)

theorem chunkEntries_eq_nil_iff {code : UInt8} {limit : Nat} {content : Bytes} :
    chunkEntries code limit content = [] ↔ content = [] := by
  cases content with
  | nil => simp [chunkEntries]
  | cons b rest => simp [chunkEntries, Bytes.chunks_cons]

theorem filter_chunkEntries_self (code : UInt8) (limit : Nat) (content : Bytes) :
    (chunkEntries code limit content).filter (·.code == code) = chunkEntries code limit content := by
  rw [List.filter_eq_self]
  intro entry h
  obtain ⟨piece, -, rfl⟩ := List.mem_map.1 h
  simp

theorem filter_chunkEntries_other {code other : UInt8} (hne : other ≠ code) (limit : Nat) (content : Bytes) :
    (chunkEntries code limit content).filter (·.code == other) = [] := by
  rw [List.filter_eq_nil_iff]
  intro entry h
  obtain ⟨piece, -, rfl⟩ := List.mem_map.1 h
  simpa using hne.symm

theorem flatMap_payload_chunkEntries (code : UInt8) (limit : Nat) (content : Bytes) :
    (chunkEntries code limit content).flatMap Tlv.payload = content := by
  rw [chunkEntries, List.flatMap_map]
  show (content.chunks limit).flatMap id = content
  rw [List.flatMap_id, Bytes.flatten_chunks]

/-- The chunks of a content join to the content, and no chunk is nothing at all. -/
theorem joined_chunkEntries_self (code : UInt8) (limit : Nat) (content : Bytes) :
    joined code (chunkEntries code limit content) = if content = [] then none else some content := by
  rw [joined, filter_chunkEntries_self]
  split
  · next h => rw [if_pos (chunkEntries_eq_nil_iff.1 h)]
  · next h => rw [if_neg (mt chunkEntries_eq_nil_iff.2 h), flatMap_payload_chunkEntries]

theorem joined_chunkEntries_other {code other : UInt8} (hne : other ≠ code) (limit : Nat) (content : Bytes) :
    joined other (chunkEntries code limit content) = none := by
  rw [joined, filter_chunkEntries_other hne]

/-! ## The payload of plain bytes -/

theorem payload_bytes {option : DhcpOption} (hlayout : option.code.layout = .bytes)
    (hcode : option.code.byte ≠ endCode) (code : UInt8) :
    option.payload code = pure (joined code (chunkEntries option.code.byte 255 option.content)) := by
  have hdecode := decode_segments hcode (show 0 < 255 by decide) (show 255 ≤ 255 by decide) option.content
  simp only [payload, wireLaws.encode_bytes hlayout, hdecode]

/-- **The payload of plain bytes is the bytes**, however many there are, unless there are none. -/
theorem payload_self {option : DhcpOption} (hlayout : option.code.layout = .bytes)
    (hcode : option.code.byte ≠ endCode) :
    option.payload option.code.byte = pure (if option.content = [] then none else some option.content) := by
  rw [payload_bytes hlayout hcode, joined_chunkEntries_self]

/-- **However many bytes there are, none is lost.** They are written in pieces of 255 bytes, the last one shorter or
equal, each with the code and its length in front. Under the option's own code they are read back all and in their
order, and under any other code there is nothing. -/
theorem payload_eq_content {option : DhcpOption} (hlayout : option.code.layout = .bytes)
    (hcode : option.code.byte ≠ endCode) (hne : option.content ≠ []) :
    (∃ pieces : List Bytes, option.encode = .ok (pieces.flatMap (segment option.code.byte)) ∧
      pieces.flatten = option.content ∧ (∀ piece ∈ pieces.dropLast, piece.length = 255) ∧
      ∀ piece ∈ pieces, piece ≠ [] ∧ piece.length ≤ 255) ∧
    option.payload option.code.byte = pure (some option.content) ∧
    ∀ code, code ≠ option.code.byte → option.payload code = pure none := by
  have hpos : 0 < 255 := by decide
  refine ⟨⟨option.content.chunks 255, wireLaws.encode_bytes hlayout, Bytes.flatten_chunks 255 option.content,
    fun piece hpiece => Bytes.length_of_mem_dropLast_chunks hpos hpiece, fun piece hpiece => ?_⟩, ?_, ?_⟩
  · exact ⟨Bytes.ne_nil_of_mem_chunks hpiece, Bytes.length_le_of_mem_chunks hpos hpiece⟩
  · rw [payload_self hlayout hcode, if_neg hne]
  · intro code hother
    rw [payload_bytes hlayout hcode, joined_chunkEntries_other hother]

/-- Two full segments of bytes that each look like a terminator. -/
theorem payload_eq_content_fullSegments :
    payload 224 ⟨.generic 224, List.replicate 510 endCode⟩ = pure (some (List.replicate 510 endCode)) ∧
      payload endCode ⟨.generic 224, List.replicate 510 endCode⟩ = pure none := by
  have hne : List.replicate 510 endCode ≠ [] := List.cons_ne_nil endCode (List.replicate 509 endCode)
  obtain ⟨-, hown, hothers⟩ :=
    @payload_eq_content ⟨.generic 224, List.replicate 510 endCode⟩ rfl (show (224 : UInt8) ≠ 255 by decide) hne
  exact ⟨hown, hothers endCode (show (255 : UInt8) ≠ 224 by decide)⟩

/-! ## Options of a payload -/

/-- **What a payload becomes**: for a code that is not reserved and a payload that one entry can carry, the
reading of its content decides alone. -/
theorem ofPayload_eq {code : UInt8} (hpad : code ≠ padCode) (hend : code ≠ endCode) {payload : Bytes}
    (hlen : payload.length ≤ 255) :
    ofPayload code payload = (ofContent code payload).mapError Error.ofDecode := by
  have hwire : Tlv.encode [⟨code, payload⟩] = .ok (segment code payload) := by
    rw [Tlv.encode_eq_ok_iff]
    refine ⟨fun entry h => ?_, ?_⟩
    · rw [List.mem_singleton.1 h]
      exact (Tlv.fits_of_not_end (Tlv.isEnd_eq_false_iff.2 hend)).2 hlen
    · simp [segment_eq_wire hend]
  rw [ofPayload, if_neg (by simp [hpad, hend]), hwire]
  have hnone : ([] : Bytes).head? ≠ some code := by simp
  have hdecode := wireLaws.decode_segment hpad hend hlen hnone
  rw [List.append_nil] at hdecode
  simp only [bind, Except.bind, hdecode]
  cases ofContent code payload <;> rfl

theorem ofPayload_long {code : UInt8} (hpad : code ≠ padCode) (hend : code ≠ endCode) {payload : Bytes}
    (hlen : 255 < payload.length) : ofPayload code payload = .error (.payloadTooLong code payload.length) := by
  have hmisfit : ¬ Tlv.Fits ⟨code, payload⟩ := by
    rw [Tlv.fits_of_not_end (Tlv.isEnd_eq_false_iff.2 hend)]
    exact Nat.not_le.2 hlen
  rw [ofPayload, if_neg (by simp [hpad, hend]), Tlv.encode, Tlv.encodeOne_misfit hmisfit]
  rfl

/-- A payload under a code of plain bytes becomes the option that holds it. -/
theorem ofPayload_bytes {code : UInt8} (hpad : code ≠ padCode) (hend : code ≠ endCode)
    (hkept : keptCode code = code) (hlayout : (OptionCode.ofByte code).layout = .bytes) {payload : Bytes}
    (hlen : payload.length ≤ 255) : ofPayload code payload = .ok ⟨.ofByte code, payload⟩ := by
  rw [ofPayload_eq hpad hend hlen, ofContent, hkept]
  simp only [hlayout, Layout.contentLaws.content_bytes]
  rfl

end ProxyDhcp.DhcpOption
