/-
The payloads of options. What an option holds is written: an option of a fixed shape as one entry, any other as
the entries that its content needs, which are none for an empty content. So the payload of an option is its content,
but an empty one is lost where no entry carries it (`DhcpOption.payload_ofByte`), which spares option 80 alone
(`OptionCode.fixed_iff`).
-/
import ProxyDhcp.Proofs.Grammar
import ProxyDhcp.Proofs.PlainBytes

namespace ProxyDhcp

/-! ## How a layout is written -/

namespace Layout

theorem mem_layouts {code : UInt8} {layout : Layout} (h : ofCode? code = some layout) :
    ∃ codes, (layout, codes) ∈ layouts ∧ code ∈ codes := by
  obtain ⟨⟨found, codes⟩, hfind, rfl⟩ := Option.map_eq_some_iff.1 h
  exact ⟨codes, List.mem_of_find?_eq_some hfind, by simpa using List.find?_some hfind⟩

/-- A fixed shape with room for nothing at all. -/
theorem eq_of_content_nil {layout : Layout} (hfixed : layout.fixed = true) (h : layout.content [] = .ok []) :
    layout = .exact 0 ∨ layout = .leading 0 := by
  cases layout with
  | exact width =>
    cases width with
    | zero => exact .inl rfl
    | succ width => cases h
  | leading width =>
    cases width with
    | zero => exact .inr rfl
    | succ width => cases h
  | flag | autoconfigure | status => cases h
  | pad | close | records | pairs | text | relay | routes | rootNames | bytes => cases hfixed

end Layout

namespace OptionCode

/-- The layout of a code stands in the table, or is that of plain bytes. -/
theorem layout_ofByte (code : UInt8) :
    (∃ codes, ((ofByte code).layout, codes) ∈ Layout.layouts ∧ code ∈ codes) ∨
      (ofByte code).layout = .bytes := by
  rw [ofByte]
  cases hcode : Layout.ofCode? code with
  | none => exact .inr rfl
  | some layout =>
    refine .inl ?_
    simp only [Option.isSome_some, if_true, OptionCode.layout, hcode, Option.getD_some]
    exact Layout.mem_layouts hcode

theorem segmentLimit_ofByte (code : UInt8) :
    0 < (ofByte code).layout.segmentLimit ∧ (ofByte code).layout.segmentLimit ≤ 255 := by
  have htable : ∀ place ∈ Layout.layouts, 0 < place.1.segmentLimit ∧ place.1.segmentLimit ≤ 255 := by decide
  rcases layout_ofByte code with ⟨codes, hmem, -⟩ | hbytes
  · exact htable _ hmem
  · rw [hbytes]
    decide

/-- A layout that the table gives to one code is the layout of no other. -/
theorem eq_of_layout_ofByte {code only : UInt8} {layout : Layout} (hbytes : layout ≠ .bytes)
    (htable : ∀ place ∈ Layout.layouts, place.1 = layout → place.2 = [only])
    (h : (ofByte code).layout = layout) : code = only := by
  rcases layout_ofByte code with ⟨codes, hmem, hcode⟩ | hplain
  · have hcodes : codes = [only] := htable _ hmem h
    rw [hcodes] at hcode
    exact List.mem_singleton.1 hcode
  · exact absurd (h.symm.trans hplain) hbytes

/-- The one option that has an entry for an empty content. -/
def rapidCommit : UInt8 := 80

/-- **An empty content is written for option 80 alone.** -/
theorem fixed_iff {code : UInt8} {payload : Bytes} (h : (ofByte code).layout.content payload = .ok []) :
    (ofByte code).layout.fixed = true ↔ code = rapidCommit := by
  constructor
  · intro hfixed
    rcases Layout.eq_of_content_nil hfixed (Layout.contentLaws.content_content h) with hexact | hleading
    · exact eq_of_layout_ofByte (by decide) (by decide) hexact
    · -- No code has this layout.
      exact eq_of_layout_ofByte (by decide) (by decide) hleading
  · rintro rfl
    decide

end OptionCode

namespace DhcpOption

/-- **The payload of an option is its content**, unless that is empty and the option has no entry for it. -/
theorem payload_ofByte {code : UInt8} (hpad : code ≠ padCode) (hend : code ≠ endCode) {content : Bytes}
    (hlen : content.length ≤ 255) :
    payload code ⟨.ofByte code, content⟩ =
      pure (if content = [] ∧ (OptionCode.ofByte code).layout.fixed = false then none else some content) := by
  have hbyte : (⟨.ofByte code, content⟩ : DhcpOption).code.byte = code := OptionCode.byte_ofByte code
  cases hfixed : (OptionCode.ofByte code).layout.fixed with
  | true =>
    have hnot : Tlv.isEnd ⟨code, content⟩ = false := Tlv.isEnd_eq_false_iff.2 hend
    have hread := Tlv.decode_wire_append ⟨hnot, (Tlv.fits_of_not_end hnot).2 hlen⟩ Tlv.decode_nil
    rw [List.append_nil, ← segment_eq_wire hend] at hread
    rw [payload, wireLaws.encode_fixed hfixed, hbyte]
    simp [hread, joined]
  | false =>
    have hnames : content.length ≤ namesLimit := Nat.le_trans hlen (by decide)
    obtain ⟨hpos, hlimit⟩ := OptionCode.segmentLimit_ofByte code
    have hread := decode_segments hend hpos hlimit content
    have hpad : (OptionCode.ofByte code).layout ≠ .pad :=
      mt (OptionCode.eq_of_layout_ofByte (by decide) (by decide)) hpad
    have hclose : (OptionCode.ofByte code).layout ≠ .close :=
      mt (OptionCode.eq_of_layout_ofByte (by decide) (by decide)) hend
    rw [payload, wireLaws.encode_segments hfixed hpad hclose hnames, hbyte]
    simp only [hread, joined_chunkEntries_self, and_true]

end DhcpOption

end ProxyDhcp
