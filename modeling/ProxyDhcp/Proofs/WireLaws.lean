/-
What is believed of the wire format. The rules by which options and messages are read and written are those of a format,
not of this program. Of these rules the theorems use the laws that are named here: what a layout keeps of a payload
(`Layout.ContentLaws`), how one option is read and written (`DhcpOption.WireLaws`), and how a message is
(`Message.WireLaws`). They are laws of any reader and writer, and what follows from them holds for every one that keeps
them. This library's reader and writer do (`Layout.contentLaws`, `DhcpOption.wireLaws`, `Message.wireLaws`).

The laws leave open what the format does. A message may be written with its options in any order, and what is read
behind a header may be any options, as long as each lies under its own code and holds a value of its kind. What a
payload is read as under a code is not a law but the layouts' to say. They say nothing of the codes in
`OptionCode.undescribed` and of names under 119 other than the root, so there this library's reading is one of many.
-/
import ProxyDhcp.Proofs.Canonical

namespace ProxyDhcp

/-! ## The laws -/

/-- What a layout keeps of a payload. -/
structure Layout.ContentLaws (content : Layout → Bytes → Except DecodeError Bytes) : Prop where
  /-- Plain bytes are kept as they are. -/
  content_bytes (payload : Bytes) : content .bytes payload = .ok payload
  /-- A value of a fixed width has that width. -/
  length_content_exact {width : Nat} {payload kept : Bytes} (h : content (.exact width) payload = .ok kept) :
    kept.length = width
  /-- What is kept is kept again. -/
  content_content {layout : Layout} {payload kept : Bytes} (h : content layout payload = .ok kept) :
    content layout kept = .ok kept
  /-- No more is kept than there is. -/
  length_content_le {layout : Layout} {payload kept : Bytes} (h : content layout payload = .ok kept) :
    kept.length ≤ payload.length

/-- A layout whose option is one entry, whatever it holds. -/
def Layout.fixed : Layout → Bool
  | .exact _ | .leading _ | .flag | .autoconfigure | .status => true
  | _ => false

/-- How an option is read and written. `ofContent` is the option that a code and the bytes under it stand for. -/
structure DhcpOption.WireLaws (ofContent : UInt8 → Bytes → Except DecodeError DhcpOption)
    (decode : Bytes → Except DecodeError (DhcpOption × Bytes)) (encode : DhcpOption → Except EncodeError Bytes) :
    Prop where
  /-- An option is kept under the code that it is read under, but for the time to live of TCP. -/
  code_ofContent {code : UInt8} {payload : Bytes} {option : DhcpOption} (h : ofContent code payload = .ok option) :
    option.code = .ofByte (keptCode code)
  /-- Segments of one code in a row are one option, of all that they carry (RFC 3396). -/
  decode_row {code : UInt8} (hpad : code ≠ padCode) (hend : code ≠ endCode) {pieces : List Bytes} (hne : pieces ≠ [])
    (hlen : ∀ piece ∈ pieces, piece.length ≤ 255) {rest : Bytes} (hrest : rest.head? ≠ some code) :
    decode (pieces.flatMap (segment code) ++ rest) = (ofContent code pieces.flatten).map (·, rest)
  /-- What is read holds a value of its kind. -/
  canonical_decode {bytes rest : Bytes} {option : DhcpOption} (h : decode bytes = .ok (option, rest)) : option.Canonical
  /-- A fixed shape is written as one segment. -/
  encode_fixed {option : DhcpOption} (h : option.code.layout.fixed = true) :
    encode option = .ok (segment option.code.byte option.content)
  /-- A list or a string is written as many segments as it needs. -/
  encode_segments {option : DhcpOption} (h : option.code.layout.fixed = false) (hpad : option.code.layout ≠ .pad)
    (hclose : option.code.layout ≠ .close) (hlen : option.content.length ≤ namesLimit) :
    encode option = .ok (segments option.code.byte option.code.layout.segmentLimit option.content)
  /-- Plain bytes are written so, too, however many there are. -/
  encode_bytes {option : DhcpOption} (h : option.code.layout = .bytes) :
    encode option = .ok (segments option.code.byte 255 option.content)
  /-- An option that one segment can carry can be written. -/
  exists_encode {option : DhcpOption} (hlen : option.content.length ≤ 255) : ∃ wire, encode option = .ok wire

/-- The fields in front of the two texts. -/
def Header.front (header : Header) : Bytes :=
  [header.opcode, header.htype, header.hlen, header.hops] ++ Bytes.ofWord32 header.xid ++
    Bytes.ofWord16 header.secs ++ Bytes.ofWord16 header.flags ++ header.ciaddr.bytes ++
    header.yiaddr.bytes ++ header.siaddr.bytes ++ header.giaddr.bytes ++ header.chaddr.bytes

/-- How a message is read and written. `Writes` are the packets that carry a message. -/
structure Message.WireLaws (encodeHeader : Header → Bytes) (decode : Bytes → Except DecodeError Message)
    (encode : Message → Except EncodeError Bytes) (Writes : Message → Bytes → Prop) : Prop where
  length_encodeHeader (header : Header) : (encodeHeader header).length = 240
  take_encodeHeader (header : Header) : (encodeHeader header).take 44 = header.front
  /-- A header is read back whatever follows it, of its two texts what a zero byte closes. -/
  decode_encodeHeader (header : Header) (rest : Bytes) : ∃ options, decode (encodeHeader header ++ rest) =
    .ok ⟨{ header with sname := header.sname.terminated, file := header.file.terminated }, options⟩
  /-- In what is read each option lies under its own code. -/
  proper_decode {bytes : Bytes} {message : Message} (h : decode bytes = .ok message) : message.options.Proper
  /-- In what is read each option holds a value of its kind. -/
  canonical_decode {bytes : Bytes} {message : Message} (h : decode bytes = .ok message) : message.options.Canonical
  /-- A packet is the header, the options in some order, each as it is written on its own, and the terminator. -/
  exists_body {message : Message} {packet : Bytes} (h : Writes message packet) : ∃ options body,
    options.Perm (message.options.entries.map (·.2)) ∧ encodeOptions options = .ok body ∧
      packet = encodeHeader message.header ++ body ++ [DhcpOption.endCode]
  /-- The writer gives one of these packets. -/
  writes_encode {message : Message} {packet : Bytes} (h : encode message = .ok packet) : Writes message packet
  /-- It gives one if every option can be written. -/
  exists_encode {message : Message} (h : ∀ option ∈ message.options.entries.map (·.2), ∃ wire, option.encode = .ok wire) :
    ∃ packet, encode message = .ok packet

/-! ## What follows from them -/

section

variable {ofContent : UInt8 → Bytes → Except DecodeError DhcpOption}
  {decode : Bytes → Except DecodeError (DhcpOption × Bytes)} {encode : DhcpOption → Except EncodeError Bytes}

/-- One segment is read as the option of its payload. -/
theorem DhcpOption.WireLaws.decode_segment (laws : WireLaws ofContent decode encode) {code : UInt8} (hpad : code ≠ padCode)
    (hend : code ≠ endCode) {payload rest : Bytes} (hlen : payload.length ≤ 255) (hrest : rest.head? ≠ some code) :
    decode (segment code payload ++ rest) = (ofContent code payload).map (·, rest) := by
  have h := laws.decode_row hpad hend (List.cons_ne_nil payload []) (by simpa using hlen) hrest
  rwa [List.flatMap_singleton, List.flatten_singleton] at h

/-- Plain bytes that one segment can carry are written as that segment. -/
theorem DhcpOption.WireLaws.encode_short (laws : WireLaws ofContent decode encode) {option : DhcpOption}
    (hlayout : option.code.layout = .bytes) (hne : option.content ≠ []) (hlen : option.content.length ≤ 255) :
    encode option = .ok (segment option.code.byte option.content) := by
  rw [laws.encode_bytes hlayout, segments]
  obtain ⟨code, content⟩ := option
  cases content with
  | nil => exact absurd rfl hne
  | cons b rest =>
    have hlen : rest.length ≤ 255 - 1 := Nat.le_sub_one_of_lt hlen
    rw [Bytes.chunks_cons, List.take_of_length_le hlen, List.drop_of_length_le hlen, Bytes.chunks_nil]
    simp

end

section

variable {encodeHeader : Header → Bytes} {decode : Bytes → Except DecodeError Message}
  {encode : Message → Except EncodeError Bytes} {Writes : Message → Bytes → Prop}
  (laws : Message.WireLaws encodeHeader decode encode Writes) {message : Message} {packet : Bytes}
include laws

theorem Message.WireLaws.exists_encode_of_writes (h : Writes message packet) :
    ∃ canonical, encode message = .ok canonical := by
  obtain ⟨options, body, hperm, hbody, -⟩ := laws.exists_body h
  exact laws.exists_encode fun option hmem => encodeOptions_ok_iff.1 ⟨body, hbody⟩ option (hperm.mem_iff.2 hmem)

/-- A packet that is cut off behind its header still has the header to read. -/
theorem Message.WireLaws.decode_take_of_writes (h : Writes message packet) {n : Nat} (hn : 240 ≤ n) :
    ∃ options, decode (packet.take n) = .ok ⟨{ message.header with
      sname := message.header.sname.terminated, file := message.header.file.terminated }, options⟩ := by
  obtain ⟨-, body, -, -, rfl⟩ := laws.exists_body h
  have hlength := laws.length_encodeHeader message.header
  rw [List.append_assoc, List.take_append, List.take_of_length_le (by omega)]
  exact laws.decode_encodeHeader message.header _

end

/-! ## This reader and writer -/

theorem Layout.contentLaws : ContentLaws content where
  content_bytes _ := rfl
  length_content_exact {width} {payload} {kept} h := by
    simp only [content] at h
    split at h
    · next hlength =>
      cases h
      exact hlength
    · cases h
  content_content := content_content
  length_content_le := length_content_le

namespace DhcpOption

theorem ofContent_eq_ok_iff {code : UInt8} {payload : Bytes} {option : DhcpOption} :
    ofContent code payload = .ok option ↔
      ∃ content, (OptionCode.ofByte (keptCode code)).layout.content payload = .ok content ∧
        option = ⟨.ofByte (keptCode code), content⟩ := by
  rw [ofContent]
  cases (OptionCode.ofByte (keptCode code)).layout.content payload with
  | error cause => simp [bind, Except.bind]
  | ok content => simp [bind, Except.bind, pure, Except.pure, eq_comm]

theorem segments?_other {code : UInt8} {rest : Bytes} (hrest : rest.head? ≠ some code) :
    segments? code rest = some ([], rest) := by
  cases rest with
  | nil => rw [segments?]
  | cons b rest =>
    have hne : b ≠ code := fun h => hrest (h ▸ rfl)
    rw [segments?, if_neg hne]

/-- A segment goes in front of what is joined of the segments of its code behind it. -/
theorem segments?_segment_append {code : UInt8} {payload : Bytes} (hlen : payload.length ≤ 255) (rest : Bytes) :
    segments? code (segment code payload ++ rest) =
      (segments? code rest).map fun (more, left) => (payload ++ more, left) := by
  have hcount : payload.length = (UInt8.ofNat payload.length).toNat := by
    rw [UInt8.toNat_ofNat']; omega
  have hsegment : segment? (UInt8.ofNat payload.length :: (payload ++ rest)) = some (payload, rest) :=
    Bytes.split?_append rest hcount
  rw [segment, List.cons_append, List.cons_append, segments?, if_pos rfl]
  split
  · next h => rw [hsegment] at h; cases h
  · next front after h =>
    rw [hsegment] at h
    cases h
    rfl

/-- **Segments of one code in a row are joined**, when no other of the code follows. -/
theorem segments?_flatMap_segment {code : UInt8} {pieces : List Bytes} (hlen : ∀ piece ∈ pieces, piece.length ≤ 255)
    {rest : Bytes} (hrest : rest.head? ≠ some code) :
    segments? code (pieces.flatMap (segment code) ++ rest) = some (pieces.flatten, rest) := by
  induction pieces with
  | nil => exact segments?_other hrest
  | cons piece pieces ih =>
    rw [List.forall_mem_cons] at hlen
    rw [List.flatMap_cons, List.append_assoc, segments?_segment_append hlen.1, ih hlen.2]
    rfl

theorem decode_flatMap_segment {code : UInt8} (hpad : code ≠ padCode) (hend : code ≠ endCode) {pieces : List Bytes}
    (hne : pieces ≠ []) (hlen : ∀ piece ∈ pieces, piece.length ≤ 255) {rest : Bytes}
    (hrest : rest.head? ≠ some code) :
    decode (pieces.flatMap (segment code) ++ rest) = (ofContent code pieces.flatten).map (·, rest) := by
  have h := segments?_flatMap_segment hlen hrest
  cases pieces with
  | nil => exact absurd rfl hne
  | cons piece pieces =>
    rw [List.flatMap_cons, segment, List.cons_append, List.cons_append] at h ⊢
    rw [decode, if_neg (by simp [hpad, hend]), h]
    show (do let option ← ofContent code (piece :: pieces).flatten; pure (option, rest)) = _
    cases ofContent code (piece :: pieces).flatten <;> rfl

theorem decode_canonical {bytes rest : Bytes} {option : DhcpOption}
    (h : decode bytes = .ok (option, rest)) : option.Canonical := by
  cases bytes with
  | nil => cases h
  | cons code bytes =>
    rw [decode] at h
    split at h
    · next hcode =>
      cases h
      rcases hcode with rfl | rfl <;> rfl
    split at h
    · cases h
    next payload after hsegments =>
    cases hcontent : ofContent code payload with
    | error cause => simp [hcontent, bind, Except.bind] at h
    | ok read =>
      simp only [hcontent, bind, Except.bind, pure, Except.pure, Except.ok.injEq, Prod.mk.injEq] at h
      exact h.1 ▸ ofContent_canonical hcontent

theorem encode_fixed {option : DhcpOption} (h : option.code.layout.fixed = true) :
    option.encode = .ok (segment option.code.byte option.content) := by
  rw [encode]
  cases hlayout : option.code.layout with
  | exact | leading | flag | autoconfigure | status => rfl
  | pad | close | records | pairs | text | relay | routes | rootNames | bytes => rw [hlayout] at h; cases h

theorem encode_segments {option : DhcpOption} (h : option.code.layout.fixed = false)
    (hpad : option.code.layout ≠ .pad) (hclose : option.code.layout ≠ .close)
    (hlen : option.content.length ≤ namesLimit) :
    option.encode = .ok (segments option.code.byte option.code.layout.segmentLimit option.content) := by
  rw [encode]
  cases hlayout : option.code.layout with
  | pad => exact absurd hlayout hpad
  | close => exact absurd hlayout hclose
  | exact | leading | flag | autoconfigure | status => rw [hlayout] at h; cases h
  | records | pairs | text | relay | routes | bytes => rfl
  | rootNames =>
    simp only [if_neg (Nat.not_lt.2 hlen)]
    rfl

theorem exists_encode {option : DhcpOption} (h : option.content.length ≤ 255) :
    ∃ wire, option.encode = .ok wire := by
  rw [encode]
  cases option.code.layout with
  | rootNames =>
    have hnames : ¬ namesLimit < option.content.length := by
      show ¬ 65535 < option.content.length
      omega
    exact ⟨_, if_neg hnames⟩
  | pad | close | exact | leading | records | pairs | flag | autoconfigure | text | status | relay | routes
  | bytes => exact ⟨_, rfl⟩

theorem wireLaws : WireLaws ofContent decode encode where
  code_ofContent {code} {payload} {option} h := by
    obtain ⟨content, -, rfl⟩ := ofContent_eq_ok_iff.1 h
    rfl
  decode_row := decode_flatMap_segment
  canonical_decode := decode_canonical
  encode_fixed := encode_fixed
  encode_segments := encode_segments
  encode_bytes {option} hlayout := by
    rw [encode, hlayout]
    rfl
  exists_encode := exists_encode

end DhcpOption

theorem Header.length_front (header : Header) : header.front.length = 44 := by
  simp only [front, List.length_append, List.length_cons, List.length_nil, Bytes.length_ofWord32,
    Bytes.length_ofWord16, Ipv4.length_bytes, Bytes.Field.length_eq]

theorem Header.take_encode (header : Header) : header.encode.take 44 = header.front := by
  have hencode : header.encode =
      header.front ++ (header.sname.bytes ++ (header.file.bytes ++ header.magic.bytes)) := by
    simp only [encode, front, List.append_assoc]
  rw [hencode]
  exact List.take_left' header.length_front

namespace Message

/-- What adding an option from the wire keeps, reading a row of options keeps. -/
theorem readOptions_invariant {P : OptionTable → Prop}
    (hadd : ∀ table option, P table → option.Canonical → P (table.add option)) {table : OptionTable}
    (h : P table) (bytes : Bytes) : P (readOptions table bytes) := by
  fun_induction readOptions table bytes with
  | case1 => exact h
  | case2 _ _ ih => exact ih h
  | case3 => exact h
  | case4 => exact h
  | case5 table code rest _ _ option after hdecode ih =>
    exact ih (hadd table option h (DhcpOption.decode_canonical hdecode))

theorem decode_eq_ok {bytes : Bytes} {message : Message} (h : decode bytes = .ok message) :
    ∃ rest, Header.decode? bytes = some (message.header, rest) ∧
      message.options = readOptions .empty rest := by
  rw [decode] at h
  split at h
  · cases h
  · next header rest hheader =>
    cases h
    exact ⟨rest, hheader, rfl⟩

theorem decode_proper {bytes : Bytes} {message : Message} (h : decode bytes = .ok message) :
    message.options.Proper := by
  obtain ⟨rest, -, hoptions⟩ := decode_eq_ok h
  rw [hoptions]
  exact readOptions_invariant (P := OptionTable.Proper) (fun _ option h _ => OptionTable.add_proper h option)
    OptionTable.empty_proper rest

theorem decode_canonical {bytes : Bytes} {message : Message} (h : decode bytes = .ok message) :
    message.options.Canonical := by
  obtain ⟨rest, -, hoptions⟩ := decode_eq_ok h
  rw [hoptions]
  exact readOptions_invariant (P := OptionTable.Canonical) (fun _ _ h ho => OptionTable.add_canonical h ho)
    OptionTable.empty_canonical rest

theorem decode_encode_append (header : Header) (rest : Bytes) :
    decode (header.encode ++ rest) =
      .ok ⟨{ header with sname := header.sname.terminated, file := header.file.terminated },
        readOptions .empty rest⟩ := by
  rw [decode, Header.decode_encode]

theorem wireLaws : WireLaws Header.encode decode encode WrittenAs where
  length_encodeHeader := Header.length_encode
  take_encodeHeader := Header.take_encode
  decode_encodeHeader header rest := ⟨_, decode_encode_append header rest⟩
  proper_decode := decode_proper
  canonical_decode := decode_canonical
  exists_body h := h
  writes_encode := writtenAs_of_encode
  exists_encode {message} h := by
    obtain ⟨body, hbody⟩ := encodeOptions_ok_iff.2 h
    exact ⟨_, by rw [encode, hbody]; rfl⟩

end Message

end ProxyDhcp
