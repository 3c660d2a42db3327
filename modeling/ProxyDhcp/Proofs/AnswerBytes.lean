/-
The bytes of an answer. Each of its options is written as one entry (`OptionTable.Singles`), so whatever the order of
the options, a packet that carries the message is its header, those entries in that order and a terminator, and they
read back as they are (`Message.WireLaws.entries_of_writes`). What the PXE handlers leave of a bare reply is such a
message, and its entries are those of `Reply.entries` (`Reply.augment_bare`).
-/
import ProxyDhcp.Proofs.Answer
import ProxyDhcp.Proofs.Augment

namespace ProxyDhcp

/-! ## Writing a message -/

/-- An option that is written as one entry: its code, its length and its content. -/
structure DhcpOption.Single (option : DhcpOption) : Prop where
  encode : option.encode = .ok (segment option.code.byte option.content)
  code : option.code.byte ≠ endCode
  length : option.content.length ≤ 255

/-- The entry that such an option is written as. -/
def DhcpOption.tlv (option : DhcpOption) : Tlv := ⟨option.code.byte, option.content⟩

/-- The options as entries, by ascending code. -/
def OptionTable.tlvs (table : OptionTable) : List Tlv :=
  table.entries.map fun (_, option) => option.tlv

/-- Every option of the table is written as one entry. -/
def OptionTable.Singles (table : OptionTable) : Prop :=
  ∀ code option, table.get? code = some option → option.Single

theorem OptionTable.single_of_mem {table : OptionTable} (h : table.Singles) {option : DhcpOption}
    (hmem : option ∈ table.entries.map (·.2)) : option.Single := by
  obtain ⟨⟨code, held⟩, hplace, rfl⟩ := List.mem_map.1 hmem
  exact h code held (lookup_of_mem table.ascending hplace)

theorem DhcpOption.row_tlvs {options : List DhcpOption} (h : ∀ option ∈ options, option.Single) :
    Tlv.Row (options.map tlv) := by
  intro entry hentry
  obtain ⟨option, hmem, rfl⟩ := List.mem_map.1 hentry
  have hend : option.tlv.isEnd = false := Tlv.isEnd_eq_false_iff.2 (h option hmem).code
  exact ⟨hend, (Tlv.fits_of_not_end hend).2 (h option hmem).length⟩

theorem Message.encodeOptions_of_single {options : List DhcpOption} (h : ∀ option ∈ options, option.Single) :
    encodeOptions options = .ok ((options.map DhcpOption.tlv).flatMap Tlv.wire) := by
  induction options with
  | nil => rfl
  | cons option options ih =>
    rw [List.forall_mem_cons] at h
    rw [encodeOptions, h.1.encode, ih h.2, DhcpOption.segment_eq_wire h.1.code, List.map_cons, List.flatMap_cons]
    rfl

/-- **A packet of options that are one entry each**, in whatever order they are written: its first 44 bytes are the
header's, and all that stands behind the header are the entries of the options, in that order, and a terminator. -/
theorem Message.WireLaws.entries_of_writes {encodeHeader : Header → Bytes} {decode : Bytes → Except DecodeError Message}
    {encode : Message → Except EncodeError Bytes} {Writes : Message → Bytes → Prop}
    (laws : WireLaws encodeHeader decode encode Writes) {message : Message} (h : message.options.Singles)
    {packet : Bytes} (hwrites : Writes message packet) :
    packet.take 44 = message.header.front ∧ ∃ entries, entries.Perm message.options.tlvs ∧
      Tlv.decode (packet.drop 240) = .ok (entries ++ [Tlv.terminator]) ∧
      Tlv.encode (entries ++ [Tlv.terminator]) = .ok (packet.drop 240) := by
  obtain ⟨options, body, hperm, hbody, rfl⟩ := laws.exists_body hwrites
  have hsingle : ∀ option ∈ options, option.Single := fun option hmem =>
    OptionTable.single_of_mem h (hperm.mem_iff.1 hmem)
  have hlength := laws.length_encodeHeader message.header
  have hwell := Tlv.wellFormed_concat_terminator (DhcpOption.row_tlvs hsingle)
  rw [encodeOptions_of_single hsingle, Except.ok.injEq] at hbody
  -- Behind the header the packet is what the entries and the terminator write.
  have hdrop : (encodeHeader message.header ++ body ++ [DhcpOption.endCode]).drop 240 =
      (options.map DhcpOption.tlv ++ [Tlv.terminator]).flatMap Tlv.wire := by
    rw [List.append_assoc, List.drop_left' hlength, ← hbody, List.flatMap_append, List.flatMap_singleton]
    rfl
  refine ⟨?_, options.map DhcpOption.tlv, ?_, ?_, ?_⟩
  · rw [List.append_assoc, List.take_append_of_le_length (by omega), laws.take_encodeHeader]
  · have hentries := hperm.map DhcpOption.tlv
    rwa [List.map_map] at hentries
  · rw [hdrop]
    exact hwell.decode_self
  · rw [hdrop]
    exact hwell.encode_eq

theorem Message.exists_encode_of_singles {message : Message} (h : message.options.Singles) :
    ∃ packet, message.encode = .ok packet :=
  wireLaws.exists_encode fun _ hmem => ⟨_, (OptionTable.single_of_mem h hmem).encode⟩

/-! ## The options of an answer -/

/-- The machine identifier of a request, if it has the right length. -/
def Message.machineIdentifier? (request : Message) : Option Bytes :=
  (request.option? machineIdentifierCode).value.filter (·.length == machineIdentifierLength)

/-- The entries of an answer: its type, the server where one is configured, and the PXE options where the
request has a machine identifier. -/
def Reply.entries (type : MessageType) (serverId : Option Ipv4) (id : Option Bytes) : List Tlv :=
  ⟨53, [type.byte]⟩ :: (serverId.map fun server => ⟨54, server.bytes⟩).toList ++
    match id with
    | none => []
    | some id => [⟨60, ClassIdentifier.name⟩, ⟨97, id⟩, ⟨43, [0x06, 0x01, 0x08, 0xFF]⟩]

theorem Reply.nodup_code_entries (type : MessageType) (serverId : Option Ipv4) (id : Option Bytes) :
    ((entries type serverId id).map Tlv.code).Nodup := by
  cases serverId <;> cases id <;> simp [entries]

theorem Reply.single_typeOption (type : MessageType) : (typeOption type).Single where
  encode := DhcpOption.wireLaws.encode_fixed rfl
  code := show (53 : UInt8) ≠ 255 by decide
  length := show 1 ≤ 255 by decide

theorem Reply.single_serverOption (server : Ipv4) : (serverOption server).Single where
  encode := DhcpOption.wireLaws.encode_fixed rfl
  code := show (54 : UInt8) ≠ 255 by decide
  length := show 4 ≤ 255 by decide

theorem DhcpOption.single_bytes {code : UInt8} (hlayout : (OptionCode.known code).layout = .bytes)
    (hcode : code ≠ endCode) {content : Bytes} (hne : content ≠ []) (hlen : content.length ≤ 255) :
    Single ⟨.known code, content⟩ :=
  ⟨wireLaws.encode_short hlayout hne hlen, hcode, hlen⟩

theorem Reply.singles_bare (request : Message) (type : MessageType) (address : Bytes)
    (serverId : Option Ipv4) : (bare request type address serverId).options.Singles := by
  intro code option h
  rw [get?_bare] at h
  split at h
  · obtain ⟨server, -, rfl⟩ := Option.map_eq_some_iff.1 h
    exact single_serverOption server
  split at h
  · cases h
    exact single_typeOption type
  · cases h

theorem Message.singles_withPxeOptions {reply : Message} (h : reply.options.Singles) {id : Bytes}
    (hid : id.length = machineIdentifierLength) : (reply.withPxeOptions id).options.Singles := by
  intro code option hget
  rw [get?_withPxeOptions] at hget
  split at hget
  · cases hget
    exact DhcpOption.single_bytes (by decide) (by decide) (by decide) (by decide)
  split at hget
  · cases hget
    have hshort : id.length ≤ 255 := by rw [hid]; decide
    exact DhcpOption.single_bytes (by decide) (by decide) (ne_nil_of_machineIdentifierLength hid) hshort
  split at hget
  · cases hget
    exact DhcpOption.single_bytes (by decide) (by decide) (by decide) (by decide)
  · exact h _ _ hget

theorem Reply.tlvs_bare (request : Message) (type : MessageType) (address : Bytes) (serverId : Option Ipv4) :
    (bare request type address serverId).options.tlvs = entries type serverId none := by
  cases serverId <;> rfl

/-- The vendor template is written first, since its code is the lowest. -/
theorem Reply.tlvs_withPxeOptions_bare (request : Message) (type : MessageType) (address : Bytes)
    (serverId : Option Ipv4) (id : Bytes) :
    ((bare request type address serverId).withPxeOptions id).options.tlvs.Perm
      (entries type serverId (some id)) := by
  have hlast (vendor : Tlv) (front : List Tlv) : (vendor :: front).Perm (front ++ [vendor]) :=
    (List.perm_append_singleton vendor front).symm
  cases serverId with
  | none => exact hlast _ [⟨53, [type.byte]⟩, ⟨60, ClassIdentifier.name⟩, ⟨97, id⟩]
  | some server => exact hlast _ [⟨53, [type.byte]⟩, ⟨54, server.bytes⟩, ⟨60, ClassIdentifier.name⟩, ⟨97, id⟩]

/-- What the PXE handlers make of a bare reply has its header and the entries of the answer. -/
theorem Reply.augment_bare {request : Message} (proper : request.options.Proper)
    (hclient : (isPxeClient request).value = true) (type : MessageType) (address : Bytes)
    (serverId : Option Ipv4) :
    ∃ reply, (augment .standard request (bare request type address serverId)).value.1 = reply ∧
      reply.header = (bare request type address serverId).header ∧ reply.options.Singles ∧
      reply.options.tlvs.Perm (entries type serverId request.machineIdentifier?) := by
  have hsingles := singles_bare request type address serverId
  rcases augment_cases proper (bare request type address serverId) with
    ⟨hnot, hvalue⟩ | ⟨-, id, hid, hlen, hvalue⟩
  · have hmachine : request.machineIdentifier? = none := by
      refine Option.filter_eq_none_iff.2 fun id hid hlen => hnot ⟨hclient, id, hid, ?_⟩
      simpa using hlen
    rw [hvalue, hmachine]
    exact ⟨_, rfl, rfl, hsingles, .of_eq (tlvs_bare request type address serverId)⟩
  · have hmachine : request.machineIdentifier? = some id := by
      rw [Message.machineIdentifier?, hid, Option.filter_some, if_pos (by simpa using hlen)]
    rw [hvalue, hmachine]
    exact ⟨_, rfl, rfl, Message.singles_withPxeOptions hsingles hlen,
      tlvs_withPxeOptions_bare request type address serverId id⟩

/-! ## The header of an answer -/

theorem Bytes.bytes_fit {width : Nat} {bytes : Bytes} (h : bytes.length ≤ width) :
    (Field.fit width bytes).bytes = bytes ++ List.replicate (width - bytes.length) 0 := by
  show (bytes ++ List.replicate width 0).take width = _
  rw [List.take_append, List.take_of_length_le h, List.take_replicate, Nat.min_eq_left (by omega)]

/-- The fields of an answer in front of its two texts. -/
theorem Reply.front_header (request : Header) (hlen : request.hlen ≤ 16) :
    (header request).front =
      [Header.reply, request.htype, request.hlen, 0] ++ Bytes.ofWord32 request.xid ++ [0, 0] ++
        Bytes.ofWord16 request.flags ++ List.replicate 12 0 ++ request.giaddr.bytes ++
        (request.address ++ List.replicate (16 - request.hlen.toNat) 0) := by
  have hlength := Header.length_address hlen
  have hfits : request.address.length ≤ 16 := by
    rw [hlength]
    exact UInt8.le_iff_toNat_le.1 hlen
  rw [Header.front]
  simp only [header, Bytes.bytes_fit hfits, hlength]
  rfl

end ProxyDhcp
