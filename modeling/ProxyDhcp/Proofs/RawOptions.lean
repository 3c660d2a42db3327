/-
Options of raw bytes as a map. Over the codes whose options hold plain bytes (`OptionCode.Raw`) a message is a
map from codes to payloads: settings succeed and fail on both for the same causes, and leave the same to read
(`Message.Represents.setAll`). On the map it is plain what that is: under each code the payload that was set
last, or the one from the start (`PayloadMap.option?_setAll`).

A payload has at least one byte here. An empty one is set, but nothing is read back.
-/
import ProxyDhcp.Proofs.Settings

namespace ProxyDhcp

/-! ## Raw codes -/

namespace OptionCode

/-- A code whose options are raw bytes: one of the three that PXE uses, or one of no known option. -/
def Raw (code : UInt8) : Prop :=
  code ∈ [vendorSpecificCode, classIdentifierCode, machineIdentifierCode] ∨
    (Layout.ofCode? code = none ∧ code ∉ undescribed)

instance (code : UInt8) : Decidable (Raw code) := inferInstanceAs (Decidable (_ ∨ _))

variable {code : UInt8}

theorem Raw.layout (h : Raw code) : (ofByte code).layout = .bytes := by
  rcases h with hpxe | ⟨hunknown, -⟩
  · simp only [List.mem_cons, List.not_mem_nil, or_false] at hpxe
    rcases hpxe with rfl | rfl | rfl <;> rfl
  · rw [ofByte, hunknown]
    rfl

theorem Raw.ne_pad (h : Raw code) : code ≠ DhcpOption.padCode := by
  rintro rfl
  exact absurd h (by decide)

theorem Raw.ne_end (h : Raw code) : code ≠ DhcpOption.endCode := by
  rintro rfl
  exact absurd h (by decide)

theorem Raw.keptCode (h : Raw code) : DhcpOption.keptCode code = code := by
  refine if_neg ?_
  rintro rfl
  exact absurd h (by decide)

end OptionCode

/-! ## Settings of raw codes -/

namespace Setting

/-- Why a setting fails, as far as its code and its length decide. -/
def fault? (setting : Setting) : Option Error :=
  if setting.code = DhcpOption.padCode ∨ setting.code = DhcpOption.endCode then
    some (.reservedOptionCode setting.code)
  else if setting.payload.length ≤ 255 then none
  else some (.payloadTooLong setting.code setting.payload.length)

theorem fault?_eq_none_iff {setting : Setting} : setting.fault? = none ↔ setting.Admitted := by
  rw [fault?, Admitted]
  by_cases hcode : setting.code = DhcpOption.padCode ∨ setting.code = DhcpOption.endCode
  · rw [if_pos hcode]
    simp only [reduceCtorEq, false_iff]
    exact fun h => hcode.elim h.1 h.2.1
  · rw [if_neg hcode]
    obtain ⟨hpad, hend⟩ := not_or.1 hcode
    by_cases hlen : setting.payload.length ≤ 255 <;> simp [hpad, hend, hlen]

/-- A raw code that is set to at least one byte, or a code that is reserved. -/
def Raw (setting : Setting) : Prop :=
  (OptionCode.Raw setting.code ∧ setting.payload ≠ []) ∨
    setting.code = DhcpOption.padCode ∨ setting.code = DhcpOption.endCode

instance (setting : Setting) : Decidable setting.Raw := inferInstanceAs (Decidable (_ ∨ _))

/-- An admitted setting of a raw code stands for the option that holds its payload. -/
theorem ofPayload_raw {setting : Setting} (h : setting.Raw) :
    DhcpOption.ofPayload setting.code setting.payload =
      match setting.fault? with
      | none => .ok ⟨.ofByte setting.code, setting.payload⟩
      | some cause => .error cause := by
  by_cases hcode : setting.code = DhcpOption.padCode ∨ setting.code = DhcpOption.endCode
  · rw [fault?, if_pos hcode, DhcpOption.ofPayload, if_pos hcode]
  · have hraw := (h.resolve_right hcode).1
    rw [fault?, if_neg hcode]
    by_cases hlen : setting.payload.length ≤ 255
    · rw [if_pos hlen]
      exact DhcpOption.ofPayload_bytes hraw.ne_pad hraw.ne_end hraw.keptCode hraw.layout hlen
    · rw [if_neg hlen]
      exact DhcpOption.ofPayload_long hraw.ne_pad hraw.ne_end (Nat.lt_of_not_le hlen)

theorem option?_raw {setting : Setting} (h : setting.Raw) :
    setting.option? = if setting.Admitted then some ⟨.ofByte setting.code, setting.payload⟩ else none := by
  rw [option?, ofPayload_raw h]
  by_cases hadmitted : setting.Admitted
  · rw [if_pos hadmitted, fault?_eq_none_iff.2 hadmitted]
    rfl
  · obtain ⟨cause, hcause⟩ := Option.ne_none_iff_exists'.1 (mt fault?_eq_none_iff.1 hadmitted)
    rw [if_neg hadmitted, hcause]
    rfl

/-- The payload of the last setting of a code that is admitted. -/
def last? (code : UInt8) (settings : List Setting) : Option Bytes :=
  (settings.filter fun setting => setting.code = code ∧ setting.Admitted).getLast?.map payload

theorem last?_cons (code : UInt8) (setting : Setting) (settings : List Setting) :
    last? code (setting :: settings) =
      (last? code settings).or (if setting.code = code ∧ setting.Admitted then some setting.payload else none) := by
  rw [last?, last?, List.filter_cons]
  by_cases hset : setting.code = code ∧ setting.Admitted
  · rw [if_pos (decide_eq_true hset), if_pos hset, List.getLast?_cons]
    cases (settings.filter fun setting => setting.code = code ∧ setting.Admitted).getLast? <;> rfl
  · rw [if_neg (by simpa using hset), if_neg hset, Option.or_none]

end Setting

/-! ## The map -/

namespace PayloadMap

theorem setOption_eq (map : PayloadMap) (setting : Setting) :
    OptionStore.setOption map setting.code setting.payload =
      match setting.fault? with
      | none => .ok (map.insert setting.code setting.payload)
      | some cause => .error cause := by
  show map.setOption setting.code setting.payload = _
  rw [setOption, Setting.fault?]
  by_cases hcode : setting.code = DhcpOption.padCode ∨ setting.code = DhcpOption.endCode
  · rw [if_pos hcode, if_pos hcode]
  · rw [if_neg hcode, if_neg hcode]
    by_cases hlen : setting.payload.length ≤ 255
    · rw [if_pos hlen, if_pos hlen]
    · rw [if_neg hlen, if_neg hlen]

theorem fault?_eq (map : PayloadMap) (setting : Setting) : OptionStore.fault? map setting = setting.fault? := by
  rw [OptionStore.fault?, setOption_eq]
  cases setting.fault? <;> rfl

theorem option?_insert (map : PayloadMap) (code : UInt8) (payload : Bytes) (other : UInt8) :
    (OptionStore.option? (map.insert code payload) other).value =
      if code = other then some payload else (OptionStore.option? map other).value := by
  show (if other = code then some payload else map other) = _
  by_cases heq : code = other
  · rw [if_pos heq, if_pos heq.symm]
  · rw [if_neg heq, if_neg (Ne.symm heq)]
    rfl

theorem set_eq (map : PayloadMap) (setting : Setting) :
    OptionStore.set map setting =
      if setting.Admitted then map.insert setting.code setting.payload else map := by
  rw [OptionStore.set, setOption_eq]
  by_cases hadmitted : setting.Admitted
  · rw [if_pos hadmitted, Setting.fault?_eq_none_iff.2 hadmitted]
  · obtain ⟨cause, hcause⟩ := Option.ne_none_iff_exists'.1 (mt Setting.fault?_eq_none_iff.1 hadmitted)
    rw [if_neg hadmitted, hcause]

/-- **A map after a row of settings** has under each code the payload of its last admitted setting, or the one
from the start. -/
theorem option?_setAll (map : PayloadMap) (settings : List Setting) (code : UInt8) :
    (OptionStore.option? (OptionStore.setAll map settings) code).value =
      (Setting.last? code settings).or (OptionStore.option? map code).value := by
  induction settings generalizing map with
  | nil => rfl
  | cons setting settings ih =>
    rw [OptionStore.setAll_cons, ih, set_eq, Setting.last?_cons, Option.or_assoc]
    by_cases hadmitted : setting.Admitted
    · rw [if_pos hadmitted, option?_insert]
      by_cases heq : setting.code = code
      · rw [if_pos heq, if_pos ⟨heq, hadmitted⟩, Option.some_or]
      · rw [if_neg heq, if_neg fun h => heq h.1, Option.none_or]
    · rw [if_neg hadmitted, if_neg fun h => hadmitted h.2, Option.none_or]

end PayloadMap

/-! ## The message -/

namespace Message

variable {message : Message} {map : PayloadMap}

theorem fault?_raw {setting : Setting} (h : setting.Raw) (message : Message) :
    OptionStore.fault? message setting = setting.fault? := by
  rw [OptionStore.fault?_message, Setting.ofPayload_raw h]
  cases setting.fault? <;> rfl

/-- What is read after an option with a raw code was added. -/
theorem option?_withOption {code : UInt8} (hcode : OptionCode.Raw code) {payload : Bytes} (hne : payload ≠ [])
    (message : Message) (other : UInt8) :
    ((message.withOption ⟨.ofByte code, payload⟩).option? other).value =
      if code = other then some payload else (message.option? other).value := by
  by_cases heq : code = other
  · subst heq
    rw [if_pos rfl]
    refine option?_of_get? hcode.layout hcode.ne_end hne ?_
    rw [withOption, OptionTable.get?_add, if_pos rfl]
  · have hplace : OptionCode.ofByte other ≠ OptionCode.ofByte code :=
      fun h => heq (OptionCode.ofByte_injective h).symm
    rw [if_neg heq, option?, option?, withOption]
    simp only [OptionTable.get?_add, if_neg hplace]

/-- The payloads under raw codes are those of the map. -/
def Represents (message : Message) (map : PayloadMap) : Prop :=
  ∀ code, OptionCode.Raw code → (OptionStore.option? message code).value = (OptionStore.option? map code).value

/-- The map that a message represents. -/
def payloads (message : Message) : PayloadMap := fun code => (message.option? code).value

theorem represents_payloads (message : Message) : message.Represents message.payloads := fun _ _ => rfl

/-- One setting leaves a message and its map alike. -/
theorem Represents.set (h : message.Represents map) {setting : Setting} (hraw : setting.Raw) :
    (OptionStore.set message setting).Represents (OptionStore.set map setting) := by
  intro code hcode
  rw [PayloadMap.set_eq, OptionStore.set_message, Setting.option?_raw hraw]
  by_cases hadmitted : setting.Admitted
  · -- An admitted setting is not one of a reserved code.
    obtain ⟨hown, hne⟩ := hraw.resolve_right fun hreserved => hreserved.elim hadmitted.1 hadmitted.2.1
    have hread := option?_withOption hown hne message code
    rw [if_pos hadmitted, if_pos hadmitted, PayloadMap.option?_insert, ← h code hcode]
    exact hread
  · rw [if_neg hadmitted, if_neg hadmitted]
    exact h code hcode

/-- A row of settings leaves a message and its map alike. -/
theorem Represents.setAll (h : message.Represents map) {settings : List Setting}
    (hraw : ∀ setting ∈ settings, setting.Raw) :
    (OptionStore.setAll message settings).Represents (OptionStore.setAll map settings) := by
  induction settings generalizing message map with
  | nil => exact h
  | cons setting settings ih =>
    rw [List.forall_mem_cons] at hraw
    exact ih (h.set hraw.1) hraw.2

/-- **Over raw codes a message is a map from codes to payloads.** In a row of settings, each of a raw code and at
least one byte or of a reserved code, a setting succeeds if and only if its code is not reserved and its payload
has at most 255 bytes. In the end each raw code reads as its last setting that succeeded, or as at the start. So
whatever map the message represents at the start, it fails where the map fails, for the same causes, and
represents the map in the end. The header is as at the start, and so is every option that no setting
replaces. -/
theorem setAll_represents (message : Message) {settings : List Setting}
    (hraw : ∀ setting ∈ settings, setting.Raw) :
    (∀ before setting after, settings = before ++ setting :: after →
      ((∃ next, OptionStore.setOption (OptionStore.setAll message before) setting.code setting.payload = .ok next) ↔
        setting.code ≠ 0 ∧ setting.code ≠ 255 ∧ setting.payload.length ≤ 255)) ∧
    (∀ code, OptionCode.Raw code → (OptionStore.option? (OptionStore.setAll message settings) code).value =
      (Setting.last? code settings).or (OptionStore.option? message code).value) ∧
    (∀ map, message.Represents map →
      OptionStore.faults message settings = OptionStore.faults map settings ∧
      (OptionStore.setAll message settings).Represents (OptionStore.setAll map settings)) ∧
    (OptionStore.setAll message settings).header = message.header ∧
    ∀ place, (∀ setting ∈ settings, setting.Admitted → place ≠ .ofByte setting.code) →
      (OptionStore.setAll message settings).options.get? place = message.options.get? place := by
  refine ⟨?_, ?_, ?_, OptionStore.header_setAll message settings, ?_⟩
  · intro before setting after hsettings
    have hsetting : setting.Raw := hraw setting (by simp [hsettings])
    rw [← OptionStore.fault?_eq_none_iff, fault?_raw hsetting, Setting.fault?_eq_none_iff]
    rfl
  · intro code hcode
    rw [(represents_payloads message).setAll hraw code hcode, PayloadMap.option?_setAll]
    rfl
  · intro map hmap
    refine ⟨?_, hmap.setAll hraw⟩
    rw [OptionStore.faults_eq_map fun setting hmem store => fault?_raw (hraw setting hmem) store,
      OptionStore.faults_eq_map fun setting _ store => PayloadMap.fault?_eq store setting]
  · intro place hplace
    refine OptionStore.get?_setAll_other (fun setting hmem option hoption => ?_) message
    rw [Setting.option?_raw (hraw setting hmem)] at hoption
    by_cases hadmitted : setting.Admitted
    · rw [if_pos hadmitted, Option.some.injEq] at hoption
      subst hoption
      exact (hplace setting hmem hadmitted).symm
    · rw [if_neg hadmitted] at hoption
      cases hoption

/-- A pad that carries a byte and a payload that is too long are refused in between. -/
def relayedSettings : List Setting :=
  [⟨machineIdentifierCode, [7]⟩, ⟨classIdentifierCode, ClassIdentifier.name⟩, ⟨0, [1]⟩, ⟨224, [255, 0]⟩,
    ⟨machineIdentifierCode, List.replicate 256 0⟩]

theorem setAll_represents_relayedRequest :
    (∀ setting ∈ relayedSettings, setting.Raw) ∧
      ((OptionStore.setAll relayedRequest relayedSettings).option? machineIdentifierCode).value = some [7] ∧
      ((OptionStore.setAll relayedRequest relayedSettings).option? 224).value = some [255, 0] ∧
      (OptionStore.setAll relayedRequest relayedSettings).options.get? (.known 53) = some ⟨.known 53, [3]⟩ := by
  have hraw : ∀ setting ∈ relayedSettings, setting.Raw := by decide
  obtain ⟨-, hread, -, -, hothers⟩ := setAll_represents relayedRequest hraw
  refine ⟨hraw, ?_, ?_, ?_⟩
  · exact (hread machineIdentifierCode (by decide)).trans (by decide +kernel)
  · exact (hread 224 (by decide)).trans (by decide +kernel)
  · exact (hothers (.known 53) (by decide +kernel)).trans rfl

end Message

end ProxyDhcp
