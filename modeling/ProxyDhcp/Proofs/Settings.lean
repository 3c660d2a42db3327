/-
Options set one after the other. What a setting does to a message is decided by its code and its payload
alone: either it stands for an option, which is added, or it fails and the message stays as it is
(`OptionStore.set_message`). So what adding an option keeps, a row of settings keeps
(`OptionStore.setAll_invariant`), the header before all else.
-/
import ProxyDhcp.Proofs.ReadBack

namespace ProxyDhcp

/-- A code and the payload that its option is set to. -/
structure Setting where
  code : UInt8
  payload : Bytes
  deriving DecidableEq, Repr

namespace OptionStore

variable {σ : Type} [OptionStore σ]

/-- The store after a setting. One that fails leaves it as it is. -/
def set (store : σ) (setting : Setting) : σ :=
  match setOption store setting.code setting.payload with
  | .ok after => after
  | .error _ => store

/-- The store after a row of settings. -/
def setAll (store : σ) (settings : List Setting) : σ := settings.foldl set store

/-- Why a setting fails on a store, if it does. -/
def fault? (store : σ) (setting : Setting) : Option Error :=
  match setOption store setting.code setting.payload with
  | .ok _ => none
  | .error cause => some cause

/-- The faults of a row of settings, each at its turn. -/
def faults (store : σ) : List Setting → List (Option Error)
  | [] => []
  | setting :: settings => fault? store setting :: faults (set store setting) settings

@[simp] theorem setAll_nil (store : σ) : setAll store [] = store := rfl

@[simp] theorem setAll_cons (store : σ) (setting : Setting) (settings : List Setting) :
    setAll store (setting :: settings) = setAll (set store setting) settings := rfl

theorem fault?_eq_none_iff {store : σ} {setting : Setting} :
    fault? store setting = none ↔ ∃ after, setOption store setting.code setting.payload = .ok after := by
  rw [fault?]
  cases setOption store setting.code setting.payload <;> simp

end OptionStore

/-! ## What a setting stands for -/

namespace Setting

/-- The option that a setting stands for, if it succeeds. -/
def option? (setting : Setting) : Option DhcpOption :=
  (DhcpOption.ofPayload setting.code setting.payload).toOption

/-- A code that is not reserved and a payload that one entry can carry. -/
def Admitted (setting : Setting) : Prop :=
  setting.code ≠ DhcpOption.padCode ∧ setting.code ≠ DhcpOption.endCode ∧ setting.payload.length ≤ 255

instance (setting : Setting) : Decidable setting.Admitted :=
  inferInstanceAs (Decidable (_ ∧ _ ∧ _))

theorem option?_eq_some_iff {setting : Setting} {option : DhcpOption} :
    setting.option? = some option ↔
      setting.Admitted ∧ DhcpOption.ofContent setting.code setting.payload = .ok option := by
  rw [Admitted, ← DhcpOption.ofPayload_eq_ok_iff, option?]
  cases DhcpOption.ofPayload setting.code setting.payload <;> simp [Except.toOption]

/-- An option lies under the code that it is kept under, which is the setting's own but for one. -/
theorem code_of_option? {setting : Setting} {option : DhcpOption} (h : setting.option? = some option) :
    option.code = .ofByte (DhcpOption.keptCode setting.code) :=
  DhcpOption.wireLaws.code_ofContent (option?_eq_some_iff.1 h).2

/-- So a setting of one code does not touch the option of another, unless that is 23, which 37 is kept under. -/
theorem ne_of_option? {setting : Setting} {option : DhcpOption} (h : setting.option? = some option) {code : UInt8}
    (hne : setting.code ≠ code) (hcode : code ≠ 23) : option.code ≠ .ofByte code := by
  rw [code_of_option? h, DhcpOption.keptCode]
  intro heq
  have hkept := OptionCode.ofByte_injective heq
  split at hkept
  · exact hcode hkept.symm
  · exact hne hkept

theorem length_of_option? {setting : Setting} {option : DhcpOption} (h : setting.option? = some option) :
    option.content.length ≤ 255 := by
  obtain ⟨hadmitted, hread⟩ := option?_eq_some_iff.1 h
  obtain ⟨content, hcontent, rfl⟩ := DhcpOption.ofContent_eq_ok_iff.1 hread
  exact Nat.le_trans (Layout.contentLaws.length_content_le hcontent) hadmitted.2.2

end Setting

/-! ## Messages -/

namespace Message

theorem ext_get? {message other : Message} (hheader : message.header = other.header)
    (hget : ∀ code, message.options.get? code = other.options.get? code) : message = other := by
  obtain ⟨header, options⟩ := message
  obtain ⟨otherHeader, otherOptions⟩ := other
  obtain rfl : header = otherHeader := hheader
  obtain rfl : options = otherOptions := OptionTable.ext hget
  rfl

theorem header_foldl_withOption (options : List DhcpOption) (message : Message) :
    (options.foldl withOption message).header = message.header := by
  induction options generalizing message with
  | nil => rfl
  | cons option options ih => exact ih (message.withOption option)

/-- Of options that are added one after the other, the last of each code is there to look up. -/
theorem get?_foldl_withOption (options : List DhcpOption) (message : Message) (code : OptionCode) :
    (options.foldl withOption message).options.get? code =
      (options.filter (·.code = code)).getLast?.or (message.options.get? code) := by
  induction options generalizing message with
  | nil => rfl
  | cons option options ih =>
    rw [List.foldl_cons, ih, withOption, OptionTable.get?_add, List.filter_cons]
    by_cases hcode : option.code = code
    · simp only [hcode, if_true, decide_true, List.getLast?_cons]
      cases (options.filter (·.code = code)).getLast? <;> rfl
    · simp only [hcode, Ne.symm hcode, if_false, decide_false, Bool.false_eq_true]

/-- **Options that were added are the same when they are added again.** -/
theorem foldl_withOption_foldl (options : List DhcpOption) (message : Message) :
    options.foldl withOption (options.foldl withOption message) = options.foldl withOption message := by
  refine ext_get? (header_foldl_withOption options _) fun code => ?_
  rw [get?_foldl_withOption, get?_foldl_withOption]
  cases (options.filter (·.code = code)).getLast? <;> rfl

end Message

namespace OptionStore

theorem setOption_message (message : Message) (code : UInt8) (payload : Bytes) :
    setOption message code payload =
      (DhcpOption.ofPayload code payload).map message.withOption := by
  show message.setOption code payload = _
  rw [Message.setOption]
  cases DhcpOption.ofPayload code payload <;> rfl

/-- A setting does what its option does, and nothing where it has none. -/
theorem set_message (message : Message) (setting : Setting) :
    set message setting =
      match setting.option? with
      | none => message
      | some option => message.withOption option := by
  rw [set, setOption_message, Setting.option?]
  cases DhcpOption.ofPayload setting.code setting.payload <;> rfl

/-- A setting fails for the same cause on every message. -/
theorem fault?_message (message : Message) (setting : Setting) :
    fault? message setting =
      match DhcpOption.ofPayload setting.code setting.payload with
      | .ok _ => none
      | .error cause => some cause := by
  rw [fault?, setOption_message]
  cases DhcpOption.ofPayload setting.code setting.payload <;> rfl

/-- What adding the option of a setting keeps, a row of settings keeps. -/
theorem setAll_invariant {P : Message → Prop}
    (hadd : ∀ message (setting : Setting) option, P message → setting.option? = some option →
      P (message.withOption option))
    {message : Message} (h : P message) (settings : List Setting) : P (setAll message settings) := by
  induction settings generalizing message with
  | nil => exact h
  | cons setting settings ih =>
    rw [setAll_cons]
    apply ih
    rw [set_message]
    cases hoption : setting.option? with
    | none => exact h
    | some option => exact hadd message setting option h hoption

theorem header_setAll (message : Message) (settings : List Setting) :
    (setAll message settings).header = message.header :=
  setAll_invariant (P := fun after => after.header = message.header) (fun _ _ _ h _ => h) rfl settings

/-- An option that no setting of the row replaces stays. -/
theorem get?_setAll_other {settings : List Setting} {code : OptionCode}
    (h : ∀ setting ∈ settings, ∀ option, setting.option? = some option → option.code ≠ code)
    (message : Message) : (setAll message settings).options.get? code = message.options.get? code := by
  induction settings generalizing message with
  | nil => rfl
  | cons setting settings ih =>
    rw [List.forall_mem_cons] at h
    rw [setAll_cons, ih h.2, set_message]
    cases hoption : setting.option? with
    | none => rfl
    | some option =>
      have hne : code ≠ option.code := (h.1 option hoption).symm
      show (message.options.add option).get? code = _
      rw [OptionTable.get?_add, if_neg hne]

/-- Settings that fail alike on every store of a row fail as they would on any one of them. -/
theorem faults_eq_map {σ : Type} [OptionStore σ] {settings : List Setting} {fault : Setting → Option Error}
    (h : ∀ setting ∈ settings, ∀ store : σ, fault? store setting = fault setting) (store : σ) :
    faults store settings = settings.map fault := by
  induction settings generalizing store with
  | nil => rfl
  | cons setting settings ih =>
    rw [List.forall_mem_cons] at h
    rw [faults, List.map_cons, h.1 store, ih h.2]

end OptionStore

end ProxyDhcp
