/-
The order of handlers. Where every handler lets the chain go on, a run is one effect after the other
(`Chain.value_run_eq_foldl`), and handlers whose effects commute may be run in any order
(`Chain.run_eq_of_perm`). Options under different codes may be added in either order
(`Message.withOption_comm`), and what a PXE handler adds the request decides alone (`exists_foldl_augment`). So
settings of different codes commute, and with PXE handlers too as long as they leave options 43, 60 and 97 alone
(`Chain.run_perm`).

One pair of codes is an exception: option 37 is kept under 23, so of settings of 23 and 37 the later one holds
(`Chain.run_timeToLive`).
-/
import Mathlib.Data.List.Forall2
import Mathlib.Data.List.Pairwise
import ProxyDhcp.Proofs.Handlers

namespace ProxyDhcp

/-! ## Commuting effects -/

namespace Handler

/-- The reply that a handler leaves. -/
def effect (request : Message) (reply : Message) (handler : Handler) : Message :=
  (handler.handle request reply).value.1

/-- A handler that lets the chain go on, whatever the reply. -/
def Proceeds (request : Message) (handler : Handler) : Prop :=
  ∀ reply, (handler.handle request reply).value.2 = .proceed

/-- Two handlers that may be run in either order. -/
def Commute (request : Message) (handler other : Handler) : Prop :=
  ∀ reply, effect request (effect request reply handler) other =
    effect request (effect request reply other) handler

variable {request : Message} {handler other : Handler}

theorem IsPxe.effect (h : handler.IsPxe) (request reply : Message) :
    handler.effect request reply = (augment .standard request reply).value.1 :=
  congrArg Prod.fst (h.value_handle request reply)

theorem IsPxe.proceeds (h : handler.IsPxe) (request : Message) : handler.Proceeds request :=
  fun reply => congrArg Prod.snd (h.value_handle request reply)

theorem Commute.refl (request : Message) (handler : Handler) : Commute request handler handler := fun _ => rfl

theorem Commute.symm (h : Commute request handler other) : Commute request other handler :=
  fun reply => (h reply).symm

theorem IsPxe.commute (h : handler.IsPxe) (hother : other.IsPxe) (request : Message) :
    Commute request handler other := by
  intro reply
  rw [h.effect, h.effect, hother.effect, hother.effect]

end Handler

namespace Chain

variable {request : Message}

theorem value_run_eq_foldl {chain : Chain} (h : ∀ handler ∈ chain, handler.Proceeds request) (reply : Message) :
    (run chain request reply).value = chain.foldl (Handler.effect request) reply := by
  induction chain generalizing reply with
  | nil => rfl
  | cons handler chain ih =>
    rw [List.forall_mem_cons] at h
    have hflow := h.1 reply
    rw [value_run_cons, List.foldl_cons, Handler.effect]
    rcases hvalue : (handler.handle request reply).value with ⟨after, flow⟩
    rw [hvalue] at hflow
    subst hflow
    exact ih h.2 after

/-- Handlers that commute may be run in any order. -/
theorem run_eq_of_perm {chain other : Chain} (hperm : chain.Perm other)
    (hproceeds : ∀ handler ∈ chain, handler.Proceeds request)
    (hcommute : ∀ handler ∈ chain, ∀ next ∈ chain, Handler.Commute request handler next) (reply : Message) :
    (run chain request reply).value = (run other request reply).value := by
  rw [value_run_eq_foldl hproceeds, value_run_eq_foldl fun handler hmem => hproceeds handler (hperm.mem_iff.2 hmem)]
  exact hperm.foldl_eq' hcommute reply

end Chain

/-! ## Options under different codes -/

/-- The default time to live of IP, under whose code option `tcpTimeToLive` is kept. -/
def Message.timeToLive : UInt8 := 23

/-- The two times to live are the only codes that share a place. -/
theorem DhcpOption.keptCode_eq_iff {code other : UInt8} :
    keptCode code = keptCode other ↔ code = other ∨
      (code = Message.timeToLive ∧ other = Message.tcpTimeToLive) ∨
      (code = Message.tcpTimeToLive ∧ other = Message.timeToLive) := by
  rw [keptCode, keptCode, Message.timeToLive, Message.tcpTimeToLive]
  grind

namespace Message

theorem withOption_comm (message : Message) (option other : DhcpOption) (hne : option.code ≠ other.code) :
    (message.withOption option).withOption other = (message.withOption other).withOption option := by
  refine ext_get? rfl fun code => ?_
  simp only [withOption, OptionTable.get?_add]
  by_cases hoption : code = option.code
  · have hother : code ≠ other.code := fun h => hne (hoption.symm.trans h)
    rw [if_neg hother, if_pos hoption, if_pos hoption]
  · rw [if_neg hoption, if_neg hoption]

theorem get?_withOption_self (message : Message) (code : OptionCode) (content : Bytes) :
    (message.withOption ⟨code, content⟩).options.get? code = some ⟨code, content⟩ := by
  rw [withOption, OptionTable.get?_add, if_pos rfl]

/-- An option in place of another under its code. -/
theorem withOption_withOption (message : Message) (code : OptionCode) (first second : Bytes) :
    (message.withOption ⟨code, first⟩).withOption ⟨code, second⟩ = message.withOption ⟨code, second⟩ := by
  refine ext_get? rfl fun other => ?_
  simp only [withOption, OptionTable.get?_add]
  by_cases heq : other = code
  · rw [if_pos heq, if_pos heq]
  · rw [if_neg heq, if_neg heq, if_neg heq]

/-- An option and a row of options under other codes. -/
theorem foldl_withOption_comm {options : List DhcpOption} {option : DhcpOption}
    (h : ∀ other ∈ options, option.code ≠ other.code) (message : Message) :
    (options.foldl withOption message).withOption option = options.foldl withOption (message.withOption option) := by
  induction options generalizing message with
  | nil => rfl
  | cons other options ih =>
    rw [List.forall_mem_cons] at h
    rw [List.foldl_cons, List.foldl_cons, ih h.2, message.withOption_comm option other h.1]

end Message

/-! ## Settings as handlers -/

namespace Setting

/-- Two settings whose options lie under different codes, where both succeed. -/
def Apart (setting other : Setting) : Prop :=
  ∀ option next, setting.option? = some option → other.option? = some next → option.code ≠ next.code

theorem Apart.symm {setting other : Setting} (h : setting.Apart other) : other.Apart setting :=
  fun option next hoption hnext heq => h next option hnext hoption heq.symm

/-- Settings under different codes are made in either order. -/
theorem Apart.set_comm {setting other : Setting} (h : setting.Apart other) (reply : Message) :
    OptionStore.set (OptionStore.set reply setting) other = OptionStore.set (OptionStore.set reply other) setting := by
  simp only [OptionStore.set_message]
  cases hoption : setting.option? with
  | none => rfl
  | some option =>
    cases hnext : other.option? with
    | none => rfl
    | some next => exact reply.withOption_comm option next (h option next hoption hnext)

/-- A setting of none of the PXE options. -/
def Free (setting : Setting) : Prop :=
  setting.code ≠ vendorSpecificCode ∧ setting.code ≠ classIdentifierCode ∧
    setting.code ≠ machineIdentifierCode

instance (setting : Setting) : Decidable setting.Free := inferInstanceAs (Decidable (_ ∧ _ ∧ _))

/-- A setting of another option is made before or after the PXE options are added. -/
theorem Free.augment_set {setting : Setting} (h : setting.Free) {request : Message}
    (hown : ∀ option, request.options.get? (.known machineIdentifierCode) = some option →
      option.code = .known machineIdentifierCode) (reply : Message) :
    (augment .standard request (OptionStore.set reply setting)).value.1 =
      OptionStore.set (augment .standard request reply).value.1 setting := by
  rw [OptionStore.set_message, OptionStore.set_message]
  cases hoption : setting.option? with
  | none => rfl
  | some option =>
    have hvendor := ne_of_option? hoption h.1 (by decide)
    have hclass := ne_of_option? hoption h.2.1 (by decide)
    have hmachine := ne_of_option? hoption h.2.2 (by decide)
    obtain ⟨options, added, hoptions, haugment⟩ := exists_foldl_augment .standard request
    rw [haugment, haugment]
    refine (Message.foldl_withOption_comm (fun other hmem => ?_) reply).symm
    rcases hoptions other hmem with rfl | hget | rfl
    · exact hclass
    · rw [hown other hget]
      exact hmachine
    · exact hvendor

/-- What is set lies under the code that it is set by. -/
def OwnCode (setting : Setting) : Prop :=
  ∀ option, setting.option? = some option → option.code = .ofByte setting.code

theorem OwnCode.apart {setting other : Setting} (h : setting.OwnCode) (hother : other.OwnCode)
    (hne : setting.code ≠ other.code) : setting.Apart other := by
  intro option next hoption hnext heq
  rw [h option hoption, hother next hnext] at heq
  exact hne (OptionCode.ofByte_injective heq)

/-- This is so for every code but one. -/
theorem ownCode_of_ne {setting : Setting} (h : setting.code ≠ Message.tcpTimeToLive) : setting.OwnCode := by
  intro option hoption
  have hkept : DhcpOption.keptCode setting.code = setting.code := if_neg h
  rw [code_of_option? hoption, hkept]

/-- The code that is an exception shares a place with `Message.timeToLive` alone. -/
theorem apart_of_ne_timeToLive {setting other : Setting} (hcode : setting.code ≠ Message.timeToLive)
    (hother : other.code ≠ Message.timeToLive) (hne : setting.code ≠ other.code) : setting.Apart other := by
  intro option next hoption hnext heq
  rw [code_of_option? hoption, code_of_option? hnext] at heq
  rcases DhcpOption.keptCode_eq_iff.1 (OptionCode.ofByte_injective heq) with heq | ⟨htime, -⟩ | ⟨-, htime⟩
  · exact hne heq
  · exact hcode htime
  · exact hother htime

/-- Either time to live is one byte under the code of IP's. -/
theorem set_timeToLive {code : UInt8} (h : code = Message.timeToLive ∨ code = Message.tcpTimeToLive) (byte : UInt8)
    (message : Message) :
    OptionStore.set message ⟨code, [byte]⟩ = message.withOption ⟨.known Message.timeToLive, [byte]⟩ := by
  have hcode : code ≠ DhcpOption.padCode ∧ code ≠ DhcpOption.endCode := by
    rcases h with rfl | rfl <;> decide
  have hread : DhcpOption.ofContent code [byte] = .ok ⟨.known Message.timeToLive, [byte]⟩ := by
    rcases h with rfl | rfl <;> rfl
  have hoption : (⟨code, [byte]⟩ : Setting).option? = some ⟨.known Message.timeToLive, [byte]⟩ :=
    option?_eq_some_iff.2 ⟨⟨hcode.1, hcode.2, by simp⟩, hread⟩
  rw [OptionStore.set_message, hoption]

theorem pairwise_apart {settings : List Setting} (hcodes : (settings.map code).Nodup)
    (hkept : (∀ setting ∈ settings, setting.OwnCode) ∨ Message.timeToLive ∉ settings.map code) :
    settings.Pairwise Apart := by
  have hne : settings.Pairwise fun setting other => setting.code ≠ other.code := List.pairwise_map.1 hcodes
  refine hne.imp_of_mem fun {setting other} hmem hother hne => ?_
  rcases hkept with hown | htime
  · exact (hown setting hmem).apart (hown other hother) hne
  · have hplace : ∀ setting ∈ settings, setting.code ≠ Message.timeToLive :=
      fun setting hmem heq => htime (heq ▸ List.mem_map_of_mem hmem)
    exact apart_of_ne_timeToLive (hplace setting hmem) (hplace other hother) hne

end Setting

namespace Handler

variable {request : Message} {handler other : Handler} {setting next : Setting}

theorem Sets.effect (h : Sets request handler setting) (reply : Message) :
    effect request reply handler = OptionStore.set reply setting :=
  congrArg Prod.fst (h reply)

theorem Sets.proceeds (h : Sets request handler setting) : handler.Proceeds request :=
  fun reply => congrArg Prod.snd (h reply)

theorem Sets.commute (h : Sets request handler setting) (hother : Sets request other next)
    (hapart : setting ≠ next → setting.Apart next) : Commute request handler other := by
  intro reply
  rw [h.effect, hother.effect, hother.effect, h.effect]
  by_cases heq : setting = next
  · rw [heq]
  · exact (hapart heq).set_comm reply

theorem Sets.commute_pxe (h : Sets request handler setting) (hfree : setting.Free) {pxe : Handler} (hpxe : pxe.IsPxe)
    (hown : ∀ option, request.options.get? (.known machineIdentifierCode) = some option →
      option.code = .known machineIdentifierCode) : Commute request handler pxe := by
  intro reply
  rw [h.effect, hpxe.effect, hpxe.effect, h.effect]
  exact hfree.augment_set hown reply

/-- Each handler of a row makes one of the settings. -/
theorem exists_sets {handlers : List Handler} {settings : List Setting}
    (h : List.Forall₂ (Sets request) handlers settings) (hmem : handler ∈ handlers) :
    ∃ setting ∈ settings, Sets request handler setting := by
  induction h with
  | nil => cases hmem
  | cons hsets hrest ih =>
    rcases List.mem_cons.1 hmem with rfl | hlater
    · exact ⟨_, List.mem_cons_self, hsets⟩
    · obtain ⟨setting, hsetting, hmakes⟩ := ih hlater
      exact ⟨setting, List.mem_cons_of_mem _ hsetting, hmakes⟩

end Handler

namespace Chain

/-- **Independent handlers may be configured in any order.** Two chains of the same PXE handlers and setters, each
setter a handler that makes one setting and lets the chain go on, leave the same reply, whichever of the settings fail.
The settings are of different codes and of none of the PXE options. What is set has to lie under the code that it is
set by, as it does for every code but 37; or else 23, the code that 37 is kept under, is not set. Of the request only
option 97 has to lie under its own code, since that is added as it is. -/
theorem run_perm {pxes : List Handler} (hpxes : ∀ pxe ∈ pxes, pxe.IsPxe) {request : Message} {setters : List Handler}
    {settings : List Setting} (hsetters : List.Forall₂ (Handler.Sets request) setters settings)
    (hcodes : (settings.map Setting.code).Nodup) (hfree : ∀ setting ∈ settings, setting.Free)
    (hkept : (∀ setting ∈ settings, setting.OwnCode) ∨ Message.timeToLive ∉ settings.map Setting.code)
    {chain other : Chain} (hchain : chain.Perm (pxes ++ setters)) (hother : other.Perm (pxes ++ setters))
    (hown : ∀ option, request.options.get? (.known machineIdentifierCode) = some option →
      option.code = .known machineIdentifierCode) (reply : Message) :
    (run chain request reply).value = (run other request reply).value := by
  have : Std.Symm Setting.Apart := ⟨fun _ _ h => h.symm⟩
  have hapart := (Setting.pairwise_apart hcodes hkept).forall
  have hkind : ∀ handler ∈ chain, handler.IsPxe ∨ ∃ setting ∈ settings, Handler.Sets request handler setting := by
    intro handler hmem
    rcases List.mem_append.1 (hchain.mem_iff.1 hmem) with hpxe | hset
    · exact .inl (hpxes handler hpxe)
    · exact .inr (Handler.exists_sets hsetters hset)
  refine run_eq_of_perm (hchain.trans hother.symm) (fun handler hmem => ?_) (fun handler hmem next hnext => ?_) reply
  · rcases hkind handler hmem with hpxe | ⟨setting, -, hsets⟩
    · exact hpxe.proceeds request
    · exact hsets.proceeds
  · rcases hkind handler hmem with hpxe | ⟨setting, hsetting, hsets⟩
    · rcases hkind next hnext with hother | ⟨setting, hsetting, hsets⟩
      · exact hpxe.commute hother request
      · exact (hsets.commute_pxe (hfree setting hsetting) hpxe hown).symm
    · rcases hkind next hnext with hpxe | ⟨later, hlater, hmakes⟩
      · exact hsets.commute_pxe (hfree setting hsetting) hpxe hown
      · exact hsets.commute hmakes fun hne => hapart hsetting hlater hne

/-- A handler that names the boot file, known by a name of its own. -/
def bootFile (name : Bytes) : Handler := { Handler.setOption 67 name with name := "bootfile" }

/-- A boot file, an empty message type, which is refused, and the time to live of TCP. -/
def namedSettings : List Setting :=
  [⟨67, ClassIdentifier.ascii "client"⟩, ⟨53, []⟩, ⟨Message.tcpTimeToLive, [64]⟩]

/-- The handlers that make them. -/
def namedSetters : List Handler :=
  [bootFile (ClassIdentifier.ascii "client"), Handler.setOption 53 [], Handler.setOption Message.tcpTimeToLive [64]]

/-- Two PXE handlers among them. -/
def namedChain : Chain :=
  [bootFile (ClassIdentifier.ascii "client"), Handler.pxe .standard, Handler.setOption 53 [],
    Handler.pxe .standard, Handler.setOption Message.tcpTimeToLive [64]]

theorem sets_namedSetters (request : Message) :
    List.Forall₂ (Handler.Sets request) namedSetters namedSettings :=
  .cons (Handler.sets_setOption 67 _ request) (.cons (Handler.sets_setOption 53 [] request)
    (.cons (Handler.sets_setOption Message.tcpTimeToLive [64] request) .nil))

theorem namedChain_perm :
    namedChain.Perm (List.replicate 2 (Handler.pxe .standard) ++ namedSetters) :=
  (List.Perm.swap ..).trans (.cons _ (@List.perm_middle _ _ [_, _] [_]))

theorem run_perm_namedChain :
    namedChain.names = ["bootfile", "pxe", "set", "pxe", "set"] ∧
      List.Forall₂ (Handler.Sets relayedRequest) namedSetters namedSettings ∧
      (namedSettings.map Setting.code).Nodup ∧ (∀ setting ∈ namedSettings, setting.Free) ∧
      Message.timeToLive ∉ namedSettings.map Setting.code ∧ relayedRequest.options.Proper ∧
      (run namedChain relayedRequest occupiedReply).value =
        (run namedChain.reverse relayedRequest occupiedReply).value := by
  have hpxes : ∀ pxe ∈ List.replicate 2 (Handler.pxe .standard), pxe.IsPxe := by
    intro pxe hmem
    obtain rfl := List.eq_of_mem_replicate hmem
    rfl
  have hcodes : (namedSettings.map Setting.code).Nodup := by decide
  have hfree : ∀ setting ∈ namedSettings, setting.Free := by decide
  have htime : Message.timeToLive ∉ namedSettings.map Setting.code := by decide
  have hsets := sets_namedSetters relayedRequest
  exact ⟨rfl, hsets, hcodes, hfree, htime, relayedRequest_proper,
    run_perm hpxes hsets hcodes hfree (.inr htime) namedChain_perm ((List.reverse_perm _).trans namedChain_perm)
      (relayedRequest_proper (.known machineIdentifierCode)) occupiedReply⟩

/-- Setters alone make their settings one after the other. -/
theorem run_setters {request : Message} {setters : List Handler} {settings : List Setting}
    (h : List.Forall₂ (Handler.Sets request) setters settings) (reply : Message) :
    (run setters request reply).value = OptionStore.setAll reply settings := by
  induction h generalizing reply with
  | nil => rfl
  | cons hsets hrest ih =>
    rw [value_run_cons, hsets reply]
    exact ih (OptionStore.set reply _)

/-- The two times to live are the exception: the later one holds, so their order is of no matter only where they
are the same. -/
theorem run_timeToLive (request reply : Message) (ip tcp : UInt8) :
    (run [Handler.setOption Message.timeToLive [ip], Handler.setOption Message.tcpTimeToLive [tcp]]
        request reply).value =
      (run [Handler.setOption Message.tcpTimeToLive [tcp], Handler.setOption Message.timeToLive [ip]]
        request reply).value ↔ ip = tcp := by
  have hip := Setting.set_timeToLive (.inl rfl) ip
  have htcp := Setting.set_timeToLive (.inr rfl) tcp
  have hsetsIp := Handler.sets_setOption Message.timeToLive [ip] request
  have hsetsTcp := Handler.sets_setOption Message.tcpTimeToLive [tcp] request
  rw [run_setters (.cons hsetsIp (.cons hsetsTcp .nil)), run_setters (.cons hsetsTcp (.cons hsetsIp .nil))]
  simp only [OptionStore.setAll_cons, OptionStore.setAll_nil, hip, htcp]
  rw [Message.withOption_withOption, Message.withOption_withOption]
  constructor
  · intro h
    have hget := congrArg (fun after => after.options.get? (.known Message.timeToLive)) h
    simp only [Message.get?_withOption_self] at hget
    cases hget
    rfl
  · rintro rfl
    rfl

end Chain

end ProxyDhcp
