/-
The chains that a configuration can ask for. Its plugins are set up in their order (`Chain.ofSpecs_append`), up to the
first that is not known (`Chain.ofSpecs_of_firstUnknown`). There is one plugin, so such a chain is a row of its
handlers (`Chain.eq_of_ofSpecs`). What one of them adds the request decides alone (`exists_foldl_augment`), and options
that were added are the same when they are added again (`Message.foldl_withOption_foldl`), so a row of any length does
what one handler does (`Chain.run_pxe`).
-/
import ProxyDhcp.Plugin
import ProxyDhcp.Proofs.Augment
import ProxyDhcp.Proofs.Settings

namespace ProxyDhcp

/-! ## Setup -/

namespace Plugin

/-- Some plugin has exactly this name. -/
def Known (name : String) : Prop := name ∈ all.map Plugin.name

instance (name : String) : Decidable (Known name) := inferInstanceAs (Decidable (name ∈ all.map Plugin.name))

theorem known_iff {name : String} : Known name ↔ name = pxe.name := by
  simp [Known, all]

theorem find?_of_known {name : String} (h : Known name) : find? name = some pxe := by
  rw [known_iff.1 h]
  rfl

theorem find?_of_not_known {name : String} (h : ¬ Known name) : find? name = none := by
  refine List.find?_eq_none.2 fun plugin hplugin hname => h ?_
  exact List.mem_map.2 ⟨plugin, hplugin, beq_iff_eq.1 hname⟩

/-- The setup of the PXE plugin succeeds, and warns of arguments if there are any. -/
theorem setup_pxe (arguments : List String) :
    pxe.setup arguments =
      ⟨.ok (Handler.pxe .standard),
        (if arguments = [] then [] else [.argumentsIgnored arguments]) ++ [.templatesLoaded]⟩ := by
  simp only [pxe, setupTemplates, Templates.build_eq]
  cases arguments <;> rfl

theorem value_setup_pxe (arguments : List String) :
    (pxe.setup arguments).value = .ok (Handler.pxe .standard) := by
  rw [setup_pxe]

end Plugin

namespace PluginSpec

/-- The handler that a chain gets for a plugin that is known. -/
def handler (spec : PluginSpec) : Handler := { Handler.pxe .standard with name := spec.name }

/-- What is reported while such a plugin is set up. -/
def setupEvents (spec : PluginSpec) : List Event :=
  (if spec.arguments = [] then [] else [.argumentsIgnored spec.arguments]) ++
    [.templatesLoaded, .pluginLoaded spec.name]

theorem handler_of_known {spec : PluginSpec} (h : Plugin.Known spec.name) : spec.handler = Handler.pxe .standard := by
  rw [handler, Plugin.known_iff.1 h]
  rfl

end PluginSpec

namespace Chain

variable {specs front : List PluginSpec} {spec : PluginSpec}

theorem ofSpecs_cons_of_not_known (h : ¬ Plugin.Known spec.name) (specs : List PluginSpec) :
    ofSpecs (spec :: specs) = ⟨.error (.unknownPlugin spec.name), []⟩ := by
  rw [ofSpecs, Plugin.find?_of_not_known h]
  rfl

theorem ofSpecs_cons_of_known (h : Plugin.Known spec.name) (specs : List PluginSpec) :
    ofSpecs (spec :: specs) =
      ⟨(ofSpecs specs).value.map (spec.handler :: ·), spec.setupEvents ++ (ofSpecs specs).events⟩ := by
  rw [ofSpecs, Plugin.find?_of_known h, PluginSpec.handler, PluginSpec.setupEvents, Plugin.known_iff.1 h]
  refine Logged.ext ?_ ?_
  · simp only [Logged.value_bind, Plugin.setup_pxe]
    rfl
  · simp [Plugin.setup_pxe]

/-- **Plugins that are known are set up in their order, and then the others.** -/
theorem ofSpecs_append (h : ∀ spec ∈ front, Plugin.Known spec.name) (specs : List PluginSpec) :
    ofSpecs (front ++ specs) =
      ⟨(ofSpecs specs).value.map (front.map PluginSpec.handler ++ ·),
        front.flatMap PluginSpec.setupEvents ++ (ofSpecs specs).events⟩ := by
  induction front with
  | nil => exact Logged.ext (congrFun Except.map_id _).symm rfl
  | cons spec front ih =>
    rw [List.forall_mem_cons] at h
    rw [List.cons_append, ofSpecs_cons_of_known h.1, ih h.2]
    refine Logged.ext ?_ ?_
    · cases (ofSpecs specs).value <;> rfl
    · simp

/-- A list whose plugins are all known gives a chain of all of them. -/
theorem ofSpecs_of_known (h : ∀ spec ∈ specs, Plugin.Known spec.name) :
    ofSpecs specs = ⟨.ok (specs.map PluginSpec.handler), specs.flatMap PluginSpec.setupEvents⟩ := by
  have happend := ofSpecs_append h []
  rw [List.append_nil] at happend
  rw [happend]
  exact Logged.ext (by simp [ofSpecs, Except.map]) (by simp [ofSpecs])

/-- A specification whose plugin is not known, the first of a list, and those in front of it. -/
structure FirstUnknown (specs front : List PluginSpec) (spec : PluginSpec) : Prop where
  stands : ∃ rest, specs = front ++ spec :: rest
  known : ∀ other ∈ front, Plugin.Known other.name
  unknown : ¬ Plugin.Known spec.name

/-- A list with an unknown plugin ends at the first of them. -/
theorem ofSpecs_of_firstUnknown (h : FirstUnknown specs front spec) :
    ofSpecs specs = ⟨.error (.unknownPlugin spec.name), front.flatMap PluginSpec.setupEvents⟩ := by
  obtain ⟨⟨rest, rfl⟩, hknown, hunknown⟩ := h
  rw [ofSpecs_append hknown, ofSpecs_cons_of_not_known hunknown]
  exact Logged.ext rfl (List.append_nil _)

theorem known_or_firstUnknown (specs : List PluginSpec) :
    (∀ spec ∈ specs, Plugin.Known spec.name) ∨ ∃ front spec, FirstUnknown specs front spec := by
  cases hfind : specs.find? fun spec => ¬ Plugin.Known spec.name with
  | none =>
    refine .inl fun spec hspec => ?_
    simpa using List.find?_eq_none.1 hfind spec hspec
  | some spec =>
    obtain ⟨hunknown, front, rest, hspecs, hknown⟩ := List.find?_eq_some_iff_append.1 hfind
    exact .inr ⟨front, spec, ⟨rest, hspecs⟩, by simpa using hknown, by simpa using hunknown⟩

/-- There is a chain exactly if all plugins are known, and it has a handler for each of them. -/
theorem ofSpecs_eq_ok_iff {chain : Chain} :
    (ofSpecs specs).value = .ok chain ↔
      (∀ spec ∈ specs, Plugin.Known spec.name) ∧ chain = specs.map PluginSpec.handler := by
  constructor
  · intro h
    rcases known_or_firstUnknown specs with hknown | ⟨front, spec, hfirst⟩
    · rw [ofSpecs_of_known hknown] at h
      exact ⟨hknown, (Except.ok.inj h).symm⟩
    · rw [ofSpecs_of_firstUnknown hfirst] at h
      cases h
  · rintro ⟨hknown, rfl⟩
    rw [ofSpecs_of_known hknown]

/-- There is an error exactly if one is not known, and it has the name of the first of them. -/
theorem ofSpecs_eq_error_iff {cause : Error} :
    (ofSpecs specs).value = .error cause ↔
      ∃ front spec, FirstUnknown specs front spec ∧ cause = .unknownPlugin spec.name := by
  constructor
  · intro h
    rcases known_or_firstUnknown specs with hknown | ⟨front, spec, hfirst⟩
    · rw [ofSpecs_of_known hknown] at h
      cases h
    · rw [ofSpecs_of_firstUnknown hfirst] at h
      exact ⟨front, spec, hfirst, (Except.error.inj h).symm⟩
  · rintro ⟨front, spec, hfirst, rfl⟩
    rw [ofSpecs_of_firstUnknown hfirst]

/-- Every plugin that a configuration names is the same one, whatever its arguments. -/
theorem eq_of_ofSpecs {chain : Chain} (h : (ofSpecs specs).value = .ok chain) :
    chain = List.replicate specs.length (Handler.pxe .standard) := by
  obtain ⟨hknown, rfl⟩ := ofSpecs_eq_ok_iff.1 h
  rw [List.map_congr_left fun spec hspec => PluginSpec.handler_of_known (hknown spec hspec), List.map_const']

/-- A configuration that names the PXE plugin alone gets such a chain. -/
theorem value_ofSpecs_pxe (h : ∀ spec ∈ specs, spec.name = Plugin.pxe.name) :
    (ofSpecs specs).value = .ok (List.replicate specs.length (Handler.pxe .standard)) := by
  have hvalue := ofSpecs_eq_ok_iff.2 ⟨fun spec hspec => Plugin.known_iff.2 (h spec hspec), rfl⟩
  rw [hvalue, eq_of_ofSpecs hvalue]

end Chain

/-! ## Adding again -/

/-- **What augmentation adds is decided by the request alone**: nothing, or the templates and the request's own
option 97. -/
theorem exists_foldl_augment (templates : Templates) (request : Message) :
    ∃ (options : List DhcpOption) (added : Bool),
      (∀ option ∈ options, option = templates.classIdentifier ∨
        request.options.get? (.known machineIdentifierCode) = some option ∨ option = templates.vendorSpecific) ∧
      ∀ reply, (augment templates request reply).value = (options.foldl Message.withOption reply, added) := by
  simp only [augment, Logged.value_bind, ofByte_machineIdentifierCode]
  cases (isPxeClient request).value with
  | false => exact ⟨[], false, by simp, fun _ => rfl⟩
  | true =>
    simp only [Bool.not_true, Bool.false_eq_true, if_false]
    cases hget : request.options.get? (.known machineIdentifierCode) with
    | none => exact ⟨[], false, by simp, fun _ => rfl⟩
    | some identifier =>
      simp only [Logged.value_bind]
      split
      · exact ⟨[templates.classIdentifier, identifier, templates.vendorSpecific], true, by simp, fun _ => rfl⟩
      · exact ⟨[], false, by simp, fun _ => rfl⟩

/-- **A second time changes nothing**, and says the same. -/
theorem augment_augment (templates : Templates) (request reply : Message) :
    (augment templates request (augment templates request reply).value.1).value =
      (augment templates request reply).value := by
  obtain ⟨options, added, -, haugment⟩ := exists_foldl_augment templates request
  simp only [haugment, Message.foldl_withOption_foldl]

/-! ## Runs -/

theorem Handler.value_pxe (request reply : Message) :
    ((Handler.pxe .standard).handle request reply).value =
      ((augment .standard request reply).value.1, .proceed) := by
  simp only [Handler.pxe, Logged.value_bind]
  split <;> rfl

theorem Chain.value_run_pxe_cons (chain : Chain) (request reply : Message) :
    (run (Handler.pxe .standard :: chain) request reply).value =
      (run chain request (augment .standard request reply).value.1).value := by
  simp only [run, Logged.value_bind, Handler.value_pxe]

/-- **A row of PXE handlers does what one of them does.** -/
theorem Chain.run_pxe (n : Nat) (request reply : Message) :
    (run (List.replicate (n + 1) (Handler.pxe .standard)) request reply).value =
      (augment .standard request reply).value.1 := by
  induction n generalizing reply with
  | zero =>
    rw [List.replicate_one, value_run_pxe_cons]
    rfl
  | succ n ih => rw [List.replicate_succ, value_run_pxe_cons, ih, augment_augment]

/-- A chain that a configuration with at least one plugin asked for adds the PXE options once. -/
theorem Chain.run_of_ofSpecs {specs : List PluginSpec} {chain : Chain} (hspecs : specs ≠ [])
    (hchain : (ofSpecs specs).value = .ok chain) (request reply : Message) :
    (run chain request reply).value = (augment .standard request reply).value.1 := by
  obtain rfl := eq_of_ofSpecs hchain
  obtain ⟨n, hn⟩ := Nat.exists_eq_succ_of_ne_zero (mt List.length_eq_zero_iff.1 hspecs)
  rw [hn]
  exact run_pxe n request reply

/-- **To name the plugin again is harmless.** Whatever the templates are, augmentation a second time leaves the
reply as it is and says the same as the first time. So a chain that a configuration asked for, however many plugins
it names and whatever their arguments are, leaves the reply that one handler without arguments leaves, and the reply
it was given if no plugin is named. Neither the options of the request nor those of the reply have to lie under
their own codes. -/
theorem Chain.run_ofSpecs_eq_once (request reply : Message) :
    (∀ templates, (augment templates request (augment templates request reply).value.1).value =
      (augment templates request reply).value) ∧
    ∃ handler, (Plugin.pxe.setup []).value = .ok handler ∧
      ∀ specs chain, (ofSpecs specs).value = .ok chain →
        (run chain request reply).value =
          if specs = [] then reply else (handler.handle request reply).value.1 := by
  refine ⟨fun templates => augment_augment templates request reply, _, Plugin.value_setup_pxe [],
    fun specs chain hchain => ?_⟩
  by_cases hspecs : specs = []
  · subst hspecs
    rw [if_pos rfl, eq_of_ofSpecs hchain]
    rfl
  · rw [if_neg hspecs, run_of_ofSpecs hspecs hchain, Handler.value_pxe]

/-- The plugin named three times, twice with arguments. -/
def repeatedSpecs : List PluginSpec := [⟨"pxe", []⟩, ⟨"pxe", ["late"]⟩, ⟨"pxe", ["", "twice"]⟩]

/-- Of a reply whose places are taken they leave what one handler leaves. -/
theorem Chain.run_ofSpecs_eq_once_occupiedReply :
    ∃ chain, (ofSpecs repeatedSpecs).value = .ok chain ∧ chain.length = 3 ∧
      (run chain relayedRequest occupiedReply).value = occupiedReply.withPxeOptions relayedIdentifier := by
  have hnames : ∀ spec ∈ repeatedSpecs, spec.name = Plugin.pxe.name := by simp [repeatedSpecs, Plugin.pxe]
  have hchain := value_ofSpecs_pxe hnames
  obtain ⟨-, handler, hhandler, hruns⟩ := run_ofSpecs_eq_once relayedRequest occupiedReply
  rw [Plugin.value_setup_pxe] at hhandler
  cases hhandler
  have heligible : Eligible relayedRequest :=
    ⟨isPxeClient_relayedRequest, relayedIdentifier, option?_relayedRequest.2, by decide⟩
  refine ⟨_, hchain, rfl, ?_⟩
  rw [hruns _ _ hchain, if_neg (show repeatedSpecs ≠ [] from List.cons_ne_nil _ _), Handler.value_pxe]
  rcases augment_cases relayedRequest_proper occupiedReply with ⟨hnot, -⟩ | ⟨-, id, hid, -, hvalue⟩
  · exact absurd heligible hnot
  · rw [option?_relayedRequest.2, Option.some.injEq] at hid
    rw [hvalue, hid]

end ProxyDhcp
