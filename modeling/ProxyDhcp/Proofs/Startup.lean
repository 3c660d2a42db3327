/-
The start of a server. The plugins are set up first (`Chain.ofSpecs_exact`); only then is the socket asked for.
`Server.startWith` shows what is asked of the host, and with a host that answers at once it is `Server.start`. Where a
plugin is not known it is the answer alone, so nothing is asked of the host (`Server.startWith_of_error`); where all
are known it asks once, and for what the configuration names (`Server.startWith_of_ok`).
-/
import ProxyDhcp.Proofs.PluginChain
import ProxyDhcp.Server

namespace ProxyDhcp

namespace Server

variable {m : Type → Type} [Monad m] {prepare : String → UInt16 → m (Except SocketError Unit)} {config : ServerConfig}

theorem startWith_of_error {cause : Error} (h : (Chain.ofSpecs config.plugins).value = .error cause) :
    startWith prepare config = pure ⟨.error cause, (Chain.ofSpecs config.plugins).events⟩ := by
  simp only [startWith, h]

theorem startWith_of_ok {chain : Chain} (h : (Chain.ofSpecs config.plugins).value = .ok chain) :
    startWith prepare config =
      prepare config.interface config.serverPort >>= fun prepared =>
        pure (listen config chain (Chain.ofSpecs config.plugins).events prepared) := by
  simp only [startWith, h]

/-- The start on a host is the one where the host answers at once. -/
theorem start_eq_startWith (host : Host) (config : ServerConfig) :
    start host config = Id.run (startWith (fun interface port => pure (host.prepare interface port)) config) := by
  cases h : (Chain.ofSpecs config.plugins).value with
  | error cause =>
    rw [startWith_of_error h]
    refine Logged.ext ?_ ?_
    · rw [start, Logged.value_bind, h]
      rfl
    · rw [start, Logged.events_bind, h]
      exact List.append_nil _
  | ok chain =>
    rw [startWith_of_ok h]
    refine Logged.ext ?_ ?_
    · rw [start, Logged.value_bind, h]
      simp only [Host.prepare, pure_bind, Id.run_pure]
      cases host.refusal? config.interface <;> rfl
    · rw [start, Logged.events_bind, h]
      simp only [Host.prepare, pure_bind, Id.run_pure]
      cases host.refusal? config.interface
      · rfl
      · exact List.append_nil _

/-- A socket that is always prepared, by a host that keeps what it was asked for. -/
def recorded (interface : String) (port : UInt16) : StateM (List (String × UInt16)) (Except SocketError Unit) := do
  modify (· ++ [(interface, port)])
  return .ok ()

end Server

namespace Chain

/-- **A chain is all that was asked for, or the first unknown plugin.** A list of specifications gives a chain exactly
if each of them has the name of a plugin. Then the chain has a handler for each, by its name and in its place, and the
setup of each is reported. Otherwise the error has the first name that no plugin has, and the setup of those in front
of it is reported and nothing else. The start of a server with these specifications ends with that error and that
report, whatever its interface and its host, and asks nothing of the host. -/
theorem ofSpecs_exact (specs : List PluginSpec) :
    ((∃ chain, (ofSpecs specs).value = .ok chain) ↔ ∀ spec ∈ specs, Plugin.Known spec.name) ∧
    (∀ chain, (ofSpecs specs).value = .ok chain →
      chain = specs.map PluginSpec.handler ∧ chain.names = specs.map PluginSpec.name ∧
        (ofSpecs specs).events = specs.flatMap PluginSpec.setupEvents) ∧
    (∀ cause, (ofSpecs specs).value = .error cause ↔
      ∃ front spec, FirstUnknown specs front spec ∧ cause = .unknownPlugin spec.name) ∧
    (∀ front spec, FirstUnknown specs front spec →
      (ofSpecs specs).events = front.flatMap PluginSpec.setupEvents) ∧
    ∀ cause, (ofSpecs specs).value = .error cause → ∀ config : ServerConfig,
      (∀ host, Server.start host { config with plugins := specs } = ⟨.error cause, (ofSpecs specs).events⟩) ∧
      ∀ (m : Type → Type) [Monad m] (prepare : String → UInt16 → m (Except SocketError Unit)),
        Server.startWith prepare { config with plugins := specs } =
          pure ⟨.error cause, (ofSpecs specs).events⟩ := by
  refine ⟨⟨?_, fun hknown => ⟨_, ofSpecs_eq_ok_iff.2 ⟨hknown, rfl⟩⟩⟩, ?_, fun cause => ofSpecs_eq_error_iff, ?_, ?_⟩
  · rintro ⟨chain, hchain⟩
    exact (ofSpecs_eq_ok_iff.1 hchain).1
  · intro chain hchain
    obtain ⟨hknown, rfl⟩ := ofSpecs_eq_ok_iff.1 hchain
    exact ⟨rfl, List.map_map, congrArg Logged.events (ofSpecs_of_known hknown)⟩
  · intro front spec hfirst
    rw [ofSpecs_of_firstUnknown hfirst]
  · intro cause hcause config
    refine ⟨fun host => ?_, fun m _ prepare => Server.startWith_of_error hcause⟩
    rw [Server.start_eq_startWith, Server.startWith_of_error hcause]
    rfl

/-- Two plugins that are known, the first with arguments, then one whose name differs in its case, and two more. -/
def mixedSpecs : List PluginSpec :=
  [⟨"pxe", ["fast", ""]⟩, ⟨"pxe", []⟩, ⟨"PXE", ["late"]⟩, ⟨"pxe", []⟩, ⟨"menu", []⟩]

theorem ofSpecs_exact_mixedSpecs :
    (ofSpecs mixedSpecs).value = .error (.unknownPlugin "PXE") ∧
    (ofSpecs mixedSpecs).events.map Event.line =
      ["WARN PXE plugin ignores its arguments: [\"fast\", \"\"]", "INFO Loaded PXE plugin for DHCPv4",
        "INFO Loaded plugin 'pxe'", "INFO Loaded PXE plugin for DHCPv4", "INFO Loaded plugin 'pxe'"] ∧
    (Server.startWith Server.recorded { interface := "eth0", plugins := mixedSpecs } []).2 = [] ∧
    (Server.startWith Server.recorded { interface := "eth0", plugins := mixedSpecs.take 2 } []).2 = [("eth0", 67)] ∧
    ∃ chain, (ofSpecs (mixedSpecs.take 2)).value = .ok chain ∧ chain.names = ["pxe", "pxe"] := by
  have hfirst : FirstUnknown mixedSpecs (mixedSpecs.take 2) ⟨"PXE", ["late"]⟩ := ⟨⟨_, rfl⟩, by decide, by decide⟩
  obtain ⟨-, -, herror, hevents, hstart⟩ := ofSpecs_exact mixedSpecs
  obtain ⟨hok, hnames, -⟩ := ofSpecs_exact (mixedSpecs.take 2)
  have hcause := (herror _).2 ⟨_, _, hfirst, rfl⟩
  obtain ⟨chain, hchain⟩ := hok.2 (by decide)
  refine ⟨hcause, ?_, ?_, ?_, chain, hchain, (hnames chain hchain).2.1⟩
  · rw [hevents _ _ hfirst]
    decide +kernel
  · rw [(hstart _ hcause { interface := "eth0" }).2 _ Server.recorded]
    rfl
  · rw [Server.startWith_of_ok hchain]
    rfl

end Chain

end ProxyDhcp
