/-
The plugins that a configuration can name, and the chain that it asks for. Plugins are set up in the
order of their specifications; the first that fails ends the work, and the events of those before it
remain.
-/
import ProxyDhcp.Chain
import ProxyDhcp.PluginSpec

namespace ProxyDhcp

/-- A name and what makes a handler of the arguments. -/
structure Plugin where
  name : String
  setup : List String → Logged (Except Error Handler)

namespace Plugin

/-- The setup of the PXE plugin, which takes no arguments and says so when it is given some. -/
def setupTemplates (arguments : List String) : Logged (Except Error Templates) := do
  if !arguments.isEmpty then
    Logged.report (.argumentsIgnored arguments)
  match Templates.build with
  | .error cause => return .error (.setup ("failed to build PXE option templates: " ++ cause.message))
  | .ok templates => do
    Logged.report .templatesLoaded
    return .ok templates

def pxe : Plugin where
  name := "pxe"
  setup arguments := (·.map Handler.pxe) <$> setupTemplates arguments

def all : List Plugin := [pxe]

/-- The plugin of exactly this name. -/
def find? (name : String) : Option Plugin :=
  all.find? (·.name == name)

end Plugin

namespace Chain

def ofSpecs : List PluginSpec → Logged (Except Error Chain)
  | [] => pure (.ok [])
  | spec :: specs =>
    match Plugin.find? spec.name with
    | none => pure (.error (.unknownPlugin spec.name))
    | some plugin => do
      match ← plugin.setup spec.arguments with
      | .error cause => return .error cause
      | .ok handler => do
        Logged.report (.pluginLoaded plugin.name)
        let rest ← ofSpecs specs
        return rest.map ({ handler with name := plugin.name } :: ·)

end Chain

end ProxyDhcp
