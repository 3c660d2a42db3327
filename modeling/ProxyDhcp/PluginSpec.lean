/-
How a plugin is asked for: `name` or `name:first,second`. The name ends at the first colon and blanks
around it do not count; the arguments are the pieces between commas, each exactly as written.
-/
import ProxyDhcp.Error
import ProxyDhcp.Text.Blank

namespace ProxyDhcp

structure PluginSpec where
  name : String
  arguments : List String := []
  deriving DecidableEq, Repr

namespace PluginSpec

/-- What stands in front of the first colon, without the blanks around it. -/
def nameChars (chars : List Char) : List Char :=
  Text.trimBlanks (chars.takeWhile (· != ':'))

/-- The pieces after the first colon; there are none without a colon, and at least one with it. -/
def argumentChars (chars : List Char) : List (List Char) :=
  match chars.dropWhile (· != ':') with
  | [] => []
  | _ :: rest => rest.splitOn ','

/-- Reads a specification; a name has to be there. -/
def parse (text : String) : Except Error PluginSpec :=
  let name := nameChars text.toList
  if name.isEmpty then .error (.invalidPluginSpec text)
  else .ok ⟨String.ofList name, (argumentChars text.toList).map String.ofList⟩

def text (spec : PluginSpec) : String :=
  if spec.arguments.isEmpty then spec.name
  else spec.name ++ ":" ++ String.intercalate "," spec.arguments

end PluginSpec

end ProxyDhcp
