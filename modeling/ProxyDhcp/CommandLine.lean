/-
The command line: four options that take a value, two that ask for a text, and nothing else.

A value may be the next argument or stand in its option's own argument. Arguments are read from left to
right. A value is looked at when the next known option begins or when the arguments end, so an argument
that is not known is reported before a bad value that waits in front of it.
-/
import ProxyDhcp.Server
import ProxyDhcp.Text.Decimal

namespace ProxyDhcp.CommandLine

/-- Why a command line gives no configuration. The two requests for a text are among the reasons. -/
inductive Refusal where
  | displayHelp
  | displayVersion
  /-- An option that takes no value has one. -/
  | tooManyValues
  | missingValue
  | unknownArgument
  /-- A value that its option does not admit. -/
  | badValue
  /-- An option that may stand once stands twice. -/
  | repeated
  | missingInterface
  deriving DecidableEq, Repr

inductive Setting where
  | interface
  | port
  | serverId
  | plugin
  deriving DecidableEq, Repr

inductive Flag where
  | setting (setting : Setting)
  | text (refusal : Refusal)
  deriving DecidableEq, Repr

def shortFlag? : Char → Option Flag
  | 'i' => some (.setting .interface)
  | 'p' => some (.setting .port)
  | 'h' => some (.text .displayHelp)
  | 'V' => some (.text .displayVersion)
  | _ => none

def longFlag? (name : String) : Option Flag :=
  [("interface", Flag.setting .interface), ("port", .setting .port), ("server-id", .setting .serverId),
    ("plugin", .setting .plugin), ("help", .text .displayHelp), ("version", .text .displayVersion)].lookup name

inductive Argument where
  /-- Two dashes: only operands follow. -/
  | separator
  /-- An option and the value in the same argument, if there is one. -/
  | option (flag : Flag) (attached : Option String)
  | unknown
  /-- Anything else. A single dash and the empty argument are no options. -/
  | plain (text : String)
  deriving DecidableEq, Repr

/-- The text before the first equals sign, and the text after it. -/
def cutAtEquals (chars : List Char) : String × Option String :=
  let name := String.ofList (chars.takeWhile (· != '='))
  match chars.dropWhile (· != '=') with
  | [] => (name, none)
  | _ :: value => (name, some (String.ofList value))

/-- What an argument is. Of letters in one argument only the first can matter: it is not known, or it asks
for a text, or the others are its value. -/
def Argument.ofText (text : String) : Argument :=
  match text.toList with
  | ['-', '-'] => .separator
  | '-' :: '-' :: chars =>
    let (name, value) := cutAtEquals chars
    match longFlag? name with
    | none => .unknown
    | some flag => .option flag value
  | '-' :: letter :: chars =>
    match shortFlag? letter, chars with
    | none, _ => .unknown
    | some (.text refusal), _ => .option (.text refusal) none
    | some flag, [] => .option flag none
    | some flag, '=' :: value => .option flag (some (String.ofList value))
    | some flag, value => .option flag (some (String.ofList value))
  | _ => .plain text

/-- A port number: decimal digits, with a sign in front or not. With a minus sign only zero is a port. -/
def port? (text : String) : Option UInt16 :=
  let (largest, digits) := match text.toList with
    | '+' :: digits => (65535, digits)
    | '-' :: digits => (0, digits)
    | digits => (65535, digits)
  if digits.isEmpty then none
  else match Text.value? (digits.map Char.toNat) with
    | none => none
    | some n => if n ≤ largest then some (UInt16.ofNat n) else none

structure Values where
  interface : Option String := none
  port : Option UInt16 := none
  serverId : Option Ipv4 := none
  plugins : List PluginSpec := []
  deriving DecidableEq, Repr

/-- Keeps a value. Every option but the plugins may stand once. -/
def Values.store (values : Values) (setting : Setting) (text : String) : Except Refusal Values :=
  match setting with
  | .interface => if values.interface.isSome then .error .repeated else .ok { values with interface := some text }
  | .port =>
    if values.port.isSome then .error .repeated
    else match port? text with
      | none => .error .badValue
      | some port => .ok { values with port := some port }
  | .serverId =>
    if values.serverId.isSome then .error .repeated
    else match Ipv4.ofText? text with
      | none => .error .badValue
      | some address => .ok { values with serverId := some address }
  | .plugin =>
    match PluginSpec.parse text with
    | .error _ => .error .badValue
    | .ok spec => .ok { values with plugins := values.plugins ++ [spec] }

/-- An option that has been met and is not settled yet, with its value as far as it is there. -/
abbrev Pending := Option (Setting × Option String)

/-- Settles the option that waits, if one does. -/
def settle (values : Values) : Pending → Except Refusal Values
  | none => .ok values
  | some (_, none) => .error .missingValue
  | some (setting, some text) => values.store setting text

def readArguments (values : Values) (pending : Pending) : List String → Except Refusal Values
  | [] => settle values pending
  | text :: rest =>
    match Argument.ofText text with
    | .separator => if rest.isEmpty then settle values pending else .error .unknownArgument
    | .unknown => .error .unknownArgument
    | .option (.text _) (some _) => .error .tooManyValues
    | .option (.text refusal) none => do
      let _ ← settle values pending
      throw refusal
    | .option (.setting setting) none => do
      let values ← settle values pending
      readArguments values (some (setting, none)) rest
    | .option (.setting setting) (some value) => do
      let values ← settle values pending
      let values ← values.store setting value
      readArguments values none rest
    | .plain text =>
      match pending with
      | some (setting, none) => readArguments values (some (setting, some text)) rest
      | _ => .error .unknownArgument

def parse (arguments : List String) : Except Refusal ServerConfig := do
  let values ← readArguments {} none arguments
  match values.interface with
  | none => throw .missingInterface
  | some interface =>
    return {
      interface
      serverPort := values.port.getD 67
      serverId := values.serverId
      plugins := if values.plugins.isEmpty then [⟨"pxe", []⟩] else values.plugins }

end ProxyDhcp.CommandLine
