/-
The program: it starts a server as the command line asks, and then answers datagrams. Each line of
standard input is a datagram in hexadecimal; each answer is a line with its destination and its bytes.
Events go to standard error.
-/
import ProxyDhcp.CommandLine
import ProxyDhcp.Text.Hex

namespace ProxyDhcp.Main

def help : String :=
  "Usage: proxydhcp [OPTIONS] --interface <INTERFACE>\n\n" ++
  "  -i, --interface <INTERFACE>  The network interface to serve on\n" ++
  "  -p, --port <PORT>            UDP port to listen on [default: 67]\n" ++
  "      --server-id <SERVER_ID>  Server identifier to put in replies\n" ++
  "      --plugin <PLUGINS>       Plugins to run, in order, as name or name:arg1,arg2 [default: pxe]\n" ++
  "  -h, --help                   Print help\n" ++
  "  -V, --version                Print version"

/-- Datagrams come as lines, so no interface is refused. -/
def host : Host := ⟨fun _ => none, true⟩

def report (events : List Event) : IO Unit := do
  for event in events do
    IO.eprintln event.line

/-- Answers lines until the input ends. -/
partial def answerLines (server : Server) (input output : IO.FS.Stream) : IO Unit := do
  let line ← input.getLine
  if line.isEmpty then return
  match Text.ofHex? (Text.trim line) with
  | none => IO.eprintln "not a datagram in hexadecimal"
  | some datagram =>
    let result := server.respond datagram
    report result.events
    match result.value with
    | .answered packet destination => output.putStrLn (destination.text ++ " " ++ Text.hex packet)
    | .dropped cause => IO.eprintln cause.message
    | .ignored | .crashed => pure ()
    output.flush
  answerLines server input output

end ProxyDhcp.Main

open ProxyDhcp in
def main (arguments : List String) : IO UInt32 := do
  match CommandLine.parse arguments with
  | .error .displayHelp => do
    IO.println Main.help
    return 0
  | .error .displayVersion => do
    IO.println "proxydhcp 0.1.0"
    return 0
  | .error _ => do
    IO.eprintln Main.help
    return 2
  | .ok config => do
    let started := Server.start Main.host config
    Main.report started.events
    match started.value with
    | .error cause => do
      for text in cause.message :: cause.sources do
        IO.eprintln text
      return 1
    | .ok server => do
      Main.answerLines server (← IO.getStdin) (← IO.getStdout)
      return 0
