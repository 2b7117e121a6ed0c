import EventRelay.Cli.Command
import EventRelay.Cli.Startup

/-!
# Command line

Two programs share one executable; its first argument chooses between them.
This layer only reads the environment and the configuration, calls the
library, and prints.  It reaches no network.
-/

open EventRelay

/-- The variables that a program may look up. -/
def lookedUp : List String :=
  Config.Variable.all.map Config.Variable.name ++
    [Cli.ServerArguments.fileVariable, Cli.filterVariable]

/-- The values of the variables. -/
def readEnvironment : IO Config.Environment := do
  let mut values : List (String × String) := []
  for name in lookedUp do
    if let some value ← IO.getEnv name then
      values := (name, value) :: values
  return .ofList values

/-- All bytes of a stream. -/
partial def readAll (stream : IO.FS.Stream) (bytes : ByteArray) :
    IO ByteArray := do
  let more ← stream.read 65536
  if more.isEmpty then
    return bytes
  else
    readAll stream (bytes ++ more)

/-- Runs a client. -/
def runClient (arguments : List String) : IO UInt32 := do
  let environment ← readEnvironment
  let outcome := Cli.runCommandLine environment .unreachable arguments
  IO.print outcome.output
  IO.eprint outcome.remarks
  return outcome.exitCode.toUInt32

/-- Runs a server; the file that it names is read from the standard input. -/
def runServer (arguments : List String) : IO UInt32 := do
  let environment ← readEnvironment
  let namesFile :=
    match Cli.ServerArguments.read environment arguments with
    | .ok read => read.file.isSome
    | .error _ => false
  let content ← if namesFile then readAll (← IO.getStdin) .empty else pure .empty
  let machine : Cli.Machine :=
    ⟨environment, fun _ => .content content.toList, fun _ => none⟩
  let run := machine.launch arguments
  for entry in run.log do
    IO.println entry.line
  return run.ending.exitCode.toUInt32

def main (arguments : List String) : IO UInt32 := do
  match arguments with
  | "server" :: rest => runServer rest
  | "client" :: rest => runClient rest
  | _ =>
    IO.eprintln "error: the first argument is 'server' or 'client'"
    return 2
