import EventRelay.Cli.Arguments
import EventRelay.Config.Load
import EventRelay.Http.Server
import EventRelay.Net.Address
import EventRelay.Observe.Filter

namespace EventRelay.Cli

/-!
# Starting the server

The server is started from a command line: it loads its configuration, says
what it is about to do, listens, serves until it is told to stop, and leaves.
-/

open Config (Environment File LoadError RelayConfig)
open Net (SocketAddress)
open Observe (Entry Filter)

/-- The name and version of the server. -/
def serverVersion : String :=
  "dashboard-relay v0.1.0"

/-- The part of the program that the server's log entries come from. -/
def serverTarget : String :=
  "dashboard_relay"

/-- What a command line asks of the server. -/
structure ServerArguments where
  /-- The configuration file. -/
  file : Option String
  /-- Whether the file is watched. -/
  watches : Bool
  deriving Repr, DecidableEq

namespace ServerArguments

/-- The variable that names the configuration file if no flag does. -/
def fileVariable : String :=
  "RELAY_CONFIG"

/-- The flags of the server. -/
def flags : List Flag :=
  [⟨"config", some 'c', true⟩, ⟨"watch", none, false⟩, .help]

/-- Reads the arguments of the server, which takes no plain ones. -/
def read (environment : Environment) (arguments : List String) :
    Except ArgumentError ServerArguments := do
  let reading ← readFlags flags [] arguments
  let file :=
    (reading.given.lookup "config").or (environment.lookup fileVariable)
  match reading.rest with
  | argument :: _ =>
      .error (.unexpected argument)
  | [] =>
      if file = some "" then
        .error (.emptyValue "config")
      else
        .ok ⟨file, (reading.given.lookup "watch").isSome⟩

/-- The file that is watched, if any. -/
def watchedFile (arguments : ServerArguments) : Option String :=
  if arguments.watches then
    arguments.file
  else
    none

end ServerArguments

/-- The variable that may hold a filter of the log. -/
def filterVariable : String :=
  "RUST_LOG"

/-- The filter of the log: the environment decides if it holds one. -/
def logFilter (environment : Environment) (config : RelayConfig) : Filter :=
  match (environment.lookup filterVariable).bind Filter.ofText? with
  | some filter =>
      filter
  | none =>
      .ofTextLossy (Observe.defaultFilter config.observability.logLevel)

/-- The log entry of a configuration. -/
def configurationEntry (config : RelayConfig) : Entry :=
  ⟨.info, "Configuration loaded",
    [("bind_address", config.listener.bindAddress),
      ("sse_url", Text.Quoted.ofOption config.source.sseUrl),
      ("api_url", Text.Quoted.ofOption config.source.apiUrl),
      ("auth_enabled", toString config.auth.dashboardSecret.isSome)]⟩

/-- A warning if there will be no events. -/
def eventsWarning (config : RelayConfig) : List Entry :=
  if config.source.sseUrl.isNone then
    [⟨.warn, "No upstream SSE URL configured; /events will close immediately",
      []⟩]
  else
    []

/-- What is said about the metrics, if they are on. -/
def metricsEntries (config : RelayConfig) : List Entry :=
  let text := config.observability.metricsAddress
  if !config.observability.metricsEnabled then
    []
  else
    match SocketAddress.ofText? text.toList with
    | some address =>
        [⟨.info, "Metrics exporter listening", [("address", address.text)]⟩]
    | none =>
        [⟨.error, "Failed to parse metrics address",
          [("metrics_address", text)]⟩]

/-- What is said about the watched file, if there is one. -/
def watchEntries (arguments : ServerArguments) : List Entry :=
  match arguments.watchedFile with
  | some path =>
      [⟨.info, "Config watcher started",
        [("path", Text.Quoted.ofString path)]⟩]
  | none =>
      []

/-- What is said before the server listens. -/
def openingEntries (arguments : ServerArguments) (config : RelayConfig) :
    List Entry :=
  ⟨.info, s!"{serverVersion} starting", []⟩ :: configurationEntry config ::
    eventsWarning config ++ metricsEntries config ++ watchEntries arguments

/-- What is said once the server listens at an address. -/
def listeningEntry (address : String) : Entry :=
  ⟨.info, "Listening for connections", [("address", address)]⟩

/-- What is said when the server was told to stop, until it has stopped. -/
def closingEntries : List Entry :=
  [⟨.info, "Shutdown signal received", []⟩, Http.Server.stopEntry,
    ⟨.info, "Shutdown complete", []⟩]

/-- The machine that the server runs on. -/
structure Machine where
  environment : Environment
  /-- What is found at a path. -/
  file : String → File
  /-- The address that a listener gets, unless it is refused. -/
  listen : SocketAddress → Option String

/-- How a run of the server ended. -/
inductive Ending where
  | badArguments (error : ArgumentError)
  | badConfiguration (error : LoadError)
  | refused
  /-- The server broke down before it served anything. -/
  | brokenDown
  /-- The server was told to stop. -/
  | stopped
  deriving Repr, DecidableEq

namespace Ending

/-- The exit code of an ending. -/
def exitCode : Ending → Nat
  | .badArguments error =>
      error.exitCode
  | .badConfiguration _ =>
      1
  | .refused =>
      1
  | .brokenDown =>
      101
  | .stopped =>
      0

end Ending

/-- A run of the server in which nothing was asked of it. -/
structure ServerRun where
  ending : Ending
  /-- The part of the log that is shown. -/
  log : List Entry
  deriving Repr, DecidableEq

namespace Machine

/-- Runs the server with a configuration until it is told to stop. -/
def serve
    (machine : Machine)
    (arguments : ServerArguments)
    (config : RelayConfig) : ServerRun :=
  let address := SocketAddress.ofText? config.listener.bindAddress.toList
  let opening := openingEntries arguments config
  match address.bind machine.listen with
  | none =>
      ⟨.refused, opening⟩
  | some bound =>
      let listening := opening ++ [listeningEntry bound]
      match Http.Server.new? config with
      | none =>
          ⟨.brokenDown, listening⟩
      | some _ =>
          ⟨.stopped,
            listening ++ Http.Server.startEntry bound :: closingEntries⟩

/-- Runs a command line of the server until it is told to stop. -/
def launch (machine : Machine) (arguments : List String) : ServerRun :=
  match ServerArguments.read machine.environment arguments with
  | .error error =>
      ⟨.badArguments error, []⟩
  | .ok arguments =>
      match Config.load machine.environment (arguments.file.map machine.file) with
      | .error error =>
          ⟨.badConfiguration error, []⟩
      | .ok config =>
          let run := machine.serve arguments config
          let filter := logFilter machine.environment config
          { run with log := run.log.filter (filter.shows serverTarget) }

end Machine

end EventRelay.Cli
