import EventRelay.Http.Server

namespace EventRelay.Http

/-!
# Serving

From when it listens until it is told to stop, a server answers requests and
takes new configurations, in the order in which they reach it.  What it logs
about them stands between the entries of its start and of its end.  A client
that gets events is followed to its departure before the next occurrence.
-/

open Config (RelayConfig)
open Observe (Entry)

/-- What reaches a server that serves. -/
inductive Occurrence where
  /-- A request; a client that gets events stays until its departure. -/
  | asks (request : Request) (departure : Departure)
  /-- Another configuration is published. -/
  | publishes (config : RelayConfig)
  deriving Repr, DecidableEq

/-- A server with what it has answered and logged, oldest first. -/
structure Serving where
  server : Server
  exchanges : List Exchange
  log : List Entry
  deriving Repr, DecidableEq

namespace Serving

/-- A server that nothing has reached. -/
def start (server : Server) : Serving :=
  ⟨server, [], []⟩

/-- What an exchange leaves behind once its client has gone. -/
def aftermath
    (streams : StreamNetwork)
    (exchange : Exchange)
    (departure : Departure) : Aftermath :=
  match exchange.subscription with
  | none =>
      ⟨.empty, []⟩
  | some subscription =>
      subscription.aftermath streams departure

/-- The server after one occurrence; `none` stands for a breakdown. -/
def step?
    (network : Network)
    (streams : StreamNetwork)
    (serving : Serving) : Occurrence → Option Serving
  | .asks request departure => do
      let (exchange, server) ← serving.server.handle? network request
      let after := aftermath streams exchange departure
      some
        ⟨{ server with metrics := server.metrics.addAll after.metrics },
          serving.exchanges ++ [exchange],
          serving.log ++ exchange.log ++ after.log⟩
  | .publishes config =>
      some
        { serving with
          server := serving.server.reload config
          log := serving.log ++ [Server.reloadEntry config] }

/-- The server after one occurrence and another. -/
def run?
    (network : Network)
    (streams : StreamNetwork)
    (serving : Serving)
    (occurrences : List Occurrence) : Option Serving :=
  occurrences.foldlM (step? network streams) serving

end Serving

/-- A server that listened at an address until it was told to stop. -/
def Server.serve?
    (server : Server)
    (network : Network)
    (streams : StreamNetwork)
    (address : String)
    (occurrences : List Occurrence) : Option Serving := do
  let serving ← Serving.run? network streams (.start server) occurrences
  some
    { serving with
      log := startEntry address :: serving.log ++ [stopEntry] }

end EventRelay.Http
