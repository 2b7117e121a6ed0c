import EventRelay.Backend.Loader
import EventRelay.Downstream.Channel
import EventRelay.Http.Events
import EventRelay.Http.Gate
import EventRelay.Http.Login
import EventRelay.Observe.Metrics
import EventRelay.Text.Quoted

namespace EventRelay.Http

/-!
# The server

A request passes the gate, finds its route, and is answered by it.  Whatever
depends on the configuration uses the one that is current at that moment.
-/

open Backend (Query)
open Config (RelayConfig)
open Observe (Entry Metrics)

/-- A response, and what was done for it. -/
structure Exchange where
  response : Response
  /-- The requests sent to the backend. -/
  sent : List Outgoing
  /-- The events that were subscribed to. -/
  subscription : Option Subscription
  log : List Entry
  deriving Repr, DecidableEq

namespace Exchange

/-- A response for which nothing else was done. -/
def plain (response : Response) : Exchange :=
  ⟨response, [], none, []⟩

/-- A response with log entries. -/
def logged (response : Response) (log : List Entry) : Exchange :=
  ⟨response, [], none, log⟩

end Exchange

/-- The query of a route with its decoded parameters. -/
def queryOf? : Route → List (List Char) → Option Query
  | .deployments, [] =>
      some .deployments
  | .deployment, [id] =>
      (Text.integer? id).map .deployment
  | .serviceDeployments, [project, service] =>
      some (.serviceDeployments project service)
  | .containers, [] =>
      some .containers
  | .container, [id] =>
      some (.container id)
  | .serviceContainers, [hostname, project, service] =>
      some (.serviceContainers hostname project service)
  | _, _ =>
      none

/-- Answers with the outcome of a query. -/
def loadingExchange
    [Backend.Document α]
    (loading : Backend.Loading α) : Exchange :=
  match loading.outcome with
  | .ok data =>
      ⟨.json .ok (Backend.write (Backend.Envelope.ofData data)),
        loading.sent, none, loading.log⟩
  | .error error =>
      ⟨.json error.status error.body,
        loading.sent, none, loading.log ++ error.log⟩

/-- Answers a route whose data comes from the backend. -/
def answerQuery
    (config : RelayConfig)
    (network : Network)
    (route : Route)
    (parameters : List (List Char)) : Exchange :=
  match parameters.mapM Route.decode? with
  | none =>
      .plain (.rejection .badRequest)
  | some decoded =>
      match queryOf? route decoded with
      | none =>
          .plain (.rejection .badRequest)
      | some query =>
          loadingExchange (Backend.load network config.source query)

/-- Checks a token against the secret, if there is one. -/
def answerToken (auth : Config.Auth) (token : String) : Exchange :=
  match auth.dashboardSecret with
  | none =>
      .plain (.ofStatus .noContent)
  | some secret =>
      if Gate.textsAgree token.toList secret.toList then
        .plain (.keeping (Cookie.header? auth secret auth.cookieMaxAgeSecs))
      else
        .logged (.ofStatus .unauthorized)
          [⟨.warn, "Dashboard login rejected", []⟩]

/-- Answers a login. -/
def answerLogin (auth : Config.Auth) (request : Request) : Exchange :=
  match Login.read request.headers request.body with
  | .wrongMediaType =>
      .plain (.rejection .unsupportedMediaType)
  | .malformed =>
      .plain (.rejection .badRequest)
  | .mismatched =>
      .plain (.rejection .unprocessableEntity)
  | .token token =>
      answerToken auth token

/-- Answers a logout: the cookie is emptied and expires at once. -/
def answerLogout (auth : Config.Auth) : Exchange :=
  .plain (.keeping (Cookie.header? auth "" 0))

/-- Opens a stream of events, if a channel can be that large. -/
def answerEvents? (config : RelayConfig) : Option Exchange := do
  let _ ← Downstream.Channel.new? config.relay.channelCapacity
  some
    ⟨.ofBody .ok .eventStream .events, [], some (.ofConfig config),
      [⟨.info, "Downstream consumer attached", []⟩]⟩

/-! ## Routes -/

/-- Answers a route with a method that it knows. -/
def answerRoute?
    (config : RelayConfig)
    (network : Network)
    (request : Request)
    (route : Route)
    (parameters : List (List Char)) : Option Exchange :=
  match route with
  | .health =>
      some (.plain (.ofBody .ok .plainText (.text "OK")))
  | .login =>
      some (answerLogin config.auth request)
  | .logout =>
      some (answerLogout config.auth)
  | .events =>
      answerEvents? config
  | _ =>
      some (answerQuery config network route parameters)

/-- Answers a route. -/
def answer?
    (config : RelayConfig)
    (network : Network)
    (request : Request)
    (route : Route)
    (parameters : List (List Char)) : Option Exchange :=
  if !route.methods.contains request.method then
    some (.plain (.methodNotAllowed route.allowedText))
  else do
    let exchange ← answerRoute? config network request route parameters
    if request.wantsHeadersOnly then
      some { exchange with response := exchange.response.withoutBody }
    else
      some exchange

/-- A relay that serves requests. -/
structure Server where
  config : RelayConfig
  metrics : Metrics
  deriving Repr, DecidableEq

namespace Server

/-- The greatest number of seconds that can be counted. -/
def maxSecs : Nat :=
  18446744073709551615

/--
How long a request may take that needs the backend, if that can be counted.
-/
def deadlineSecs? (config : RelayConfig) : Option Nat :=
  let secs := config.source.connectTimeoutSecs + config.source.requestTimeoutSecs
  if secs ≤ maxSecs then
    some secs
  else
    none

/-- A new server, if its deadline can be counted. -/
def new? (config : RelayConfig) : Option Server :=
  (deadlineSecs? config).map fun _ => ⟨config, .empty⟩

/-- From now on, another configuration is used. -/
def reload (server : Server) (config : RelayConfig) : Server :=
  { server with config }

/-- Answers a request that may pass.  Only requests with a route count. -/
def route? (server : Server) (network : Network) (request : Request) :
    Option (Exchange × Server) :=
  match Route.find? request.path with
  | none =>
      some (.plain (.ofStatus .notFound), server)
  | some (route, parameters) => do
      let exchange ← answer? server.config network request route parameters
      let series :=
        Observe.Series.requests route.text exchange.response.status.code
      some (exchange, { server with metrics := server.metrics.count series })

/-- Answers a request; `none` stands for a breakdown of the server. -/
def handle? (server : Server) (network : Network) (request : Request) :
    Option (Exchange × Server) :=
  if Gate.admits server.config.auth request then
    server.route? network request
  else
    some
      (.logged (.ofStatus .unauthorized)
          [⟨.debug, "Rejected request without valid session", []⟩],
        server)

/-- The log entry of a server that starts at an address. -/
def startEntry (address : String) : Entry :=
  ⟨.info, "HTTP server starting", [("address", address)]⟩

/-- The log entry of another configuration. -/
def reloadEntry (config : RelayConfig) : Entry :=
  ⟨.info, "Configuration reloaded; applies to new sessions and requests",
    [("sse_url", Text.Quoted.ofOption config.source.sseUrl),
      ("api_url", Text.Quoted.ofOption config.source.apiUrl)]⟩

/-- The log entry of a server that has stopped. -/
def stopEntry : Entry :=
  ⟨.info, "HTTP server stopped", []⟩

end Server

end EventRelay.Http
