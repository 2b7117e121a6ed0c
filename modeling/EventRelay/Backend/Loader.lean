import EventRelay.Backend.Query
import EventRelay.Config.Basic
import EventRelay.Http.Client
import EventRelay.Observe.Log
import EventRelay.Text.Split
import EventRelay.Url.Parse

namespace EventRelay.Backend

/-!
# Loading from the backend

A query is put to the backend with the address and token that are configured
at that moment.  Its outcome is the data of the answer, or the first reason
why there is none.
-/

open Http (Network Outgoing Reply SendError Status)

/-- Why no data could be loaded. -/
inductive LoaderError where
  | notConfigured
  | notFound
  /-- The request could not be sent, or was turned down. -/
  | request (reason : String)
  /-- The answer is no document of the expected kind. -/
  | schema (reason : String)
  /-- The backend says what went wrong. -/
  | backend (reason : String)
  deriving Repr, DecidableEq

namespace LoaderError

/-- The text of the error. -/
def message : LoaderError → String
  | .notConfigured =>
      "backend API URL is not configured"
  | .notFound =>
      "not found"
  | .request reason =>
      s!"backend request failed: {reason}"
  | .schema reason =>
      s!"backend response did not match schema: {reason}"
  | .backend reason =>
      s!"backend reported an error: {reason}"

/-- The status that reports the error. -/
def status : LoaderError → Status
  | .notConfigured =>
      .serviceUnavailable
  | .notFound =>
      .notFound
  | .request _ =>
      .badGateway
  | .schema _ =>
      .badGateway
  | .backend _ =>
      .badGateway

/-- The body that reports the error. -/
def body (error : LoaderError) : String :=
  failureText error.message

/-- The log entries about the error: only the server's own failures matter. -/
def log (error : LoaderError) : List Observe.Entry :=
  if error.status.isServerError then
    [⟨.warn, "Loader failed", [("error", error.message)]⟩]
  else
    []

end LoaderError

/-- The text of an address below a base: one slash stands between them. -/
def addressText (base path : List Char) : List Char :=
  Text.trimEndWhere (· == '/') base ++ '/' :: path.dropWhile (· == '/')

/-- The address below a base. -/
def address (base : String) (path : List Char) : Except LoaderError Url :=
  let joined := addressText base.toList path
  match Url.parse joined with
  | .ok url =>
      .ok url
  | .error error =>
      let text := String.ofList joined
      .error (.request s!"invalid backend URL '{text}': {error.message}")

/--
The address of a query, unless its names are unsafe or nothing is configured.
-/
def queryAddress (source : Config.Source) (query : Query) :
    Except LoaderError Url :=
  if !query.isAllowed then
    .error .notFound
  else
    match source.apiUrl with
    | none =>
        .error .notConfigured
    | some base =>
        address base query.path

/-- The outcome that a reply means. -/
def outcomeOfReply
    (α : Type)
    [Document α]
    (url : Url) : Reply → Except LoaderError α
  | .unanswered =>
      .error (.request (SendError.unanswered url).message)
  | .answered status body =>
      if status = .notFound then
        .error .notFound
      else if !status.isSuccess then
        .error (.request s!"backend returned {status.text}")
      else
        match body.whole?.bind (read? (Envelope α)) with
        | none =>
            .error (.schema "error decoding response body")
        | some envelope =>
            envelope.intoData.mapError .backend

/-- What came of a query. -/
structure Loading (α : Type) where
  outcome : Except LoaderError α
  /-- The requests that were sent. -/
  sent : List Outgoing
  log : List Observe.Entry

namespace Loading

/-- A query that fails before anything was sent. -/
def failed (error : LoaderError) (log : List Observe.Entry) : Loading α :=
  ⟨.error error, [], log⟩

end Loading

/-- Puts a query to the backend. -/
def load
    (network : Network)
    (source : Config.Source)
    (query : Query) : Loading query.Answer :=
  match queryAddress source query with
  | .error error =>
      .failed error []
  | .ok url =>
      let log : List Observe.Entry :=
        [⟨.debug, "Loading from backend", [("url", url.toString)]⟩]
      match Outgoing.prepare url source.apiToken with
      | .error error =>
          .failed (.request error.message) log
      | .ok request =>
          ⟨outcomeOfReply query.Answer request.url (network.reply request),
            [request], log⟩

end EventRelay.Backend
