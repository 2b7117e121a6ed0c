import EventRelay.Cli.Arguments
import EventRelay.Config.Environment
import EventRelay.Frame.Decoder
import EventRelay.Http.Client
import EventRelay.Http.Header
import EventRelay.Json.Print
import EventRelay.Json.Tree
import EventRelay.Url.Parse

namespace EventRelay.Cli

/-!
# Commands

Each command asks the relay for one path and shows what comes back.
-/

open Http (HeaderValue Network Outgoing Received Reply SendError Status)

/-- What the relay is asked for. -/
inductive Command where
  | health
  | deployments
  | deployment (id : String)
  | serviceDeployments (project service : String)
  | containers
  | serviceContainers (hostname project service : String)
  /-- The relayed events, as they come. -/
  | tail
  deriving Repr, DecidableEq

namespace Command

/-- The names of the commands, each with the number of its operands. -/
def arities : List (String × Nat) :=
  [("health", 0),
    ("deployments", 0),
    ("deployment", 1),
    ("service-deployments", 2),
    ("containers", 0),
    ("service-containers", 3),
    ("tail", 0)]

/-- The command of a name with its operands. -/
def ofOperands? (name : String) (operands : List String) : Option Command :=
  match name, operands with
  | "health", [] =>
      some .health
  | "deployments", [] =>
      some .deployments
  | "deployment", [id] =>
      some (.deployment id)
  | "service-deployments", [project, service] =>
      some (.serviceDeployments project service)
  | "containers", [] =>
      some .containers
  | "service-containers", [hostname, project, service] =>
      some (.serviceContainers hostname project service)
  | "tail", [] =>
      some .tail
  | _, _ =>
      none

/-- Reads what follows the call for help. -/
def readHelp : List String → Except ArgumentError Command
  | [] =>
      .error .helpRequested
  | [name] =>
      if (arities.lookup name).isSome ∨ name = "help" then
        .error .helpRequested
      else
        .error (.unknownCommand name)
  | _ :: argument :: _ =>
      .error (.unexpected argument)

/-- Reads a command from its name and the arguments after it. -/
def read (name : String) (arguments : List String) :
    Except ArgumentError Command :=
  if name = "help" then
    readHelp arguments
  else
    match arities.lookup name with
    | none =>
        .error (.unknownCommand name)
    | some arity => do
        let operands ← readOperands arity arguments
        match ofOperands? name operands with
        | none =>
            .error (.missingOperand name)
        | some command =>
            .ok command

/-- The path that a command asks for. -/
def path : Command → String
  | .health =>
      "/health"
  | .deployments =>
      "/api/deployments"
  | .deployment id =>
      s!"/api/deployments/{id}"
  | .serviceDeployments project service =>
      s!"/api/deployments/{project}/{service}"
  | .containers =>
      "/api/containers"
  | .serviceContainers hostname project service =>
      s!"/api/containers/{hostname}/{project}/{service}"
  | .tail =>
      "/events"

end Command

/-- A command and the relay it is put to. -/
structure Invocation where
  /-- Where the relay is found. -/
  url : String
  /-- The secret, sent as the session cookie. -/
  token : Option String
  cookieName : String
  command : Command
  deriving Repr, DecidableEq

namespace Invocation

/-- The flags before a command. -/
def flags : List Flag :=
  [⟨"url", some 'u', true⟩,
    ⟨"token", some 't', true⟩,
    ⟨"cookie-name", none, true⟩,
    .help]

/-- Reads an invocation.  The environment gives the token if no flag does. -/
def read (environment : Config.Environment) (arguments : List String) :
    Except ArgumentError Invocation := do
  let reading ← readFlags flags [] arguments
  match reading.isDivided, reading.rest with
  | _, [] =>
      .error .missingCommand
  | true, argument :: _ =>
      .error (.unexpected argument)
  | false, name :: arguments =>
      let command ← Command.read name arguments
      let secret := environment.lookup Config.Variable.dashboardSecret.name
      .ok
        { url := (reading.given.lookup "url").getD "http://localhost:3000"
          token := (reading.given.lookup "token").or secret
          cookieName := (reading.given.lookup "cookie-name").getD "relay_session"
          command }

/-- The text of the address that is asked for. -/
def addressText (invocation : Invocation) : String :=
  String.ofList (Text.trimEndWhere (· == '/') invocation.url.toList) ++
    invocation.command.path

end Invocation

/-! ## Outcomes -/

/-- Why nothing, or not everything, could be shown. -/
inductive CommandError where
  /-- The cookie may not stand in a header. -/
  | invalidCookie
  | invalidUrl (error : UrlError)
  | unsent (error : SendError)
  /-- The answer broke off. -/
  | brokenBody
  /-- The answer is no JSON document. -/
  | notJson
  deriving Repr, DecidableEq

namespace CommandError

/-- The text of the error. -/
def message : CommandError → String
  | .invalidCookie =>
      "failed to parse header value"
  | .invalidUrl error =>
      s!"builder error: {error.message}"
  | .unsent error =>
      error.message
  | .brokenBody =>
      "error decoding response body"
  | .notJson =>
      "error decoding response body"

end CommandError

/-- What a program leaves behind. -/
structure Outcome where
  exitCode : Nat
  output : String
  /-- What it says about problems. -/
  remarks : String
  deriving Repr, DecidableEq

namespace Outcome

/-- A success with some output. -/
def success (output remarks : String) : Outcome :=
  ⟨0, output, remarks⟩

/-- A failure after some output. -/
def failure (output : String) (error : CommandError) : Outcome :=
  ⟨1, output, s!"Error: {error.message}\n"⟩

/-- The outcome of a faulty command line. -/
def ofArgumentError (error : ArgumentError) : Outcome :=
  ⟨error.exitCode, "", s!"error: {error.message}\n"⟩

end Outcome

/-- A request with the cookie that goes with it. -/
structure CookieRequest where
  request : Outgoing
  cookie : Option HeaderValue
  deriving Repr, DecidableEq

namespace Invocation

/-- The cookie of an invocation. -/
def cookie (invocation : Invocation) :
    Except CommandError (Option HeaderValue) :=
  match invocation.token with
  | none =>
      .ok none
  | some token =>
      match HeaderValue.ofText? s!"{invocation.cookieName}={token}".toList with
      | none =>
          .error .invalidCookie
      | some value =>
          .ok (some value)

/-- The request of an invocation. -/
def request (invocation : Invocation) : Except CommandError CookieRequest := do
  let cookie ← invocation.cookie
  let url ← (Url.ofString invocation.addressText).mapError .invalidUrl
  let request ← (Outgoing.prepare url none).mapError .unsent
  .ok ⟨request, cookie⟩

end Invocation

/-- Some bytes as text. -/
def bodyText (body : Received) : String :=
  String.ofList (Text.Utf8.decodeLossy body.bytes)

/-- What is said of an answer that is no success. -/
def refusalText (status : Status) : String :=
  s!"Error: relay returned status {status.text}\n"

/-- Shows status and body. -/
def showHealth (status : Status) (body : Received) : Outcome :=
  if body.isComplete then
    .success s!"{status.text} {bodyText body}\n" ""
  else
    .failure "" .brokenBody

/-- The payloads of a stream, a line each. -/
def payloadLines (bytes : List UInt8) : String :=
  let frames := (((Decoder.new defaultMaxBuffer).feed bytes).pullAll).1
  String.join (frames.map fun frame => frame.data ++ "\n")

/-- Shows the payloads of a stream. -/
def showTail (status : Status) (body : Received) : Outcome :=
  if !status.isSuccess then
    .success "" (refusalText status)
  else if body.isComplete then
    .success (payloadLines body.bytes) "Stream closed\n"
  else
    .failure (payloadLines body.bytes) .brokenBody

/-- Shows a document over several lines. -/
def showDocument (status : Status) (body : Received) : Outcome :=
  if !status.isSuccess then
    let content :=
      if body.isComplete then
        s!"Response: {bodyText body}\n"
      else
        ""
    .success "" (refusalText status ++ content)
  else
    match body.whole?.bind Json.Value.ofBytes? with
    | none =>
        .failure "" .notJson
    | some value =>
        .success (value.pretty ++ "\n") ""

namespace Command

/-- The outcome of a command to which there was an answer. -/
def outcomeOf (command : Command) : Status → Received → Outcome :=
  match command with
  | .health =>
      showHealth
  | .tail =>
      showTail
  | _ =>
      showDocument

end Command

namespace Invocation

/-- Carries out an invocation. -/
def run (invocation : Invocation) (network : Network) : Outcome :=
  match invocation.request with
  | .error error =>
      .failure "" error
  | .ok sent =>
      match network.reply sent.request with
      | .unanswered =>
          .failure "" (.unsent (.unanswered sent.request.url))
      | .answered status body =>
          invocation.command.outcomeOf status body

end Invocation

/-- Runs the command line of a client. -/
def runCommandLine
    (environment : Config.Environment)
    (network : Network)
    (arguments : List String) : Outcome :=
  match Invocation.read environment arguments with
  | .error error =>
      .ofArgumentError error
  | .ok invocation =>
      invocation.run network

end EventRelay.Cli
