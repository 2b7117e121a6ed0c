import EventRelay.Http.Header
import EventRelay.Http.Status
import EventRelay.Text.Base64
import EventRelay.Text.Percent
import EventRelay.Url.Basic

namespace EventRelay.Http

/-!
# Requests to other servers

A request goes to the URL of a web page.  Credentials in the URL are taken
out of it and take precedence over a token.  The network is what answers:
nothing is assumed of it.
-/

/-- A request that is ready to be sent. -/
structure Outgoing where
  url : Url
  authorization : Option (List Char)
  deriving Repr, DecidableEq

/-- The body of an answer, as far as it came. -/
structure Received where
  bytes : List UInt8
  /-- Whether it came to its end, and in time. -/
  isComplete : Bool
  deriving Repr, DecidableEq

namespace Received

/-- The whole body, unless it broke off. -/
def whole? (received : Received) : Option (List UInt8) :=
  if received.isComplete then
    some received.bytes
  else
    none

end Received

/-- What comes back for a request, after redirections. -/
inductive Reply where
  /-- No answer came in time. -/
  | unanswered
  | answered (status : Status) (body : Received)
  deriving Repr, DecidableEq

/-- What answers requests. -/
structure Network where
  reply : Outgoing → Reply

namespace Network

/-- A network in which no server can be reached. -/
def unreachable : Network :=
  ⟨fun _ => .unanswered⟩

end Network

/-- Why a request led to no answer. -/
inductive SendError where
  /-- The token may not stand in a header. -/
  | invalidToken
  /-- The URL is not one of a web page. -/
  | unsupported (url : Url)
  | unanswered (url : Url)
  deriving Repr, DecidableEq

namespace SendError

/-- The text of the error. -/
def message : SendError → String
  | .invalidToken =>
      "builder error"
  | .unsupported url =>
      s!"builder error for url ({url.toString})"
  | .unanswered url =>
      s!"error sending request for url ({url.toString})"

end SendError

/-- A name and a password. -/
structure Credentials where
  username : List Char
  password : Option (List Char)
  deriving Repr, DecidableEq

namespace Credentials

/-- The credentials in a URL, if the name can be read and there are any. -/
def ofUrl? (url : Url) : Option Credentials := do
  let username ← Text.Utf8.decode? (Text.Percent.decode url.username)
  let password := url.password.bind fun password =>
    Text.Utf8.decode? (Text.Percent.decode password)
  if username.isEmpty ∧ password.isNone then
    none
  else
    some ⟨username, password⟩

/-- The authorization that credentials give. -/
def authorization (credentials : Credentials) : List Char :=
  let plain := credentials.username ++ ':' :: credentials.password.getD []
  "Basic ".toList ++ Text.Base64.encode (Text.Utf8.encode plain)

end Credentials

/-- The authorization that a token gives. -/
def tokenAuthorization (token : String) : List Char :=
  "Bearer ".toList ++ token.toList

/-- Whether a token may stand in a header. -/
def isHeaderText (text : List Char) : Bool :=
  (HeaderValue.ofText? text).isSome

/-- Whether a URL has a host with a name. -/
def hasHost (url : Url) : Bool :=
  match url.host with
  | none =>
      false
  | some (.name []) =>
      false
  | some _ =>
      true

/-- Whether a character is a quote or a brace. -/
def isQuoteOrBrace (character : Char) : Bool :=
  character == '"' || character == '\x60' ||
    character == '\x7b' || character == '\x7d'

/--
Whether a URL can be requested: it is that of a web page, and its host is
written without quotes and braces.
-/
def isRequestable (url : Url) : Bool :=
  url.isWeb && !((url.host.map Host.text).getD []).any isQuoteOrBrace

namespace Outgoing

/-- The request of a URL with an optional token. -/
def prepare (url : Url) (token : Option String) :
    Except SendError Outgoing :=
  if !hasHost url then
    .error (.unsupported url)
  else
    let credentials := Credentials.ofUrl? url
    let bare := if credentials.isSome then url.withoutCredentials else url
    let given := token.map tokenAuthorization
    if !given.all isHeaderText then
      .error .invalidToken
    else if !isRequestable bare then
      .error (.unsupported bare)
    else
      .ok ⟨bare, (credentials.map Credentials.authorization).or given⟩

end Outgoing

end EventRelay.Http
