import EventRelay.Http.Header
import EventRelay.Http.Route
import EventRelay.Http.Status

namespace EventRelay.Http

/-!
# Requests and responses

What a client sends to the relay, and what it is sent back.
-/

/-- A request to the relay. -/
structure Request where
  method : String
  /-- The path with its query. -/
  target : List Char
  headers : Headers
  body : List UInt8
  deriving Repr, DecidableEq

namespace Request

/-- The path as written. -/
def path (request : Request) : List Char :=
  pathOf request.target

/-- Whether the client wants to see the headers only. -/
def wantsHeadersOnly (request : Request) : Bool :=
  request.method == "HEAD"

end Request

/-- The kind of a body. -/
inductive ContentType where
  | json
  | plainText
  | eventStream
  deriving Repr, DecidableEq

namespace ContentType

/-- The text of the header. -/
def text : ContentType → String
  | .json =>
      "application/json"
  | .plainText =>
      "text/plain; charset=utf-8"
  | .eventStream =>
      "text/event-stream"

/-- How long such a body may be kept, if that is said. -/
def cacheControl? : ContentType → Option String
  | .eventStream =>
      some "no-cache"
  | _ =>
      none

end ContentType

/-- The body of a response. -/
inductive Body where
  | empty
  | text (text : String)
  /-- Some words on why the request was turned down. -/
  | explanation
  /-- Events, as they come. -/
  | events
  deriving Repr, DecidableEq

namespace Body

/-- The text of a body that is complete at once. -/
def text? : Body → Option String
  | .empty =>
      some ""
  | .text content =>
      some content
  | .explanation =>
      none
  | .events =>
      none

end Body

/-- A response to a client. -/
structure Response where
  status : Status
  contentType : Option ContentType
  /-- The cookie that the client is to keep. -/
  cookie : Option HeaderValue
  /-- The methods that would have been answered, if that was the problem. -/
  allowed : Option String
  body : Body
  deriving Repr, DecidableEq

namespace Response

/-- A response that is only a status. -/
def ofStatus (status : Status) : Response :=
  ⟨status, none, none, none, .empty⟩

/-- A response with a body. -/
def ofBody (status : Status) (contentType : ContentType) (body : Body) :
    Response :=
  ⟨status, some contentType, none, none, body⟩

/-- A response that turns a request down in words. -/
def rejection (status : Status) : Response :=
  ofBody status .plainText .explanation

/-- A response with a JSON document. -/
def json (status : Status) (text : String) : Response :=
  ofBody status .json (.text text)

/-- A response to a method that a route does not answer. -/
def methodNotAllowed (methods : String) : Response :=
  { ofStatus .methodNotAllowed with allowed := some methods }

/-- A response that only has a client keep a cookie, if its text is one. -/
def keeping (cookie : Option HeaderValue) : Response :=
  match cookie with
  | none =>
      ofStatus .internalServerError
  | some cookie =>
      { ofStatus .noContent with cookie := some cookie }

/-- The response without its body. -/
def withoutBody (response : Response) : Response :=
  { response with body := .empty }

end Response

/-- Where the number of a request comes from. -/
inductive RequestNumber where
  /-- The client gave it, and gets it back. -/
  | echoed (value : HeaderValue)
  | generated
  deriving Repr, DecidableEq

namespace Request

/-- The number of a request. -/
def number (request : Request) : RequestNumber :=
  match request.headers.first? "x-request-id" with
  | some value =>
      .echoed value
  | none =>
      .generated

end Request

end EventRelay.Http
