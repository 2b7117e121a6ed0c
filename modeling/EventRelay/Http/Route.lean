import EventRelay.Text.Percent
import EventRelay.Text.Split

namespace EventRelay.Http

/-!
# Routes

A path is matched piece by piece against the patterns of the routes.  A
parameter takes any piece, but the last piece of a path only if it is not
empty.  Parameters are decoded after a route has matched.
-/

/-- A piece of a pattern. -/
inductive Piece where
  | fixed (text : List Char)
  | parameter (name : List Char)
  deriving Repr, DecidableEq

/-- What the server offers. -/
inductive Route where
  | health
  | login
  | logout
  | events
  | deployments
  | deployment
  | serviceDeployments
  | containers
  | container
  | serviceContainers
  deriving Repr, DecidableEq

namespace Route

/-- Every route. -/
def all : List Route :=
  [.health, .login, .logout, .events, .deployments, .deployment,
    .serviceDeployments, .containers, .container, .serviceContainers]

/-- The pieces of a route's pattern. -/
def pattern : Route → List Piece
  | .health =>
      [.fixed "health".toList]
  | .login =>
      [.fixed "login".toList]
  | .logout =>
      [.fixed "logout".toList]
  | .events =>
      [.fixed "events".toList]
  | .deployments =>
      [.fixed "api".toList, .fixed "deployments".toList]
  | .deployment =>
      [.fixed "api".toList, .fixed "deployments".toList,
        .parameter "id".toList]
  | .serviceDeployments =>
      [.fixed "api".toList, .fixed "deployments".toList,
        .parameter "project".toList, .parameter "service".toList]
  | .containers =>
      [.fixed "api".toList, .fixed "containers".toList]
  | .container =>
      [.fixed "api".toList, .fixed "containers".toList,
        .parameter "id".toList]
  | .serviceContainers =>
      [.fixed "api".toList, .fixed "containers".toList,
        .parameter "hostname".toList, .parameter "project".toList,
        .parameter "service".toList]

/-- The text of a piece. -/
def pieceText : Piece → List Char
  | .fixed text =>
      '/' :: text
  | .parameter name =>
      '/' :: '\x7b' :: name ++ ['\x7d']

/-- The text of a route's pattern. -/
def text (route : Route) : String :=
  String.ofList (route.pattern.flatMap pieceText)

/-- Whether the route is for posting. -/
def isPost : Route → Bool
  | .login =>
      true
  | .logout =>
      true
  | _ =>
      false

/-- The methods that a route answers. -/
def methods (route : Route) : List String :=
  if route.isPost then
    ["POST"]
  else
    ["GET", "HEAD"]

/-- The methods that a route answers, as one header lists them. -/
def allowedText (route : Route) : String :=
  ",".intercalate route.methods

/-- The parameters of pieces that fit a pattern. -/
def parameters? : List Piece → List (List Char) → Option (List (List Char))
  | [], [] =>
      some []
  | .fixed text :: pattern, piece :: pieces =>
      if text = piece then
        parameters? pattern pieces
      else
        none
  | .parameter _ :: pattern, piece :: pieces =>
      if piece.isEmpty ∧ pieces.isEmpty then
        none
      else
        (parameters? pattern pieces).map (piece :: ·)
  | _, _ =>
      none

/-- The pieces of a path between its slashes. -/
def pieces? (path : List Char) : Option (List (List Char)) :=
  match path with
  | '/' :: rest =>
      some (Text.splitWhere (· == '/') rest)
  | _ =>
      none

/-- The route of a path, with its parameters as written. -/
def find? (path : List Char) : Option (Route × List (List Char)) := do
  let pieces ← pieces? path
  all.findSome? fun route =>
    (parameters? route.pattern pieces).map (route, ·)

/-- The text that a parameter stands for, if it is one. -/
def decode? (parameter : List Char) : Option (List Char) :=
  Text.Utf8.decode? (Text.Percent.decode parameter)

end Route

/-- The path of a request's target, without its query. -/
def pathOf (target : List Char) : List Char :=
  target.takeWhile fun character => character != '?' && character != '#'

end EventRelay.Http
