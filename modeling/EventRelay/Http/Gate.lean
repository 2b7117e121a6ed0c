import EventRelay.Http.Cookie
import EventRelay.Http.Message

namespace EventRelay.Http.Gate

/-!
# The gate

With a secret, every path but three needs the session cookie.  The gate looks
at the path as written, before any route is found.
-/

/-- The paths that need no session. -/
def publicPaths : List (List Char) :=
  ["/health".toList, "/login".toList, "/logout".toList]

/-- Whether two byte sequences agree, looking at every byte of them. -/
def agree (left right : List UInt8) : Bool :=
  left.length == right.length &&
    (left.zip right).foldl (fun seen (a, b) => seen ||| (a ^^^ b)) 0 == 0

/-- Whether two texts agree byte for byte. -/
def textsAgree (left right : List Char) : Bool :=
  agree (Text.Utf8.encode left) (Text.Utf8.encode right)

/-- Whether headers carry the session cookie. -/
def hasSession (auth : Config.Auth) (secret : String) (headers : Headers) :
    Bool :=
  match Cookie.find? (headers.all "cookie") auth.cookieName with
  | none =>
      false
  | some value =>
      textsAgree value secret.toList

/-- Whether a request may pass. -/
def admits (auth : Config.Auth) (request : Request) : Bool :=
  match auth.dashboardSecret with
  | none =>
      true
  | some secret =>
      publicPaths.contains request.path ||
        hasSession auth secret request.headers

end EventRelay.Http.Gate
