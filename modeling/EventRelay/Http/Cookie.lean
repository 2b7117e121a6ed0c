import EventRelay.Config.Basic
import EventRelay.Http.Header
import EventRelay.Text.Blank
import EventRelay.Text.Digits

namespace EventRelay.Http.Cookie

/-!
# The session cookie

The cookie is written with its attributes and read from the pairs of all
cookie headers.
-/

/-- The key and value of a pair; a text without an equals sign has none. -/
def pair? (text : List Char) : Option (List Char × List Char) :=
  Text.splitOnce? (· == '=') (Text.trimWhere Text.isBlank text)

/-- The pairs of one header value. -/
def pairs (value : List Char) : List (List Char × List Char) :=
  (Text.splitWhere (· == ';') value).filterMap pair?

/-- The pairs of all header values that can be read. -/
def allPairs (values : List HeaderValue) : List (List Char × List Char) :=
  (values.filterMap HeaderValue.text?).flatMap pairs

/-- The value of the first pair with a name. -/
def find? (values : List HeaderValue) (name : String) : Option (List Char) :=
  (allPairs values).lookup name.toList

/-- The text of a cookie with its attributes. -/
def text (auth : Config.Auth) (value : String) (maxAgeSecs : Nat) :
    List Char :=
  auth.cookieName.toList ++ '=' :: value.toList ++
    "; Path=/; HttpOnly; SameSite=".toList ++
    auth.cookieSameSite.attributeText.toList ++
    "; Max-Age=".toList ++ Text.decimalText maxAgeSecs ++
    (if auth.cookieSecure then "; Secure".toList else [])

/-- The header value that sets a cookie, if its text is one. -/
def header? (auth : Config.Auth) (value : String) (maxAgeSecs : Nat) :
    Option HeaderValue :=
  HeaderValue.ofText? (text auth value maxAgeSecs)

end EventRelay.Http.Cookie
