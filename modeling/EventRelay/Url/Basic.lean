import EventRelay.Net.Ipv6
import EventRelay.Text.Percent

namespace EventRelay

/-!
# URLs

A URL in its normal form: every part is already encoded, and a path of
segments holds no dot segments.
-/

/-- The host of a URL. -/
inductive Host where
  /-- A name, or the text of a host of an unknown scheme; possibly empty. -/
  | name (text : List Char)
  | ipv4 (value : Nat)
  | ipv6 (groups : Net.Groups)
  deriving Repr, DecidableEq

namespace Host

/-- The four numbers of an address of 32 bits. -/
def ipv4Text (value : Nat) : List Char :=
  ['.'].intercalate
    ([value / 16777216 % 256, value / 65536 % 256, value / 256 % 256,
      value % 256].map Text.decimalText)

/-- The text of a host. -/
def text : Host → List Char
  | .name text =>
      text
  | .ipv4 value =>
      ipv4Text value
  | .ipv6 groups =>
      '[' :: Net.ipv6Text groups ++ [']']

end Host

/-- The path of a URL. -/
inductive Path where
  /-- A path that is not divided into segments. -/
  | whole (text : List Char)
  | segments (segments : List (List Char))
  deriving Repr, DecidableEq

/-- A URL. -/
structure Url where
  scheme : List Char
  username : List Char
  password : Option (List Char)
  host : Option Host
  /-- The number after the host, unless it is the scheme's own. -/
  portNumber : Option Nat
  path : Path
  query : Option (List Char)
  fragment : Option (List Char)
  deriving Repr, DecidableEq

namespace Url

/-- The text of a path. -/
def pathText : Path → List Char
  | .whole text =>
      text
  | .segments segments =>
      segments.flatMap ('/' :: ·)

/-- What stands before a path so that it is not taken for a host. -/
def pathGuard (host : Option Host) (path : Path) : List Char :=
  match host, path with
  | none, .segments ([] :: _ :: _) =>
      ['/', '.']
  | _, _ =>
      []

/-- The text of the credentials, with the sign that ends them. -/
def credentialsText (username : List Char) (password : Option (List Char)) :
    List Char :=
  match username, password with
  | [], none =>
      []
  | username, none =>
      username ++ ['@']
  | username, some password =>
      username ++ ':' :: password ++ ['@']

/-- The text of the number after a host. -/
def numberText (number : Option Nat) : List Char :=
  match number with
  | none =>
      []
  | some number =>
      ':' :: Text.decimalText number

/-- The text of host, number and credentials, if there is a host. -/
def authorityText (url : Url) : List Char :=
  match url.host with
  | none =>
      []
  | some host =>
      ['/', '/'] ++ credentialsText url.username url.password ++
        host.text ++ numberText url.portNumber

/-- A part that follows a mark, if it is there. -/
def markedText (mark : Char) (part : Option (List Char)) : List Char :=
  match part with
  | none =>
      []
  | some part =>
      mark :: part

/-- The text of a URL without its fragment. -/
def textWithoutFragment (url : Url) : List Char :=
  url.scheme ++ ':' :: url.authorityText ++ pathGuard url.host url.path ++
    pathText url.path ++ markedText '?' url.query

/-- The text of a URL. -/
def text (url : Url) : List Char :=
  url.textWithoutFragment ++ markedText '#' url.fragment

/-- The text of a URL as a string. -/
def toString (url : Url) : String :=
  String.ofList url.text

/-- The URL without its credentials. -/
def withoutCredentials (url : Url) : Url :=
  { url with username := [], password := none }

/-- Whether the scheme is that of web pages. -/
def isWeb (url : Url) : Bool :=
  url.scheme == ['h', 't', 't', 'p'] || url.scheme == ['h', 't', 't', 'p', 's']

end Url

end EventRelay
