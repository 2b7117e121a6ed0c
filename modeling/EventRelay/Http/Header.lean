import EventRelay.Text.Split
import EventRelay.Text.Utf8

namespace EventRelay.Http

/-!
# Header values

A header value is bytes without control characters other than the tab.  It
can be read as text when all its bytes are ASCII.
-/

/-- The bytes of a header value. -/
abbrev HeaderValue := List UInt8

namespace HeaderValue

/-- Whether a byte may occur in a header value. -/
def isAllowed (byte : UInt8) : Bool :=
  byte == 0x09 || (0x20 ≤ byte && byte != 0x7F)

/-- Whether a byte is a printable ASCII character or a tab. -/
def isVisible (byte : UInt8) : Bool :=
  byte == 0x09 || (0x20 ≤ byte && byte < 0x7F)

/-- The header value of bytes, if they are one. -/
def ofBytes? (bytes : List UInt8) : Option HeaderValue :=
  if bytes.all isAllowed then
    some bytes
  else
    none

/-- The header value of a text, if it is one. -/
def ofText? (text : List Char) : Option HeaderValue :=
  ofBytes? (Text.Utf8.encode text)

/-- The text of a header value, if it can be read as one. -/
def text? (value : HeaderValue) : Option (List Char) :=
  if value.all isVisible then
    some (value.map fun byte => Char.ofNat byte.toNat)
  else
    none

end HeaderValue

/-- The headers of a request: names in lower case, each with a value. -/
abbrev Headers := List (String × HeaderValue)

namespace Headers

/-- All values of a header in order. -/
def all (headers : Headers) (name : String) : List HeaderValue :=
  (headers.filter (·.1 == name)).map (·.2)

/-- The first value of a header. -/
def first? (headers : Headers) (name : String) : Option HeaderValue :=
  headers.lookup name

end Headers

end EventRelay.Http
