namespace EventRelay.Http

/-!
# Status codes

A status is a number of three digits.  It is written with its registered
reason.
-/

/-- A status code. -/
structure Status where
  code : Nat
  deriving Repr, DecidableEq

namespace Status

/-- Reads a status code; codes have three digits. -/
def ofCode? (code : Nat) : Option Status :=
  if 100 ≤ code ∧ code ≤ 999 then
    some ⟨code⟩
  else
    none

/-- The registered reasons. -/
def reasons : List (Nat × String) :=
  [(100, "Continue"),
    (101, "Switching Protocols"),
    (102, "Processing"),
    (103, "Early Hints"),
    (200, "OK"),
    (201, "Created"),
    (202, "Accepted"),
    (203, "Non Authoritative Information"),
    (204, "No Content"),
    (205, "Reset Content"),
    (206, "Partial Content"),
    (207, "Multi-Status"),
    (208, "Already Reported"),
    (226, "IM Used"),
    (300, "Multiple Choices"),
    (301, "Moved Permanently"),
    (302, "Found"),
    (303, "See Other"),
    (304, "Not Modified"),
    (305, "Use Proxy"),
    (307, "Temporary Redirect"),
    (308, "Permanent Redirect"),
    (400, "Bad Request"),
    (401, "Unauthorized"),
    (402, "Payment Required"),
    (403, "Forbidden"),
    (404, "Not Found"),
    (405, "Method Not Allowed"),
    (406, "Not Acceptable"),
    (407, "Proxy Authentication Required"),
    (408, "Request Timeout"),
    (409, "Conflict"),
    (410, "Gone"),
    (411, "Length Required"),
    (412, "Precondition Failed"),
    (413, "Payload Too Large"),
    (414, "URI Too Long"),
    (415, "Unsupported Media Type"),
    (416, "Range Not Satisfiable"),
    (417, "Expectation Failed"),
    (418, "I'm a teapot"),
    (421, "Misdirected Request"),
    (422, "Unprocessable Entity"),
    (423, "Locked"),
    (424, "Failed Dependency"),
    (425, "Too Early"),
    (426, "Upgrade Required"),
    (428, "Precondition Required"),
    (429, "Too Many Requests"),
    (431, "Request Header Fields Too Large"),
    (451, "Unavailable For Legal Reasons"),
    (500, "Internal Server Error"),
    (501, "Not Implemented"),
    (502, "Bad Gateway"),
    (503, "Service Unavailable"),
    (504, "Gateway Timeout"),
    (505, "HTTP Version Not Supported"),
    (506, "Variant Also Negotiates"),
    (507, "Insufficient Storage"),
    (508, "Loop Detected"),
    (510, "Not Extended"),
    (511, "Network Authentication Required")]

/-- The registered reason of a status, or a text that says there is none. -/
def reason (status : Status) : String :=
  match reasons.lookup status.code with
  | some reason =>
      reason
  | none =>
      "<unknown status code>"

/-- The code and its reason. -/
def text (status : Status) : String :=
  s!"{status.code} {status.reason}"

/-- Whether the status reports success. -/
def isSuccess (status : Status) : Bool :=
  200 ≤ status.code && status.code < 300

/-- Whether the status blames the server. -/
def isServerError (status : Status) : Bool :=
  500 ≤ status.code && status.code < 600

/-! The statuses that are sent or told apart. -/

def ok : Status := ⟨200⟩
def noContent : Status := ⟨204⟩
def badRequest : Status := ⟨400⟩
def unauthorized : Status := ⟨401⟩
def notFound : Status := ⟨404⟩
def methodNotAllowed : Status := ⟨405⟩
def unsupportedMediaType : Status := ⟨415⟩
def unprocessableEntity : Status := ⟨422⟩
def internalServerError : Status := ⟨500⟩
def badGateway : Status := ⟨502⟩
def serviceUnavailable : Status := ⟨503⟩

end Status

end EventRelay.Http
