namespace EventRelay.Observe

/-!
# Log entries

An entry has a level, a message, and named values.
-/

/-- How much an entry matters. -/
inductive Level where
  | debug
  | info
  | warn
  | error
  deriving Repr, DecidableEq

namespace Level

/-- The name of a level. -/
def text : Level → String
  | .debug =>
      "DEBUG"
  | .info =>
      "INFO"
  | .warn =>
      "WARN"
  | .error =>
      "ERROR"

end Level

/-- One entry of the log. -/
structure Entry where
  level : Level
  message : String
  fields : List (String × String)
  deriving Repr, DecidableEq

/-- The filter used when the environment sets none. -/
def defaultFilter (level : String) : String :=
  "dashboard_relay=" ++ level ++ ",tower_http=" ++ level

namespace Entry

/-- The entry on one line: level, message, then each value after its name. -/
def line (entry : Entry) : String :=
  entry.fields.foldl
    (fun line (name, value) => line ++ " " ++ name ++ "=" ++ value)
    (entry.level.text ++ " " ++ entry.message)

end Entry

end EventRelay.Observe
