import EventRelay.Config.Environment
import EventRelay.Config.Validation
import EventRelay.Text.Utf8
import EventRelay.Toml.Document

namespace EventRelay.Config

/-!
# Loading

A configuration is the defaults, overlaid by a file if there is one, overlaid
by the environment.  It is validated last.
-/

/-- What is found at the path of a configuration file. -/
inductive File where
  | missing
  | content (bytes : List UInt8)
  deriving Repr, DecidableEq

/-- Why no configuration could be loaded. -/
inductive LoadError where
  | missingFile
  | notText
  | parse
  | validation (violations : List Violation)
  deriving Repr, DecidableEq

namespace LoadError

/-- The text of the error. -/
def message : LoadError → String
  | .missingFile =>
      "IO error: No such file or directory (os error 2)"
  | .notText =>
      "IO error: stream did not contain valid UTF-8"
  | .parse =>
      "Parse error"
  | .validation violations =>
      "Validation failed: " ++
        ", ".intercalate (violations.map Violation.message)

end LoadError

namespace RelayConfig

/-- Reads a configuration in TOML. -/
def ofToml? (text : List Char) : Option RelayConfig :=
  (Toml.parse? text).bind (Datum.config? .toml)

end RelayConfig

/-- The configuration of a file before environment and validation. -/
def readFile (file : File) : Except LoadError RelayConfig :=
  match file with
  | .missing =>
      .error .missingFile
  | .content bytes =>
      match Text.Utf8.decode? bytes with
      | none =>
          .error .notText
      | some text =>
          match RelayConfig.ofToml? text with
          | none =>
              .error .parse
          | some config =>
              .ok config

/-- The configuration if it is valid, otherwise all violations. -/
def validate (config : RelayConfig) : Except LoadError RelayConfig :=
  match violations config with
  | [] =>
      .ok config
  | found =>
      .error (.validation found)

/-- Overlays the environment on a configuration and validates the result. -/
def finish (environment : Environment) (config : RelayConfig) :
    Except LoadError RelayConfig :=
  validate (environment.apply config)

/-- Loads the configuration of a file. -/
def loadFile (environment : Environment) (file : File) :
    Except LoadError RelayConfig := do
  let config ← readFile file
  finish environment config

/-- Loads a configuration, from a file if one is given. -/
def load (environment : Environment) (file : Option File) :
    Except LoadError RelayConfig :=
  match file with
  | none =>
      finish environment .standard
  | some file =>
      loadFile environment file

end EventRelay.Config
