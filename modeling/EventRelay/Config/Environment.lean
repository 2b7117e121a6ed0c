import EventRelay.Config.Basic
import EventRelay.Text.Blank

namespace EventRelay.Config

/-!
# Environment

Five settings may be given by the environment.  A value that holds more than
blanks takes the place of the setting; other values are ignored.
-/

/-- A setting that the environment may give. -/
inductive Variable where
  | sseUrl
  | apiUrl
  | apiToken
  | dashboardSecret
  | bindAddress
  deriving Repr, DecidableEq

namespace Variable

/-- The variables in the order in which they are looked up. -/
def all : List Variable :=
  [.sseUrl, .apiUrl, .apiToken, .dashboardSecret, .bindAddress]

/-- The name in the environment. -/
def name : Variable → String
  | .sseUrl =>
      "RELAY_UPSTREAM_SSE_URL"
  | .apiUrl =>
      "RELAY_API_URL"
  | .apiToken =>
      "RELAY_API_TOKEN"
  | .dashboardSecret =>
      "RELAY_DASHBOARD_SECRET"
  | .bindAddress =>
      "RELAY_BIND_ADDRESS"

/-- Puts a value in the place of the setting. -/
def assign (config : RelayConfig) (value : String) :
    Variable → RelayConfig
  | .sseUrl =>
      { config with source.sseUrl := some value }
  | .apiUrl =>
      { config with source.apiUrl := some value }
  | .apiToken =>
      { config with source.apiToken := some value }
  | .dashboardSecret =>
      { config with auth.dashboardSecret := some value }
  | .bindAddress =>
      { config with listener.bindAddress := value }

end Variable

/-- What the environment says of each name. -/
structure Environment where
  lookup : String → Option String

namespace Environment

/-- The environment in which nothing is set. -/
def empty : Environment :=
  ⟨fun _ => none⟩

/-- The environment of a list of names and values. -/
def ofList (values : List (String × String)) : Environment :=
  ⟨fun name => List.lookup name values⟩

/-- The value of a variable, if it holds more than blanks. -/
def value? (environment : Environment) (source : Variable) :
    Option String :=
  (environment.lookup source.name).filter (!Text.isBlankText ·)

/-- Applies one variable. -/
def applyOne
    (environment : Environment)
    (config : RelayConfig)
    (source : Variable) : RelayConfig :=
  match environment.value? source with
  | none =>
      config
  | some value =>
      source.assign config value

/-- Applies the environment to a configuration. -/
def apply (environment : Environment) (config : RelayConfig) : RelayConfig :=
  Variable.all.foldl environment.applyOne config

end Environment

end EventRelay.Config
