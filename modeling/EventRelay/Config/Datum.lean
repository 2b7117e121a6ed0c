import EventRelay.Config.Basic

namespace EventRelay.Config

/-!
# Reading settings

Settings are written as data of one of two formats.  A section is a table
of its settings or a list of them in order; what is missing keeps its default
and what is unknown is ignored.
-/

open Json (Value)

/-- A format of settings. -/
inductive Format where
  | json
  | toml
  deriving Repr, DecidableEq

/-- A written value. -/
inductive Datum where
  | null
  | boolean (value : Bool)
  | integer (value : Int)
  /-- A number with a fraction, or one that no setting can hold. -/
  | decimal
  | text (value : String)
  /-- A date or time; it is read like a table of unknown settings. -/
  | moment
  | list (items : List Datum)
  | table (isInline : Bool) (fields : List (String × Datum))
  deriving Repr

namespace Datum

mutual

/-- A JSON value as data. -/
def ofValue : Value → Datum
  | .null =>
      .null
  | .boolean value =>
      .boolean value
  | .number (.whole value) =>
      .integer value
  | .number (.real _) =>
      .decimal
  | .text value =>
      .text value
  | .list items =>
      .list (ofItems items)
  | .object members =>
      .table false (ofMembers members)

/-- The items of a JSON list as data. -/
def ofItems : List Value → List Datum
  | [] =>
      []
  | item :: items =>
      ofValue item :: ofItems items

/-- The members of a JSON object as data. -/
def ofMembers : List (String × Value) → List (String × Datum)
  | [] =>
      []
  | (name, value) :: members =>
      (name, ofValue value) :: ofMembers members

end

/-- Reads a text. -/
def text? : Datum → Option String
  | .text value =>
      some value
  | _ =>
      none

/-- Reads a text that may be unset. -/
def optionalText? : Datum → Option (Option String)
  | .null =>
      some none
  | datum =>
      datum.text?.map some

/-- Reads a truth value. -/
def boolean? : Datum → Option Bool
  | .boolean value =>
      some value
  | _ =>
      none

/-- Reads a whole number of 64 bits without a sign. -/
def count? : Datum → Option Nat
  | .integer value =>
      if 0 ≤ value ∧ value ≤ Timing.maxWord then
        some value.toNat
      else
        none
  | _ =>
      none

/-- Whether a table or list has nothing in it. -/
def isEmptyCollection : Datum → Bool
  | .list [] =>
      true
  | .table _ [] =>
      true
  | _ =>
      false

/-- The name of a choice: a text, or the name of a member without content. -/
def choiceName? (format : Format) : Datum → Option String
  | .text name =>
      some name
  | .table isInline ((name, content) :: others) =>
      match format with
      | .json =>
          match others, content with
          | [], .null =>
              some name
          | _, _ =>
              none
      | .toml =>
          if (isInline ∧ !others.isEmpty) ∨ !content.isEmptyCollection then
            none
          else
            some name
  | _ =>
      none

/-- Finds what was written for a setting, by its place and name. -/
abbrev Finder := Nat → String → Option Datum

/-- How the settings of a section are found. -/
def finder? (format : Format) (count : Nat) : Datum → Option Finder
  | .table _ fields =>
      some fun _ name => fields.lookup name
  | .moment =>
      some fun _ _ => none
  | .list items =>
      if format = .json ∧ count < items.length then
        none
      else
        some fun place _ => items[place]?
  | _ =>
      none

/-- Reads a setting, or takes its default if nothing was written. -/
def setting?
    (find : Finder)
    (place : Nat)
    (name : String)
    (read : Datum → Option α)
    (default : α) : Option α :=
  match find place name with
  | none =>
      some default
  | some datum =>
      read datum

/-- Reads a choice among named alternatives. -/
def choice?
    (format : Format)
    (ofName? : String → Option α)
    (datum : Datum) : Option α :=
  (datum.choiceName? format).bind ofName?

/-- Reads where the relay listens. -/
def listener? (format : Format) (datum : Datum) : Option Listener := do
  let find ← datum.finder? format 1
  let standard := Listener.standard
  let bindAddress ← setting? find 0 "bind_address" text? standard.bindAddress
  some ⟨bindAddress⟩

/-- Reads where events and data come from. -/
def source? (format : Format) (datum : Datum) : Option Source := do
  let find ← datum.finder? format 6
  let standard := Source.standard
  let sseUrl ← setting? find 0 "sse_url" optionalText? standard.sseUrl
  let apiUrl ← setting? find 1 "api_url" optionalText? standard.apiUrl
  let apiToken ← setting? find 2 "api_token" optionalText? standard.apiToken
  let connectTimeoutSecs ←
    setting? find 3 "connect_timeout_secs" count? standard.connectTimeoutSecs
  let idleReadTimeoutSecs ←
    setting? find 4 "idle_read_timeout_secs" count?
      standard.idleReadTimeoutSecs
  let requestTimeoutSecs ←
    setting? find 5 "request_timeout_secs" count? standard.requestTimeoutSecs
  some ⟨sseUrl, apiUrl, apiToken, connectTimeoutSecs, idleReadTimeoutSecs,
    requestTimeoutSecs⟩

/-- Reads how sessions deliver events. -/
def relay? (format : Format) (datum : Datum) : Option Relay := do
  let find ← datum.finder? format 3
  let standard := Relay.standard
  let channelCapacity ←
    setting? find 0 "channel_capacity" count? standard.channelCapacity
  let keepAliveSecs ←
    setting? find 1 "keep_alive_secs" count? standard.keepAliveSecs
  let maxFrameBytes ←
    setting? find 2 "max_frame_bytes" count? standard.maxFrameBytes
  some ⟨channelCapacity, keepAliveSecs, maxFrameBytes⟩

/-- Reads the delays between connects. -/
def backoff? (format : Format) (datum : Datum) : Option Backoff := do
  let find ← datum.finder? format 4
  let standard := Backoff.standard
  let strategy ←
    setting? find 0 "strategy" (choice? format Strategy.ofName?)
      standard.strategy
  let delayMs ← setting? find 1 "delay_ms" count? standard.delayMs
  let baseDelayMs ←
    setting? find 2 "base_delay_ms" count? standard.baseDelayMs
  let maxDelayMs ← setting? find 3 "max_delay_ms" count? standard.maxDelayMs
  some ⟨strategy, delayMs, baseDelayMs, maxDelayMs⟩

/-- Reads the login and its cookie. -/
def auth? (format : Format) (datum : Datum) : Option Auth := do
  let find ← datum.finder? format 5
  let standard := Auth.standard
  let dashboardSecret ←
    setting? find 0 "dashboard_secret" optionalText? standard.dashboardSecret
  let cookieName ← setting? find 1 "cookie_name" text? standard.cookieName
  let cookieSecure ←
    setting? find 2 "cookie_secure" boolean? standard.cookieSecure
  let cookieSameSite ←
    setting? find 3 "cookie_same_site" (choice? format SameSite.ofName?)
      standard.cookieSameSite
  let cookieMaxAgeSecs ←
    setting? find 4 "cookie_max_age_secs" count? standard.cookieMaxAgeSecs
  some ⟨dashboardSecret, cookieName, cookieSecure, cookieSameSite,
    cookieMaxAgeSecs⟩

/-- Reads what is logged and measured. -/
def observability? (format : Format) (datum : Datum) :
    Option Observability := do
  let find ← datum.finder? format 3
  let standard := Observability.standard
  let logLevel ← setting? find 0 "log_level" text? standard.logLevel
  let metricsEnabled ←
    setting? find 1 "metrics_enabled" boolean? standard.metricsEnabled
  let metricsAddress ←
    setting? find 2 "metrics_address" text? standard.metricsAddress
  some ⟨logLevel, metricsEnabled, metricsAddress⟩

/-- Reads a configuration. -/
def config? (format : Format) (datum : Datum) : Option RelayConfig := do
  let find ← datum.finder? format 6
  let standard := RelayConfig.standard
  let listener ←
    setting? find 0 "listener" (listener? format) standard.listener
  let source ← setting? find 1 "upstream" (source? format) standard.source
  let relay ← setting? find 2 "relay" (relay? format) standard.relay
  let backoff ← setting? find 3 "backoff" (backoff? format) standard.backoff
  let auth ← setting? find 4 "auth" (auth? format) standard.auth
  let observability ←
    setting? find 5 "observability" (observability? format)
      standard.observability
  some ⟨listener, source, relay, backoff, auth, observability⟩

end Datum

namespace RelayConfig

/-- Reads a configuration in JSON. -/
def ofValue? (value : Value) : Option RelayConfig :=
  (Datum.ofValue value).config? .json

end RelayConfig

end EventRelay.Config
