import EventRelay.Config.Datum
import EventRelay.Proofs.Config.Values
import Mathlib.Tactic.Choose

namespace EventRelay.Config

/-!
# Settings of a document

A document is read section by section and setting by setting.  Here each
setting has a kind of values, a section, and a place and name in it.  A
configuration is the collection of its values, and a document is read as the
one whose values are those that are written, and the defaults of all others.
-/

/-- Reads a value that is written in a file. -/
def Kind.read? : (kind : Kind) → Datum → Option kind.Value
  | .text =>
      Datum.text?
  | .optionalText =>
      Datum.optionalText?
  | .count =>
      Datum.count?
  | .truth =>
      Datum.boolean?
  | .strategy =>
      Datum.choice? .toml Strategy.ofName?
  | .sameSite =>
      Datum.choice? .toml SameSite.ofName?

/-- A value is the one that is written, or the default if none is. -/
def IsWritten
    (read : Datum → Option α)
    (default : α)
    (written : Option Datum)
    (value : α) : Prop :=
  match written with
  | none =>
      value = default
  | some datum =>
      read datum = some value

/-- What is written for a setting leaves one value only. -/
private theorem IsWritten.unique
    {read : Datum → Option α}
    {default first second : α}
    {written : Option Datum}
    (isFirst : IsWritten read default written first)
    (isSecond : IsWritten read default written second) :
    first = second := by
  cases written with
  | none =>
      exact isFirst.trans isSecond.symm
  | some datum =>
      exact Option.some.inj (isFirst.symm.trans isSecond)

/-- What is written over something else counts. -/
theorem IsWritten.over
    {read : Datum → Option α}
    {default lower upper : α}
    {written above : Option Datum}
    (isLower : IsWritten read default written lower)
    (isUpper : IsWritten read lower above upper) :
    IsWritten read default (above.or written) upper := by
  cases above with
  | none =>
      obtain rfl : upper = lower := isUpper
      rwa [Option.none_or]
  | some datum =>
      exact isUpper

/-- What is written twice is as if it were written once. -/
theorem IsWritten.again
    {read : Datum → Option α}
    {default once twice : α}
    {written : Option Datum}
    (isOnce : IsWritten read default written once)
    (isTwice : IsWritten read once written twice) :
    twice = once := by
  cases written with
  | none =>
      exact isTwice
  | some datum =>
      exact Option.some.inj (isTwice.symm.trans isOnce)

namespace Setting

/--
A configuration has what is written for a setting, or its default if nothing
is.
-/
def Has
    (setting : Setting)
    (written : Option Datum)
    (config : RelayConfig) : Prop :=
  IsWritten setting.kind.read? (setting.get .standard) written
    (setting.get config)

end Setting

namespace RelayConfig

/-- A configuration has for every setting what is written, or the default. -/
def Follows
    (config : RelayConfig)
    (written : Setting → Option Datum) : Prop :=
  ∀ setting : Setting, setting.Has (written setting) config

/-- Only one configuration follows what is written. -/
theorem Follows.unique
    {written : Setting → Option Datum}
    {first second : RelayConfig}
    (isFirst : first.Follows written)
    (isSecond : second.Follows written) :
    first = second :=
  Setting.eq_of_get fun setting =>
    (isFirst setting).unique (isSecond setting)

/-- Only one configuration follows what is written. -/
theorem Follows.iff_eq
    {written : Setting → Option Datum}
    {config other : RelayConfig}
    (follows : config.Follows written) :
    other.Follows written ↔ other = config := by
  constructor
  · intro otherFollows
    exact otherFollows.unique follows
  · rintro rfl
    exact follows

end RelayConfig

/-! ## Places -/

/-- A section of a configuration. -/
inductive Section where
  | listener
  | source
  | relay
  | backoff
  | auth
  | observability
  deriving Repr, DecidableEq

namespace Section

/-- The place among the sections. -/
def place : Section → Nat
  | .listener =>
      0
  | .source =>
      1
  | .relay =>
      2
  | .backoff =>
      3
  | .auth =>
      4
  | .observability =>
      5

/-- The written name. -/
def name : Section → String
  | .listener =>
      "listener"
  | .source =>
      "upstream"
  | .relay =>
      "relay"
  | .backoff =>
      "backoff"
  | .auth =>
      "auth"
  | .observability =>
      "observability"

/-- The settings of a section, in order. -/
def settings : Section → List Setting
  | .listener =>
      [.bindAddress]
  | .source =>
      [.sseUrl, .apiUrl, .apiToken, .connectTimeoutSecs,
        .idleReadTimeoutSecs, .requestTimeoutSecs]
  | .relay =>
      [.channelCapacity, .keepAliveSecs, .maxFrameBytes]
  | .backoff =>
      [.strategy, .delayMs, .baseDelayMs, .maxDelayMs]
  | .auth =>
      [.dashboardSecret, .cookieName, .cookieSecure, .cookieSameSite,
        .cookieMaxAgeSecs]
  | .observability =>
      [.logLevel, .metricsEnabled, .metricsAddress]

end Section

namespace Setting

/-- The section of a setting. -/
def home : Setting → Section
  | .bindAddress =>
      .listener
  | .sseUrl | .apiUrl | .apiToken | .connectTimeoutSecs
  | .idleReadTimeoutSecs | .requestTimeoutSecs =>
      .source
  | .channelCapacity | .keepAliveSecs | .maxFrameBytes =>
      .relay
  | .strategy | .delayMs | .baseDelayMs | .maxDelayMs =>
      .backoff
  | .dashboardSecret | .cookieName | .cookieSecure | .cookieSameSite
  | .cookieMaxAgeSecs =>
      .auth
  | .logLevel | .metricsEnabled | .metricsAddress =>
      .observability

/-- The place among the settings of the section. -/
def place (setting : Setting) : Nat :=
  setting.home.settings.idxOf setting

/-- The written name in the section. -/
def key : Setting → String
  | .bindAddress =>
      "bind_address"
  | .sseUrl =>
      "sse_url"
  | .apiUrl =>
      "api_url"
  | .apiToken =>
      "api_token"
  | .connectTimeoutSecs =>
      "connect_timeout_secs"
  | .idleReadTimeoutSecs =>
      "idle_read_timeout_secs"
  | .requestTimeoutSecs =>
      "request_timeout_secs"
  | .channelCapacity =>
      "channel_capacity"
  | .keepAliveSecs =>
      "keep_alive_secs"
  | .maxFrameBytes =>
      "max_frame_bytes"
  | .strategy =>
      "strategy"
  | .delayMs =>
      "delay_ms"
  | .baseDelayMs =>
      "base_delay_ms"
  | .maxDelayMs =>
      "max_delay_ms"
  | .dashboardSecret =>
      "dashboard_secret"
  | .cookieName =>
      "cookie_name"
  | .cookieSecure =>
      "cookie_secure"
  | .cookieSameSite =>
      "cookie_same_site"
  | .cookieMaxAgeSecs =>
      "cookie_max_age_secs"
  | .logLevel =>
      "log_level"
  | .metricsEnabled =>
      "metrics_enabled"
  | .metricsAddress =>
      "metrics_address"

private theorem mem_settings_iff {setting : Setting} {part : Section} :
    setting ∈ part.settings ↔ setting.home = part := by
  cases part <;> cases setting <;> decide

end Setting

namespace Datum

/-- A section is a table or a list; a moment is one without settings. -/
def IsSection : Datum → Prop
  | .table _ _ | .moment | .list _ =>
      True
  | _ =>
      False

/--
What is written in a section: at a place of a list, or under a name of a
table.
-/
def part? (datum : Datum) (place : Nat) (name : String) : Option Datum :=
  match datum with
  | .table _ fields =>
      fields.lookup name
  | .list items =>
      items[place]?
  | _ =>
      none

/-- What a document says of a section. -/
def sectionOf? (document : Datum) (part : Section) : Option Datum :=
  document.part? part.place part.name

/-- What a document says of a setting. -/
def settingOf? (document : Datum) (setting : Setting) : Option Datum :=
  (document.sectionOf? setting.home).bind
    (·.part? setting.place setting.key)

/-- A document whose sections are sections. -/
structure HasSections (document : Datum) : Prop where
  isSection : document.IsSection
  ofPart : ∀ part : Section, ∀ datum ∈ document.sectionOf? part, datum.IsSection

/-- A document of which every setting that it mentions can be read. -/
structure IsConfiguration (document : Datum) : Prop extends
    document.HasSections where
  isReadable : ∀ setting : Setting, ∀ datum ∈ document.settingOf? setting,
    (setting.kind.read? datum).isSome = true

end Datum

/-! ## Reading -/

namespace Section

/-- What a section holds. -/
def Value : Section → Type
  | .listener =>
      Listener
  | .source =>
      Source
  | .relay =>
      Relay
  | .backoff =>
      Backoff
  | .auth =>
      Auth
  | .observability =>
      Observability

/-- A section of a configuration. -/
def get : (part : Section) → RelayConfig → part.Value
  | .listener =>
      RelayConfig.listener
  | .source =>
      RelayConfig.source
  | .relay =>
      RelayConfig.relay
  | .backoff =>
      RelayConfig.backoff
  | .auth =>
      RelayConfig.auth
  | .observability =>
      RelayConfig.observability

/-- Reads a section of a file. -/
def read? : (part : Section) → Datum → Option part.Value
  | .listener =>
      Datum.listener? .toml
  | .source =>
      Datum.source? .toml
  | .relay =>
      Datum.relay? .toml
  | .backoff =>
      Datum.backoff? .toml
  | .auth =>
      Datum.auth? .toml
  | .observability =>
      Datum.observability? .toml

end Section

namespace Datum

/-- A datum is a section exactly when it can be one, by its own entries. -/
private theorem finder?_eq_some_iff {count : Nat} {datum : Datum} {find : Finder} :
    datum.finder? .toml count = some find ↔
      datum.IsSection ∧ datum.part? = find := by
  cases datum with
  | table isInline fields =>
      simp only [finder?, Option.some.injEq, IsSection, true_and]
      rfl
  | list items =>
      simp only [finder?, reduceCtorEq, false_and, if_false,
        Option.some.injEq, IsSection, true_and]
      rfl
  | moment =>
      simp only [finder?, Option.some.injEq, IsSection, true_and]
      rfl
  | _ =>
      simp [finder?, IsSection]

/-- A setting is read as what is written for it, or else as its default. -/
private theorem setting?_eq_some_iff
    {find : Finder}
    {place : Nat}
    {name : String}
    {read : Datum → Option α}
    {default value : α} :
    setting? find place name read default = some value ↔
      IsWritten read default (find place name) value := by
  unfold setting?
  cases find place name with
  | none =>
      exact Option.some_inj.trans eq_comm
  | some datum =>
      exact Iff.rfl

/-- A section has for its settings what is written in a datum. -/
def IsRead (part : Section) (datum : Datum) (config : RelayConfig) : Prop :=
  datum.IsSection ∧
    ∀ setting ∈ part.settings,
      setting.Has (datum.part? setting.place setting.key) config

variable {datum : Datum} {config : RelayConfig}

/-- The listener is read setting by setting. -/
private theorem listener?_eq_some_iff :
    listener? .toml datum = some config.listener ↔
      IsRead .listener datum config := by
  obtain ⟨listener, source, relay, backoff, auth, observability⟩ := config
  simp only [listener?, Option.bind_eq_bind, Option.bind_eq_some_iff,
    finder?_eq_some_iff, setting?_eq_some_iff, Option.some.injEq, IsRead,
    Section.settings, List.forall_mem_singleton]
  constructor
  · rintro ⟨_, ⟨isSection, rfl⟩, _, bindAddress, rfl⟩
    exact ⟨isSection, bindAddress⟩
  · rintro ⟨isSection, bindAddress⟩
    exact ⟨_, ⟨isSection, rfl⟩, _, bindAddress, rfl⟩

/-- The source is read setting by setting. -/
private theorem source?_eq_some_iff :
    source? .toml datum = some config.source ↔
      IsRead .source datum config := by
  obtain ⟨listener, source, relay, backoff, auth, observability⟩ := config
  simp only [source?, Option.bind_eq_bind, Option.bind_eq_some_iff,
    finder?_eq_some_iff, setting?_eq_some_iff, Option.some.injEq, IsRead,
    Section.settings, List.forall_mem_cons, List.not_mem_nil, false_implies,
    implies_true, and_true]
  constructor
  · rintro ⟨_, ⟨isSection, rfl⟩, _, sseUrl, _, apiUrl, _, apiToken,
      _, connect, _, idle, _, request, rfl⟩
    exact ⟨isSection, sseUrl, apiUrl, apiToken, connect, idle, request⟩
  · rintro ⟨isSection, sseUrl, apiUrl, apiToken, connect, idle, request⟩
    exact ⟨_, ⟨isSection, rfl⟩, _, sseUrl, _, apiUrl, _, apiToken,
      _, connect, _, idle, _, request, rfl⟩

/-- The relay is read setting by setting. -/
private theorem relay?_eq_some_iff :
    relay? .toml datum = some config.relay ↔
      IsRead .relay datum config := by
  obtain ⟨listener, source, relay, backoff, auth, observability⟩ := config
  simp only [relay?, Option.bind_eq_bind, Option.bind_eq_some_iff,
    finder?_eq_some_iff, setting?_eq_some_iff, Option.some.injEq, IsRead,
    Section.settings, List.forall_mem_cons, List.not_mem_nil, false_implies,
    implies_true, and_true]
  constructor
  · rintro ⟨_, ⟨isSection, rfl⟩, _, capacity, _, keepAlive, _, maxFrame, rfl⟩
    exact ⟨isSection, capacity, keepAlive, maxFrame⟩
  · rintro ⟨isSection, capacity, keepAlive, maxFrame⟩
    exact ⟨_, ⟨isSection, rfl⟩, _, capacity, _, keepAlive, _, maxFrame, rfl⟩

/-- The backoff is read setting by setting. -/
private theorem backoff?_eq_some_iff :
    backoff? .toml datum = some config.backoff ↔
      IsRead .backoff datum config := by
  obtain ⟨listener, source, relay, backoff, auth, observability⟩ := config
  simp only [backoff?, Option.bind_eq_bind, Option.bind_eq_some_iff,
    finder?_eq_some_iff, setting?_eq_some_iff, Option.some.injEq, IsRead,
    Section.settings, List.forall_mem_cons, List.not_mem_nil, false_implies,
    implies_true, and_true]
  constructor
  · rintro ⟨_, ⟨isSection, rfl⟩, _, strategy, _, delay, _, base, _, longest,
      rfl⟩
    exact ⟨isSection, strategy, delay, base, longest⟩
  · rintro ⟨isSection, strategy, delay, base, longest⟩
    exact ⟨_, ⟨isSection, rfl⟩, _, strategy, _, delay, _, base, _, longest,
      rfl⟩

/-- The authentication is read setting by setting. -/
private theorem auth?_eq_some_iff :
    auth? .toml datum = some config.auth ↔
      IsRead .auth datum config := by
  obtain ⟨listener, source, relay, backoff, auth, observability⟩ := config
  simp only [auth?, Option.bind_eq_bind, Option.bind_eq_some_iff,
    finder?_eq_some_iff, setting?_eq_some_iff, Option.some.injEq, IsRead,
    Section.settings, List.forall_mem_cons, List.not_mem_nil, false_implies,
    implies_true, and_true]
  constructor
  · rintro ⟨_, ⟨isSection, rfl⟩, _, secret, _, name, _, secure, _, sameSite,
      _, maxAge, rfl⟩
    exact ⟨isSection, secret, name, secure, sameSite, maxAge⟩
  · rintro ⟨isSection, secret, name, secure, sameSite, maxAge⟩
    exact ⟨_, ⟨isSection, rfl⟩, _, secret, _, name, _, secure, _, sameSite,
      _, maxAge, rfl⟩

/-- The observability is read setting by setting. -/
private theorem observability?_eq_some_iff :
    observability? .toml datum = some config.observability ↔
      IsRead .observability datum config := by
  obtain ⟨listener, source, relay, backoff, auth, observability⟩ := config
  simp only [observability?, Option.bind_eq_bind, Option.bind_eq_some_iff,
    finder?_eq_some_iff, setting?_eq_some_iff, Option.some.injEq, IsRead,
    Section.settings, List.forall_mem_cons, List.not_mem_nil, false_implies,
    implies_true, and_true]
  constructor
  · rintro ⟨_, ⟨isSection, rfl⟩, _, level, _, enabled, _, address, rfl⟩
    exact ⟨isSection, level, enabled, address⟩
  · rintro ⟨isSection, level, enabled, address⟩
    exact ⟨_, ⟨isSection, rfl⟩, _, level, _, enabled, _, address, rfl⟩

/-- A section is read as the one that has what is written. -/
private theorem read?_eq_some_iff {part : Section} :
    part.read? datum = some (part.get config) ↔
      IsRead part datum config := by
  cases part with
  | listener =>
      exact listener?_eq_some_iff
  | source =>
      exact source?_eq_some_iff
  | relay =>
      exact relay?_eq_some_iff
  | backoff =>
      exact backoff?_eq_some_iff
  | auth =>
      exact auth?_eq_some_iff
  | observability =>
      exact observability?_eq_some_iff

/-- A section that is missing is like one in which nothing is written. -/
private theorem read?_empty (part : Section) :
    part.read? (.table false []) = some (part.get .standard) := by
  cases part <;> rfl

/-- A section is what is written of it if its settings are. -/
private theorem isWritten_section_iff {part : Section} {written : Option Datum} :
    IsWritten part.read? (part.get .standard) written (part.get config) ↔
      (∀ datum ∈ written, datum.IsSection) ∧
        ∀ setting ∈ part.settings,
          setting.Has
            (written.bind (·.part? setting.place setting.key)) config := by
  cases written with
  | none =>
      -- What is missing is read through the empty table, setting by setting.
      calc
        part.get config = part.get .standard ↔
            part.read? (.table false []) = some (part.get config) := by
          rw [read?_empty, Option.some_inj, eq_comm]
        _ ↔ IsRead part (.table false []) config := read?_eq_some_iff
        _ ↔ _ :=
          and_congr_left fun _ => iff_of_true trivial fun _ isPart =>
            nomatch isPart
  | some datum =>
      calc
        part.read? datum = some (part.get config) ↔ IsRead part datum config :=
          read?_eq_some_iff
        _ ↔ _ :=
          and_congr_left fun _ => by
            simp only [Option.mem_def, Option.some.injEq, forall_eq']

/--
A document is read as the configuration of which every section is what is
written.
-/
private theorem config?_eq_some_iff_sections {document : Datum} :
    document.config? .toml = some config ↔
      document.IsSection ∧
        ∀ part : Section,
          IsWritten part.read? (part.get .standard)
            (document.sectionOf? part) (part.get config) := by
  obtain ⟨listener, source, relay, backoff, auth, observability⟩ := config
  simp only [config?, Option.bind_eq_bind, Option.bind_eq_some_iff,
    finder?_eq_some_iff, setting?_eq_some_iff, Option.some.injEq]
  constructor
  · rintro ⟨_, ⟨isSection, rfl⟩, _, isListener, _, isSource, _, isRelay,
      _, isBackoff, _, isAuth, _, isObservability, same⟩
    obtain ⟨rfl, rfl, rfl, rfl, rfl, rfl⟩ := RelayConfig.mk.inj same
    refine ⟨isSection, fun part => ?_⟩
    cases part with
    | listener =>
        exact isListener
    | source =>
        exact isSource
    | relay =>
        exact isRelay
    | backoff =>
        exact isBackoff
    | auth =>
        exact isAuth
    | observability =>
        exact isObservability
  · rintro ⟨isSection, each⟩
    exact ⟨_, ⟨isSection, rfl⟩, _, each .listener, _, each .source,
      _, each .relay, _, each .backoff, _, each .auth,
      _, each .observability, rfl⟩

variable {document : Datum}

/-- A document is read as the configuration that follows it. -/
theorem config?_eq_some_iff :
    document.config? .toml = some config ↔
      document.HasSections ∧ config.Follows document.settingOf? := by
  rw [config?_eq_some_iff_sections]
  simp only [isWritten_section_iff, forall_and]
  constructor
  · rintro ⟨isSection, ofPart, each⟩
    exact ⟨⟨isSection, ofPart⟩, fun setting =>
      each setting.home setting (Setting.mem_settings_iff.mpr rfl)⟩
  · rintro ⟨⟨isSection, ofPart⟩, each⟩
    refine ⟨isSection, ofPart, fun part setting isPart => ?_⟩
    obtain rfl := Setting.mem_settings_iff.mp isPart
    exact each setting

/-- What can be read leaves some value. -/
private theorem exists_isWritten
    {read : Datum → Option α}
    (default : α)
    {written : Option Datum}
    (isReadable : ∀ datum ∈ written, (read datum).isSome = true) :
    ∃ value, IsWritten read default written value := by
  cases written with
  | none =>
      exact ⟨default, rfl⟩
  | some datum =>
      exact Option.isSome_iff_exists.mp (isReadable datum rfl)

/-- Documents are read if they are configurations. -/
theorem isConfiguration_iff :
    document.IsConfiguration ↔
      ∃ config, document.config? .toml = some config := by
  simp only [config?_eq_some_iff]
  constructor
  · intro isConfiguration
    have each (setting : Setting) :=
      exists_isWritten (setting.get .standard)
        (isConfiguration.isReadable setting)
    choose value isWritten using each
    refine ⟨.ofValues value, isConfiguration.toHasSections, fun setting => ?_⟩
    rw [Setting.Has, Setting.get_ofValues]
    exact isWritten setting
  · rintro ⟨config, hasSections, each⟩
    refine ⟨hasSections, fun setting datum isDatum => ?_⟩
    have isWritten := each setting
    rw [Option.mem_def.mp isDatum] at isWritten
    exact Option.isSome_iff_exists.mpr ⟨_, isWritten⟩

end Datum

end EventRelay.Config
