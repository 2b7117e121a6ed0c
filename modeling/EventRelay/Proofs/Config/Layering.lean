import EventRelay.Proofs.Config.Finishing
import EventRelay.Proofs.Config.Written
import Mathlib.Data.List.Nodup

namespace EventRelay.Config

/-!
# Layers of a configuration

A configuration that is loaded has three layers: the defaults, what a file
says, and what the environment says of five settings.  What was said last
counts, setting by setting, and only the outcome is validated.
-/

/-- A text that says something: not all of its characters are blank. -/
def SaysSomething (text : String) : Prop :=
  ∃ character ∈ text.toList, Text.isBlank character = false

instance (text : String) : Decidable (SaysSomething text) :=
  inferInstanceAs
    (Decidable (∃ character ∈ text.toList, Text.isBlank character = false))

namespace Variable

/-- The setting that a variable gives. -/
def setting : Variable → Setting
  | .sseUrl =>
      .sseUrl
  | .apiUrl =>
      .apiUrl
  | .apiToken =>
      .apiToken
  | .dashboardSecret =>
      .dashboardSecret
  | .bindAddress =>
      .bindAddress

private theorem mem_all (source : Variable) : source ∈ all := by
  cases source <;> decide

private theorem nodup_all : all.Nodup := by
  decide

/-- Different variables set different settings. -/
private theorem setting_inj {first second : Variable} :
    first.setting = second.setting ↔ first = second := by
  cases first <;> cases second <;> decide

/-- The value that is assigned is the written text. -/
theorem read?_text_assign
    (source : Variable)
    (value : String)
    (config : RelayConfig) :
    source.setting.kind.read? (.text value) =
      some (source.setting.get (source.assign config value)) := by
  cases source <;> rfl

/-- Assigning leaves all other settings alone. -/
theorem get_assign_of_ne
    {source : Variable}
    {setting : Setting}
    (isOther : source.setting ≠ setting)
    (value : String)
    (config : RelayConfig) :
    setting.get (source.assign config value) = setting.get config := by
  cases source <;> cases setting <;>
    first
    | rfl
    | exact absurd rfl isOther

end Variable

namespace Setting

/-- The variable that gives a setting, if there is one. -/
def giver? (setting : Setting) : Option Variable :=
  Variable.all.find? (·.setting = setting)

variable {setting : Setting}

/-- A setting has no variable exactly when none sets it. -/
private theorem giver?_eq_none_iff :
    setting.giver? = none ↔
      ∀ source ∈ Variable.all, source.setting ≠ setting := by
  simp only [giver?, List.find?_eq_none, decide_eq_true_eq]

/-- The variable of a setting is the one that sets it. -/
private theorem giver?_eq_some_iff {source : Variable} :
    setting.giver? = some source ↔ source.setting = setting := by
  constructor
  · intro gives
    rw [giver?] at gives
    simpa only [decide_eq_true_eq] using List.find?_some gives
  · rintro rfl
    cases source <;> rfl

end Setting

namespace Environment

variable {environment : Environment} {source : Variable} {setting : Setting}

/-- A variable changes its own setting only. -/
private theorem get_applyOne_of_ne
    (isOther : source.setting ≠ setting)
    (config : RelayConfig) :
    setting.get (environment.applyOne config source) = setting.get config := by
  unfold applyOne
  split
  · rfl
  · exact Variable.get_assign_of_ne isOther _ config

/-- Variables leave the settings alone that none of them gives. -/
theorem get_foldl_applyOne
    {sources : List Variable}
    (isOther : ∀ source ∈ sources, source.setting ≠ setting)
    (config : RelayConfig) :
    setting.get (sources.foldl environment.applyOne config) =
      setting.get config := by
  induction sources generalizing config with
  | nil =>
      rfl
  | cons source rest ih =>
      rw [List.forall_mem_cons] at isOther
      rw [List.foldl_cons, ih isOther.2, get_applyOne_of_ne isOther.1]

/-- A variable is applied to its setting as if it were the only one. -/
theorem exists_get_apply
    (environment : Environment)
    (source : Variable)
    (config : RelayConfig) :
    ∃ before : RelayConfig,
      source.setting.get before = source.setting.get config ∧
        source.setting.get (environment.apply config) =
          source.setting.get (environment.applyOne before source) := by
  obtain ⟨earlier, later, split⟩ := List.append_of_mem source.mem_all
  have nodup := Variable.nodup_all
  rw [split, List.nodup_middle, List.nodup_cons, List.mem_append,
    not_or] at nodup
  obtain ⟨⟨notEarlier, notLater⟩, -⟩ := nodup
  -- No other variable gives the same setting.
  have isOther {sources : List Variable} (notIn : source ∉ sources) :
      ∀ other ∈ sources, other.setting ≠ source.setting := by
    intro other isIn same
    exact notIn (Variable.setting_inj.mp same ▸ isIn)
  refine ⟨earlier.foldl environment.applyOne config,
    get_foldl_applyOne (isOther notEarlier) config, ?_⟩
  rw [apply, split, List.foldl_append, List.foldl_cons,
    get_foldl_applyOne (isOther notLater)]

/--
What the environment says of a setting: the value of its variable, if that
says something.
-/
def settingOf? (environment : Environment) (setting : Setting) :
    Option String :=
  setting.giver?.bind fun source =>
    (environment.lookup source.name).filter (SaysSomething ·)

/-- A variable counts only when it says something. -/
private theorem value?_eq_filter (source : Variable) :
    environment.value? source =
      (environment.lookup source.name).filter (SaysSomething ·) := by
  refine congrArg (Option.filter · _) (funext fun text => ?_)
  rw [Bool.eq_iff_iff, decide_eq_true_iff, Text.isBlankText, SaysSomething,
    Bool.not_eq_true', List.all_eq_false]
  simp only [Bool.not_eq_true]

/--
What the environment says of a setting is written over the value before, as it
is.
-/
theorem isWritten_apply (config : RelayConfig) :
    IsWritten setting.kind.read? (setting.get config)
      ((environment.settingOf? setting).map .text)
      (setting.get (environment.apply config)) := by
  rw [settingOf?]
  cases given : setting.giver? with
  | none =>
      exact get_foldl_applyOne (Setting.giver?_eq_none_iff.mp given) config
  | some source =>
      obtain rfl := Setting.giver?_eq_some_iff.mp given
      obtain ⟨before, same, applied⟩ :=
        environment.exists_get_apply source config
      rw [applied, ← same, Option.bind_some, ← value?_eq_filter, applyOne]
      cases environment.value? source with
      | none =>
          exact rfl
      | some value =>
          exact source.read?_text_assign value before

/-- Applying the environment again changes nothing. -/
theorem apply_apply (config : RelayConfig) :
    environment.apply (environment.apply config) = environment.apply config :=
  Setting.eq_of_get fun _ =>
    (isWritten_apply config).again (isWritten_apply (environment.apply config))

end Environment

variable {environment : Environment} {document : Datum}

/-- What is given for a setting: by the environment, or else by a document. -/
def given?
    (environment : Environment)
    (document : Datum)
    (setting : Setting) : Option Datum :=
  ((environment.settingOf? setting).map .text).or
    (document.settingOf? setting)

/-- With the environment applied, a configuration follows what is given. -/
theorem follows_given_apply
    {config : RelayConfig}
    (follows : config.Follows document.settingOf?) :
    (environment.apply config).Follows (given? environment document) :=
  fun setting => (follows setting).over (environment.isWritten_apply config)

/-- A file is what its document is read as. -/
theorem readFile_eq
    {bytes : List UInt8}
    {text : List Char}
    (decodes : Text.Utf8.decode? bytes = some text)
    (parses : Toml.parse? text = some document) :
    readFile (.content bytes) =
      match document.config? .toml with
      | none =>
          .error .parse
      | some config =>
          .ok config := by
  cases read : document.config? .toml with
  | none =>
      simp only [readFile, decodes, RelayConfig.ofToml?, parses,
        Option.bind_some, read]
  | some config =>
      simp only [readFile, decodes, RelayConfig.ofToml?, parses,
        Option.bind_some, read]

/-- An empty file gives the standard configuration. -/
private theorem readFile_empty : readFile (.content []) = .ok .standard := by
  have parses : Toml.parse? [] = some (.table false []) := rfl
  exact readFile_eq rfl parses

/-- No file is like an empty one. -/
private theorem load_none :
    load environment none = load environment (some (.content [])) :=
  (loadFile_of_ok readFile_empty).symm

/-- Sections with a bad address, one limit, and a secret. -/
def sparseText : String :=
  "[listener]
bind_address = 'nowhere'
[relay]
keep_alive_secs = 2
[auth]
dashboard_secret = 'of the file'
"

/-- A better address, and a secret that says nothing. -/
def corrections : Environment :=
  .ofList
    [("RELAY_BIND_ADDRESS", "127.0.0.1:80"), ("RELAY_DASHBOARD_SECRET", " ")]

/-- What the two say together. -/
def corrected : RelayConfig :=
  { RelayConfig.standard with
    listener.bindAddress := "127.0.0.1:80"
    relay.keepAliveSecs := 2
    auth.dashboardSecret := some "of the file" }

end EventRelay.Config
