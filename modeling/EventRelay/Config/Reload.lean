import EventRelay.Config.Load

namespace EventRelay.Config

/-!
# Reloading

When the file was saved it is loaded again.  Settings that were bound at the
start keep their running values and are reported; all others take effect at
once.
-/

/-- The settings that are bound at the start, in the order of reporting. -/
def startupSettings : List Setting :=
  [.bindAddress, .connectTimeoutSecs, .requestTimeoutSecs, .logLevel,
    .metricsEnabled, .metricsAddress]

/-- The startup settings in which two configurations differ. -/
def pinnedSettings (running next : RelayConfig) : List Setting :=
  startupSettings.filter (!·.agrees running next)

/-- A configuration with the startup settings of the running one. -/
def pinTo (running next : RelayConfig) : RelayConfig :=
  startupSettings.foldl (fun config setting => setting.carry running config) next

/-- What a save led to. -/
inductive ReloadOutcome where
  /-- The file could not be loaded; nothing changes. -/
  | failed (error : LoadError)
  /-- Nothing that could take effect has changed. -/
  | unchanged (pinned : List Setting)
  /-- A configuration was published. -/
  | updated (pinned : List Setting) (config : RelayConfig)
  deriving Repr, DecidableEq

/-- Watches a configuration file. -/
structure Watcher where
  running : RelayConfig
  environment : Environment

namespace Watcher

/-- Deals with a save of the file. -/
def reload (watcher : Watcher) (file : File) : ReloadOutcome × Watcher :=
  match loadFile watcher.environment file with
  | .error error =>
      (.failed error, watcher)
  | .ok loaded =>
      let pinned := pinnedSettings watcher.running loaded
      let next := pinTo watcher.running loaded
      if next = watcher.running then
        (.unchanged pinned, watcher)
      else
        (.updated pinned next, { watcher with running := next })

/-- Deals with saves in order. -/
def reloadAll (watcher : Watcher) : List File → List ReloadOutcome × Watcher
  | [] =>
      ([], watcher)
  | file :: files =>
      let (outcome, next) := watcher.reload file
      let (outcomes, last) := next.reloadAll files
      (outcome :: outcomes, last)

end Watcher

end EventRelay.Config
