import EventRelay.Proofs.Config.Finishing
import EventRelay.Proofs.Config.Pinning
import Mathlib.Data.List.Induction

namespace EventRelay.Config

/-!
# Reloading forgets the history

A watcher pins every save to what is running, and what is running was pinned
before.  All that remains of this is the configuration at the start, for its
startup settings, and the last save that could be loaded, for all others.
-/

namespace ReloadOutcome

/-- The configuration that is published. -/
def published? : ReloadOutcome → Option RelayConfig
  | .updated _ config =>
      some config
  | _ =>
      none

/-- The settings that are reported as needing a restart. -/
def reported : ReloadOutcome → List Setting
  | .failed _ =>
      []
  | .unchanged pinned =>
      pinned
  | .updated pinned _ =>
      pinned

end ReloadOutcome

/-- The last of some saves that could be loaded, as it was loaded. -/
def lastLoaded? (environment : Environment) (saves : List File) :
    Option RelayConfig :=
  (saves.filterMap fun file => (loadFile environment file).toOption).getLast?

/-- A save that cannot be loaded is not the last one loaded. -/
private theorem lastLoaded?_concat_of_error
    {environment : Environment}
    {file : File}
    {error : LoadError}
    (fails : loadFile environment file = .error error)
    (saves : List File) :
    lastLoaded? environment (saves ++ [file]) =
      lastLoaded? environment saves := by
  simp [lastLoaded?, fails, Except.toOption]

/-- A save that can be loaded is the last one loaded. -/
theorem lastLoaded?_concat_of_ok
    {environment : Environment}
    {file : File}
    {loaded : RelayConfig}
    (loads : loadFile environment file = .ok loaded)
    (saves : List File) :
    lastLoaded? environment (saves ++ [file]) = some loaded := by
  simp [lastLoaded?, loads, Except.toOption]

namespace Watcher

/-- A save that cannot be loaded changes nothing. -/
private theorem reload_of_error
    (watcher : Watcher)
    {file : File}
    {error : LoadError}
    (fails : loadFile watcher.environment file = .error error) :
    watcher.reload file = (.failed error, watcher) := by
  rw [reload, fails]

/-- A save that can be loaded is pinned to what is running. -/
theorem running_reload_of_ok
    (watcher : Watcher)
    {file : File}
    {loaded : RelayConfig}
    (loads : loadFile watcher.environment file = .ok loaded) :
    (watcher.reload file).2.running = pinTo watcher.running loaded := by
  rw [reload, loads]
  simp only
  split
  · next same =>
      exact same.symm
  · rfl

/--
A save that can be loaded reports the startup settings it would have changed.
-/
private theorem reported_reload_of_ok
    (watcher : Watcher)
    {file : File}
    {loaded : RelayConfig}
    (loads : loadFile watcher.environment file = .ok loaded) :
    (watcher.reload file).1.reported =
      pinnedSettings watcher.running loaded := by
  rw [reload, loads]
  simp only
  split <;> rfl

private theorem environment_reload (watcher : Watcher) (file : File) :
    (watcher.reload file).2.environment = watcher.environment := by
  unfold reload
  split
  · rfl
  · simp only
    split <;> rfl

/-- What is published is what is running then, if that has changed. -/
theorem published?_reload (watcher : Watcher) (file : File) :
    (watcher.reload file).1.published? =
      if (watcher.reload file).2.running = watcher.running then
        none
      else
        some (watcher.reload file).2.running := by
  unfold reload
  split
  · simp [ReloadOutcome.published?]
  · simp only
    split
    · simp [ReloadOutcome.published?]
    · rfl

theorem reloadAll_concat
    (watcher : Watcher)
    (saves : List File)
    (file : File) :
    watcher.reloadAll (saves ++ [file]) =
      ((watcher.reloadAll saves).1 ++
          [((watcher.reloadAll saves).2.reload file).1],
        ((watcher.reloadAll saves).2.reload file).2) := by
  induction saves generalizing watcher with
  | nil =>
      rfl
  | cons first later inductionHypothesis =>
      simp only [List.cons_append, reloadAll, inductionHypothesis]

/-- No save changes the environment. -/
private theorem environment_reloadAll (watcher : Watcher) (saves : List File) :
    (watcher.reloadAll saves).2.environment = watcher.environment := by
  induction saves generalizing watcher with
  | nil =>
      rfl
  | cons first later inductionHypothesis =>
      exact (inductionHypothesis _).trans (watcher.environment_reload first)

/--
Whatever was saved, what is running is the last save that could be loaded,
pinned to the configuration at the start.
-/
theorem running_reloadAll (watcher : Watcher) (saves : List File) :
    (watcher.reloadAll saves).2.running =
      pinTo watcher.running
        ((lastLoaded? watcher.environment saves).getD watcher.running) := by
  induction saves using List.reverseRecOn with
  | nil =>
      exact (pinTo_self watcher.running).symm
  | append_singleton earlier file inductionHypothesis =>
      have environment := watcher.environment_reloadAll earlier
      rw [reloadAll_concat]
      cases loads : loadFile watcher.environment file with
      | error error =>
          rw [lastLoaded?_concat_of_error loads, ← inductionHypothesis]
          rw [← environment] at loads
          rw [reload_of_error _ loads]
      | ok loaded =>
          rw [lastLoaded?_concat_of_ok loads, Option.getD_some]
          rw [← environment] at loads
          rw [running_reload_of_ok _ loads, inductionHypothesis, pinTo_pinTo]

/--
After any saves, what is running has the six startup settings of the start and
all others from the last save that could be loaded, and is the only such
configuration.  It is published if it differs from what was running before
the save.  A save that cannot be loaded changes nothing, and one that can is
reported with the startup settings in which it differs from the start.
-/
theorem reloading_forgets_history
    (watcher : Watcher)
    (saves : List File)
    (file : File) :
    let before := (watcher.reloadAll saves).2
    let outcome := (before.reload file).1
    let after := (before.reload file).2
    let latest :=
      (lastLoaded? watcher.environment (saves ++ [file])).getD watcher.running
    let startup : List Setting :=
      [.bindAddress, .connectTimeoutSecs, .requestTimeoutSecs, .logLevel,
        .metricsEnabled, .metricsAddress]
    watcher.reloadAll (saves ++ [file]) =
        ((watcher.reloadAll saves).1 ++ [outcome], after) ∧
      after.running =
        { latest with
          listener.bindAddress := watcher.running.listener.bindAddress
          source.connectTimeoutSecs := watcher.running.source.connectTimeoutSecs
          source.requestTimeoutSecs := watcher.running.source.requestTimeoutSecs
          observability := watcher.running.observability } ∧
      (∀ config,
        config = after.running ↔
          ∀ setting : Setting,
            setting.agrees
              (if setting ∈ startup then watcher.running else latest)
              config = true) ∧
      outcome.published? =
        (if after.running = before.running then
          none
        else
          some after.running) ∧
      (∀ error, loadFile watcher.environment file = .error error →
        outcome = .failed error ∧ after = before) ∧
      ∀ loaded, loadFile watcher.environment file = .ok loaded →
        outcome.reported =
          startup.filter (!·.agrees watcher.running loaded) := by
  intro before outcome after latest startup
  have environment : before.environment = watcher.environment :=
    watcher.environment_reloadAll saves
  have isAfter : after.running = pinTo watcher.running latest := by
    have running := watcher.running_reloadAll (saves ++ [file])
    rw [reloadAll_concat] at running
    exact running
  refine ⟨watcher.reloadAll_concat saves file,
    isAfter.trans (pinTo_eq watcher.running latest), ?only,
    before.published?_reload file, ?failed, ?loaded⟩
  case only =>
    intro config
    rw [isAfter]
    exact eq_pinTo_iff
  case failed =>
    intro error fails
    rw [← environment] at fails
    have failed := before.reload_of_error fails
    exact ⟨congrArg Prod.fst failed, congrArg Prod.snd failed⟩
  case loaded =>
    intro loaded loads
    rw [← environment] at loads
    rw [before.reported_reload_of_ok loads, watcher.running_reloadAll saves,
      pinnedSettings_pinTo]
    rfl

/-- A limit that takes effect, and a timeout that does not. -/
def mixedSave : File :=
  .content (Text.Utf8.bytesOf
    "[relay]\nmax_frame_bytes = 64\n[upstream]\nrequest_timeout_secs = 3\n")

/-- A setting that must not be zero. -/
def zeroSave : File :=
  .content (Text.Utf8.bytesOf "[relay]\nkeep_alive_secs = 0\n")

/--
After a save that cannot be loaded, another one is pinned to the start: its
limit is running and published, and its timeout is only reported.
-/
theorem mixedSave_is_pinned :
    let before := ((⟨.standard, .empty⟩ : Watcher).reloadAll [zeroSave]).2
    let outcome := (before.reload mixedSave).1
    let after := (before.reload mixedSave).2
    { RelayConfig.standard with relay.maxFrameBytes := 64 } = after.running ∧
      outcome.published? = some after.running ∧
      outcome.reported = [.requestTimeoutSecs] := by
  have loads :
      loadFile Environment.empty mixedSave =
        .ok { RelayConfig.standard with
          relay.maxFrameBytes := 64
          source.requestTimeoutSecs := 3 } := by
    decide +kernel
  obtain ⟨-, -, only, published, -, reported⟩ :=
    reloading_forgets_history ⟨.standard, .empty⟩ [zeroSave] mixedSave
  rw [lastLoaded?_concat_of_ok loads] at only
  refine ⟨(only _).mpr ?agrees, published.trans (if_neg ?changed),
    (reported _ loads).trans ?settings⟩
  case agrees =>
    intro setting
    cases setting <;> decide +kernel
  case changed =>
    decide +kernel
  case settings =>
    decide +kernel

/-- Only a save that can be loaded is published, pinned to what was running. -/
private theorem exists_loaded_of_published
    {watcher : Watcher}
    {file : File}
    {config : RelayConfig}
    (publishes : (watcher.reload file).1.published? = some config) :
    ∃ loaded,
      loadFile watcher.environment file = .ok loaded ∧
        config = pinTo watcher.running loaded := by
  have shape := watcher.published?_reload file
  rw [publishes] at shape
  cases loads : loadFile watcher.environment file with
  | error error =>
      rw [watcher.reload_of_error loads] at shape
      simp at shape
  | ok loaded =>
      rw [watcher.running_reload_of_ok loads] at shape
      split at shape
      · cases shape
      · exact ⟨loaded, rfl, Option.some.inj shape⟩

/--
Whatever is published by a watcher that starts with a valid configuration is
valid: the startup settings of the start together with all others from one of
the saves, although only these two were ever validated.
-/
theorem published_configurations_are_valid
    {watcher : Watcher}
    (valid : isValid watcher.running = true)
    (saves : List File) :
    ∀ config ∈
        (watcher.reloadAll saves).1.filterMap ReloadOutcome.published?,
      isValid config = true ∧
        ∃ file ∈ saves, ∃ loaded,
          loadFile watcher.environment file = .ok loaded ∧
            config = pinTo watcher.running loaded := by
  induction saves using List.reverseRecOn with
  | nil =>
      rintro config ⟨⟩
  | append_singleton earlier file inductionHypothesis =>
      intro config published
      rw [reloadAll_concat, List.filterMap_append, List.mem_append]
        at published
      rcases published with before | now
      · obtain ⟨isValid, source, saved, loaded⟩ :=
          inductionHypothesis config before
        exact ⟨isValid, source, List.mem_append_left _ saved, loaded⟩
      · obtain ⟨outcome, member, publishes⟩ := List.mem_filterMap.mp now
        rw [List.mem_singleton.mp member] at publishes
        obtain ⟨loaded, loads, rfl⟩ := exists_loaded_of_published publishes
        rw [environment_reloadAll] at loads
        rw [running_reloadAll, pinTo_pinTo]
        exact ⟨isValid_pinTo valid (isValid_of_loadFile loads), file,
          List.mem_append_right _ (List.mem_singleton_self file), loaded,
          loads, rfl⟩

/-- Of three saves one is published, with the timeout of the start. -/
theorem published_of_mixedSave :
    let watcher : Watcher := ⟨.standard, .empty⟩
    let published :=
      (watcher.reloadAll [mixedSave, zeroSave, mixedSave]).1.filterMap
        ReloadOutcome.published?
    isValid watcher.running = true ∧
      published = [{ RelayConfig.standard with relay.maxFrameBytes := 64 }] ∧
      ∀ config ∈ published, isValid config = true := by
  intro watcher published
  have valid : isValid watcher.running = true := by
    decide +kernel
  exact ⟨valid, by decide +kernel, fun config member =>
    (published_configurations_are_valid valid _ config member).1⟩

end Watcher

end EventRelay.Config
