import EventRelay.Config.Load

namespace EventRelay.Config

/-!
# How loading ends

What was read is finished with the environment, and what is finished is
loaded as it is if it is valid.
-/

variable
  {environment : Environment}
  {file : File}
  {config loaded : RelayConfig}

theorem validate_eq (config : RelayConfig) :
    validate config =
      if isValid config = true then
        .ok config
      else
        .error (.validation (violations config)) := by
  unfold validate isValid
  cases violations config <;> rfl

/-- A configuration is validated as it is. -/
theorem validate_eq_ok_iff :
    validate config = .ok loaded ↔ isValid config = true ∧ config = loaded := by
  rw [validate_eq]
  split
  · next valid =>
      simp only [Except.ok.injEq, valid, true_and]
  · next invalid =>
      simp only [reduceCtorEq, invalid, Bool.false_eq_true, false_and]

/-- A configuration that is loaded is valid. -/
theorem isValid_of_validate (validates : validate config = .ok loaded) :
    isValid loaded = true := by
  obtain ⟨valid, rfl⟩ := validate_eq_ok_iff.mp validates
  exact valid

theorem loadFile_of_ok (reads : readFile file = .ok config) :
    loadFile environment file = finish environment config := by
  simp only [loadFile, reads, bind, Except.bind]

theorem loadFile_of_error
    {error : LoadError}
    (reads : readFile file = .error error) :
    loadFile environment file = .error error := by
  simp only [loadFile, reads, bind, Except.bind]

/-- A file that is loaded was read and finished. -/
theorem exists_of_loadFile (loads : loadFile environment file = .ok loaded) :
    ∃ config,
      readFile file = .ok config ∧ finish environment config = .ok loaded := by
  cases reads : readFile file with
  | error error =>
      rw [loadFile_of_error reads] at loads
      cases loads
  | ok config =>
      rw [loadFile_of_ok reads] at loads
      exact ⟨config, rfl, loads⟩

theorem isValid_of_loadFile (loads : loadFile environment file = .ok loaded) :
    isValid loaded = true := by
  obtain ⟨config, -, finishes⟩ := exists_of_loadFile loads
  exact isValid_of_validate finishes

/-- With or without a file, what is loaded is valid. -/
theorem isValid_of_load
    {file : Option File}
    (loads : load environment file = .ok loaded) :
    isValid loaded = true := by
  cases file with
  | none =>
      have finishes : finish environment .standard = .ok loaded := loads
      exact isValid_of_validate finishes
  | some file =>
      exact isValid_of_loadFile loads

end EventRelay.Config
