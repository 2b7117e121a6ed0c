import EventRelay.Config.Watch
import EventRelay.Proofs.Config.Reloading

namespace EventRelay.Config.Watch

/-!
# No save is missed

The watcher takes notices without looking at the file, so one read stands for
many of them.  None of the saves that they announce is missed: once a save was
noticed, the watcher cannot come to rest before it has read the file again,
and it reads what is there then.
-/

variable {watch next : Watch} {step : WatchStep}

@[simp] theorem file_read (watch : Watch) :
    watch.read.file = watch.file := by
  unfold read
  split <;> rfl

@[simp] theorem reads_read (watch : Watch) :
    watch.read.reads = watch.reads ++ [watch.file] := by
  unfold read
  split <;> rfl

/-- One step with the watch that it leads to. -/
inductive Moves (watch : Watch) : WatchStep → Watch → Prop where
  | write (file : File) :
      Moves watch (.write file) { watch with file }
  | notice (isWatched : watch.isWatched = true) (runs : watch.phase ≠ .ended) :
      Moves watch .notice { watch with notices := watch.notices + 1 }
  /-- The watcher has ended, and the notice is lost. -/
  | unheard (isWatched : watch.isWatched = true) (ended : watch.phase = .ended) :
      Moves watch .notice watch
  | unwatch :
      Moves watch .unwatch { watch with isWatched := false }
  | leave :
      Moves watch .leave { watch with hasListener := false }
  | receive (phase : watch.phase = .waiting) (some : 0 < watch.notices) :
      Moves watch .receive
        { watch with phase := .settling, notices := watch.notices - 1 }
  | settle (phase : watch.phase = .settling) :
      Moves watch .settle { watch with phase := .draining }
  | take (phase : watch.phase = .draining) (some : 0 < watch.notices) :
      Moves watch .take { watch with notices := watch.notices - 1 }
  | stopTaking (phase : watch.phase = .draining) (none : watch.notices = 0) :
      Moves watch .stopTaking { watch with phase := .reading }
  | read (phase : watch.phase = .reading) :
      Moves watch .read watch.read
  | finish (phase : watch.phase = .waiting) (none : watch.notices = 0)
      (unwatched : watch.isWatched = false) :
      Moves watch .finish watch.stop

/-- The steps that are possible are exactly the moves. -/
private theorem step?_eq_some_iff :
    watch.step? step = some next ↔ Moves watch step next := by
  constructor
  · intro possible
    cases step <;>
      simp only [step?, Option.ite_none_right_eq_some, Option.some.injEq]
        at possible
    case write file =>
      cases possible
      exact .write file
    case notice =>
      split at possible
      · cases possible
      · next isWatched =>
          rw [Bool.not_eq_true', Bool.not_eq_false] at isWatched
          split at possible
          · next ended =>
              cases possible
              exact .unheard isWatched ended
          · next runs =>
              cases possible
              exact .notice isWatched runs
    case unwatch =>
      cases possible
      exact .unwatch
    case leave =>
      cases possible
      exact .leave
    case receive =>
      obtain ⟨⟨phase, some⟩, rfl⟩ := possible
      exact .receive phase some
    case settle =>
      obtain ⟨phase, rfl⟩ := possible
      exact .settle phase
    case take =>
      obtain ⟨⟨phase, some⟩, rfl⟩ := possible
      exact .take phase some
    case stopTaking =>
      obtain ⟨⟨phase, none⟩, rfl⟩ := possible
      exact .stopTaking phase none
    case read =>
      obtain ⟨phase, rfl⟩ := possible
      exact .read phase
    case finish =>
      obtain ⟨⟨phase, none, unwatched⟩, rfl⟩ := possible
      exact .finish phase none (by simpa using unwatched)
  · intro moves
    cases moves <;> simp_all [step?]

/-- A run begins with a move and goes on from where it leads. -/
private theorem run?_cons_eq_some_iff {steps : List WatchStep} :
    watch.run? (step :: steps) = some next ↔
      ∃ middle, Moves watch step middle ∧ middle.run? steps = some next := by
  simp only [← step?_eq_some_iff]
  exact Option.bind_eq_some_iff

/-- A run of two parts is a run of each, one from where the other ends. -/
private theorem run?_append_eq_some_iff {steps more : List WatchStep} :
    watch.run? (steps ++ more) = some next ↔
      ∃ middle,
        watch.run? steps = some middle ∧ middle.run? more = some next := by
  rw [run?, List.foldlM_append]
  exact Option.bind_eq_some_iff

/-- What every step of a run keeps holds at its end. -/
theorem run?_keeps
    (holds : Watch → Prop)
    {steps : List WatchStep}
    (keeps : ∀ step ∈ steps, ∀ {watch next : Watch},
      Moves watch step next → holds watch → holds next)
    (runs : watch.run? steps = some next)
    (begins : holds watch) :
    holds next := by
  induction steps generalizing watch with
  | nil =>
      cases runs
      exact begins
  | cons step steps inductionHypothesis =>
      obtain ⟨middle, first, runs⟩ := run?_cons_eq_some_iff.mp runs
      apply inductionHypothesis _ runs
      · exact keeps step List.mem_cons_self first begins
      · intro later member
        exact keeps later (List.mem_cons_of_mem step member)

/-- The watcher is where its reads have led it. -/
def IsLed (watcher : Watcher) (watch : Watch) : Prop :=
  watcher.reloadAll watch.reads = (watch.outcomes, watch.watcher)

/-- Nothing but a read leads the watcher anywhere. -/
theorem IsLed.of_moves
    {watcher : Watcher}
    (moves : Moves watch step next)
    (led : watch.IsLed watcher) :
    next.IsLed watcher := by
  cases moves with
  | read phase =>
      have further : watch.reload.IsLed watcher := by
        unfold IsLed reload
        rw [Watcher.reloadAll_concat, led]
      rw [Watch.read]
      split <;> exact further
  | _ =>
      exact led

/-- Only a write changes the file. -/
private theorem file_of_moves
    (moves : Moves watch step next)
    (noWrite : ∀ file, step ≠ .write file) :
    next.file = watch.file := by
  cases moves with
  | write file =>
      exact absurd rfl (noWrite file)
  | read phase =>
      exact watch.file_read
  | _ =>
      rfl

/-- A run without writes leaves the file as it is. -/
private theorem file_of_run?
    {steps : List WatchStep}
    (runs : watch.run? steps = some next)
    (noWrite : ∀ file, .write file ∉ steps) :
    next.file = watch.file := by
  refine run?_keeps (·.file = watch.file) ?_ runs rfl
  rintro step member earlier later moves same
  refine (file_of_moves moves ?_).trans same
  rintro file rfl
  exact noWrite file member

/-- The watcher does not rest before it has read what is in the file. -/
structure IsDue (file : File) (watch : Watch) : Prop where
  holds : watch.file = file
  rests : watch.isQuiet = true → watch.reads.getLast? = some file

/-- A notice has to be taken, whatever the watcher does. -/
theorem isDue_of_notice (moves : Moves watch .notice next) :
    IsDue watch.file next := by
  cases moves with
  | notice isWatched runs =>
      exact ⟨rfl, by simp [isQuiet]⟩
  | unheard isWatched ended =>
      exact ⟨rfl, by simp [isQuiet, ended]⟩

/-- What is due stays so until the file is written again. -/
theorem IsDue.of_moves
    {file : File}
    (moves : Moves watch step next)
    (noWrite : ∀ later, step ≠ .write later)
    (due : watch.IsDue file) :
    next.IsDue file := by
  refine ⟨(file_of_moves moves noWrite).trans due.holds, ?rests⟩
  cases moves with
  | write later =>
      exact absurd rfl (noWrite later)
  | notice isWatched runs =>
      simp [isQuiet]
  | receive phase some =>
      simp [isQuiet]
  | settle phase =>
      simp [isQuiet]
  | take phase some =>
      simp [isQuiet, phase]
  | stopTaking phase none =>
      simp [isQuiet]
  | read phase =>
      -- What is read is what the file holds at that moment.
      intro quiet
      rw [reads_read, List.getLast?_concat, due.holds]
  | finish phase none unwatched =>
      simp [isQuiet, stop]
  | _ =>
      exact due.rests

/-- A read stays due over a run without writes. -/
private theorem IsDue.run
    {file : File}
    {steps : List WatchStep}
    (runs : watch.run? steps = some next)
    (noWrite : ∀ later, .write later ∉ steps)
    (due : watch.IsDue file) :
    next.IsDue file := by
  refine run?_keeps (IsDue file) ?_ runs due
  rintro step member watch next moves due
  apply due.of_moves moves
  rintro later rfl
  exact noWrite later member

/-- What was written last and noticed then is due. -/
theorem isDue_of_noticed
    {file : File}
    {before after : List WatchStep}
    (runs : watch.run? (before ++ .write file :: after) = some next)
    (last : ∀ later, .write later ∉ after)
    (noticed : .notice ∈ after) :
    next.IsDue file := by
  obtain ⟨unnoticed, later, rfl⟩ := List.append_of_mem noticed
  obtain ⟨unwritten, -, runs⟩ := run?_append_eq_some_iff.mp runs
  obtain ⟨written, writes, runs⟩ := run?_cons_eq_some_iff.mp runs
  obtain ⟨waited, waits, runs⟩ := run?_append_eq_some_iff.mp runs
  obtain ⟨heard, hears, runs⟩ := run?_cons_eq_some_iff.mp runs
  have holds : waited.file = file := by
    cases writes
    apply file_of_run? waits
    intro more member
    exact last more (List.mem_append_left _ member)
  have due := isDue_of_notice hears
  rw [holds] at due
  apply due.run runs
  intro more member
  exact last more (List.mem_append_right _ (List.mem_cons_of_mem _ member))

/-- A bound on the steps that the watcher can still take on its own. -/
def remaining (watch : Watch) : Nat :=
  match watch.phase with
  | .ended =>
      0
  | .waiting =>
      5 * watch.notices + 1
  | .reading =>
      5 * watch.notices + 3
  | .draining =>
      5 * watch.notices + 4
  | .settling =>
      5 * watch.notices + 5

/-- Every step of the watcher's own leaves it less to do. -/
private theorem remaining_lt_of_moves
    (moves : Moves watch step next)
    (own : step.isOwn = true) :
    next.remaining < watch.remaining := by
  cases moves with
  | receive phase some =>
      simp only [remaining, phase]
      omega
  | settle phase =>
      simp only [remaining, phase]
      omega
  | take phase some =>
      simp only [remaining, phase]
      omega
  | stopTaking phase none =>
      simp only [remaining, phase]
      omega
  | read phase =>
      rw [Watch.read]
      split
      · simp only [remaining, reload, phase]
        omega
      · simp only [remaining, stop, phase]
        omega
  | finish phase none unwatched =>
      simp only [remaining, phase, stop]
      omega
  | _ =>
      cases own

/-- The watcher has ended, rests, or has a step of its own to take. -/
private theorem rests_or_moves (watch : Watch) :
    (watch.phase = .ended ∨ watch.isQuiet = true) ∨
      ∃ step next, step.isOwn = true ∧ Moves watch step next := by
  cases phase : watch.phase with
  | ended =>
      exact .inl (.inl rfl)
  | waiting =>
      by_cases quiet : watch.notices = 0
      · exact .inl (.inr (by simp [isQuiet, phase, quiet]))
      · exact .inr ⟨_, _, rfl, .receive phase (Nat.pos_of_ne_zero quiet)⟩
  | settling =>
      exact .inr ⟨_, _, rfl, .settle phase⟩
  | draining =>
      by_cases none : watch.notices = 0
      · exact .inr ⟨_, _, rfl, .stopTaking phase none⟩
      · exact .inr ⟨_, _, rfl, .take phase (Nat.pos_of_ne_zero none)⟩
  | reading =>
      exact .inr ⟨_, _, rfl, .read phase⟩

/-- Whatever the watcher does, it comes to rest if it is left alone. -/
private theorem comes_to_rest (watch : Watch) :
    ∃ steps rested,
      (∀ step ∈ steps, step.isOwn = true) ∧
        watch.run? steps = some rested ∧
        (rested.phase = .ended ∨ rested.isQuiet = true) := by
  induction left : watch.remaining using Nat.strongRecOn
      generalizing watch with
  | ind remaining inductionHypothesis =>
      rcases watch.rests_or_moves with rests | ⟨step, next, own, moves⟩
      · exact ⟨[], watch, by simp, rfl, rests⟩
      · have fewer := remaining_lt_of_moves moves own
        obtain ⟨steps, rested, all, runs, rests⟩ :=
          inductionHypothesis next.remaining (left ▸ fewer) next rfl
        refine ⟨step :: steps, rested, ?_, ?_, rests⟩
        · rintro other (_ | ⟨_, member⟩)
          · exact own
          · exact all other member
        · exact run?_cons_eq_some_iff.mpr ⟨next, moves, runs⟩

/--
Whatever is written and noticed in between, once the last write was noticed
and the watcher waits with no notice there, the last thing that it has read is
what was written last.  If this can be loaded, it is what is running, with the
startup settings of the start.  Left alone, the watcher gets that far or ends.
-/
theorem no_save_is_missed
    {watcher : Watcher}
    {initial file : File}
    {before after : List WatchStep}
    {watch : Watch}
    (runs :
      (start watcher initial).run? (before ++ .write file :: after) =
        some watch)
    (last : ∀ later, .write later ∉ after)
    (noticed : .notice ∈ after) :
    (watch.isQuiet = true →
      watch.file = file ∧
        watch.reads.getLast? = some file ∧
        ∀ loaded, loadFile watcher.environment file = .ok loaded →
          watch.watcher.running = pinTo watcher.running loaded) ∧
    ∃ steps rested,
      (∀ step ∈ steps, step.isOwn = true) ∧
        watch.run? steps = some rested ∧
        (rested.phase = .ended ∨
          rested.isQuiet = true ∧ rested.reads.getLast? = some file) := by
  have due := isDue_of_noticed runs last noticed
  refine ⟨fun quiet => ?resting, ?leftAlone⟩
  case resting =>
    have isLast := due.rests quiet
    have led : watch.IsLed watcher := by
      refine run?_keeps (IsLed watcher) ?_ runs rfl
      intro step member earlier later moves
      exact IsLed.of_moves moves
    refine ⟨due.holds, isLast, fun loaded loads => ?_⟩
    obtain ⟨earlier, isReads⟩ := List.getLast?_eq_some_iff.mp isLast
    have running := watcher.running_reloadAll watch.reads
    rw [led, isReads, lastLoaded?_concat_of_ok loads] at running
    exact running
  case leftAlone =>
    obtain ⟨steps, rested, own, goesOn, ended | quiet⟩ := watch.comes_to_rest
    · exact ⟨steps, rested, own, goesOn, .inl ended⟩
    · have stillDue : rested.IsDue file := by
        apply due.run goesOn
        intro later member
        cases own _ member
      exact ⟨steps, rested, own, goesOn, .inr ⟨quiet, stillDue.rests quiet⟩⟩

/--
The notice of the second write is taken with the others, and the first write
is never read.
-/
theorem drained_save_is_read :
    let watcher : Watcher := ⟨.standard, .empty⟩
    let before := [.write Watcher.zeroSave, .notice, .receive, .settle]
    let after := [.notice, .notice, .take, .take, .stopTaking, .read]
    ∃ watch,
      (start watcher .missing).run?
          (before ++ .write Watcher.mixedSave :: after) = some watch ∧
        (∀ later, .write later ∉ after) ∧
        .notice ∈ after ∧
        watch.isQuiet = true ∧
        watch.reads = [Watcher.mixedSave] ∧
        watch.watcher.running =
          { RelayConfig.standard with relay.maxFrameBytes := 64 } := by
  intro watcher before after
  let saved := watcher.reload Watcher.mixedSave
  let watch : Watch :=
    ⟨saved.2, Watcher.mixedSave, .waiting, 0, true, true, [Watcher.mixedSave],
      [saved.1]⟩
  have runs :
      (start watcher .missing).run?
        (before ++ .write Watcher.mixedSave :: after) = some watch :=
    rfl
  have last : ∀ later, .write later ∉ after := by
    simp [after]
  have noticed : .notice ∈ after := by
    simp [after]
  let loaded : RelayConfig :=
    { RelayConfig.standard with
      relay.maxFrameBytes := 64
      source.requestTimeoutSecs := 3 }
  have loads : loadFile watcher.environment Watcher.mixedSave = .ok loaded := by
    decide +kernel
  obtain ⟨-, -, isRunning⟩ := (no_save_is_missed runs last noticed).1 rfl
  have pinned : pinTo watcher.running loaded =
      { RelayConfig.standard with relay.maxFrameBytes := 64 } := by
    decide +kernel
  exact ⟨watch, runs, last, noticed, rfl, rfl,
    (isRunning loaded loads).trans pinned⟩

end EventRelay.Config.Watch
