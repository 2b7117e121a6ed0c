import EventRelay.Config.Reload

namespace EventRelay.Config

/-!
# Watching the file

Writes to the file are noticed some time later, and one write may be noticed
more than once.  The watcher waits for a notice, lets the file settle, takes
all further notices, and only then reads the file.  Writes and notices come
at any moment in between.
-/

/-- What the watcher does at the moment. -/
inductive WatchPhase where
  /-- It waits for a notice. -/
  | waiting
  /-- It lets the file settle. -/
  | settling
  /-- It takes the notices that are there. -/
  | draining
  /-- It is about to read the file. -/
  | reading
  | ended
  deriving Repr, DecidableEq

/-- A file and its watcher. -/
structure Watch where
  watcher : Watcher
  /-- What the file holds. -/
  file : File
  phase : WatchPhase
  /-- How many notices wait to be taken. -/
  notices : Nat
  /-- Whether the file is still watched, so that further notices may come. -/
  isWatched : Bool
  /-- Whether anyone still takes the published configurations. -/
  hasListener : Bool
  /-- What the file held whenever it was read, in order. -/
  reads : List File
  /-- What the reads led to, in order. -/
  outcomes : List ReloadOutcome

/-- Something that happens to a file or its watcher. -/
inductive WatchStep where
  | write (file : File)
  /-- A notice arrives. -/
  | notice
  /-- The file is not watched any more. -/
  | unwatch
  /-- Nobody takes the published configurations any more. -/
  | leave
  /-- The waiting watcher takes a notice. -/
  | receive
  /-- The file has settled. -/
  | settle
  /-- The watcher takes one further notice. -/
  | take
  /-- No further notice is there. -/
  | stopTaking
  | read
  /-- The waiting watcher finds that no notice will ever come. -/
  | finish
  deriving Repr, DecidableEq

/-- Whether a step is one of the watcher, not of its surroundings. -/
def WatchStep.isOwn : WatchStep → Bool
  | .write _ | .notice | .unwatch | .leave =>
      false
  | _ =>
      true

namespace Watch

/-- A watcher at its start, with a file that it has not read. -/
def start (watcher : Watcher) (file : File) : Watch :=
  ⟨watcher, file, .waiting, 0, true, true, [], []⟩

/-- The watcher ends; notices that were not taken are lost. -/
def stop (watch : Watch) : Watch :=
  { watch with phase := .ended, notices := 0 }

/-- Reads the file as it is now, and waits again. -/
def reload (watch : Watch) : Watch :=
  let saved := watch.watcher.reload watch.file
  { watch with
    watcher := saved.2
    phase := .waiting
    reads := watch.reads ++ [watch.file]
    outcomes := watch.outcomes ++ [saved.1] }

/-- Reads the file, and goes on unless nobody listens. -/
def read (watch : Watch) : Watch :=
  if watch.hasListener then
    watch.reload
  else
    watch.reload.stop

/-- A step, if it is possible now. -/
def step? (watch : Watch) : WatchStep → Option Watch
  | .write file =>
      some { watch with file }
  | .notice =>
      if !watch.isWatched then
        none
      else if watch.phase = .ended then
        some watch
      else
        some { watch with notices := watch.notices + 1 }
  | .unwatch =>
      some { watch with isWatched := false }
  | .leave =>
      some { watch with hasListener := false }
  | .receive =>
      if watch.phase = .waiting ∧ 0 < watch.notices then
        some { watch with phase := .settling, notices := watch.notices - 1 }
      else
        none
  | .settle =>
      if watch.phase = .settling then
        some { watch with phase := .draining }
      else
        none
  | .take =>
      if watch.phase = .draining ∧ 0 < watch.notices then
        some { watch with notices := watch.notices - 1 }
      else
        none
  | .stopTaking =>
      if watch.phase = .draining ∧ watch.notices = 0 then
        some { watch with phase := .reading }
      else
        none
  | .read =>
      if watch.phase = .reading then
        some watch.read
      else
        none
  | .finish =>
      if watch.phase = .waiting ∧ watch.notices = 0 ∧ !watch.isWatched then
        some watch.stop
      else
        none

/-- The watch after steps, if all of them are possible. -/
def run? (watch : Watch) (steps : List WatchStep) : Option Watch :=
  steps.foldlM step? watch

/-- Whether the watcher waits and no notice is there. -/
def isQuiet (watch : Watch) : Bool :=
  watch.phase == .waiting && watch.notices == 0

end Watch

end EventRelay.Config
