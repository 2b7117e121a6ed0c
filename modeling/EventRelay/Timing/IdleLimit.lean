import EventRelay.Timing.Duration

namespace EventRelay.Timing

/-!
# Idle limits

Work may be given a limit.  Work that is ready exactly at the limit counts as
finished.
-/

/-- The limit of a number of seconds; zero seconds set none. -/
def limitOfSeconds (seconds : Nat) : Option Milliseconds :=
  if seconds = 0 then
    none
  else
    some (ofSeconds seconds)

/-- How limited work ends, and how long that takes. -/
inductive Limited where
  | finished (after : Milliseconds)
  | elapsed (after : Milliseconds)
  | never
  deriving Repr, DecidableEq

/-- Work of a duration under a limit; `none` is work that never ends. -/
def runWithin (limit : Option Milliseconds) (work : Option Milliseconds) :
    Limited :=
  match limit, work with
  | none, none =>
      .never
  | none, some duration =>
      .finished duration
  | some limit, none =>
      .elapsed limit
  | some limit, some duration =>
      if duration ≤ limit then
        .finished duration
      else
        .elapsed limit

/-- The text of the failure of limited work. -/
def elapsedMessage : String :=
  "deadline has elapsed"

end EventRelay.Timing
