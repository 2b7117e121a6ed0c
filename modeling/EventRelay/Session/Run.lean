import EventRelay.Session.Machine

namespace EventRelay.Session

/-!
# Runs

A run takes steps until the session has ended, or until the next step would
come after a horizon.  A session that is still running then is dropped, which
closes its stream.
-/

open Timing (Milliseconds)

/-- A state that a number of steps leads to. -/
inductive Reaches (scenario : Scenario) : State → State → Prop where
  | refl (state : State) : Reaches scenario state state
  | step
      {state next last : State}
      (steps : scenario.step? state = some next)
      (rest : Reaches scenario next last) :
      Reaches scenario state last

namespace Scenario

/-- Takes at most a number of steps that do not come after a horizon. -/
def runFrom (scenario : Scenario) (horizon : Milliseconds) :
    Nat → State → State
  | 0, state =>
      state
  | steps + 1, state =>
      match scenario.step? state with
      | none =>
          state
      | some next =>
          if horizon < next.now then
            state
          else
            runFrom scenario horizon steps next

/-- The size of a read: the steps it may take. -/
def readSize (read : TimedRead) : Nat :=
  match read.answer with
  | .chunk bytes =>
      2 * bytes.length + 4
  | _ =>
      4

/-- The size of an attempt: the steps it may take. -/
def connectSize (connect : TimedConnect) : Nat :=
  match connect.answer with
  | .opened reads =>
      (reads.map readSize).foldl (· + ·) 8
  | _ =>
      8

/--
A number of steps that suffices for every wait of at least a millisecond
before the horizon, and for all planned attempts.
-/
def sufficientSteps (scenario : Scenario) (horizon : Milliseconds) : Nat :=
  (scenario.connects.map connectSize).foldl (· + ·)
    (connectSize scenario.afterwards * (horizon + 2))

/-- The state of a session at a horizon, or at its end before. -/
def stateAt (scenario : Scenario) (horizon : Milliseconds) : State :=
  scenario.runFrom horizon (scenario.sufficientSteps horizon) scenario.initial

end Scenario

/-- What is known of a session that has ended. -/
structure Report where
  termination : Termination
  attempts : Nat
  forwarded : Nat
  time : Milliseconds
  deriving Repr, DecidableEq

/-- How a run ends: with a report, or dropped at the horizon. -/
inductive Outcome where
  | ended (report : Report)
  | stillRunning (time : Milliseconds)
  deriving Repr, DecidableEq

/-- A run with all that happened. -/
structure Run where
  outcome : Outcome
  history : History
  deriving Repr, DecidableEq

namespace State

/-- The report of a session that has ended. -/
def report? (state : State) : Option Report :=
  match state.phase with
  | .ended termination =>
      some ⟨termination, state.attempts, state.forwarded, state.now⟩
  | _ =>
      none

/-- The run of a session that is left alone at a horizon. -/
def leaveAt (state : State) (horizon : Milliseconds) : Run :=
  match state.report? with
  | some report =>
      ⟨.ended report, state.history⟩
  | none =>
      let dropped := state.waitUntil horizon
      if state.phase.isOpen then
        ⟨.stillRunning horizon, dropped.close.history⟩
      else
        ⟨.stillRunning horizon, dropped.history⟩

end State

namespace Scenario

/-- The run of a session up to a horizon. -/
def run (scenario : Scenario) (horizon : Milliseconds) : Run :=
  (scenario.stateAt horizon).leaveAt horizon

end Scenario

namespace Run

/-- The metrics after a run; a session that was dropped is not active. -/
def metrics (run : Run) : Observe.Metrics :=
  match run.outcome with
  | .ended _ =>
      run.history.metrics
  | .stillRunning _ =>
      run.history.metrics.add .activeSessions (-1)

end Run

/-- Why a session has no usable URL. -/
inductive Unconfigured where
  | missingUrl
  | invalidUrl (text : String) (error : UrlError)
  deriving Repr, DecidableEq

namespace Unconfigured

/-- The log entry about a missing or invalid URL. -/
def entry : Unconfigured → Observe.Entry
  | .missingUrl =>
      ⟨.error, "No upstream SSE URL configured; relay session not started", []⟩
  | .invalidUrl text error =>
      ⟨.error, "Invalid upstream SSE URL; relay session not started",
        [("url", text), ("error", error.message)]⟩

/-- The report of a session that never started. -/
def report : Report :=
  ⟨.unconfigured, 0, 0, 0⟩

/-- The log of a session that never started. -/
def log (reason : Unconfigured) : List Observe.Entry :=
  [reason.entry, Event.endEntry .unconfigured 0 0]

end Unconfigured

namespace Settings

/-- The URL of the event stream, or why there is none. -/
def usableUrl (settings : Settings) : Except Unconfigured Url :=
  match settings.url with
  | none =>
      .error .missingUrl
  | some text =>
      match Url.ofString text with
      | .ok url =>
          .ok url
      | .error error =>
          .error (.invalidUrl text error)

/--
The run of a session that is started with its settings: without a usable URL
it ends before anything happens.
-/
def launch
    (settings : Settings)
    (scenario : Url → Scenario)
    (horizon : Milliseconds) : Run :=
  match settings.usableUrl with
  | .error _ =>
      ⟨.ended Unconfigured.report, []⟩
  | .ok url =>
      (scenario url).run horizon

end Settings

end EventRelay.Session
