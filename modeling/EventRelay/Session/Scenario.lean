import EventRelay.Session.Settings
import EventRelay.Source.Error
import EventRelay.Url.Parse

namespace EventRelay.Session

/-!
# Scenarios

A scenario is everything around a session: what each connect attempt and each
read leads to and when, how the consumer takes events, and when the session is
cancelled.  Times are milliseconds from the start of the session; `none`
stands for something that never happens.
-/

open Timing (Milliseconds)

/-- What a read of the open stream leads to. -/
inductive ReadAnswer where
  | chunk (bytes : List UInt8)
  | failed (reason : String)
  | ended
  /-- No answer ever comes. -/
  | silent
  deriving Repr, DecidableEq

/-- A read and how long its answer takes. -/
structure TimedRead where
  wait : Milliseconds
  answer : ReadAnswer
  deriving Repr, DecidableEq

namespace TimedRead

/-- The read of a stream that has ended. -/
def ended : TimedRead :=
  ⟨0, .ended⟩

/-- When the answer to a read that begins now is there. -/
def due (read : TimedRead) (now : Milliseconds) : Option Milliseconds :=
  match read.answer with
  | .silent =>
      none
  | _ =>
      some (now + read.wait)

end TimedRead

/-- What an attempt to connect leads to. -/
inductive ConnectAnswer where
  | refused (error : Source.ConnectError)
  /-- A stream with its reads; afterwards it has ended. -/
  | opened (reads : List TimedRead)
  /-- No answer ever comes. -/
  | silent
  deriving Repr, DecidableEq

/-- An attempt and how long its answer takes. -/
structure TimedConnect where
  wait : Milliseconds
  answer : ConnectAnswer
  deriving Repr, DecidableEq

namespace TimedConnect

/-- An attempt that is answered at once by a bad gateway. -/
def badGateway : TimedConnect :=
  ⟨0, .refused (.status .badGateway)⟩

/-- When the answer to an attempt that begins now is there. -/
def due (connect : TimedConnect) (now : Milliseconds) :
    Option Milliseconds :=
  match connect.answer with
  | .silent =>
      none
  | _ =>
      some (now + connect.wait)

end TimedConnect

/-- How the consumer takes events.  Events are counted from zero. -/
structure Consumer where
  /-- How long it takes to take an event. -/
  delay : Nat → Option Milliseconds
  /-- Whether it takes an event, or turns out to be gone. -/
  takes : Nat → Bool
  /-- When it leaves on its own. -/
  detachAt : Option Milliseconds
  /-- After how many events it leaves. -/
  detachAfter : Option Nat

namespace Consumer

/-- A consumer that takes everything at once and stays. -/
def eager : Consumer :=
  ⟨fun _ => some 0, fun _ => true, none, none⟩

end Consumer

/-- When a session is cancelled from outside. -/
structure Cancellation where
  cancelAt : Option Milliseconds
  /-- After how many events. -/
  cancelAfter : Option Nat
  deriving Repr, DecidableEq

namespace Cancellation

/-- A session that is never cancelled. -/
def never : Cancellation :=
  ⟨none, none⟩

end Cancellation

/-- Everything around a session. -/
structure Scenario where
  url : Url
  settings : Settings
  /-- What the first attempts lead to. -/
  connects : List TimedConnect
  /-- What every attempt after these leads to. -/
  afterwards : TimedConnect
  consumer : Consumer
  cancellation : Cancellation
  /-- The jitter drawn after each number of attempts. -/
  jitter : Nat → Nat

/-- Whether something has happened by a time. -/
def hasCome (moment : Option Milliseconds) (now : Milliseconds) : Bool :=
  match moment with
  | none =>
      false
  | some moment =>
      moment ≤ now

/-- Whether a number of events, not zero, has been reached. -/
def hasReached (bound : Option Nat) (taken : Nat) : Bool :=
  match bound with
  | none =>
      false
  | some bound =>
      0 < bound && bound ≤ taken

/--
Whether a signal has been given that is given at a moment or after a number of
events, whichever is first.
-/
def isGiven
    (moment : Option Milliseconds)
    (bound : Option Nat)
    (now taken : Nat) : Bool :=
  hasCome moment now || hasReached bound taken

/-- When a signal is given if no further event is taken. -/
def signalTime?
    (moment : Option Milliseconds)
    (bound : Option Nat)
    (now taken : Nat) : Option Milliseconds :=
  if isGiven moment bound now taken then
    some now
  else
    moment

namespace Scenario

/--
Whether the session is cancelled at a time, with a number of events taken.
-/
def isCancelled (scenario : Scenario) (now taken : Nat) : Bool :=
  isGiven scenario.cancellation.cancelAt scenario.cancellation.cancelAfter
    now taken

/-- Whether the consumer has left at a time, with a number of events taken. -/
def isDetached (scenario : Scenario) (now taken : Nat) : Bool :=
  isGiven scenario.consumer.detachAt scenario.consumer.detachAfter now taken

end Scenario

end EventRelay.Session
