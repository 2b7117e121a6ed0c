import EventRelay.Frame.Decoder
import EventRelay.Http.Status
import EventRelay.Timing.Duration

namespace EventRelay.Source

/-!
# Failures of the event source

Opening the stream and reading it fail for different reasons.  Each reason
has a short label, used in metrics, and a text.
-/

open Http (Status)
open Timing (Milliseconds durationText)

/-- Why a stream could not be opened. -/
inductive ConnectError where
  | status (status : Status)
  | transport (reason : String)
  | timeout
  deriving Repr, DecidableEq

namespace ConnectError

/-- The label of the failure. -/
def label : ConnectError → String
  | .status _ =>
      "status"
  | .transport _ =>
      "transport"
  | .timeout =>
      "timeout"

/-- The text of the failure. -/
def message : ConnectError → String
  | .status answer =>
      s!"upstream returned {answer.text}"
  | .transport reason =>
      s!"upstream connection failed: {reason}"
  | .timeout =>
      "upstream connect timed out"

end ConnectError

/-- Why an open stream could not be read further. -/
inductive ReadError where
  | transport (reason : String)
  | idle (limit : Milliseconds)
  | tooLarge (error : FrameTooLarge)
  deriving Repr, DecidableEq

namespace ReadError

/-- The label of the failure. -/
def label : ReadError → String
  | .transport _ =>
      "read"
  | .idle _ =>
      "idle_timeout"
  | .tooLarge _ =>
      "frame_too_large"

/-- The text of the failure. -/
def message : ReadError → String
  | .transport reason =>
      s!"upstream read failed: {reason}"
  | .idle limit =>
      let silence := durationText limit
      s!"no upstream data for {silence}"
  | .tooLarge error =>
      error.message

end ReadError

end EventRelay.Source
