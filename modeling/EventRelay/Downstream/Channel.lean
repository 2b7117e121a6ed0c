import EventRelay.Downstream.Event

namespace EventRelay.Downstream

/-!
# The channel to a consumer

A bounded queue between a session and its consumer.  Either side may leave.
An event that finds the queue full is not kept.
-/

/-- The greatest capacity a channel may have. -/
def maxCapacity : Nat :=
  2305843009213693951

/-- A queue of events with its two ends. -/
structure Channel where
  capacity : Nat
  queue : List Event
  /-- Whether the session still holds its end. -/
  hasSender : Bool
  /-- Whether the consumer still holds its end. -/
  hasReceiver : Bool
  deriving Repr, DecidableEq

/-- What becomes of an event given to a channel. -/
inductive Emitted where
  | accepted
  | pending
  | consumerGone
  /-- The name has a line break, which cannot be written. -/
  | invalidName
  | noSender
  deriving Repr, DecidableEq

/-- What a consumer finds. -/
inductive Received where
  | event (event : Event)
  | pending
  | ended
  | noReceiver
  deriving Repr, DecidableEq

/-- The text of the failure to reach a consumer. -/
def goneMessage : String :=
  "downstream consumer disconnected"

namespace Channel

/-- A new channel; a capacity of zero counts as one. -/
def new? (capacity : Nat) : Option Channel :=
  if capacity ≤ maxCapacity then
    some ⟨max capacity 1, [], true, true⟩
  else
    none

/-- Gives an event to the channel without waiting. -/
def emit (channel : Channel) (event : Event) : Emitted × Channel :=
  if !channel.hasSender then
    (.noSender, channel)
  else if !isSingleLine event.name then
    (.invalidName, channel)
  else if !channel.hasReceiver then
    (.consumerGone, channel)
  else if channel.queue.length < channel.capacity then
    (.accepted, { channel with queue := channel.queue ++ [event] })
  else
    (.pending, channel)

/-- Takes the oldest event without waiting. -/
def receive (channel : Channel) : Received × Channel :=
  if !channel.hasReceiver then
    (.noReceiver, channel)
  else
    match channel.queue with
    | event :: rest =>
        (.event event, { channel with queue := rest })
    | [] =>
        if channel.hasSender then
          (.pending, channel)
        else
          (.ended, channel)

/-- Whether the session can see that its consumer left, if it holds its end. -/
def isClosed? (channel : Channel) : Option Bool :=
  if channel.hasSender then
    some !channel.hasReceiver
  else
    none

/-- The consumer leaves; events not received are lost. -/
def dropReceiver (channel : Channel) : Channel :=
  { channel with hasReceiver := false, queue := [] }

/-- The session leaves; events not received stay. -/
def dropSender (channel : Channel) : Channel :=
  { channel with hasSender := false }

end Channel

end EventRelay.Downstream
