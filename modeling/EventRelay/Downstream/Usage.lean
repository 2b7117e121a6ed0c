import EventRelay.Downstream.Channel

namespace EventRelay.Downstream

/-!
# Using a channel

The session and the consumer use their ends of a channel in turn.  What passes
the channel is recorded on both sides.
-/

/-- What may be done with an end of a channel. -/
inductive Use where
  | emit (event : Event)
  | receive
  /-- The session looks whether the consumer has left. -/
  | look
  | dropReceiver
  | dropSender
  deriving Repr, DecidableEq

/-- A channel with the events that went in and came out, in order. -/
structure Traffic where
  channel : Channel
  accepted : List Event
  received : List Event
  deriving Repr, DecidableEq

namespace Traffic

/-- A channel that nothing has passed. -/
def start (channel : Channel) : Traffic :=
  ⟨channel, [], []⟩

/-- The event that went in, if it did. -/
def admitted (event : Event) : Emitted → List Event
  | .accepted =>
      [event]
  | _ =>
      []

/-- The event that came out, if one did. -/
def delivered : Received → List Event
  | .event event =>
      [event]
  | _ =>
      []

/-- The channel after one use. -/
def use (traffic : Traffic) : Use → Traffic
  | .emit event =>
      let (emitted, channel) := traffic.channel.emit event
      { traffic with
        channel
        accepted := traffic.accepted ++ admitted event emitted }
  | .receive =>
      let (received, channel) := traffic.channel.receive
      { traffic with
        channel
        received := traffic.received ++ delivered received }
  | .look =>
      traffic
  | .dropReceiver =>
      { traffic with channel := traffic.channel.dropReceiver }
  | .dropSender =>
      { traffic with channel := traffic.channel.dropSender }

/-- The channel after one use and another. -/
def useAll (traffic : Traffic) (uses : List Use) : Traffic :=
  uses.foldl use traffic

end Traffic

end EventRelay.Downstream
