import EventRelay.Proofs.Downstream.Queue
import Mathlib.Data.List.Induction

namespace EventRelay.Downstream.Traffic

/-!
# What both ends of a channel find

What an end of a channel finds depends on a few things that have happened:
which ends were dropped, and which accepted events were not yet received.  An
event has to wait exactly if there are as many of these as the channel holds,
and one that does not wait for its turn leaves no trace.
-/

/-- The events that went in and did not come out yet. -/
def unreceived (traffic : Traffic) : List Event :=
  traffic.accepted.drop traffic.received.length

private theorem useAll_concat (traffic : Traffic) (uses : List Use) (use : Use) :
    traffic.useAll (uses ++ [use]) = (traffic.useAll uses).use use := by
  rw [useAll, List.foldl_append]
  rfl

/--
A channel that has lost the ends that were dropped, and holds no more than it
may.
-/
structure Follows (capacity : Nat) (uses : List Use) (channel : Channel) :
    Prop where
  size : channel.capacity = max capacity 1
  sender : channel.hasSender = true ↔ .dropSender ∉ uses
  receiver : channel.hasReceiver = true ↔ .dropReceiver ∉ uses
  bounded : channel.queue.length ≤ max capacity 1

namespace Follows

variable {capacity : Nat} {uses : List Use} {traffic : Traffic}

/-- A use that drops no end changes nothing of which ends there are. -/
theorem keep
    {channel : Channel}
    (follows : Follows capacity uses channel)
    {use : Use}
    (keepsSender : use ≠ .dropSender)
    (keepsReceiver : use ≠ .dropReceiver) :
    Follows capacity (uses ++ [use]) channel := by
  obtain ⟨size, sender, receiver, bounded⟩ := follows
  constructor
  · exact size
  · simpa [keepsSender.symm] using sender
  · simpa [keepsReceiver.symm] using receiver
  · exact bounded

private theorem emit
    (follows : Follows capacity uses traffic.channel)
    (event : Event) :
    Follows capacity (uses ++ [.emit event])
      (traffic.use (.emit event)).channel := by
  have kept : Follows capacity (uses ++ [.emit event]) traffic.channel :=
    follows.keep nofun nofun
  simp only [Traffic.use, Channel.emit]
  split
  · exact kept
  split
  · exact kept
  split
  · exact kept
  split
  · next room =>
      refine ⟨kept.size, kept.sender, kept.receiver, ?_⟩
      rw [kept.size] at room
      rw [List.length_append, List.length_singleton]
      exact room
  · exact kept

private theorem receive
    (follows : Follows capacity uses traffic.channel) :
    Follows capacity (uses ++ [.receive]) (traffic.use .receive).channel := by
  have kept : Follows capacity (uses ++ [.receive]) traffic.channel :=
    follows.keep nofun nofun
  simp only [Traffic.use, Channel.receive]
  split
  · exact kept
  split
  · next event rest waits =>
      have bounded := kept.bounded
      rw [waits, List.length_cons] at bounded
      exact ⟨kept.size, kept.sender, kept.receiver,
        Nat.le_of_succ_le bounded⟩
  · split <;> exact kept

/-- Every use is followed. -/
theorem use
    (follows : Follows capacity uses traffic.channel)
    (use : Use) :
    Follows capacity (uses ++ [use]) (traffic.use use).channel := by
  cases use with
  | emit event =>
      exact follows.emit event
  | receive =>
      exact follows.receive
  | look =>
      exact follows.keep nofun nofun
  | dropReceiver =>
      obtain ⟨size, sender, -, -⟩ := follows
      constructor
      · exact size
      · simp only [List.mem_append, List.mem_singleton, reduceCtorEq, or_false]
        exact sender
      · simp [Traffic.use, Channel.dropReceiver]
      · exact Nat.zero_le _
  | dropSender =>
      obtain ⟨size, -, receiver, bounded⟩ := follows
      constructor
      · exact size
      · simp [Traffic.use, Channel.dropSender]
      · simp only [List.mem_append, List.mem_singleton, reduceCtorEq, or_false]
        exact receiver
      · exact bounded

end Follows

variable {capacity : Nat} {channel : Channel}

private theorem follows_useAll
    (opens : Channel.new? capacity = some channel)
    (uses : List Use) :
    Follows capacity uses ((start channel).useAll uses).channel := by
  induction uses using List.reverseRecOn with
  | nil =>
      unfold Channel.new? at opens
      split at opens
      · cases opens
        exact ⟨rfl, by simp [useAll, start], by simp [useAll, start],
          Nat.zero_le _⟩
      · cases opens
  | append_singleton uses use inductionHypothesis =>
      rw [useAll_concat]
      exact inductionHypothesis.use use

/--
While the consumer holds its end, all events that it has not received are
waiting.
-/
theorem unreceived_eq_queue
    {traffic : Traffic}
    (inOrder : traffic.InOrder)
    (hasReceiver : traffic.channel.hasReceiver = true) :
    traffic.unreceived = traffic.channel.queue := by
  obtain ⟨lost, accepted, kept⟩ := inOrder
  rw [unreceived, accepted, kept hasReceiver, List.append_nil,
    List.drop_left]

private theorem unreceived_eq_nil_iff
    {traffic : Traffic}
    (begins : traffic.received <+: traffic.accepted) :
    traffic.unreceived = [] ↔ traffic.received = traffic.accepted := by
  rw [unreceived, List.drop_eq_nil_iff]
  constructor
  · exact begins.eq_of_length_le
  · intro same
    exact Nat.le_of_eq (congrArg List.length same.symm)

/-- An event that has to wait and is given up leaves no trace. -/
theorem useAll_of_pending
    {traffic : Traffic}
    {event : Event}
    (pending : (traffic.channel.emit event).1 = .pending)
    (later : List Use) :
    traffic.useAll (.emit event :: later) = traffic.useAll later := by
  have unchanged : traffic.use (.emit event) = traffic := by
    simp only [Channel.emit] at pending
    simp only [Traffic.use, Channel.emit]
    split at pending
    · cases pending
    split at pending
    · cases pending
    split at pending
    · cases pending
    split at pending
    · cases pending
    · next sender written receiver full =>
        rw [if_neg sender, if_neg written, if_neg receiver, if_neg full]
        simp [admitted]
  rw [useAll, List.foldl_cons, unchanged]
  rfl

/--
The session finds whether its consumer has left, and otherwise whether there
is a place for the event.
-/
private theorem Follows.emit_eq
    {traffic : Traffic}
    {uses : List Use}
    (follows : Follows capacity uses traffic.channel)
    (inOrder : traffic.InOrder)
    (hasSender : .dropSender ∉ uses)
    {event : Event}
    (written : isSingleLine event.name = true) :
    (traffic.channel.emit event).1 =
      if .dropReceiver ∈ uses then
        .consumerGone
      else if traffic.unreceived.length = max capacity 1 then
        .pending
      else
        .accepted := by
  rw [Channel.emit, follows.sender.mpr hasSender, written]
  by_cases left : .dropReceiver ∈ uses
  · have gone : traffic.channel.hasReceiver = false :=
      eq_false_of_ne_true fun has => follows.receiver.mp has left
    rw [if_pos left, gone]
    rfl
  · have hasReceiver := follows.receiver.mpr left
    rw [if_neg left, hasReceiver, unreceived_eq_queue inOrder hasReceiver,
      follows.size]
    by_cases full : traffic.channel.queue.length = max capacity 1
    · rw [if_pos full, full]
      simp
    · have room : traffic.channel.queue.length < max capacity 1 :=
        Nat.lt_of_le_of_ne follows.bounded full
      rw [if_neg full, if_pos room]
      rfl

/--
The consumer finds the next event that it has not received, and the end only
when there is none.
-/
private theorem Follows.receive_eq
    {traffic : Traffic}
    {uses : List Use}
    (follows : Follows capacity uses traffic.channel)
    (inOrder : traffic.InOrder)
    (left : .dropReceiver ∉ uses) :
    traffic.channel.receive.1 =
      match traffic.unreceived with
      | event :: _ =>
          .event event
      | [] =>
          if .dropSender ∈ uses then
            .ended
          else
            .pending := by
  have hasReceiver := follows.receiver.mpr left
  rw [unreceived_eq_queue inOrder hasReceiver, Channel.receive, hasReceiver]
  cases traffic.channel.queue with
  | cons event rest =>
      rfl
  | nil =>
      by_cases dropped : .dropSender ∈ uses
      · have gone : traffic.channel.hasSender = false :=
          eq_false_of_ne_true fun has => follows.sender.mp has dropped
        rw [if_pos dropped, gone]
        rfl
      · rw [if_neg dropped, follows.sender.mpr dropped]
        rfl

/--
After any use of a new channel, what was received are the first events that
were accepted, in order, and as they are written.  While the consumer holds
its end, as many events wait as the channel has places at most; an event is
left waiting exactly if all places are taken, and has no effect then.  The
session is told that its consumer has left exactly if it has.  The consumer is
given the next accepted event that it has not received, and finds the end
exactly if the session has left and there is no such event.
-/
theorem bounded_and_in_order
    {capacity : Nat}
    {channel : Channel}
    (opens : Channel.new? capacity = some channel)
    (uses : List Use) :
    let traffic := (start channel).useAll uses
    traffic.received <+: traffic.accepted ∧
    traffic.received.map Event.render <+: traffic.accepted.map Event.render ∧
    (.dropReceiver ∉ uses →
      traffic.unreceived.length ≤ max capacity 1 ∧
        traffic.channel.receive.1 =
          (match traffic.unreceived with
          | event :: _ =>
              .event event
          | [] =>
              if .dropSender ∈ uses then
                .ended
              else
                .pending) ∧
        (traffic.channel.receive.1 = .ended ↔
          .dropSender ∈ uses ∧ traffic.received = traffic.accepted)) ∧
    (.dropSender ∉ uses →
      traffic.channel.isClosed? = some (decide (.dropReceiver ∈ uses)) ∧
        ∀ event, isSingleLine event.name = true →
          let emitted := (traffic.channel.emit event).1
          emitted =
            (if .dropReceiver ∈ uses then
              .consumerGone
            else if traffic.unreceived.length = max capacity 1 then
              .pending
            else
              .accepted) ∧
            (emitted = .pending → ∀ later,
              traffic.useAll (.emit event :: later) =
                traffic.useAll later)) := by
  intro traffic
  have follows := follows_useAll opens uses
  have inOrder := inOrder_useAll opens uses
  have begins := received_prefix opens uses
  refine ⟨begins, begins.map _, fun left => ?receiver, fun has => ?sender⟩
  case receiver =>
    have found := follows.receive_eq inOrder left
    refine ⟨?_, found, ?_⟩
    · rw [unreceived_eq_queue inOrder (follows.receiver.mpr left)]
      exact follows.bounded
    · rw [← unreceived_eq_nil_iff begins, found]
      cases traffic.unreceived with
      | cons event rest =>
          simp
      | nil =>
          by_cases dropped : .dropSender ∈ uses <;> simp [dropped]
  case sender =>
    refine ⟨?_, fun event written =>
      ⟨follows.emit_eq inOrder has written, useAll_of_pending⟩⟩
    rw [Channel.isClosed?, follows.sender.mpr has, if_pos rfl]
    by_cases left : .dropReceiver ∈ uses
    · have gone : traffic.channel.hasReceiver = false :=
        eq_false_of_ne_true fun hasReceiver =>
          follows.receiver.mp hasReceiver left
      rw [gone, decide_eq_true left]
      rfl
    · rw [show traffic.channel.hasReceiver = true from
        follows.receiver.mpr left, decide_eq_false left]
      rfl

/--
Three events for a channel with one place, of which the second one does not
wait for its turn.
-/
def crowding : List Use :=
  [.emit ⟨messageName, "a"⟩, .emit ⟨messageName, "b"⟩, .receive,
    .emit ⟨messageName, "c"⟩, .look, .dropSender]

/--
The first event has been received, the third one is next, and then comes the
end.
-/
theorem bounded_of_crowding :
    let channel : Channel := ⟨1, [], true, true⟩
    let traffic := (start channel).useAll crowding
    Channel.new? 0 = some channel ∧
      traffic.accepted = [⟨messageName, "a"⟩, ⟨messageName, "c"⟩] ∧
      traffic.received <+: traffic.accepted ∧
      traffic.channel.receive.1 = .event ⟨messageName, "c"⟩ ∧
      (traffic.use .receive).channel.receive.1 = .ended := by
  intro channel traffic
  have opens : Channel.new? 0 = some channel :=
    rfl
  obtain ⟨begins, -, receiver, -⟩ := bounded_and_in_order opens crowding
  obtain ⟨-, -, last, -⟩ :=
    bounded_and_in_order opens (crowding ++ [.receive])
  obtain ⟨-, next, -⟩ := receiver (by decide)
  obtain ⟨-, -, ends⟩ := last (by decide)
  have oneLeft :
      ((start channel).useAll crowding).unreceived = [⟨messageName, "c"⟩] := by
    decide
  rw [oneLeft] at next
  rw [useAll_concat] at ends
  exact ⟨opens, by decide, begins, next, ends.mpr ⟨by decide, by decide⟩⟩

end EventRelay.Downstream.Traffic
