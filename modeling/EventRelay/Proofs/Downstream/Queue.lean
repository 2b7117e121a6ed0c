import EventRelay.Downstream.Usage

namespace EventRelay.Downstream.Traffic

/-!
# First in, first out

What was received and what still waits are the first events that were
accepted, in order.  Events are lost only when the consumer leaves.  A channel
of any capacity lets all events pass if each is taken before the next.
-/

/-- What came out and what waits are the first events that went in. -/
def InOrder (traffic : Traffic) : Prop :=
  ∃ lost,
    traffic.accepted = traffic.received ++ traffic.channel.queue ++ lost ∧
      (traffic.channel.hasReceiver = true → lost = [])

private theorem InOrder.emit
    {traffic : Traffic}
    (inOrder : traffic.InOrder)
    (event : Event) :
    (traffic.use (.emit event)).InOrder := by
  obtain ⟨lost, accepted, kept⟩ := inOrder
  simp only [use, Channel.emit]
  split
  · exact ⟨lost, by simpa [admitted] using accepted, kept⟩
  · split
    · exact ⟨lost, by simpa [admitted] using accepted, kept⟩
    · split
      · exact ⟨lost, by simpa [admitted] using accepted, kept⟩
      · next hasReceiver =>
          split
          · obtain rfl := kept (by simpa using hasReceiver)
            exact ⟨[], by simp [admitted, accepted], fun _ => rfl⟩
          · exact ⟨lost, by simpa [admitted] using accepted, kept⟩

private theorem InOrder.receive
    {traffic : Traffic}
    (inOrder : traffic.InOrder) :
    (traffic.use .receive).InOrder := by
  obtain ⟨lost, accepted, kept⟩ := inOrder
  simp only [use, Channel.receive]
  split
  · exact ⟨lost, by simpa [delivered] using accepted, kept⟩
  · split
    · next event rest waits =>
        exact ⟨lost, by simpa [delivered, waits] using accepted, kept⟩
    · split <;>
        exact ⟨lost, by simpa [delivered] using accepted, kept⟩

/-- Every use keeps events in order. -/
theorem InOrder.use
    {traffic : Traffic}
    (inOrder : traffic.InOrder)
    (use : Use) :
    (traffic.use use).InOrder := by
  cases use with
  | emit event =>
      exact inOrder.emit event
  | receive =>
      exact inOrder.receive
  | look =>
      exact inOrder
  | dropReceiver =>
      obtain ⟨lost, accepted, -⟩ := inOrder
      refine ⟨traffic.channel.queue ++ lost, ?_, by rintro ⟨⟩⟩
      simpa [Traffic.use, Channel.dropReceiver] using accepted
  | dropSender =>
      exact inOrder

private theorem InOrder.useAll
    {traffic : Traffic}
    (inOrder : traffic.InOrder)
    (uses : List Use) :
    (traffic.useAll uses).InOrder := by
  induction uses generalizing traffic with
  | nil =>
      exact inOrder
  | cons use later inductionHypothesis =>
      exact inductionHypothesis (inOrder.use use)

/-- A channel that has both its ends and a place for the next event. -/
structure Idle (channel : Channel) : Prop where
  capacity : 0 < channel.capacity
  queue : channel.queue = []
  hasSender : channel.hasSender = true
  hasReceiver : channel.hasReceiver = true

theorem idle_of_new?
    {capacity : Nat}
    {channel : Channel}
    (opens : Channel.new? capacity = some channel) :
    Idle channel := by
  unfold Channel.new? at opens
  split at opens
  · cases opens
    exact ⟨Nat.le_max_right _ _, rfl, rfl, rfl⟩
  · cases opens

theorem inOrder_useAll
    {capacity : Nat}
    {channel : Channel}
    (opens : Channel.new? capacity = some channel)
    (uses : List Use) :
    ((start channel).useAll uses).InOrder := by
  have begins : (start channel).InOrder :=
    ⟨[], by simp [start, (idle_of_new? opens).queue], fun _ => rfl⟩
  exact begins.useAll uses

/-- What comes out of a new channel is the beginning of what went in. -/
theorem received_prefix
    {capacity : Nat}
    {channel : Channel}
    (opens : Channel.new? capacity = some channel)
    (uses : List Use) :
    ((start channel).useAll uses).received <+:
      ((start channel).useAll uses).accepted := by
  obtain ⟨lost, accepted, -⟩ := inOrder_useAll opens uses
  rw [accepted, List.append_assoc]
  exact List.prefix_append _ _

/-- Each event is given to the channel and taken before the next. -/
def passing (events : List Event) : List Use :=
  events.flatMap fun event => [.emit event, .receive]

private theorem use_passing
    {traffic : Traffic}
    (idle : Idle traffic.channel)
    {event : Event}
    (written : isSingleLine event.name = true) :
    (traffic.use (.emit event)).use .receive =
      { traffic with
        accepted := traffic.accepted ++ [event]
        received := traffic.received ++ [event] } := by
  obtain ⟨⟨capacity, queue, hasSender, hasReceiver⟩, accepted, received⟩ :=
    traffic
  obtain ⟨room, rfl, rfl, rfl⟩ := idle
  have fits : 0 < capacity := room
  simp [use, Channel.emit, Channel.receive, admitted, delivered, written, fits]

/-- All events pass an idle channel, one after another. -/
theorem useAll_passing
    {traffic : Traffic}
    (idle : Idle traffic.channel)
    {events : List Event}
    (written : ∀ event ∈ events, isSingleLine event.name = true) :
    traffic.useAll (passing events) =
      { traffic with
        accepted := traffic.accepted ++ events
        received := traffic.received ++ events } := by
  induction events generalizing traffic with
  | nil =>
      simp [passing, useAll]
  | cons event later inductionHypothesis =>
      obtain ⟨first, rest⟩ := List.forall_mem_cons.mp written
      have once := use_passing idle first
      have step :
          traffic.useAll (passing (event :: later)) =
            ((traffic.use (.emit event)).use .receive).useAll
              (passing later) :=
        rfl
      rw [step, once, inductionHypothesis (by exact idle) rest]
      simp

end EventRelay.Downstream.Traffic
