import EventRelay.Shutdown

namespace EventRelay

/-!
# Using a shutdown

Its users ask for tokens and children, cancel them, trigger the shutdown,
subscribe to it and look for signals.  What the subscribers find is recorded.
What a course of uses means is said without the state of the shutdown: by the
origins of the tokens, by the cancellations, and by counting.
-/

/-- How many signals a subscriber is told of, received or missed. -/
def Signal.count : Signal → Nat
  | .signal =>
      1
  | .empty =>
      0
  | .lagged missed =>
      missed

/-- How many signals a subscriber is told of by several findings. -/
def Signal.countAll : List Signal → Nat
  | [] =>
      0
  | finding :: later =>
      finding.count + countAll later

namespace Shutdown

/-- What may be done with a shutdown. -/
inductive Use where
  | subscribe
  /-- Asks for the root. -/
  | token
  /-- Asks for a child of a token. -/
  | child (parent : Nat)
  | cancel (index : Nat)
  | trigger
  /-- A subscriber looks for a signal. -/
  | receive (subscriber : Nat)
  deriving Repr, DecidableEq

/-- A shutdown, with what its subscribers found, oldest first. -/
structure Course where
  shutdown : Shutdown
  found : List (Nat × Signal)
  deriving Repr, DecidableEq

namespace Course

/-- A shutdown that nobody has used. -/
def start : Course :=
  ⟨.new, []⟩

/-- The shutdown after one use. -/
def use (course : Course) : Use → Course
  | .subscribe =>
      { course with shutdown := course.shutdown.subscribe.2 }
  | .token =>
      { course with shutdown := course.shutdown.token.2 }
  | .child parent =>
      { course with shutdown := (course.shutdown.child parent).2 }
  | .cancel index =>
      { course with shutdown := course.shutdown.cancel index }
  | .trigger =>
      { course with shutdown := course.shutdown.trigger }
  | .receive subscriber =>
      match course.shutdown.receive? subscriber with
      | none =>
          course
      | some (finding, shutdown) =>
          ⟨shutdown, course.found ++ [(subscriber, finding)]⟩

/-- The shutdown after one use and another. -/
def useAll (course : Course) (uses : List Use) : Course :=
  uses.foldl use course

/-- A shutdown that was used from the beginning. -/
def after (uses : List Use) : Course :=
  start.useAll uses

/-- What one subscriber found, oldest first. -/
def foundBy (course : Course) (subscriber : Nat) : List Signal :=
  course.found.filterMap fun (reader, finding) =>
    if reader = subscriber then some finding else none

/-- How many signals a subscriber was told of. -/
def told (course : Course) (subscriber : Nat) : Nat :=
  Signal.countAll (course.foundBy subscriber)

end Course

/-- Where a token that was handed out comes from. -/
inductive Origin where
  | root
  | child (parent : Nat)
  deriving Repr, DecidableEq

/--
The origins of the tokens once one more use was made.  A child of a token that
does not exist is the root.
-/
def Use.extend (origins : List Origin) : Use → List Origin
  | .token =>
      origins ++ [.root]
  | .child parent =>
      origins ++ [if parent < origins.length then .child parent else .root]
  | _ =>
      origins

/-- The origins of all tokens, in the order in which they were handed out. -/
def origins (uses : List Use) : List Origin :=
  uses.foldl Use.extend []

/-- Whether one token is another, or has it among its ancestors. -/
inductive Descends (origins : List Origin) : Nat → Nat → Prop where
  | self {index : Nat} :
      Descends origins index index
  /-- The root is one token, however often it is handed out. -/
  | root {index other : Nat} :
      origins[index]? = some .root →
        origins[other]? = some .root →
          Descends origins index other
  | child {index parent ancestor : Nat} :
      origins[index]? = some (.child parent) →
        Descends origins parent ancestor →
          Descends origins index ancestor

/-- Whether a token was cancelled itself, after it was handed out. -/
def WasCancelled (uses : List Use) (index : Nat) : Prop :=
  ∃ before later,
    uses = before ++ .cancel index :: later ∧ index < (origins before).length

end Shutdown

end EventRelay
