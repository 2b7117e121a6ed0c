namespace EventRelay

/-!
# Shutdown

A shutdown has a root token, from which other tokens descend, and a
broadcast that holds one signal.  Cancelling a token cancels its descendants.
A trigger cancels the root and sends a signal to every subscriber; a
subscriber that finds older signals overwritten is told how many it missed.
-/

/-- A token: its own number and the numbers of its ancestors. -/
structure Shutdown.Token where
  lineage : List Nat
  deriving Repr, DecidableEq

/-- What a subscriber finds. -/
inductive Signal where
  | signal
  | empty
  | lagged (missed : Nat)
  deriving Repr, DecidableEq

/-- A shutdown, the tokens handed out, and its subscribers. -/
structure Shutdown where
  /-- Numbers of the tokens that were cancelled. -/
  cancelled : List Nat
  /-- Tokens in the order in which they were handed out. -/
  tokens : List Shutdown.Token
  /-- The number the next new token gets; the root has zero. -/
  nextNumber : Nat
  /-- How many signals were sent. -/
  sent : Nat
  /-- For each subscriber, how many signals it has dealt with. -/
  seen : List Nat
  deriving Repr, DecidableEq

namespace Shutdown

/-- The root token. -/
def root : Token :=
  ⟨[0]⟩

/-- A shutdown that nobody has triggered. -/
def new : Shutdown :=
  ⟨[], [], 1, 0, []⟩

/-- Whether a token or one of its ancestors was cancelled. -/
def isCancelled (shutdown : Shutdown) (token : Token) : Bool :=
  token.lineage.any (shutdown.cancelled.contains ·)

/-- Whether the shutdown was triggered or its root cancelled. -/
def isTriggered (shutdown : Shutdown) : Bool :=
  shutdown.isCancelled root

/-- A handed-out token; the root stands for one that does not exist. -/
def tokenAt (shutdown : Shutdown) (index : Nat) : Token :=
  shutdown.tokens.getD index root

/-- Hands out a token and says which one it is. -/
def handOut (shutdown : Shutdown) (token : Token) : Nat × Shutdown :=
  (shutdown.tokens.length,
    { shutdown with tokens := shutdown.tokens ++ [token] })

/-- Hands out the root. -/
def token (shutdown : Shutdown) : Nat × Shutdown :=
  shutdown.handOut root

/-- Hands out a new child of a token, or the root if there is no such token. -/
def child (shutdown : Shutdown) (index : Nat) : Nat × Shutdown :=
  match shutdown.tokens[index]? with
  | none =>
      shutdown.token
  | some parent =>
      ({ shutdown with nextNumber := shutdown.nextNumber + 1 }).handOut
        ⟨shutdown.nextNumber :: parent.lineage⟩

/-- Cancels a token. -/
def cancelToken (shutdown : Shutdown) (token : Token) : Shutdown :=
  match token.lineage with
  | [] =>
      shutdown
  | number :: _ =>
      { shutdown with cancelled := number :: shutdown.cancelled }

/-- Cancels a handed-out token. -/
def cancel (shutdown : Shutdown) (index : Nat) : Shutdown :=
  match shutdown.tokens[index]? with
  | none =>
      shutdown
  | some token =>
      shutdown.cancelToken token

/-- Cancels the root and sends a signal. -/
def trigger (shutdown : Shutdown) : Shutdown :=
  let cancelled := shutdown.cancelToken root
  { cancelled with sent := cancelled.sent + 1 }

/-- Adds a subscriber, which gets the signals sent from now on. -/
def subscribe (shutdown : Shutdown) : Nat × Shutdown :=
  (shutdown.seen.length,
    { shutdown with seen := shutdown.seen ++ [shutdown.sent] })

/-- What a subscriber finds; `none` if there is no such subscriber. -/
def receive? (shutdown : Shutdown) (subscriber : Nat) :
    Option (Signal × Shutdown) :=
  (shutdown.seen[subscriber]?).map fun seen =>
    let waiting := shutdown.sent - seen
    if waiting = 0 then
      (.empty, shutdown)
    else if waiting = 1 then
      (.signal, { shutdown with seen := shutdown.seen.set subscriber (seen + 1) })
    else
      (.lagged (waiting - 1),
        { shutdown with seen := shutdown.seen.set subscriber (shutdown.sent - 1) })

end Shutdown

end EventRelay
