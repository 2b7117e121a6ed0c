import EventRelay.Source.Guard

namespace EventRelay.Source

/-!
# Using a guard

A guard stands between its user and a stream.  Both sides are watched: what
the user calls and is answered, and what is asked of the stream meanwhile.
-/

/-- What is asked of a stream. -/
inductive Request where
  /-- A read, with what the stream answered. -/
  | read (read : Read)
  | close
  deriving Repr, DecidableEq

/-- A stream, with what was asked of it, oldest first. -/
structure Recorded (σ : Type u) where
  stream : σ
  requests : List Request
  deriving Repr, DecidableEq

variable {σ : Type u} [OpenStream σ]

instance : OpenStream (Recorded σ) where
  read recorded :=
    let (read, stream) := OpenStream.read recorded.stream
    (read, ⟨stream, recorded.requests ++ [.read read]⟩)
  close recorded :=
    ⟨OpenStream.close recorded.stream, recorded.requests ++ [.close]⟩

/-- The next reads of a stream, if it is read a number of times. -/
def OpenStream.reads (stream : σ) : Nat → List Read
  | 0 =>
      []
  | count + 1 =>
      let (read, next) := OpenStream.read stream
      read :: reads next count

theorem OpenStream.reads_succ (stream : σ) (count : Nat) :
    reads stream (count + 1) =
      (OpenStream.read stream).1 ::
        reads (OpenStream.read stream).2 count :=
  rfl

/-- One call, as it is seen from both sides of a guard. -/
structure Exchange where
  call : GuardCall
  answer : GuardAnswer
  /-- What the guard asked of the stream. -/
  requests : List Request
  deriving Repr, DecidableEq

namespace Exchange

/-- A read that a guard passed on. -/
def passed (read : Read) : Exchange :=
  ⟨.read, .read read, [.read read]⟩

/-- A guard says that it holds the stream. -/
def holding : Exchange :=
  ⟨.isOpen, .isOpen true, []⟩

/-- What a guard does while it holds the stream. -/
inductive IsHeld : Exchange → Prop where
  | passed (read : Read) : IsHeld (passed read)
  | holding : IsHeld holding

/-- A call that makes a guard close the stream. -/
def closing (call : GuardCall) : Exchange :=
  ⟨call, .done, [.close]⟩

/-- What a guard answers when it no longer holds the stream. -/
def idleAnswer : GuardCall → GuardAnswer
  | .read =>
      .read .ended
  | .isOpen =>
      .isOpen false
  | .close | .drop =>
      .done

/-- A call that does not reach the stream any more. -/
def idle (call : GuardCall) : Exchange :=
  ⟨call, idleAnswer call, []⟩

/-- What a read was answered. -/
def read? (exchange : Exchange) : Option Read :=
  match exchange.answer with
  | .read read =>
      some read
  | _ =>
      none

@[simp]
theorem read?_passed (read : Read) : (passed read).read? = some read :=
  rfl

@[simp]
theorem read?_holding : holding.read? = none :=
  rfl

end Exchange

namespace Guard

/-- The guard of the same stream, while the stream is recorded. -/
def recording (guard : Guard σ) : Guard (Recorded σ) :=
  ⟨⟨guard.stream, []⟩, guard.isOpen, guard.dropped⟩

/-- One call with both of its sides, and the guard after it. -/
def exchange (guard : Guard σ) (call : GuardCall) : Exchange × Guard σ :=
  let (answer, next) := guard.answer call
  (⟨call, answer, (guard.recording.answer call).2.stream.requests⟩, next)

/-- A list of calls with both of their sides. -/
def exchanges (guard : Guard σ) : List GuardCall → List Exchange
  | [] =>
      []
  | call :: calls =>
      let (exchange, next) := guard.exchange call
      exchange :: next.exchanges calls

theorem exchanges_cons
    (guard : Guard σ)
    (call : GuardCall)
    (calls : List GuardCall) :
    guard.exchanges (call :: calls) =
      (guard.exchange call).1 :: (guard.exchange call).2.exchanges calls :=
  rfl

end Guard

end EventRelay.Source
