import EventRelay.Source.Error

namespace EventRelay.Source

/-!
# Guarded streams

A guard owns an open stream, whatever it is, and closes it exactly once: when
told to, or when it is dropped.  A closed guard reads as the end of the stream.
-/

/-- One read of a stream: a chunk, a failure, or the end. -/
inductive Read where
  | chunk (bytes : List UInt8)
  | failed (error : ReadError)
  | ended
  deriving Repr, DecidableEq

/-- What can be done with an open stream. -/
class OpenStream (σ : Type u) where
  /-- The next read, and the stream after it. -/
  read : σ → Read × σ
  /-- The stream, told once more to release its connection. -/
  close : σ → σ

/-- A stream that answers reads from a list and counts how often it is closed. -/
structure Stream where
  /-- What the next reads answer; afterwards the stream has ended. -/
  reads : List Read
  closes : Nat
  deriving Repr, DecidableEq

namespace Stream

/-- The next read. -/
def read (stream : Stream) : Read × Stream :=
  match stream.reads with
  | [] =>
      (.ended, stream)
  | read :: rest =>
      (read, { stream with reads := rest })

/-- Closes the stream once more. -/
def close (stream : Stream) : Stream :=
  { stream with closes := stream.closes + 1 }

instance : OpenStream Stream where
  read := read
  close := close

end Stream

/-- A stream and whether its guard still holds it. -/
structure Guard (σ : Type u) where
  stream : σ
  isOpen : Bool
  dropped : Bool
  deriving Repr, DecidableEq

/-- What may be asked of a guard. -/
inductive GuardCall where
  | read
  | close
  | isOpen
  | drop
  deriving Repr, DecidableEq

/-- What a guard answers. -/
inductive GuardAnswer where
  | read (read : Read)
  | done
  | isOpen (isOpen : Bool)
  | dropped
  deriving Repr, DecidableEq

namespace Guard

variable {σ : Type u} [OpenStream σ]

/-- Takes a stream into custody. -/
def hold (stream : σ) : Guard σ :=
  ⟨stream, true, false⟩

/-- Takes a stream with the given reads into custody. -/
def ofReads (reads : List Read) : Guard Stream :=
  hold ⟨reads, 0⟩

/-- Reads the stream while the guard holds it. -/
def read (guard : Guard σ) : Read × Guard σ :=
  if guard.isOpen then
    let (read, stream) := OpenStream.read guard.stream
    (read, { guard with stream })
  else
    (.ended, guard)

/-- Closes the stream if the guard still holds it. -/
def close (guard : Guard σ) : Guard σ :=
  if guard.isOpen then
    { guard with stream := OpenStream.close guard.stream, isOpen := false }
  else
    guard

/-- Gives the guard up, which closes the stream if that was not done before. -/
def drop (guard : Guard σ) : Guard σ :=
  { guard.close with dropped := true }

/-- Answers one call; a dropped guard answers nothing more. -/
def answer (guard : Guard σ) (call : GuardCall) : GuardAnswer × Guard σ :=
  if guard.dropped then
    (.dropped, guard)
  else
    match call with
    | .read =>
        let (read, guard) := guard.read
        (.read read, guard)
    | .close =>
        (.done, guard.close)
    | .isOpen =>
        (.isOpen guard.isOpen, guard)
    | .drop =>
        (.done, guard.drop)

/-- The answers to a list of calls, each with the closes counted by then. -/
def answers (guard : Guard Stream) : List GuardCall → List (GuardAnswer × Nat)
  | [] =>
      []
  | call :: calls =>
      let (answer, next) := guard.answer call
      (answer, next.stream.closes) :: next.answers calls

end Guard

end EventRelay.Source
