import EventRelay.Proofs.Frame.Fitting
import EventRelay.Proofs.Session.Outward
import Mathlib.Data.List.Forall2

namespace EventRelay.Session

/-!
# Streams that are cut in another way

Two scenarios may differ in how the bytes of each connection are cut into
chunks.  Two phases of their runs are then alike if they are the same but for
the cuts, or if both are somewhere within the chunks of a stream with the same
frames still to be given.
-/

open Reference (Fits cut?)
open Timing (Milliseconds)

/-- The reads of chunks that come without a wait. -/
def atOnce (pieces : List (List UInt8)) : List TimedRead :=
  pieces.map (⟨0, .chunk ·⟩)

/-- The reads of chunks that come together, the first one after a wait. -/
def comingAfter (wait : Milliseconds) :
    List (List UInt8) → List TimedRead
  | [] =>
      []
  | first :: others =>
      ⟨wait, .chunk first⟩ :: atOnce others

/-- Coming after no time is coming at once. -/
private theorem comingAfter_zero (pieces : List (List UInt8)) :
    comingAfter 0 pieces = atOnce pieces := by
  cases pieces <;> rfl

/-- Whether reads do not begin with a chunk. -/
def IsEnding (reads : List TimedRead) : Prop :=
  ∀ bytes, (reads.headD .ended).answer ≠ .chunk bytes

/--
Whether two answers differ at most in how the bytes of a stream that fit a
limit are cut into chunks.
-/
inductive ConnectAnswer.Recut (limit : Nat) :
    ConnectAnswer → ConnectAnswer → Prop where
  | refused (error : Source.ConnectError) :
      Recut limit (.refused error) (.refused error)
  | silent :
      Recut limit .silent .silent
  /-- A wait before the chunks is a wait before the first one. -/
  | opened
      {wait : Milliseconds}
      {pieces others : List (List UInt8)}
      {ending : List TimedRead}
      (sameBytes : pieces.flatten = others.flatten)
      (begins : wait = 0 ∨ pieces ≠ [] ∧ others ≠ [])
      (ends : IsEnding ending)
      (fits : Fits limit pieces.flatten) :
      Recut limit
        (.opened (comingAfter wait pieces ++ ending))
        (.opened (comingAfter wait others ++ ending))

/-- Recutting an answer can be undone. -/
private theorem ConnectAnswer.Recut.symm
    {limit : Nat}
    {answer other : ConnectAnswer}
    (recut : Recut limit answer other) :
    Recut limit other answer := by
  cases recut with
  | refused error =>
      exact .refused error
  | silent =>
      exact .silent
  | opened sameBytes begins ends fits =>
      exact .opened sameBytes.symm (begins.imp_right And.symm) ends
        (sameBytes ▸ fits)

/-- Whether two attempts differ at most in how a stream is cut. -/
structure TimedConnect.Recut
    (limit : Nat)
    (connect other : TimedConnect) : Prop where
  wait : connect.wait = other.wait
  answer : connect.answer.Recut limit other.answer

namespace TimedConnect.Recut

private theorem symm
    {limit : Nat}
    {connect other : TimedConnect}
    (recut : Recut limit connect other) :
    Recut limit other connect :=
  ⟨recut.wait.symm, recut.answer.symm⟩

/-- The answers come at the same time. -/
theorem due_eq
    {limit : Nat}
    {connect other : TimedConnect}
    (recut : Recut limit connect other)
    (now : Milliseconds) :
    connect.due now = other.due now := by
  obtain ⟨wait, answer⟩ := connect
  obtain ⟨otherWait, otherAnswer⟩ := other
  obtain ⟨rfl, answers⟩ := recut
  cases answers <;> rfl

end TimedConnect.Recut

namespace Scenario

/-- Whether two scenarios differ at most in how streams are cut. -/
structure Recut (first second : Scenario) : Prop
    extends SameSurroundings first second where
  connects :
    List.Forall₂ (TimedConnect.Recut first.settings.maxFrameBytes)
      first.connects second.connects
  afterwards :
    TimedConnect.Recut first.settings.maxFrameBytes
      first.afterwards second.afterwards

/-- Recutting a scenario can be undone. -/
theorem Recut.symm
    {first second : Scenario}
    (recut : Recut first second) :
    Recut second first where
  toSameSurroundings := recut.toSameSurroundings.symm
  connects := by
    rw [← recut.settings]
    exact recut.connects.flip.imp fun _ _ => TimedConnect.Recut.symm
  afterwards := by
    rw [← recut.settings]
    exact recut.afterwards.symm

end Scenario

/--
A stream brings these frames without a wait, and then comes to its ending.
-/
inductive Brings
    (now : Milliseconds)
    (frames : List Frame)
    (ending : List TimedRead) : Phase → Decoder → Prop where
  | streaming
      {pieces : List (List UInt8)} {decoder : Decoder}
      (yields : decoder.Yields pieces frames)
      (uncut : cut? decoder.buffer = none) :
      Brings now frames ending (.streaming (atOnce pieces ++ ending)) decoder
  | reading
      {piece : List UInt8} {pieces : List (List UInt8)}
      {limit : Option Milliseconds} {decoder : Decoder}
      (inTime : Scenario.comesInTime (some now) limit = true)
      (yields : decoder.Yields (piece :: pieces) frames) :
      Brings now frames ending
        (.reading (some now) limit (.chunk piece) (atOnce pieces ++ ending))
        decoder
  | delivering
      {pieces : List (List UInt8)} {decoder : Decoder}
      (yields : decoder.Yields pieces frames) :
      Brings now frames ending
        (.delivering (atOnce pieces ++ ending)) decoder

/--
Two answers to a read that are the same, or both the first of chunks that
bring the same frames.
-/
inductive AnswersAlike :
    ReadAnswer → List TimedRead → Decoder →
      ReadAnswer → List TimedRead → Decoder → Prop where
  | ending
      {answer : ReadAnswer} {reads : List TimedRead} {decoder other : Decoder}
      (noChunk : ∀ bytes, answer ≠ .chunk bytes) :
      AnswersAlike answer reads decoder answer reads other
  | chunks
      {piece otherPiece : List UInt8} {pieces others : List (List UInt8)}
      {frames : List Frame} {ending : List TimedRead}
      {decoder other : Decoder}
      (ends : IsEnding ending)
      (yields : decoder.Yields (piece :: pieces) frames)
      (otherYields : other.Yields (otherPiece :: others) frames) :
      AnswersAlike
        (.chunk piece) (atOnce pieces ++ ending) decoder
        (.chunk otherPiece) (atOnce others ++ ending) other

/-- Two phases, with decoders, that differ at most in how streams are cut. -/
inductive PhasesAlike (limit : Nat) (now : Milliseconds) :
    Phase → Decoder → Phase → Decoder → Prop where
  | connecting {decoder other : Decoder} :
      PhasesAlike limit now .connecting decoder .connecting other
  | dialing
      {due : Option Milliseconds} {answer otherAnswer : ConnectAnswer}
      {decoder other : Decoder}
      (recut : answer.Recut limit otherAnswer) :
      PhasesAlike limit now
        (.dialing due answer) decoder (.dialing due otherAnswer) other
  /-- The first chunks are about to be waited for. -/
  | beginning
      {wait : Milliseconds} {piece otherPiece : List UInt8}
      {reads others : List TimedRead} {decoder other : Decoder}
      (answers :
        AnswersAlike (.chunk piece) reads decoder
          (.chunk otherPiece) others other) :
      PhasesAlike limit now
        (.streaming (⟨wait, .chunk piece⟩ :: reads)) decoder
        (.streaming (⟨wait, .chunk otherPiece⟩ :: others)) other
  /-- The same time is waited for. -/
  | awaiting
      {due idle : Option Milliseconds} {answer otherAnswer : ReadAnswer}
      {reads others : List TimedRead} {decoder other : Decoder}
      (answers :
        AnswersAlike answer reads decoder otherAnswer others other) :
      PhasesAlike limit now
        (.reading due idle answer reads) decoder
        (.reading due idle otherAnswer others) other
  /-- The same frames are still to be given. -/
  | bringing
      {phase otherPhase : Phase} {decoder other : Decoder}
      {frames : List Frame} {ending : List TimedRead}
      (ends : IsEnding ending)
      (brings : Brings now frames ending phase decoder)
      (otherBrings : Brings now frames ending otherPhase other) :
      PhasesAlike limit now phase decoder otherPhase other
  | emitting
      {due : Option Milliseconds} {event : Downstream.Event}
      {pieces others : List (List UInt8)}
      {frames : List Frame} {ending : List TimedRead}
      {decoder other : Decoder}
      (ends : IsEnding ending)
      (yields : decoder.Yields pieces frames)
      (otherYields : other.Yields others frames) :
      PhasesAlike limit now
        (.emitting due event (atOnce pieces ++ ending)) decoder
        (.emitting due event (atOnce others ++ ending)) other
  | pausing {due : Milliseconds} {decoder other : Decoder} :
      PhasesAlike limit now (.pausing due) decoder (.pausing due) other
  | ended {termination : Termination} {decoder other : Decoder} :
      PhasesAlike limit now
        (.ended termination) decoder (.ended termination) other

namespace PhasesAlike

variable {limit : Nat}
variable {now : Milliseconds}
variable {phase otherPhase : Phase}
variable {decoder other : Decoder}

/-- A stream is open in both phases or in neither. -/
theorem isOpen_eq
    (alike : PhasesAlike limit now phase decoder otherPhase other) :
    phase.isOpen = otherPhase.isOpen := by
  cases alike with
  | bringing _ brings otherBrings =>
      cases brings <;> cases otherBrings <;> rfl
  | _ =>
      rfl

/-- Streams that differ in how they are cut begin alike. -/
theorem of_opened
    {reads : List TimedRead}
    {answer : ConnectAnswer}
    (recut : ConnectAnswer.Recut limit (.opened reads) answer) :
    ∃ others,
      answer = .opened others ∧
        PhasesAlike limit now
          (.streaming reads) (.new limit) (.streaming others) (.new limit) := by
  cases recut with
  | @opened wait pieces others ending sameBytes begins ends fits =>
      have yields := Decoder.yields_new fits
      have otherYields := Decoder.yields_new (sameBytes ▸ fits)
      rw [← sameBytes] at otherYields
      refine ⟨_, rfl, ?_⟩
      -- Without a wait, even a stream without chunks may stand for one with
      -- chunks; a wait is answered by the first chunk of both.
      rcases begins with rfl | ⟨notEmpty, otherNotEmpty⟩
      · rw [comingAfter_zero, comingAfter_zero]
        exact .bringing ends (.streaming yields rfl) (.streaming otherYields rfl)
      · obtain ⟨piece, pieces, rfl⟩ := List.exists_cons_of_ne_nil notEmpty
        obtain ⟨otherPiece, others, rfl⟩ :=
          List.exists_cons_of_ne_nil otherNotEmpty
        exact .beginning (.chunks ends yields otherYields)

/-- Only a connecting phase is alike to a connecting one. -/
theorem of_connecting
    (alike : PhasesAlike limit now .connecting decoder otherPhase other) :
    otherPhase = .connecting := by
  cases alike with
  | connecting =>
      rfl
  | bringing _ brings _ =>
      cases brings

/-- A dialing phase is alike to one whose answer is recut. -/
theorem of_dialing
    {due : Option Milliseconds}
    {answer : ConnectAnswer}
    (alike :
      PhasesAlike limit now (.dialing due answer) decoder otherPhase other) :
    ∃ otherAnswer,
      otherPhase = .dialing due otherAnswer ∧
        answer.Recut limit otherAnswer := by
  cases alike with
  | dialing recut =>
      exact ⟨_, rfl, recut⟩
  | bringing _ brings _ =>
      cases brings

/--
A streaming phase is alike to one that awaits the same bytes, or to one that
has them already.
-/
theorem of_streaming
    {reads : List TimedRead}
    (alike :
      PhasesAlike limit now (.streaming reads) decoder otherPhase other) :
    (∃ wait piece otherPiece later others,
        reads = ⟨wait, .chunk piece⟩ :: later ∧
          otherPhase = .streaming (⟨wait, .chunk otherPiece⟩ :: others) ∧
          AnswersAlike (.chunk piece) later decoder
            (.chunk otherPiece) others other) ∨
      ∃ frames ending pieces,
        IsEnding ending ∧
          reads = atOnce pieces ++ ending ∧
          decoder.Yields pieces frames ∧
          cut? decoder.buffer = none ∧
          Brings now frames ending otherPhase other := by
  cases alike with
  | beginning answers =>
      exact .inl ⟨_, _, _, _, _, rfl, rfl, answers⟩
  | bringing ends brings otherBrings =>
      cases brings with
      | streaming yields uncut =>
          exact .inr ⟨_, _, _, ends, rfl, yields, uncut, otherBrings⟩

/--
A reading phase is alike to one that awaits the same bytes, or to one that has
them already.
-/
theorem of_reading
    {due idle : Option Milliseconds}
    {answer : ReadAnswer}
    {reads : List TimedRead}
    (alike :
      PhasesAlike limit now
        (.reading due idle answer reads) decoder otherPhase other) :
    (∃ otherAnswer others,
        otherPhase = .reading due idle otherAnswer others ∧
          AnswersAlike answer reads decoder otherAnswer others other) ∨
      ∃ frames ending piece pieces,
        IsEnding ending ∧
          due = some now ∧
          Scenario.comesInTime (some now) idle = true ∧
          answer = .chunk piece ∧
          reads = atOnce pieces ++ ending ∧
          decoder.Yields (piece :: pieces) frames ∧
          Brings now frames ending otherPhase other := by
  cases alike with
  | awaiting answers =>
      exact .inl ⟨_, _, rfl, answers⟩
  | bringing ends brings otherBrings =>
      cases brings with
      | reading inTime yields =>
          exact .inr
            ⟨_, _, _, _, ends, rfl, inTime, rfl, rfl, yields, otherBrings⟩

/-- A read that brings no chunk is alike to itself only. -/
theorem of_reading_ending
    {due idle : Option Milliseconds}
    {answer : ReadAnswer}
    {reads : List TimedRead}
    (noChunk : ∀ bytes, answer ≠ .chunk bytes)
    (alike :
      PhasesAlike limit now
        (.reading due idle answer reads) decoder otherPhase other) :
    otherPhase = .reading due idle answer reads := by
  rcases alike.of_reading with
      ⟨_, _, otherPhase, answers⟩ | ⟨_, _, _, _, -, -, -, same, -⟩
  · cases answers with
    | ending =>
        exact otherPhase
    | chunks =>
        exact (noChunk _ rfl).elim
  · exact (noChunk _ same).elim

/-- A delivering phase is alike to one that brings the same frames. -/
theorem of_delivering
    {reads : List TimedRead}
    (alike :
      PhasesAlike limit now (.delivering reads) decoder otherPhase other) :
    ∃ frames ending pieces,
      IsEnding ending ∧
        reads = atOnce pieces ++ ending ∧
        decoder.Yields pieces frames ∧
        Brings now frames ending otherPhase other := by
  cases alike with
  | bringing ends brings otherBrings =>
      cases brings with
      | delivering yields =>
          exact ⟨_, _, _, ends, rfl, yields, otherBrings⟩

/--
An emitting phase is alike to one with the same event and the same frames
behind it.
-/
theorem of_emitting
    {due : Option Milliseconds}
    {event : Downstream.Event}
    {reads : List TimedRead}
    (alike :
      PhasesAlike limit now
        (.emitting due event reads) decoder otherPhase other) :
    ∃ frames ending pieces others,
      IsEnding ending ∧
        reads = atOnce pieces ++ ending ∧
        otherPhase = .emitting due event (atOnce others ++ ending) ∧
        decoder.Yields pieces frames ∧
        other.Yields others frames := by
  cases alike with
  | emitting ends yields otherYields =>
      exact ⟨_, _, _, _, ends, rfl, rfl, yields, otherYields⟩
  | bringing _ brings _ =>
      cases brings

/-- Only the same pause is alike to a pause. -/
theorem of_pausing
    {due : Milliseconds}
    (alike :
      PhasesAlike limit now (.pausing due) decoder otherPhase other) :
    otherPhase = .pausing due := by
  cases alike with
  | pausing =>
      rfl
  | bringing _ brings _ =>
      cases brings

end PhasesAlike

end EventRelay.Session
