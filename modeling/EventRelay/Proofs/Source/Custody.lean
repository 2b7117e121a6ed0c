import EventRelay.Source.Usage

namespace EventRelay.Source

/-!
# Closed exactly once

While a guard holds a stream, each of its reads is one read of the stream and
is passed on as it is, a failure or the end as much as a chunk.  The first
close releases the stream, or else the drop does.  After that nothing reaches
the stream any more.
-/

variable {σ : Type u} [OpenStream σ]

namespace Exchange

/-- The calls of a guard that holds its stream ask for what they answer. -/
private theorem flatMap_requests
    {exchanges : List Exchange}
    (held : ∀ exchange ∈ exchanges, exchange.IsHeld) :
    exchanges.flatMap requests = (exchanges.filterMap read?).map .read := by
  induction exchanges with
  | nil =>
      rfl
  | cons exchange later inductionHypothesis =>
      obtain ⟨first, rest⟩ := List.forall_mem_cons.mp held
      rw [List.flatMap_cons, inductionHypothesis rest]
      cases first with
      | passed read =>
          rw [List.filterMap_cons_some (read?_passed read)]
          rfl
      | holding =>
          rw [List.filterMap_cons_none read?_holding]
          rfl

/-- Nothing but the reads that were passed on comes before the close. -/
theorem flatMap_requests_released
    {before after : List Exchange}
    {release : Exchange}
    (held : ∀ exchange ∈ before, exchange.IsHeld)
    (closes : release.requests = [.close])
    (idle : ∀ exchange ∈ after, exchange.requests = []) :
    (before ++ release :: after).flatMap requests =
      (before.filterMap read?).map .read ++ [.close] := by
  have nothing : after.flatMap requests = [] :=
    List.flatMap_eq_nil_iff.mpr idle
  rw [List.flatMap_append, List.flatMap_cons, flatMap_requests held, closes,
    nothing, List.append_nil]

end Exchange

namespace Guard

private theorem exchange_read (stream : σ) :
    (hold stream).exchange .read =
      (.passed (OpenStream.read stream).1,
        hold (OpenStream.read stream).2) :=
  rfl

private theorem exchange_isOpen (stream : σ) :
    (hold stream).exchange .isOpen = (.holding, hold stream) :=
  rfl

private theorem exchange_close (stream : σ) :
    (hold stream).exchange .close = (.closing .close, (hold stream).close) :=
  rfl

private theorem exchange_drop (stream : σ) :
    (hold stream).exchange .drop = (.closing .drop, (hold stream).drop) :=
  rfl

/-- A closed guard answers by itself, and stays closed until it is dropped. -/
private theorem exchange_of_closed
    {guard : Guard σ}
    (closed : guard.isOpen = false)
    (present : guard.dropped = false)
    (call : GuardCall) :
    (guard.exchange call).1 = .idle call ∧
      (call ≠ .drop → (guard.exchange call).2 = guard) := by
  cases call <;>
    simp [exchange, answer, recording, read, close, drop, closed, present,
      Exchange.idle, Exchange.idleAnswer]

/-- As long as it is not told to close, a guard passes reads on. -/
theorem exchanges_of_held
    (stream : σ)
    {calls : List GuardCall}
    (notClosed : .close ∉ calls)
    (notDropped : .drop ∉ calls)
    (later : List GuardCall) :
    ∃ before, ∃ next : σ,
      (hold stream).exchanges (calls ++ later) =
        before ++ (hold next).exchanges later ∧
      before.filterMap Exchange.read? =
        OpenStream.reads stream (calls.count .read) ∧
      ∀ exchange ∈ before, exchange.IsHeld := by
  induction calls generalizing stream with
  | nil =>
      exact ⟨[], stream, rfl, rfl, by simp⟩
  | cons call rest inductionHypothesis =>
      obtain ⟨callNotClose, restNotClosed⟩ :=
        List.ne_and_not_mem_of_not_mem_cons notClosed
      obtain ⟨callNotDrop, restNotDropped⟩ :=
        List.ne_and_not_mem_of_not_mem_cons notDropped
      cases call with
      | read =>
          obtain ⟨before, next, splits, reads, held⟩ :=
            inductionHypothesis (OpenStream.read stream).2
              restNotClosed restNotDropped
          refine
            ⟨.passed (OpenStream.read stream).1 :: before, next, ?_, ?_, ?_⟩
          · rw [List.cons_append, exchanges_cons, exchange_read,
              List.cons_append, splits]
          · rw [List.count_cons_self, OpenStream.reads_succ, ← reads,
              List.filterMap_cons_some (Exchange.read?_passed _)]
          · exact List.forall_mem_cons.mpr ⟨.passed _, held⟩
      | isOpen =>
          obtain ⟨before, next, splits, reads, held⟩ :=
            inductionHypothesis stream restNotClosed restNotDropped
          refine ⟨.holding :: before, next, ?_, ?_, ?_⟩
          · rw [List.cons_append, exchanges_cons, exchange_isOpen,
              List.cons_append, splits]
          · rw [List.count_cons_of_ne (by decide), ← reads,
              List.filterMap_cons_none Exchange.read?_holding]
          · exact List.forall_mem_cons.mpr ⟨.holding, held⟩
      | close =>
          exact (callNotClose rfl).elim
      | drop =>
          exact (callNotDrop rfl).elim

/-- Once it is closed, a guard leaves the stream alone. -/
private theorem exchanges_of_closed
    {guard : Guard σ}
    (closed : guard.isOpen = false)
    (present : guard.dropped = false)
    {calls : List GuardCall}
    (notDropped : .drop ∉ calls) :
    guard.exchanges (calls ++ [.drop]) =
      (calls ++ [GuardCall.drop]).map Exchange.idle := by
  induction calls with
  | nil =>
      have last := (exchange_of_closed closed present .drop).1
      simp [exchanges, last]
  | cons call rest inductionHypothesis =>
      obtain ⟨callNotDrop, restNotDropped⟩ :=
        List.ne_and_not_mem_of_not_mem_cons notDropped
      obtain ⟨idle, stays⟩ := exchange_of_closed closed present call
      rw [List.cons_append, exchanges_cons, idle, stays callNotDrop.symm,
        inductionHypothesis restNotDropped, List.map_cons]

/-- Every call is exchanged, in order. -/
private theorem map_call_exchanges (guard : Guard σ) (calls : List GuardCall) :
    (guard.exchanges calls).map Exchange.call = calls := by
  induction calls generalizing guard with
  | nil =>
      rfl
  | cons call later inductionHypothesis =>
      rw [exchanges_cons, List.map_cons, inductionHypothesis]
      rfl

/--
Whatever is called until the drop, the stream is asked for reads, which are
passed on in order, and then it is closed: by the first close, or else by the
drop.  After that it is asked for nothing, and every read is the end of the
stream.  The guard is open until then, and not after it.
-/
theorem stream_is_closed_once
    (stream : σ)
    {calls : List GuardCall}
    (notDropped : .drop ∉ calls) :
    ∃ before release after count,
      (hold stream).exchanges (calls ++ [.drop]) =
        before ++ release :: after ∧
      (before ++ release :: after).map Exchange.call = calls ++ [.drop] ∧
      (before ++ release :: after).flatMap Exchange.requests =
        (OpenStream.reads stream count).map .read ++ [.close] ∧
      before.filterMap Exchange.read? = OpenStream.reads stream count ∧
      (∀ exchange ∈ before, exchange.IsHeld) ∧
      (release = .closing .close ∨ release = .closing .drop ∧ after = []) ∧
      ∀ exchange ∈ after, exchange = .idle exchange.call := by
  by_cases closes : .close ∈ calls
  · obtain ⟨earlier, later, rfl, notClosed⟩ :=
      List.eq_append_cons_of_mem closes
    obtain ⟨earlierNotDropped, laterNotDropped⟩ :
        .drop ∉ earlier ∧ .drop ∉ later := by
      simpa using notDropped
    obtain ⟨before, next, splits, reads, held⟩ :=
      exchanges_of_held stream notClosed earlierNotDropped
        (.close :: (later ++ [.drop]))
    have idle :
        (hold next).close.exchanges (later ++ [.drop]) =
          (later ++ [GuardCall.drop]).map Exchange.idle :=
      exchanges_of_closed rfl rfl laterNotDropped
    have whole :
        (hold stream).exchanges (earlier ++ .close :: later ++ [.drop]) =
          before ++ .closing .close ::
            (later ++ [GuardCall.drop]).map Exchange.idle := by
      rw [List.append_assoc, List.cons_append, splits, exchanges_cons,
        exchange_close, idle]
    refine ⟨before, .closing .close, _, earlier.count .read, whole, ?_, ?_,
      reads, held, .inl rfl, List.forall_mem_map.mpr fun _ _ => rfl⟩
    · rw [← whole, map_call_exchanges]
    · rw [Exchange.flatMap_requests_released held rfl
        (List.forall_mem_map.mpr fun _ _ => rfl), reads]
  · obtain ⟨before, next, splits, reads, held⟩ :=
      exchanges_of_held stream closes notDropped [.drop]
    have whole :
        (hold stream).exchanges (calls ++ [.drop]) =
          before ++ [.closing .drop] := by
      rw [splits, exchanges_cons, exchange_drop, exchanges]
    refine ⟨before, .closing .drop, [], calls.count .read, whole, ?_, ?_,
      reads, held, .inr ⟨rfl, rfl⟩, by simp⟩
    · rw [← whole, map_call_exchanges]
    · rw [Exchange.flatMap_requests_released held rfl (by simp), reads]

/-- A stream that goes on after a failure, and even after an end. -/
def interrupted : Stream :=
  ⟨[.chunk [100], .failed (.transport "reset"), .ended, .chunk [97]], 0⟩

/-- A user who closes twice, and reads on in between. -/
def untidyUse : List GuardCall :=
  [.read, .read, .isOpen, .read, .read, .close, .read, .close, .isOpen]

/-- The user sees every read, and then the end; the stream is closed once. -/
theorem interrupted_is_closed_once :
    let exchanges := (hold interrupted).exchanges (untidyUse ++ [.drop])
    .drop ∉ untidyUse ∧
      exchanges.filterMap Exchange.read? = interrupted.reads ++ [.ended] ∧
      ∃ count,
        exchanges.flatMap Exchange.requests =
          (OpenStream.reads interrupted count).map .read ++ [.close] := by
  intro exchanges
  have notDropped : .drop ∉ untidyUse := by
    decide
  obtain ⟨before, release, after, count, whole, -, asked, -⟩ :=
    stream_is_closed_once interrupted notDropped
  rw [← whole] at asked
  exact ⟨notDropped, by decide, count, asked⟩

end Guard

end EventRelay.Source
