import EventRelay.Proofs.Shutdown.Descent

namespace EventRelay

/-!
# A shutdown reaches everyone

What a subscriber was told of and what still waits for it add up to the
triggers since it subscribed, and a trigger waits until the subscriber looks.
Together with the cancellation of tokens this says what every user of a
shutdown learns.
-/

private theorem Signal.countAll_append (earlier later : List Signal) :
    countAll (earlier ++ later) = countAll earlier + countAll later := by
  induction earlier with
  | nil =>
      exact (Nat.zero_add _).symm
  | cons finding earlier inductionHypothesis =>
      rw [List.cons_append, countAll, countAll, inductionHypothesis,
        Nat.add_assoc]

namespace Shutdown

namespace Course

variable {course : Course} {subscriber : Nat}

/--
A subscriber for which a number of signals was sent: it was told of some, and
the others wait.
-/
def Owed (course : Course) (subscriber signals : Nat) : Prop :=
  ∃ seen,
    course.shutdown.seen[subscriber]? = some seen ∧
      seen ≤ course.shutdown.sent ∧
        course.told subscriber + (course.shutdown.sent - seen) = signals

/-- A subscriber for which a signal waits. -/
def Awaited (course : Course) (subscriber : Nat) : Prop :=
  ∃ seen,
    course.shutdown.seen[subscriber]? = some seen ∧
      seen < course.shutdown.sent

/-- How many signals one use sends. -/
def sentBy : Use → Nat
  | .trigger =>
      1
  | _ =>
      0

/-- Only a trigger sends a signal, and it sends one. -/
private theorem sent_use (course : Course) (use : Use) :
    (course.use use).shutdown.sent = course.shutdown.sent + sentBy use := by
  cases use with
  | child parent =>
      obtain ⟨tokens, number, same⟩ :=
        exists_tokens_child course.shutdown parent
      rw [Course.use, same]
      rfl
  | cancel index =>
      obtain ⟨cancelled, same⟩ :=
        exists_cancelled_cancel course.shutdown index
      rw [Course.use, same]
      rfl
  | receive subscriber =>
      obtain ⟨seen, same⟩ := course.exists_seen_receive subscriber
      rw [same]
      rfl
  | _ =>
      rfl

/-- Who has subscribed stays as it is, unless it looks for a signal. -/
theorem seen_use
    {seen : Nat}
    (subscribed : course.shutdown.seen[subscriber]? = some seen)
    {use : Use}
    (other : use ≠ .receive subscriber) :
    (course.use use).shutdown.seen[subscriber]? = some seen := by
  cases use with
  | subscribe =>
      exact getElem?_concat_eq_some_iff.mpr (.inl subscribed)
  | child parent =>
      obtain ⟨tokens, number, same⟩ :=
        exists_tokens_child course.shutdown parent
      rw [Course.use, same]
      exact subscribed
  | cancel index =>
      obtain ⟨cancelled, same⟩ :=
        exists_cancelled_cancel course.shutdown index
      rw [Course.use, same]
      exact subscribed
  | receive reader =>
      have different : reader ≠ subscriber :=
        fun same => other (congrArg Use.receive same)
      cases readerSeen : course.shutdown.seen[reader]? with
      | none =>
          simpa [Course.use, receive?, readerSeen] using subscribed
      | some dealt =>
          obtain ⟨finding, finds, -⟩ := exists_receive? readerSeen
          simpa [Course.use, finds, List.getElem?_set_ne different] using
            subscribed
  | _ =>
      exact subscribed

/-- A use other than receiving tells a subscriber nothing. -/
private theorem told_use
    {use : Use}
    (other : use ≠ .receive subscriber) :
    (course.use use).told subscriber = course.told subscriber := by
  cases use with
  | receive reader =>
      have different : reader ≠ subscriber :=
        fun same => other (congrArg Use.receive same)
      simp only [Course.use]
      split
      · rfl
      · simp [told, foundBy, different]
  | _ =>
      rfl

/-- One use keeps the account of a subscriber. -/
theorem Owed.use
    {signals : Nat}
    (owed : course.Owed subscriber signals)
    (use : Use) :
    (course.use use).Owed subscriber (signals + sentBy use) := by
  obtain ⟨seen, subscribed, within, account⟩ := owed
  by_cases looks : use = .receive subscriber
  · subst looks
    obtain ⟨finding, finds, waiting, -⟩ := exists_receive? subscribed
    have inside := (List.getElem?_eq_some_iff.mp subscribed).1
    refine ⟨seen + finding.count, ?_, ?_, ?_⟩
    · simp [Course.use, finds, inside]
    · simp only [Course.use, finds]
      omega
    · have heard :
          (course.use (.receive subscriber)).told subscriber =
            course.told subscriber + finding.count := by
        simp [Course.use, finds, told, foundBy, Signal.countAll_append,
          Signal.countAll]
      rw [heard, sent_use]
      simp only [sentBy]
      omega
  · refine ⟨seen, seen_use subscribed looks, ?_, ?_⟩
    · rw [sent_use]
      omega
    · rw [told_use looks, sent_use]
      omega

/-- Every trigger adds one signal to what a subscriber is owed. -/
private theorem Owed.useAll
    {signals : Nat}
    (owed : course.Owed subscriber signals)
    (uses : List Use) :
    (course.useAll uses).Owed subscriber
      (signals + uses.count .trigger) := by
  induction uses generalizing course signals with
  | nil =>
      exact owed
  | cons use later inductionHypothesis =>
      have counted :
          signals + (use :: later).count .trigger =
            signals + sentBy use + later.count .trigger := by
        cases use <;> simp [sentBy, Nat.add_comm, Nat.add_left_comm]
      rw [counted]
      exact inductionHypothesis (owed.use use)

/--
Subscribers have the numbers in which they subscribed, and only they find
signals.
-/
structure Listed (course : Course) (uses : List Use) : Prop where
  length : course.shutdown.seen.length = uses.count .subscribe
  found : ∀ entry ∈ course.found, entry.1 < course.shutdown.seen.length

/-- Every use keeps the subscribers numbered in order. -/
private theorem Listed.use
    {uses : List Use}
    (listed : course.Listed uses)
    (use : Use) :
    (course.use use).Listed (uses ++ [use]) := by
  obtain ⟨length, found⟩ := listed
  cases use with
  | subscribe =>
      refine ⟨by simp [Course.use, Shutdown.subscribe, length], ?_⟩
      intro entry member
      simpa [Course.use, Shutdown.subscribe] using
        Nat.lt_succ_of_lt (found entry member)
  | child parent =>
      obtain ⟨tokens, number, same⟩ :=
        exists_tokens_child course.shutdown parent
      rw [Course.use, same]
      exact ⟨by simp [length], found⟩
  | cancel index =>
      obtain ⟨cancelled, same⟩ :=
        exists_cancelled_cancel course.shutdown index
      rw [Course.use, same]
      exact ⟨by simp [length], found⟩
  | receive subscriber =>
      cases subscribed : course.shutdown.seen[subscriber]? with
      | none =>
          simpa [Course.use, receive?, subscribed] using
            (⟨by simp [length], found⟩ : course.Listed (uses ++ [_]))
      | some seen =>
          obtain ⟨finding, finds, -⟩ := exists_receive? subscribed
          have inside := (List.getElem?_eq_some_iff.mp subscribed).1
          refine ⟨by simp [Course.use, finds, length], ?_⟩
          simp only [Course.use, finds, List.length_set]
          exact List.forall_mem_append.mpr
            ⟨found, List.forall_mem_singleton.mpr inside⟩
  | token =>
      exact ⟨by simpa [Course.use, Shutdown.token, handOut] using length,
        found⟩
  | trigger =>
      exact ⟨by simpa [Course.use, trigger, cancelToken, root] using length,
        found⟩

/-- After any uses, the subscribers are numbered in order. -/
private theorem Listed.after (uses : List Use) : (Course.after uses).Listed uses := by
  induction uses using List.reverseRecOn with
  | nil =>
      exact ⟨rfl, nofun⟩
  | append_singleton uses use inductionHypothesis =>
      rw [after_concat]
      exact inductionHypothesis.use use

/-- A new subscriber is owed nothing. -/
private theorem Listed.owed_subscribe
    {uses : List Use}
    (listed : course.Listed uses) :
    (course.use .subscribe).Owed (uses.count .subscribe) 0 := by
  refine ⟨course.shutdown.sent,
    getElem?_concat_eq_some_iff.mpr (.inr ⟨listed.length.symm, rfl⟩),
    Nat.le_refl _, ?_⟩
  have unheard : course.foundBy (uses.count .subscribe) = [] := by
    refine List.filterMap_eq_nil_iff.mpr fun entry member => ?_
    have below := listed.found entry member
    rw [listed.length] at below
    exact if_neg (Nat.ne_of_lt below)
  have told : (course.use .subscribe).told (uses.count .subscribe) = 0 :=
    congrArg Signal.countAll unheard
  rw [told]
  exact (Nat.zero_add _).trans (Nat.sub_self _)

private theorem after_append (before later : List Use) :
    after (before ++ later) = (after before).useAll later :=
  List.foldl_append

/-- A subscriber is owed the signals sent since it subscribed. -/
theorem owed_after (before later : List Use) :
    (after (before ++ .subscribe :: later)).Owed (before.count .subscribe)
      (later.count .trigger) := by
  have owed := (Listed.after before).owed_subscribe.useAll later
  rw [Nat.zero_add] at owed
  rw [after_append]
  exact owed

/-- After a trigger, a signal waits for every subscriber. -/
private theorem Owed.awaited
    {signals : Nat}
    (owed : course.Owed subscriber signals) :
    (course.use .trigger).Awaited subscriber := by
  obtain ⟨seen, subscribed, within, -⟩ := owed
  exact ⟨seen, subscribed, Nat.lt_succ_of_le within⟩

/-- A signal waits until the subscriber looks for it. -/
theorem Awaited.useAll
    (awaited : course.Awaited subscriber)
    {uses : List Use}
    (unread : .receive subscriber ∉ uses) :
    (course.useAll uses).Awaited subscriber := by
  induction uses generalizing course with
  | nil =>
      exact awaited
  | cons use later inductionHypothesis =>
      rw [List.mem_cons, not_or] at unread
      obtain ⟨other, unreadLater⟩ := unread
      obtain ⟨seen, subscribed, waits⟩ := awaited
      refine inductionHypothesis ⟨seen, ?_, ?_⟩ unreadLater
      · exact seen_use subscribed (Ne.symm other)
      · rw [sent_use]
        exact Nat.lt_add_right _ waits

end Course

/--
A child's cancellation is its own: neither the root nor a sibling descends
from it.
-/
theorem not_descends_of_sibling
    {uses : List Use}
    {index parent other : Nat}
    (isChild : (origins uses)[index]? = some (.child parent))
    (apart :
      (origins uses)[other]? = some .root ∨
        (origins uses)[other]? = some (.child parent) ∧ other ≠ index) :
    ¬Descends (origins uses) other index := by
  have earlier
      {index parent : Nat}
      (isChild : (origins uses)[index]? = some (.child parent)) :
      parent < index :=
    ((Grown.after uses).children isChild).1
  intro descends
  rcases apart with isRoot | ⟨isSibling, different⟩
  · cases isChild.symm.trans ((descends_root_iff isRoot).mp descends)
  · rcases (descends_child_iff isSibling).mp descends with same | fromParent
    · exact different same
    · exact Nat.not_le_of_lt (earlier isChild)
        (fromParent.le earlier isChild)

section

variable {uses : List Use} {index other : Nat}

/--
A cancellation matters to a token only if it descends from the cancelled one.
-/
theorem wasCancelled_of_apart
    (apart : ¬Descends (origins uses) other index)
    {ancestor : Nat}
    (descends : Descends (origins uses) other ancestor) :
    WasCancelled (uses ++ [.cancel index]) ancestor ↔
      WasCancelled uses ancestor := by
  rw [wasCancelled_concat_iff, or_iff_left]
  rintro ⟨same, -⟩
  obtain rfl := Use.cancel.inj same
  exact apart descends

/-- What does not descend from a cancelled token stays as it was. -/
theorem isCancelled_cancel
    (handedOut : other < (origins uses).length)
    (apart : ¬Descends (origins uses) other index) :
    let shutdown := (Course.after uses).shutdown
    let cancelled := shutdown.cancel index
    cancelled.isCancelled (cancelled.tokenAt other) =
      shutdown.isCancelled (shutdown.tokenAt other) := by
  intro shutdown cancelled
  have same : origins (uses ++ [.cancel index]) = origins uses :=
    origins_concat uses (.cancel index)
  have used :
      cancelled = (Course.after (uses ++ [.cancel index])).shutdown := by
    rw [Course.after_concat]
    rfl
  rw [Bool.eq_iff_iff, used, isCancelled_iff (same ▸ handedOut),
    isCancelled_iff handedOut, same]
  simp only [List.mem_append, List.mem_singleton, reduceCtorEq, or_false]
  exact or_congr_right (exists_congr fun ancestor =>
    and_congr_right (wasCancelled_of_apart apart))

/-- Cancelling a child does not trigger the shutdown. -/
theorem isTriggered_cancel
    {parent : Nat}
    (isChild : (origins uses)[index]? = some (.child parent)) :
    ((Course.after uses).shutdown.cancel index).isTriggered =
      (Course.after uses).shutdown.isTriggered := by
  have same : origins (uses ++ [.cancel index]) = origins uses :=
    origins_concat uses (.cancel index)
  have used :
      (Course.after uses).shutdown.cancel index =
        (Course.after (uses ++ [.cancel index])).shutdown := by
    rw [Course.after_concat]
    rfl
  rw [Bool.eq_iff_iff, used, isTriggered_iff, isTriggered_iff, same]
  simp only [List.mem_append, List.mem_singleton, reduceCtorEq, or_false]
  exact or_congr_right (exists_congr fun other =>
    and_congr_right fun isRoot =>
      wasCancelled_of_apart
        (not_descends_of_sibling isChild (.inl isRoot)) .self)

/-- A shutdown that was triggered stays so. -/
private theorem isTriggered_append
    (triggered : (Course.after uses).shutdown.isTriggered = true)
    (later : List Use) :
    (Course.after (uses ++ later)).shutdown.isTriggered = true := by
  rw [isTriggered_iff] at triggered ⊢
  rcases triggered with sent | ⟨index, isRoot, before, between, rfl, inside⟩
  · exact .inl (List.mem_append_left later sent)
  · refine .inr ⟨index, ?_, before, between ++ later, by simp, inside⟩
    obtain ⟨more, shape⟩ := isPrefix_origins _ later
    rw [← shape]
    exact List.getElem?_append_left
      (List.getElem?_eq_some_iff.mp isRoot).1 |>.trans isRoot

/--
A subscriber was told of no more than the triggers since it subscribed.  It
finds nothing exactly if it was told of all of them, and finds something if
there was a trigger since it last looked.
-/
private theorem exists_finding (before later : List Use) :
    let course := Course.after (before ++ .subscribe :: later)
    let subscriber := before.count .subscribe
    course.told subscriber ≤ later.count .trigger ∧
      ∃ finding next,
        course.shutdown.receive? subscriber = some (finding, next) ∧
          (finding = .empty ↔
            course.told subscriber = later.count .trigger) ∧
          ∀ earlier unread,
            later = earlier ++ .trigger :: unread →
              .receive subscriber ∉ unread → finding ≠ .empty := by
  intro course subscriber
  obtain ⟨seen, subscribed, within, account⟩ :=
    Course.owed_after before later
  obtain ⟨finding, finds, -, isEmpty⟩ := exists_receive? subscribed
  refine ⟨account ▸ Nat.le_add_right _ _, finding, _, finds, ?_, ?_⟩
  · rw [isEmpty, ← account]
    exact Nat.left_eq_add.symm
  · rintro earlier unread rfl notRead nothing
    have awaited :=
      (Course.owed_after before earlier).awaited.useAll notRead
    have reached :
        ((Course.after (before ++ .subscribe :: earlier)).use
            .trigger).useAll unread = course := by
      simp [course, Course.after, Course.useAll]
    rw [reached] at awaited
    obtain ⟨held, isHeld, waits⟩ := awaited
    obtain rfl : seen = held :=
      Option.some.inj (subscribed.symm.trans isHeld)
    exact absurd waits
      (Nat.not_lt.mpr (Nat.le_of_sub_eq_zero (isEmpty.mp nothing)))

end

/--
For every course of uses, the shutdown counts as triggered exactly if there was
a trigger or a cancellation of the root, however often the root was handed out,
and stays so.  A token is cancelled exactly if there was a trigger, or if it or
one of its ancestors was cancelled, whenever it was handed out; so cancelling a
child changes neither the root nor a sibling.  And a subscriber is never told of more
than the triggers since it subscribed; it finds nothing exactly when it was told
of all of them, and finds something when it first looks after a trigger.
-/
theorem shutdown_reaches_everyone (uses : List Use) :
    let course := Course.after uses
    let shutdown := course.shutdown
    (shutdown.isTriggered = true ↔
      .trigger ∈ uses ∨
        ∃ index, (origins uses)[index]? = some .root ∧
          WasCancelled uses index) ∧
    (shutdown.isTriggered = true → ∀ later,
      (Course.after (uses ++ later)).shutdown.isTriggered = true) ∧
    (∀ index < (origins uses).length,
      (shutdown.isCancelled (shutdown.tokenAt index) = true ↔
        .trigger ∈ uses ∨
          ∃ ancestor, Descends (origins uses) index ancestor ∧
            WasCancelled uses ancestor)) ∧
    (∀ index parent, (origins uses)[index]? = some (.child parent) →
      let cancelled := shutdown.cancel index
      cancelled.isTriggered = shutdown.isTriggered ∧
        ∀ other,
          (origins uses)[other]? = some .root ∨
              (origins uses)[other]? = some (.child parent) ∧
                other ≠ index →
            cancelled.isCancelled (cancelled.tokenAt other) =
              shutdown.isCancelled (shutdown.tokenAt other)) ∧
    ∀ before later, uses = before ++ .subscribe :: later →
      let subscriber := before.count .subscribe
      course.told subscriber ≤ later.count .trigger ∧
        ∃ finding next,
          shutdown.receive? subscriber = some (finding, next) ∧
            (finding = .empty ↔
              course.told subscriber = later.count .trigger) ∧
            ∀ earlier unread,
              later = earlier ++ .trigger :: unread →
                .receive subscriber ∉ unread → finding ≠ .empty := by
  intro course shutdown
  refine ⟨isTriggered_iff, isTriggered_append, fun _ => isCancelled_iff,
    fun index parent isChild => ⟨isTriggered_cancel isChild, ?_⟩, ?_⟩
  · intro other apart
    have handedOut : other < (origins uses).length := by
      rcases apart with found | ⟨found, -⟩ <;>
        exact (List.getElem?_eq_some_iff.mp found).1
    exact isCancelled_cancel handedOut
      (not_descends_of_sibling isChild apart)
  · rintro before later rfl
    exact exists_finding before later

end Shutdown

end EventRelay
