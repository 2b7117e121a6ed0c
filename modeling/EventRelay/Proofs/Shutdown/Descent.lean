import EventRelay.Shutdown.Usage
import Mathlib.Data.List.Induction
import Mathlib.Data.List.Infix

namespace EventRelay.Shutdown

/-!
# Descent

Every token that is handed out carries the numbers of its ancestors.  New
numbers are greater than all earlier ones, so that a number stands for one
token, and a token carries the number of another one exactly if it descends
from it.  A token is cancelled if its own number or that of an ancestor is;
this is compared with the cancellations and triggers in the course of uses.
-/

/-- An item at the end is new, and all others stay where they are. -/
theorem getElem?_concat_eq_some_iff
    {items : List α}
    {last item : α}
    {index : Nat} :
    (items ++ [last])[index]? = some item ↔
      items[index]? = some item ∨ index = items.length ∧ last = item := by
  rcases Nat.lt_trichotomy index items.length with below | same | above
  · rw [List.getElem?_append_left below]
    exact ⟨.inl, fun found => found.resolve_right fun last => by omega⟩
  · simp [same]
  · have outside : items.length ≤ index := Nat.le_of_lt above
    rw [List.getElem?_append_right outside, List.getElem?_eq_none outside,
      List.getElem?_singleton, if_neg (by omega)]
    constructor
    · exact nofun
    · rintro (found | ⟨last, -⟩)
      · exact found
      · omega

/-- A further use is made of what the uses before it left. -/
theorem Course.after_concat (uses : List Use) (use : Use) :
    after (uses ++ [use]) = (after uses).use use :=
  List.foldl_append

/--
A subscriber deals with the signals that it is told of, and finds nothing only
if it has dealt with all.
-/
theorem exists_receive?
    {shutdown : Shutdown}
    {subscriber seen : Nat}
    (subscribed : shutdown.seen[subscriber]? = some seen) :
    ∃ finding,
      shutdown.receive? subscriber =
          some (finding,
            { shutdown with
              seen := shutdown.seen.set subscriber (seen + finding.count) }) ∧
        finding.count ≤ shutdown.sent - seen ∧
          (finding = .empty ↔ shutdown.sent - seen = 0) := by
  simp only [receive?, subscribed, Option.map_some]
  split
  · next none =>
      obtain ⟨inside, isSeen⟩ := List.getElem?_eq_some_iff.mp subscribed
      refine ⟨.empty, ?_, Nat.zero_le _, by simp [none]⟩
      rw [Signal.count, Nat.add_zero, ← isSeen, List.set_getElem_self]
  · next some =>
      split
      · next one =>
          exact ⟨.signal, rfl, by simp [Signal.count, one], by simp [one]⟩
      · next several =>
          refine ⟨.lagged (shutdown.sent - seen - 1), ?_, ?_, by simp [some]⟩
          · have dealt : shutdown.sent - 1 =
                seen + (shutdown.sent - seen - 1) := by
              omega
            rw [dealt]
            rfl
          · exact Nat.sub_le _ _

/-- Looking for a signal changes nothing but what was seen. -/
theorem Course.exists_seen_receive (course : Course) (subscriber : Nat) :
    ∃ seen,
      (course.use (.receive subscriber)).shutdown =
        { course.shutdown with seen } := by
  cases subscribed : course.shutdown.seen[subscriber]? with
  | none =>
      exact ⟨course.shutdown.seen, by simp [use, receive?, subscribed]⟩
  | some seen =>
      obtain ⟨finding, finds, -⟩ := exists_receive? subscribed
      exact ⟨course.shutdown.seen.set subscriber (seen + finding.count),
        by simp [use, finds]⟩

/-- Asking for a child changes nothing but the tokens. -/
theorem exists_tokens_child (shutdown : Shutdown) (parent : Nat) :
    ∃ tokens nextNumber,
      (shutdown.child parent).2 = { shutdown with tokens, nextNumber } := by
  unfold child
  split <;> exact ⟨_, _, rfl⟩

/-- Cancelling a token changes nothing but what is cancelled. -/
theorem exists_cancelled_cancel (shutdown : Shutdown) (index : Nat) :
    ∃ cancelled, shutdown.cancel index = { shutdown with cancelled } := by
  unfold cancel cancelToken
  split
  · exact ⟨_, rfl⟩
  · split <;> exact ⟨_, rfl⟩

/-- A further use extends the origins. -/
theorem origins_concat (uses : List Use) (use : Use) :
    origins (uses ++ [use]) = use.extend (origins uses) :=
  List.foldl_append

private theorem Use.isPrefix_extend (origins : List Origin) (use : Use) :
    origins <+: use.extend origins := by
  cases use with
  | token =>
      exact List.prefix_append _ _
  | child parent =>
      exact List.prefix_append _ _
  | _ =>
      exact List.prefix_refl _

/-- A token keeps its origin. -/
theorem isPrefix_origins (before later : List Use) :
    origins before <+: origins (before ++ later) := by
  induction later using List.reverseRecOn with
  | nil =>
      rw [List.append_nil]
  | append_singleton later use inductionHypothesis =>
      rw [← List.append_assoc, origins_concat]
      exact inductionHypothesis.trans (use.isPrefix_extend _)

/-- A cancellation is the last use, or was made before. -/
theorem wasCancelled_concat_iff
    {uses : List Use}
    {use : Use}
    {index : Nat} :
    WasCancelled (uses ++ [use]) index ↔
      WasCancelled uses index ∨
        use = .cancel index ∧ index < (origins uses).length := by
  constructor
  · rintro ⟨before, later, shape, handedOut⟩
    rcases List.eq_nil_or_concat later with rfl | ⟨between, last, rfl⟩
    · obtain ⟨rfl, same⟩ := List.append_inj' shape rfl
      exact .inr ⟨List.singleton_inj.mp same, handedOut⟩
    · rw [List.concat_eq_append, ← List.cons_append, ← List.append_assoc]
        at shape
      exact .inl ⟨before, between, (List.append_inj' shape rfl).1, handedOut⟩
  · rintro (⟨before, later, rfl, handedOut⟩ | ⟨rfl, handedOut⟩)
    · exact ⟨before, later ++ [use], by simp, handedOut⟩
    · exact ⟨uses, [], rfl, handedOut⟩

/-- Only tokens that were handed out are cancelled. -/
private theorem WasCancelled.handedOut
    {uses : List Use}
    {index : Nat}
    (cancelled : WasCancelled uses index) :
    index < (origins uses).length := by
  obtain ⟨before, later, rfl, handedOut⟩ := cancelled
  exact Nat.lt_of_lt_of_le handedOut (isPrefix_origins before _).length_le

/-- The root descends from itself only. -/
theorem descends_root_iff
    {origins : List Origin}
    {index ancestor : Nat}
    (isRoot : origins[index]? = some .root) :
    Descends origins index ancestor ↔ origins[ancestor]? = some .root := by
  constructor
  · intro descends
    cases descends with
    | self =>
        exact isRoot
    | root _ isOther =>
        exact isOther
    | child isChild =>
        cases isRoot.symm.trans isChild
  · exact .root isRoot

/-- A child is itself, and descends from whatever its parent descends from. -/
theorem descends_child_iff
    {origins : List Origin}
    {index parent ancestor : Nat}
    (isChild : origins[index]? = some (.child parent)) :
    Descends origins index ancestor ↔
      index = ancestor ∨ Descends origins parent ancestor := by
  constructor
  · intro descends
    cases descends with
    | self =>
        exact .inl rfl
    | root isRoot =>
        cases isRoot.symm.trans isChild
    | child isSame fromParent =>
        cases isChild.symm.trans isSame
        exact .inr fromParent
  · rintro (rfl | fromParent)
    · exact .self
    · exact .child isChild fromParent

/-- No token descends from a later one that is not the root. -/
theorem Descends.le
    {origins : List Origin}
    (earlier : ∀ {index parent : Nat},
      origins[index]? = some (.child parent) → parent < index)
    {index ancestor parent : Nat}
    (descends : Descends origins index ancestor)
    (isChild : origins[ancestor]? = some (.child parent)) :
    ancestor ≤ index := by
  induction descends with
  | self =>
      exact Nat.le_refl _
  | root _ isRoot =>
      cases isRoot.symm.trans isChild
  | child isOther _ inductionHypothesis =>
      exact Nat.le_of_lt
        (Nat.lt_of_le_of_lt (inductionHypothesis isChild) (earlier isOther))

/-! ## Numbers -/

/-- Whether a number is the own one of a token that was handed out. -/
def Owns (shutdown : Shutdown) (index number : Nat) : Prop :=
  ∃ ancestors, shutdown.tokens[index]? = some ⟨number :: ancestors⟩

/--
The tokens that were handed out carry numbers according to their origins.
-/
structure Grown (origins : List Origin) (shutdown : Shutdown) : Prop where
  length : shutdown.tokens.length = origins.length
  roots : ∀ {index : Nat},
    origins[index]? = some .root → shutdown.tokens[index]? = some root
  children : ∀ {index parent : Nat},
    origins[index]? = some (.child parent) →
      parent < index ∧
        ∃ token number,
          shutdown.tokens[parent]? = some token ∧
            shutdown.tokens[index]? = some ⟨number :: token.lineage⟩ ∧
              0 < number
  /-- The next number is greater than all that are carried. -/
  fresh : ∀ token ∈ root :: shutdown.tokens, ∀ number ∈ token.lineage,
    number < shutdown.nextNumber
  /-- Only the root's number is carried as their own by several tokens. -/
  distinct : ∀ {first second number : Nat},
    shutdown.Owns first number → shutdown.Owns second number →
      0 < number → first = second

namespace Grown

variable {origins : List Origin} {shutdown : Shutdown}

private theorem new : Grown [] .new where
  length :=
    rfl
  roots :=
    nofun
  children :=
    nofun
  fresh := by
    simp [Shutdown.new, root]
  distinct := by
    rintro _ _ _ ⟨_, ⟨⟩⟩

/-- Only tokens and their numbers matter. -/
theorem congr
    {next : Shutdown}
    (grown : Grown origins shutdown)
    (tokens : next.tokens = shutdown.tokens)
    (number : next.nextNumber = shutdown.nextNumber) :
    Grown origins next := by
  obtain ⟨length, roots, children, fresh, distinct⟩ := grown
  unfold Owns at distinct
  constructor <;> simpa only [Owns, tokens, number]

/-- Handing out a root token keeps the numbers according to the origins. -/
private theorem token (grown : Grown origins shutdown) :
    Grown (origins ++ [.root]) shutdown.token.2 where
  length := by
    simp [Shutdown.token, handOut, grown.length]
  roots := by
    intro index isRoot
    refine getElem?_concat_eq_some_iff.mpr ?_
    rcases getElem?_concat_eq_some_iff.mp isRoot with earlier | ⟨last, -⟩
    · exact .inl (grown.roots earlier)
    · exact .inr ⟨last.trans grown.length.symm, rfl⟩
  children := by
    intro index parent isChild
    rcases getElem?_concat_eq_some_iff.mp isChild with earlier | ⟨-, ⟨⟩⟩
    obtain ⟨below, token, number, isParent, isToken, positive⟩ :=
      grown.children earlier
    exact ⟨below, token, number,
      getElem?_concat_eq_some_iff.mpr (.inl isParent),
      getElem?_concat_eq_some_iff.mpr (.inl isToken), positive⟩
  fresh := by
    intro token member
    refine grown.fresh token ?_
    simpa [Shutdown.token, handOut, or_comm] using member
  distinct := by
    rintro first second number ⟨_, isFirst⟩ ⟨_, isSecond⟩ positive
    rcases getElem?_concat_eq_some_iff.mp isFirst with isFirst | ⟨-, ⟨⟩⟩
    · rcases getElem?_concat_eq_some_iff.mp isSecond with isSecond | ⟨-, ⟨⟩⟩
      · exact grown.distinct ⟨_, isFirst⟩ ⟨_, isSecond⟩ positive
      · exact absurd positive (Nat.lt_irrefl 0)
    · exact absurd positive (Nat.lt_irrefl 0)

/-- A new child gets a number that nobody carries. -/
private theorem descendant
    (grown : Grown origins shutdown)
    {parent : Nat}
    {token : Token}
    (isParent : shutdown.tokens[parent]? = some token) :
    Grown (origins ++ [.child parent])
      ({ shutdown with nextNumber := shutdown.nextNumber + 1 }.handOut
        ⟨shutdown.nextNumber :: token.lineage⟩).2 where
  length := by
    simp [handOut, grown.length]
  roots := by
    intro index isRoot
    rcases getElem?_concat_eq_some_iff.mp isRoot with earlier | ⟨-, ⟨⟩⟩
    exact getElem?_concat_eq_some_iff.mpr (.inl (grown.roots earlier))
  children := by
    intro index other isChild
    rcases getElem?_concat_eq_some_iff.mp isChild with earlier | ⟨rfl, same⟩
    · obtain ⟨below, ancestor, number, isAncestor, isToken, positive⟩ :=
        grown.children earlier
      exact ⟨below, ancestor, number,
        getElem?_concat_eq_some_iff.mpr (.inl isAncestor),
        getElem?_concat_eq_some_iff.mpr (.inl isToken), positive⟩
    · obtain rfl := Origin.child.inj same
      refine ⟨?_, token, shutdown.nextNumber,
        getElem?_concat_eq_some_iff.mpr (.inl isParent),
        getElem?_concat_eq_some_iff.mpr (.inr ⟨grown.length.symm, rfl⟩), ?_⟩
      · rw [← grown.length]
        exact (List.getElem?_eq_some_iff.mp isParent).1
      · exact grown.fresh root List.mem_cons_self 0 List.mem_cons_self
  fresh := by
    have fromParent : token ∈ shutdown.tokens :=
      List.mem_of_getElem? isParent
    intro other member number carried
    refine Nat.lt_succ_iff.mpr ?_
    have cases :
        other ∈ root :: shutdown.tokens ∨
          other = ⟨shutdown.nextNumber :: token.lineage⟩ := by
      simpa [handOut, or_assoc] using member
    rcases cases with earlier | rfl
    · exact Nat.le_of_lt (grown.fresh other earlier number carried)
    · rcases List.mem_cons.mp carried with rfl | inherited
      · exact Nat.le_refl _
      · exact Nat.le_of_lt (grown.fresh token
          (List.mem_cons_of_mem _ fromParent) number inherited)
  distinct := by
    have below
        {index : Nat}
        {ancestors : List Nat} :
        shutdown.tokens[index]? ≠
          some ⟨shutdown.nextNumber :: ancestors⟩ := by
      intro found
      exact Nat.lt_irrefl _ (grown.fresh _
        (List.mem_cons_of_mem _ (List.mem_of_getElem? found)) _
        List.mem_cons_self)
    rintro first second number ⟨_, isFirst⟩ ⟨_, isSecond⟩ positive
    rcases getElem?_concat_eq_some_iff.mp isFirst with isFirst | ⟨rfl, ⟨⟩⟩
    · rcases getElem?_concat_eq_some_iff.mp isSecond with isSecond | ⟨-, ⟨⟩⟩
      · exact grown.distinct ⟨_, isFirst⟩ ⟨_, isSecond⟩ positive
      · exact absurd isFirst below
    · rcases getElem?_concat_eq_some_iff.mp isSecond with isSecond | ⟨rfl, -⟩
      · exact absurd isSecond below
      · rfl

/-- Handing out a child keeps the numbers according to the origins. -/
private theorem child (grown : Grown origins shutdown) (parent : Nat) :
    Grown ((Use.child parent).extend origins) (shutdown.child parent).2 := by
  simp only [Use.extend, Shutdown.child, ← grown.length]
  cases isParent : shutdown.tokens[parent]? with
  | none =>
      rw [if_neg (Nat.not_lt.mpr (List.getElem?_eq_none_iff.mp isParent))]
      exact grown.token
  | some token =>
      rw [if_pos (List.getElem?_eq_some_iff.mp isParent).1]
      exact grown.descendant isParent

/-- Uses hand out tokens according to their origins. -/
theorem use
    {course : Course}
    (grown : Grown origins course.shutdown)
    (use : Use) :
    Grown (use.extend origins) (course.use use).shutdown := by
  cases use with
  | subscribe =>
      exact grown.congr rfl rfl
  | token =>
      exact grown.token
  | child parent =>
      exact grown.child parent
  | cancel index =>
      obtain ⟨cancelled, same⟩ :=
        exists_cancelled_cancel course.shutdown index
      rw [Course.use, same]
      exact grown.congr rfl rfl
  | trigger =>
      exact grown.congr rfl rfl
  | receive subscriber =>
      obtain ⟨seen, same⟩ := course.exists_seen_receive subscriber
      rw [same]
      exact grown.congr rfl rfl

/-- After any uses, the tokens carry numbers according to their origins. -/
theorem after (uses : List Use) :
    Grown (Shutdown.origins uses) (Course.after uses).shutdown := by
  induction uses using List.reverseRecOn with
  | nil =>
      exact .new
  | append_singleton uses use inductionHypothesis =>
      rw [origins_concat, Course.after_concat]
      exact inductionHypothesis.use use

/-- Every token that was handed out has a number of its own. -/
theorem exists_owns
    (grown : Grown origins shutdown)
    {index : Nat}
    (handedOut : index < origins.length) :
    ∃ number, shutdown.Owns index number := by
  have found := List.getElem?_eq_getElem handedOut
  cases origin : origins[index] with
  | root =>
      exact ⟨0, [], grown.roots (found.trans (congrArg some origin))⟩
  | child parent =>
      obtain ⟨-, token, number, -, isToken, -⟩ :=
        grown.children (found.trans (congrArg some origin))
      exact ⟨number, token.lineage, isToken⟩

/-- Every token that was handed out has an origin. -/
private theorem origin_of_token
    (grown : Grown origins shutdown)
    {index : Nat}
    {token : Token}
    (isToken : shutdown.tokens[index]? = some token) :
    ∃ origin, origins[index]? = some origin := by
  refine ⟨_, List.getElem?_eq_getElem ?_⟩
  rw [← grown.length]
  exact (List.getElem?_eq_some_iff.mp isToken).1

/-- Only the root has the number zero. -/
theorem owns_eq_zero_iff
    (grown : Grown origins shutdown)
    {index number : Nat}
    (owns : shutdown.Owns index number) :
    number = 0 ↔ origins[index]? = some .root := by
  obtain ⟨ancestors, isToken⟩ := owns
  obtain ⟨origin, isOrigin⟩ := grown.origin_of_token isToken
  rw [isOrigin, Option.some.injEq]
  cases origin with
  | root =>
      cases isToken.symm.trans (grown.roots isOrigin)
      exact iff_of_true rfl rfl
  | child parent =>
      obtain ⟨-, token, own, -, isChild, positive⟩ := grown.children isOrigin
      cases isToken.symm.trans isChild
      exact iff_of_false (Nat.ne_of_gt positive) nofun

/-- A token carries the number of another one if it descends from it. -/
theorem carries_iff_descends
    (grown : Grown origins shutdown)
    {index ancestor number : Nat}
    {token : Token}
    (isToken : shutdown.tokens[index]? = some token)
    (owns : shutdown.Owns ancestor number) :
    number ∈ token.lineage ↔ Descends origins index ancestor := by
  induction index using Nat.strongRecOn generalizing token with
  | ind index inductionHypothesis =>
      obtain ⟨origin, isOrigin⟩ := grown.origin_of_token isToken
      cases origin with
      | root =>
          cases isToken.symm.trans (grown.roots isOrigin)
          rw [descends_root_iff isOrigin, ← grown.owns_eq_zero_iff owns]
          exact List.mem_singleton
      | child parent =>
          obtain ⟨below, ancestors, own, isParent, isOwn, positive⟩ :=
            grown.children isOrigin
          cases isToken.symm.trans isOwn
          have same : number = own ↔ index = ancestor := by
            constructor
            · rintro rfl
              exact grown.distinct ⟨_, isToken⟩ owns positive
            · rintro rfl
              obtain ⟨_, isOwner⟩ := owns
              cases isOwner.symm.trans isToken
              rfl
          rw [descends_child_iff isOrigin, List.mem_cons, same,
            inductionHypothesis parent below isParent]

/-- Every token descends from the root. -/
theorem zero_carried
    (grown : Grown origins shutdown)
    {index : Nat}
    {token : Token}
    (isToken : shutdown.tokens[index]? = some token) :
    0 ∈ token.lineage := by
  induction index using Nat.strongRecOn generalizing token with
  | ind index inductionHypothesis =>
      obtain ⟨origin, isOrigin⟩ := grown.origin_of_token isToken
      cases origin with
      | root =>
          cases isToken.symm.trans (grown.roots isOrigin)
          exact List.mem_singleton_self 0
      | child parent =>
          obtain ⟨below, ancestors, own, isParent, isOwn, -⟩ :=
            grown.children isOrigin
          cases isToken.symm.trans isOwn
          exact List.mem_cons_of_mem own
            (inductionHypothesis parent below isParent)

end Grown

/-! ## Cancellation -/

/-- No use takes tokens back. -/
private theorem Course.isPrefix_tokens (course : Course) (use : Use) :
    course.shutdown.tokens <+: (course.use use).shutdown.tokens := by
  cases use with
  | subscribe =>
      exact List.prefix_refl _
  | token =>
      exact List.prefix_append _ _
  | child parent =>
      simp only [Course.use, Shutdown.child]
      split <;> exact List.prefix_append _ _
  | cancel index =>
      obtain ⟨cancelled, same⟩ :=
        exists_cancelled_cancel course.shutdown index
      rw [Course.use, same]
  | trigger =>
      exact List.prefix_refl _
  | receive subscriber =>
      obtain ⟨seen, same⟩ := course.exists_seen_receive subscriber
      rw [same]

/-- A token that was handed out keeps its number. -/
private theorem Course.owns_use_iff
    {course : Course}
    {index number : Nat}
    (handedOut : index < course.shutdown.tokens.length)
    (use : Use) :
    (course.use use).shutdown.Owns index number ↔
      course.shutdown.Owns index number := by
  obtain ⟨later, tokens⟩ := course.isPrefix_tokens use
  rw [Owns, Owns, ← tokens, List.getElem?_append_left handedOut]

/-- Which numbers are cancelled by one use. -/
private theorem Course.mem_cancelled_use_iff
    {course : Course}
    {use : Use}
    {number : Nat} :
    number ∈ (course.use use).shutdown.cancelled ↔
      number ∈ course.shutdown.cancelled ∨
        use = .trigger ∧ number = 0 ∨
          ∃ index, use = .cancel index ∧
            course.shutdown.Owns index number := by
  cases use with
  | child parent =>
      simp only [Course.use, Shutdown.child]
      split <;> simp [handOut, Shutdown.token]
  | cancel index =>
      simp only [Course.use, cancel, Owns]
      split
      · next missing =>
          simp [missing]
      · next token isToken =>
          obtain ⟨_ | ⟨own, ancestors⟩⟩ := token
          · simp [cancelToken, isToken]
          · simp [cancelToken, isToken, or_comm, eq_comm]
  | trigger =>
      simp [Course.use, trigger, cancelToken, root, or_comm]
  | receive subscriber =>
      obtain ⟨seen, same⟩ := course.exists_seen_receive subscriber
      simp [same]
  | _ =>
      simp [Course.use, Shutdown.subscribe, Shutdown.token, handOut]

/--
The cancelled numbers are those of tokens that were cancelled, and that of the
root if there was a trigger.
-/
theorem mem_cancelled_iff {uses : List Use} {number : Nat} :
    number ∈ (Course.after uses).shutdown.cancelled ↔
      .trigger ∈ uses ∧ number = 0 ∨
        ∃ index, WasCancelled uses index ∧
          (Course.after uses).shutdown.Owns index number := by
  induction uses using List.reverseRecOn with
  | nil =>
      simp [Course.after, Course.start, Course.useAll, Shutdown.new,
        WasCancelled]
  | append_singleton uses use inductionHypothesis =>
      have grown := Grown.after uses
      have kept
          {index : Nat}
          (handedOut : index < (origins uses).length) :
          ((Course.after uses).use use).shutdown.Owns index number ↔
            (Course.after uses).shutdown.Owns index number :=
        Course.owns_use_iff (grown.length ▸ handedOut) use
      have handedOut
          {index : Nat}
          (owns : (Course.after uses).shutdown.Owns index number) :
          index < (origins uses).length := by
        obtain ⟨ancestors, isToken⟩ := owns
        exact grown.length ▸ (List.getElem?_eq_some_iff.mp isToken).1
      rw [Course.after_concat, Course.mem_cancelled_use_iff,
        inductionHypothesis]
      simp only [wasCancelled_concat_iff, List.mem_append,
        List.mem_singleton]
      constructor
      · rintro ((⟨triggered, zero⟩ | ⟨index, cancelled, owns⟩) |
          ⟨rfl, zero⟩ | ⟨index, rfl, owns⟩)
        · exact .inl ⟨.inl triggered, zero⟩
        · exact .inr ⟨index, .inl cancelled,
            (kept cancelled.handedOut).mpr owns⟩
        · exact .inl ⟨.inr rfl, zero⟩
        · exact .inr ⟨index, .inr ⟨rfl, handedOut owns⟩,
            (kept (handedOut owns)).mpr owns⟩
      · rintro (⟨triggered | rfl, zero⟩ |
          ⟨index, cancelled | ⟨rfl, inside⟩, owns⟩)
        · exact .inl (.inl ⟨triggered, zero⟩)
        · exact .inr (.inl ⟨rfl, zero⟩)
        · exact .inl (.inr ⟨index, cancelled,
            (kept cancelled.handedOut).mp owns⟩)
        · exact .inr (.inr ⟨index, rfl, (kept inside).mp owns⟩)

/--
The shutdown counts as triggered if it was, or if its root was cancelled.
-/
theorem isTriggered_iff {uses : List Use} :
    (Course.after uses).shutdown.isTriggered = true ↔
      .trigger ∈ uses ∨
        ∃ index, (origins uses)[index]? = some .root ∧
          WasCancelled uses index := by
  have grown := Grown.after uses
  have zero :
      (Course.after uses).shutdown.isTriggered = true ↔
        0 ∈ (Course.after uses).shutdown.cancelled := by
    simp [isTriggered, isCancelled, root]
  rw [zero, mem_cancelled_iff]
  constructor
  · rintro (⟨triggered, -⟩ | ⟨index, cancelled, owns⟩)
    · exact .inl triggered
    · exact .inr ⟨index, (grown.owns_eq_zero_iff owns).mp rfl, cancelled⟩
  · rintro (triggered | ⟨index, isRoot, cancelled⟩)
    · exact .inl ⟨triggered, rfl⟩
    · exact .inr ⟨index, cancelled, [], grown.roots isRoot⟩

/--
A token is cancelled if there was a trigger, or if it or one of its ancestors
was cancelled.
-/
theorem isCancelled_iff
    {uses : List Use}
    {index : Nat}
    (handedOut : index < (origins uses).length) :
    (Course.after uses).shutdown.isCancelled
          ((Course.after uses).shutdown.tokenAt index) = true ↔
      .trigger ∈ uses ∨
        ∃ ancestor, Descends (origins uses) index ancestor ∧
          WasCancelled uses ancestor := by
  have grown := Grown.after uses
  have inside : index < (Course.after uses).shutdown.tokens.length :=
    grown.length ▸ handedOut
  have isToken := List.getElem?_eq_getElem inside
  have carries :
      (Course.after uses).shutdown.isCancelled
            ((Course.after uses).shutdown.tokenAt index) = true ↔
        ∃ number ∈ (Course.after uses).shutdown.tokens[index].lineage,
          number ∈ (Course.after uses).shutdown.cancelled := by
    simp [tokenAt, isCancelled, List.getD, isToken]
  rw [carries]
  constructor
  · rintro ⟨number, carried, cancelled⟩
    rcases mem_cancelled_iff.mp cancelled with
      ⟨triggered, -⟩ | ⟨ancestor, cancelled, owns⟩
    · exact .inl triggered
    · exact .inr ⟨ancestor,
        (grown.carries_iff_descends isToken owns).mp carried, cancelled⟩
  · rintro (triggered | ⟨ancestor, descends, cancelled⟩)
    · exact ⟨0, grown.zero_carried isToken,
        mem_cancelled_iff.mpr (.inl ⟨triggered, rfl⟩)⟩
    · obtain ⟨number, owns⟩ := grown.exists_owns cancelled.handedOut
      exact ⟨number, (grown.carries_iff_descends isToken owns).mpr descends,
        mem_cancelled_iff.mpr (.inr ⟨ancestor, cancelled, owns⟩)⟩

end EventRelay.Shutdown
