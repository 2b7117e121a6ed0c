import EventRelay.Backend.Query
import EventRelay.Proofs.Backend.Rereading

namespace EventRelay.Backend

/-!
# Envelopes that are read again

The envelope that is written for data is read as this envelope, if the data
came in one and has no floating-point numbers.  The envelope that is written
for an error is read as this envelope, whatever data is expected.
-/

open Json (Number Tree Value)
open Text.Utf8 (bytesOf)

/-- What is read from the tree of a value is read from its text. -/
theorem read?_compact
    [Document α]
    {value : Value}
    {document : α}
    (isExact : value.EachNumber Number.IsExact)
    (reads : Document.ofTree? Tree.maxDepth (.ofValue value) =
      some document) :
    read? α (bytesOf value.compact) = some document := by
  rw [bytesOf, Value.compact, String.toList_ofList, read?,
    Tree.ofBytes?_print isExact, Option.bind_some]
  exact reads

namespace Envelope

variable [Document α] {depth : Nat}

/-- The members that are read are among those that were written. -/
private theorem mem_of_known?
    {members : Tree.Members}
    {known : List (String × Tree)}
    (knows : known? members = some known) :
    ∀ member ∈ known, (some member.1, member.2) ∈ members := by
  have among : ∀ {step : List (String × Tree) → Option String × Tree →
        Option (List (String × Tree))},
      (∀ {earlier member next}, step earlier member = some next →
        next = earlier ∨
          ∃ key, member.1 = some key ∧ next = (key, member.2) :: earlier) →
        ∀ {later : Tree.Members} {earlier known},
          (∀ member ∈ later, member ∈ members) →
            (∀ member ∈ earlier, (some member.1, member.2) ∈ members) →
              later.foldlM step earlier = some known →
                ∀ member ∈ known, (some member.1, member.2) ∈ members := by
    intro step isStep later
    induction later with
    | nil =>
        intro earlier known _ earlierAmong knows
        exact Option.some.inj knows ▸ earlierAmong
    | cons member later inductionHypothesis =>
        intro earlier known laterAmong earlierAmong knows
        obtain ⟨isMember, others⟩ := List.forall_mem_cons.mp laterAmong
        obtain ⟨between, knowsOne, knows⟩ :=
          Option.bind_eq_some_iff.mp knows
        refine inductionHypothesis others ?_ knows
        rcases isStep knowsOne with rfl | ⟨key, isKey, rfl⟩
        · exact earlierAmong
        · exact List.forall_mem_cons.mpr ⟨isKey ▸ isMember, earlierAmong⟩
  refine among ?_ (fun _ isMember => isMember) (List.forall_mem_nil _) knows
  intro earlier member next knowsOne
  obtain ⟨key, isKey, knowsOne⟩ := Option.bind_eq_some_iff.mp knowsOne
  split at knowsOne
  · exact .inl (Option.some.inj knowsOne).symm
  · split at knowsOne
    · contradiction
    · exact .inr ⟨key, isKey, (Option.some.inj knowsOne).symm⟩

/-- Data in an envelope was read from a tree within it. -/
theorem exists_of_data
    {holds : Number → Prop}
    {tree : Tree}
    {envelope : Envelope α}
    {data : α}
    (each : tree.EachNumber holds)
    (reads : ofTree? depth tree = some envelope)
    (isData : envelope.data = some data) :
    ∃ inner part,
      depth = inner + 1 ∧
        part.EachNumber holds ∧
          Document.ofTree? inner part = some data := by
  have within : ∀ {read : Tree → Option α} {success part error},
      ofParts? read success part error = some envelope →
        read part = some data := by
    intro read success part error reads
    simp only [ofParts?, Option.bind_eq_bind, Option.bind_eq_some_iff,
      Option.some.injEq] at reads
    obtain ⟨_, -, content, readsData, _, -, rfl⟩ := reads
    obtain rfl := isData
    unfold Tree.optional? at readsData
    split at readsData
    · cases Option.some.inj readsData
    · obtain ⟨document, readsData, same⟩ :=
        Option.map_eq_some_iff.mp readsData
      exact Option.some.inj same ▸ readsData
  unfold ofTree? at reads
  split at reads
  · next depth members =>
      obtain ⟨known, knows, reads⟩ := Option.bind_eq_some_iff.mp reads
      obtain ⟨success, -, reads⟩ := Option.bind_eq_some_iff.mp reads
      refine ⟨depth, _, rfl, ?_, within reads⟩
      cases each with
      | object eachMember =>
          cases found : known.lookup "data" with
          | none =>
              exact .null
          | some part =>
              obtain ⟨before, after, rfl, -⟩ :=
                List.lookup_eq_some_iff.mp found
              exact eachMember _
                (mem_of_known? knows ("data", part) (by simp))
  · next depth success part error =>
      refine ⟨depth, part, rfl, ?_, within reads⟩
      cases each with
      | list eachItem =>
          exact eachItem part (by simp)
  · contradiction

/-- The three members of an envelope are read where they are written. -/
theorem ofTree?_members (success data error : Tree) :
    ofTree? (depth + 1)
        (.object
          [(some "success", success), (some "data", data),
            (some "error", error)]) =
      (ofParts? (Document.ofTree? depth) success data error :
        Option (Envelope α)) := by
  have knows :
      known?
          [(some "success", success), (some "data", data),
            (some "error", error)] =
        some [("error", error), ("data", data), ("success", success)] :=
    rfl
  rw [ofTree?, knows]
  rfl

/-- An envelope is read again if its data are, and are not written as null. -/
theorem ofTree?_toValue
    {envelope : Envelope α}
    (present : ∀ data : α, Tree.ofValue (Document.toValue data) ≠ .null)
    (reads : ∀ data ∈ envelope.data,
      Document.ofTree? depth (.ofValue (Document.toValue data)) = some data) :
    ofTree? (depth + 1) (.ofValue (toValue envelope)) = some envelope := by
  obtain ⟨success, data, error⟩ := envelope
  have isData :
      (Tree.ofValue ((data.map Document.toValue).getD .null)).optional?
          (Document.ofTree? depth) = some data := by
    cases data with
    | none =>
        rfl
    | some data =>
        rw [Option.map_some, Option.getD_some]
        unfold Tree.optional?
        split
        · next isNull =>
            exact absurd isNull (present data)
        · rw [reads data rfl, Option.map_some]
  have isError :
      (Tree.ofValue (.ofOption error)).optional? Tree.string? =
        some error := by
    cases error <;> rfl
  refine (ofTree?_members (.boolean success) _ _).trans ?_
  rw [ofParts?, isData, isError]
  rfl

/-- An envelope of data that came in an envelope is read again. -/
theorem read?_ofData
    (rereads : ∀ depth,
      Rereads (Document.ofTree? depth : Tree → Option α) Document.toValue)
    (present : ∀ data : α, Tree.ofValue (Document.toValue data) ≠ .null)
    {bytes : List UInt8}
    {envelope : Envelope α}
    {data : α}
    (reads : read? (Envelope α) bytes = some envelope)
    (isData : envelope.data = some data)
    (whole : (Document.toValue data).EachNumber Number.IsWhole) :
    read? (Envelope α) (bytesOf (write (ofData data))) =
      some (ofData data) := by
  obtain ⟨tree, readsTree, reads⟩ := Option.bind_eq_some_iff.mp reads
  obtain ⟨inner, part, isInner, partInRange, readsPart⟩ :=
    exists_of_data (Tree.inRange_of_ofBytes? readsTree) reads isData
  obtain ⟨inRange, readsAgain⟩ := rereads inner partInRange readsPart
  have isExact : (toValue (ofData data)).EachNumber Number.IsExact := by
    refine .object ?_
    simp only [List.forall_mem_cons, ofData, Option.map_some, Option.getD_some]
    exact ⟨.boolean true, whole.isExact inRange, .null,
      List.forall_mem_nil _⟩
  refine read?_compact isExact ?_
  rw [isInner]
  refine ofTree?_toValue present ?_
  rintro _ ⟨⟩
  exact readsAgain

/-- An envelope of an error is read again, whatever data is expected. -/
theorem read?_failureText (error : String) :
    read? (Envelope α) (bytesOf (failureText error)) =
      some (ofError error) := by
  refine read?_compact (.object ?_) (ofTree?_members _ _ _)
  simp only [List.forall_mem_cons]
  exact ⟨.boolean false, .null, .text error, List.forall_mem_nil _⟩

end Envelope

end EventRelay.Backend
