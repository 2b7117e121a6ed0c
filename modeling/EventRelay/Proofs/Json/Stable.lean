import EventRelay.Proofs.Json.Members
import EventRelay.Proofs.Json.Ranges
import EventRelay.Proofs.Json.Rereading

namespace EventRelay.Json

/-!
# Stable values

A value that was read within a depth is read from its own tree within that
depth again, and its whole numbers have 64 bits.
-/

namespace Members

/-- A key after all others is inserted at the end. -/
theorem insert_after
    {members : Members}
    {key : String}
    (after : ∀ member ∈ members, member.1 < key)
    (value : Value) :
    insert key value members = members ++ [(key, value)] := by
  induction members with
  | nil =>
      rfl
  | cons first rest inductionHypothesis =>
      obtain ⟨isAfter, others⟩ := List.forall_mem_cons.mp after
      rw [insert, if_neg (ne_of_gt isAfter), if_neg (lt_asymm isAfter),
        inductionHypothesis others, List.cons_append]

/-- Sorted members stay as they are. -/
theorem Ascending.ofList
    {members : Members}
    (ascending : Ascending members) :
    ofList members = members := by
  have inserts : ∀ {step : Members → String × Value → Members},
      (∀ sorted member,
        step sorted member = Members.insert member.1 member.2 sorted) →
        ∀ later earlier : Members, Ascending (earlier ++ later) →
          later.foldl step earlier = earlier ++ later := by
    intro step isStep later
    induction later with
    | nil =>
        exact fun earlier _ => (List.append_nil earlier).symm
    | cons member later inductionHypothesis =>
        obtain ⟨key, value⟩ := member
        intro earlier ascending
        have isAfter : ∀ other ∈ earlier, other.1 < key :=
          fun other isEarlier =>
            (List.pairwise_append.mp ascending).2.2 other isEarlier
              (key, value) List.mem_cons_self
        rw [List.append_cons] at ascending ⊢
        rw [List.foldl_cons, isStep, insert_after isAfter]
        exact inductionHypothesis _ ascending
  exact inserts (fun _ _ => rfl) members [] ascending

/-- Members taken from a list are sorted. -/
private theorem ascending_ofList (members : List (String × Value)) :
    Ascending (ofList members) :=
  List.foldlRecOn members _ List.Pairwise.nil
    fun _ ascending member _ => ascending.insert member.1 member.2

/-- Every member was in the list. -/
theorem mem_ofList
    {members : List (String × Value)}
    {member : String × Value}
    (isMember : member ∈ ofList members) :
    member ∈ members := by
  let Among (sorted : Members) : Prop :=
    ∀ member ∈ sorted, member ∈ members
  have among : Among (ofList members) := by
    refine List.foldlRecOn (motive := Among) members _ nofun ?_
    intro sorted among inserted isInserted other isOther
    rcases mem_insert isOther with rfl | earlier
    · exact isInserted
    · exact among other earlier
  exact among member isMember

end Members

/-- Whether a value is read from its own tree within a depth. -/
structure Value.Stable (depth : Nat) (value : Value) : Prop where
  inRange : value.EachNumber Number.InRange
  rereads : (Tree.ofValue value).toValue? depth = some value

namespace Value.Stable

variable {depth : Nat}

/-- Stable items are read as themselves. -/
private theorem itemValues?
    {items : List Value}
    (stable : ∀ item ∈ items, item.Stable depth) :
    Tree.itemValues? depth (Tree.ofItems items) = some items := by
  induction items with
  | nil =>
      rfl
  | cons item items inductionHypothesis =>
      obtain ⟨isStable, others⟩ := List.forall_mem_cons.mp stable
      rw [Tree.ofItems, Tree.itemValues?, isStable.rereads,
        inductionHypothesis others]
      rfl

/-- Stable members are read as themselves. -/
private theorem memberValues?
    {members : Members}
    (stable : ∀ member ∈ members, member.2.Stable depth) :
    Tree.memberValues? depth (Tree.ofMembers members) = some members := by
  induction members with
  | nil =>
      rfl
  | cons member members inductionHypothesis =>
      obtain ⟨isStable, others⟩ := List.forall_mem_cons.mp stable
      rw [Tree.ofMembers, Tree.memberValues?, isStable.rereads,
        inductionHypothesis others]
      rfl

/-- A list of stable items is stable at one depth more. -/
private theorem list
    {items : List Value}
    (stable : ∀ item ∈ items, item.Stable depth) :
    (Value.list items).Stable (depth + 1) where
  inRange :=
    .list fun item isItem => (stable item isItem).inRange
  rereads :=
    congrArg (Option.map Value.list) (itemValues? stable)

/-- A sorted object of stable members is stable at one depth more. -/
private theorem object
    {members : Members}
    (ascending : members.Ascending)
    (stable : ∀ member ∈ members, member.2.Stable depth) :
    (Value.object members).Stable (depth + 1) where
  inRange :=
    .object fun member isMember => (stable member isMember).inRange
  rereads := by
    rw [Tree.ofValue, Tree.toValue?, memberValues? stable, Option.map_some,
      ascending.ofList]

end Value.Stable

namespace Tree

open Value (Stable)

mutual

/-- What is read is stable. -/
theorem stable_of_toValue?
    {depth : Nat}
    {tree : Tree}
    {value : Value}
    (inRange : tree.EachNumber Number.InRange)
    (reads : tree.toValue? depth = some value) :
    value.Stable depth := by
  match tree, depth with
  | .null, _ =>
      obtain rfl := Option.some.inj reads
      exact ⟨.null, rfl⟩
  | .boolean content, _ =>
      obtain rfl := Option.some.inj reads
      exact ⟨.boolean content, rfl⟩
  | .number content, _ =>
      obtain ⟨number, rfl, rfl⟩ := Option.map_eq_some_iff.mp reads
      cases inRange with
      | number eachNumber =>
          exact ⟨.number (eachNumber number rfl), rfl⟩
  | .text content, _ =>
      obtain ⟨text, -, rfl⟩ := Option.map_eq_some_iff.mp reads
      exact ⟨.text text, rfl⟩
  | .list items, depth + 1 =>
      obtain ⟨values, readItems, rfl⟩ := Option.map_eq_some_iff.mp reads
      cases inRange with
      | list eachItem =>
          exact .list (stable_of_itemValues? eachItem readItems)
  | .object members, depth + 1 =>
      obtain ⟨values, readMembers, rfl⟩ := Option.map_eq_some_iff.mp reads
      cases inRange with
      | object eachMember =>
          have stable := stable_of_memberValues? eachMember readMembers
          exact .object (Members.ascending_ofList values)
            fun member isMember => stable member (Members.mem_ofList isMember)

/-- Every item that is read is stable. -/
theorem stable_of_itemValues?
    {depth : Nat}
    {items : List Tree}
    {values : List Value}
    (inRange : ∀ item ∈ items, item.EachNumber Number.InRange)
    (reads : itemValues? depth items = some values) :
    ∀ value ∈ values, value.Stable depth := by
  match items with
  | [] =>
      obtain rfl := Option.some.inj reads
      exact nofun
  | item :: items =>
      simp only [itemValues?, Option.bind_eq_bind, Option.bind_eq_some_iff,
        Option.some.injEq] at reads
      obtain ⟨value, readItem, values, readItems, rfl⟩ := reads
      obtain ⟨isInRange, others⟩ := List.forall_mem_cons.mp inRange
      exact List.forall_mem_cons.mpr
        ⟨stable_of_toValue? isInRange readItem,
          stable_of_itemValues? others readItems⟩

/-- Every member that is read is stable. -/
theorem stable_of_memberValues?
    {depth : Nat}
    {members : Tree.Members}
    {values : List (String × Value)}
    (inRange : ∀ member ∈ members, member.2.EachNumber Number.InRange)
    (reads : memberValues? depth members = some values) :
    ∀ member ∈ values, member.2.Stable depth := by
  match members with
  | [] =>
      obtain rfl := Option.some.inj reads
      exact nofun
  | (key, tree) :: members =>
      simp only [memberValues?, Option.bind_eq_bind, Option.bind_eq_some_iff,
        Option.some.injEq] at reads
      obtain ⟨key, -, value, readTree, values, readMembers, rfl⟩ := reads
      obtain ⟨isInRange, others⟩ := List.forall_mem_cons.mp inRange
      exact List.forall_mem_cons.mpr
        ⟨stable_of_toValue? isInRange readTree,
          stable_of_memberValues? others readMembers⟩

end

end Tree

end EventRelay.Json
