import EventRelay.Json.Tree
import Mathlib.Data.String.Basic

namespace EventRelay.Json

/-!
# Members of objects

Members that are put in their places by key stay sorted, so that no key occurs
twice, and one key is changed at a time.  Two values without such keys are
alike if they differ in the order of members only.
-/

namespace Members

/-- The keys in order. -/
def keys (members : Members) : List String :=
  members.map Prod.fst

/-- A lookup finds the first member with the key. -/
theorem lookup_cons {key other : String} {value : Value} {members : Members} :
    ((key, value) :: members).lookup other =
      if other = key then some value else members.lookup other := by
  by_cases same : other = key
  · rw [same, List.lookup_cons_self, if_pos rfl]
  · rw [List.lookup_cons, beq_false_of_ne same, if_neg same]

/-- One member is put in, and all others stay. -/
theorem lookup_insert (key other : String) (value : Value) (members : Members) :
    (insert key value members).lookup other =
      if other = key then some value else members.lookup other := by
  induction members with
  | nil =>
      exact lookup_cons
  | cons member rest inductionHypothesis =>
      obtain ⟨first, held⟩ := member
      unfold insert
      split
      · next same =>
          subst same
          simp only [lookup_cons]
          split <;> rfl
      · next different =>
          split
          · exact lookup_cons
          · rw [lookup_cons, inductionHypothesis, lookup_cons]
            -- The first member is another one.
            by_cases isFirst : other = first
            · subst isFirst
              simp [Ne.symm different]
            · simp [isFirst]

/-- Inserting adds no member but its own. -/
theorem mem_insert
    {key : String}
    {value : Value}
    {members : Members}
    {member : String × Value}
    (isMember : member ∈ insert key value members) :
    member = (key, value) ∨ member ∈ members := by
  induction members with
  | nil =>
      exact .inl (List.mem_singleton.mp isMember)
  | cons first rest inductionHypothesis =>
      unfold insert at isMember
      split at isMember
      · exact (List.mem_cons.mp isMember).imp_right
          (List.mem_cons_of_mem first)
      · split at isMember
        · exact List.mem_cons.mp isMember
        · rcases List.mem_cons.mp isMember with isFirst | later
          · exact .inr (isFirst ▸ List.mem_cons_self)
          · exact (inductionHypothesis later).imp_right
              (List.mem_cons_of_mem first)

/-- Members that are sorted by key, with no key twice. -/
def Ascending (members : Members) : Prop :=
  members.Pairwise fun earlier later => earlier.1 < later.1

/-- Inserting keeps members sorted. -/
theorem Ascending.insert
    {members : Members}
    (ascending : Ascending members)
    (key : String)
    (value : Value) :
    Ascending (insert key value members) := by
  induction members with
  | nil =>
      exact List.pairwise_singleton _ _
  | cons first rest inductionHypothesis =>
      obtain ⟨isFirst, ascendingRest⟩ := List.pairwise_cons.mp ascending
      unfold Members.insert
      split
      · next same =>
          exact List.pairwise_cons.mpr ⟨same ▸ isFirst, ascendingRest⟩
      · next different =>
          split
          · next before =>
              refine List.pairwise_cons.mpr ⟨?_, ascending⟩
              intro member isMember
              rcases List.mem_cons.mp isMember with rfl | later
              · exact before
              · exact String.lt_trans before (isFirst member later)
          · next notBefore =>
              have after : first.1 < key :=
                lt_of_le_of_ne (String.not_lt.mp notBefore) (Ne.symm different)
              refine List.pairwise_cons.mpr
                ⟨?_, inductionHypothesis ascendingRest⟩
              intro member isMember
              rcases mem_insert isMember with rfl | later
              · exact after
              · exact isFirst member later

/-- Sorted members have different keys. -/
theorem Ascending.nodup_keys
    {members : Members}
    (ascending : Ascending members) :
    members.keys.Nodup :=
  List.pairwise_map.mpr (ascending.imp fun before => ne_of_lt before)

/-- A key that is found is among the keys. -/
private theorem mem_keys_of_lookup
    {members : Members}
    {key : String}
    {value : Value}
    (found : members.lookup key = some value) :
    key ∈ members.keys := by
  obtain ⟨before, after, rfl, -⟩ := List.lookup_eq_some_iff.mp found
  simp [keys]

theorem lookup_eq_none
    {members : Members}
    {key : String}
    (absent : key ∉ members.keys) :
    members.lookup key = none :=
  Option.eq_none_iff_forall_ne_some.mpr fun _ found =>
    absent (mem_keys_of_lookup found)

/-- If no key occurs twice, every member is found. -/
theorem lookup_of_mem
    {members : Members}
    (nodup : members.keys.Nodup)
    {member : String × Value}
    (isMember : member ∈ members) :
    members.lookup member.1 = some member.2 := by
  induction members with
  | nil =>
      cases isMember
  | cons first rest inductionHypothesis =>
      obtain ⟨new, nodupRest⟩ := List.nodup_cons.mp nodup
      rw [lookup_cons]
      rcases List.mem_cons.mp isMember with rfl | later
      · exact if_pos rfl
      · have different : member.1 ≠ first.1 :=
          fun same => new (same ▸ List.mem_map_of_mem later)
        rw [if_neg different]
        exact inductionHypothesis nodupRest later

/-- Changes the values of members, and drops members. -/
def settle (settled : String → Value → Option Value) : Members → Members
  | [] =>
      []
  | (key, value) :: rest =>
      match settled key value with
      | none =>
          settle settled rest
      | some changed =>
          (key, changed) :: settle settled rest

/-- Settling members settles what is found under each key. -/
theorem lookup_settle
    {members : Members}
    (nodup : members.keys.Nodup)
    (settled : String → Value → Option Value)
    (key : String) :
    (members.settle settled).lookup key =
      (members.lookup key).bind (settled key) := by
  induction members with
  | nil =>
      rfl
  | cons first rest inductionHypothesis =>
      obtain ⟨name, value⟩ := first
      obtain ⟨new, nodupRest⟩ := List.nodup_cons.mp nodup
      have later := inductionHypothesis nodupRest
      rw [lookup_cons, settle]
      by_cases same : key = name
      · subst same
        -- A dropped member leaves no other one with its key behind.
        have absent : rest.lookup key = none := lookup_eq_none new
        rw [absent] at later
        rw [if_pos rfl, Option.bind_some]
        cases settled key value with
        | none =>
            exact later
        | some changed =>
            exact List.lookup_cons_self
      · rw [if_neg same, ← later]
        cases settled name value with
        | none =>
            rfl
        | some changed =>
            exact lookup_cons.trans (if_neg same)

end Members

namespace Value

/-- No key occurs twice in any object. -/
inductive UniqueKeys : Value → Prop where
  | null : UniqueKeys .null
  | boolean (value : Bool) : UniqueKeys (.boolean value)
  | number (value : Number) : UniqueKeys (.number value)
  | text (value : String) : UniqueKeys (.text value)
  | list {items : List Value} :
      (∀ item ∈ items, UniqueKeys item) → UniqueKeys (.list items)
  | object {members : Members} :
      members.keys.Nodup →
        (∀ member ∈ members, UniqueKeys member.2) →
          UniqueKeys (.object members)

/-- Members that were put in their places have no key twice. -/
theorem uniqueKeys_ofList
    {members : List (String × Value)}
    (unique : ∀ member ∈ members, member.2.UniqueKeys) :
    (object (Members.ofList members)).UniqueKeys := by
  let Sorted (sorted : Members) : Prop :=
    sorted.Ascending ∧ ∀ member ∈ sorted, member.2.UniqueKeys
  have sorted : Sorted (Members.ofList members) := by
    have start : Sorted [] := ⟨List.Pairwise.nil, nofun⟩
    refine List.foldlRecOn (motive := Sorted) members _ start ?_
    rintro sorted ⟨ascending, uniqueSorted⟩ ⟨key, value⟩ isMember
    refine ⟨ascending.insert key value, fun member isInserted => ?_⟩
    rcases Members.mem_insert isInserted with rfl | earlier
    · exact unique _ isMember
    · exact uniqueSorted member earlier
  exact .object sorted.1.nodup_keys sorted.2

/-- Two values are the same but for the order of members. -/
inductive Alike : Value → Value → Prop where
  | same (value : Value) : Alike value value
  | list {items others : List Value} :
      List.Forall₂ Alike items others → Alike (.list items) (.list others)
  | object {members others : Members} :
      (∀ key, Option.Rel Alike (members.lookup key) (others.lookup key)) →
        Alike (.object members) (.object others)

/-- Changes and drops the members of an object. -/
def settle (settled : String → Value → Option Value) : Value → Value
  | .object members =>
      .object (Members.settle settled members)
  | other =>
      other

/-- Changes the value of one member. -/
def atMember (key : String) (change : Value → Value) (name : String)
    (value : Value) : Option Value :=
  some (if name = key then change value else value)

/-- A change at a named member leaves the unnamed ones as they are. -/
theorem atMember_of_not_mem
    {key name : String}
    {names : List String}
    {change : Value → Value}
    (named : key ∈ names)
    (unnamed : name ∉ names)
    (value : Value) :
    atMember key change name value = some value := by
  have different : name ≠ key :=
    fun same => unnamed (same ▸ named)
  rw [atMember, if_neg different]

/-- Changes the items of a list. -/
def mapItems (change : Value → Value) : Value → Value
  | .list items =>
      .list (items.map change)
  | other =>
      other

end Value

namespace Tree

mutual

/-- What is read has no repeated keys. -/
theorem uniqueKeys_of_toValue?
    {depth : Nat}
    {tree : Tree}
    {value : Value}
    (reads : tree.toValue? depth = some value) :
    value.UniqueKeys := by
  match tree, depth with
  | .null, _ =>
      obtain rfl := Option.some.inj reads
      exact .null
  | .boolean content, _ =>
      obtain rfl := Option.some.inj reads
      exact .boolean content
  | .number content, _ =>
      obtain ⟨number, -, rfl⟩ := Option.map_eq_some_iff.mp reads
      exact .number number
  | .text content, _ =>
      obtain ⟨text, -, rfl⟩ := Option.map_eq_some_iff.mp reads
      exact .text text
  | .list items, depth + 1 =>
      obtain ⟨values, readItems, rfl⟩ := Option.map_eq_some_iff.mp reads
      exact .list (uniqueKeys_of_itemValues? readItems)
  | .object members, depth + 1 =>
      obtain ⟨values, readMembers, rfl⟩ := Option.map_eq_some_iff.mp reads
      exact Value.uniqueKeys_ofList (uniqueKeys_of_memberValues? readMembers)

/-- Every item that is read has different keys at every depth. -/
theorem uniqueKeys_of_itemValues?
    {depth : Nat}
    {items : List Tree}
    {values : List Value}
    (reads : itemValues? depth items = some values) :
    ∀ value ∈ values, value.UniqueKeys := by
  match items with
  | [] =>
      obtain rfl := Option.some.inj reads
      exact nofun
  | item :: items =>
      simp only [itemValues?, Option.bind_eq_bind, Option.bind_eq_some_iff,
        Option.some.injEq] at reads
      obtain ⟨value, readItem, values, readItems, rfl⟩ := reads
      exact List.forall_mem_cons.mpr
        ⟨uniqueKeys_of_toValue? readItem,
          uniqueKeys_of_itemValues? readItems⟩

/-- Every member that is read has different keys at every depth. -/
theorem uniqueKeys_of_memberValues?
    {depth : Nat}
    {members : Tree.Members}
    {values : List (String × Value)}
    (reads : memberValues? depth members = some values) :
    ∀ member ∈ values, member.2.UniqueKeys := by
  match members with
  | [] =>
      obtain rfl := Option.some.inj reads
      exact nofun
  | (key, tree) :: members =>
      simp only [memberValues?, Option.bind_eq_bind, Option.bind_eq_some_iff,
        Option.some.injEq] at reads
      obtain ⟨key, -, value, readTree, values, readMembers, rfl⟩ := reads
      exact List.forall_mem_cons.mpr
        ⟨uniqueKeys_of_toValue? readTree,
          uniqueKeys_of_memberValues? readMembers⟩

end

end Tree

end EventRelay.Json
