import EventRelay.Backend.Document
import EventRelay.Proofs.Json.Members

namespace EventRelay.Backend

/-!
# Members with and without a type

The members of an object are divided while they are read, one at a time.  At
every moment the members read so far are those with a type, each once, and the
others, of which the last with a key counts: nothing is lost and nothing is in
both parts.
-/

open Json (Tree Value)

namespace Parts

variable {names : List String} {depth : Nat} {parts next : Parts}

/-- How a member with a name or without one is added. -/
theorem add?_cases
    {member : Option String × Tree}
    (adds : add? names depth parts member = some next) :
    ∃ key,
      member.1 = some key ∧
        (key ∈ names ∧ parts.typed.lookup key = none ∧
            next = { parts with typed := (key, member.2) :: parts.typed } ∨
          key ∉ names ∧
            ∃ value,
              member.2.toValue? depth = some value ∧
                next =
                  { parts with
                    rest := Json.Members.insert key value parts.rest }) := by
  obtain ⟨key, isKey, adds⟩ := Option.bind_eq_some_iff.mp adds
  refine ⟨key, isKey, ?_⟩
  split at adds
  · next named =>
      split at adds
      · contradiction
      · next new =>
          exact .inl
            ⟨List.contains_iff_mem.mp named,
              Option.not_isSome_iff_eq_none.mp new,
              (Option.some.inj adds).symm⟩
  · next unnamed =>
      obtain ⟨value, reads, adds⟩ := Option.bind_eq_some_iff.mp adds
      exact .inr
        ⟨mt List.contains_iff_mem.mpr unnamed, value, reads,
          (Option.some.inj adds).symm⟩

/-- A typed member stays as it was read first. -/
theorem lookup_typed_of_foldlM
    {members : Tree.Members}
    (adds : members.foldlM (add? names depth) parts = some next)
    {key : String}
    {tree : Tree}
    (found : parts.typed.lookup key = some tree) :
    next.typed.lookup key = some tree := by
  induction members generalizing parts with
  | nil =>
      obtain rfl := Option.some.inj adds
      exact found
  | cons member members inductionHypothesis =>
      obtain ⟨between, added, adds⟩ := Option.bind_eq_some_iff.mp adds
      refine inductionHypothesis adds ?_
      obtain ⟨other, -, ⟨-, new, rfl⟩ | ⟨-, value, -, rfl⟩⟩ :=
        add?_cases added
      · have different : key ≠ other := by
          rintro rfl
          rw [new] at found
          contradiction
        rw [List.lookup_cons, beq_false_of_ne different]
        exact found
      · exact found

/--
Members have been divided into parts: what is found in them is found in one
part, as it was read.
-/
structure Divide
    (names : List String)
    (depth : Nat)
    (parts : Parts)
    (members : Json.Members) : Prop where
  typed :
    ∀ name ∈ names,
      members.lookup name =
        (parts.typed.lookup name).bind (Tree.toValue? depth)
  rest : ∀ name ∉ names, members.lookup name = parts.rest.lookup name
  apart : ∀ member ∈ parts.rest, member.1 ∉ names
  ascending : members.Ascending
  restAscending : parts.rest.Ascending
  unique : ∀ member ∈ parts.rest, member.2.UniqueKeys

namespace Divide

variable {members : Json.Members}

private theorem nothing : Divide names depth ⟨[], []⟩ [] where
  typed _ _ :=
    rfl
  rest _ _ :=
    rfl
  apart :=
    nofun
  ascending :=
    List.Pairwise.nil
  restAscending :=
    List.Pairwise.nil
  unique :=
    nofun

private theorem addTyped
    (divide : Divide names depth parts members)
    {key : String}
    {tree : Tree}
    {value : Value}
    (named : key ∈ names)
    (reads : tree.toValue? depth = some value) :
    Divide names depth { parts with typed := (key, tree) :: parts.typed }
      (Json.Members.insert key value members) where
  typed name isNamed := by
    rw [Json.Members.lookup_insert]
    by_cases same : name = key
    · rw [if_pos same, same, List.lookup_cons_self, Option.bind_some, reads]
    · rw [if_neg same, List.lookup_cons, beq_false_of_ne same]
      exact divide.typed name isNamed
  rest name unnamed := by
    have different : name ≠ key :=
      fun same => unnamed (same ▸ named)
    rw [Json.Members.lookup_insert, if_neg different]
    exact divide.rest name unnamed
  apart :=
    divide.apart
  ascending :=
    divide.ascending.insert key value
  restAscending :=
    divide.restAscending
  unique :=
    divide.unique

private theorem addRest
    (divide : Divide names depth parts members)
    {key : String}
    {tree : Tree}
    {value : Value}
    (unnamed : key ∉ names)
    (reads : tree.toValue? depth = some value) :
    Divide names depth
      { parts with rest := Json.Members.insert key value parts.rest }
      (Json.Members.insert key value members) where
  typed name isNamed := by
    have different : name ≠ key :=
      fun same => unnamed (same ▸ isNamed)
    rw [Json.Members.lookup_insert, if_neg different]
    exact divide.typed name isNamed
  rest name isUnnamed := by
    rw [Json.Members.lookup_insert, Json.Members.lookup_insert,
      divide.rest name isUnnamed]
  apart member isMember := by
    rcases Json.Members.mem_insert isMember with rfl | earlier
    · exact unnamed
    · exact divide.apart member earlier
  ascending :=
    divide.ascending.insert key value
  restAscending :=
    divide.restAscending.insert key value
  unique member isMember := by
    rcases Json.Members.mem_insert isMember with rfl | earlier
    · exact Tree.uniqueKeys_of_toValue? reads
    · exact divide.unique member earlier

end Divide

/-- All typed members are values. -/
def Readable (names : List String) (depth : Nat) (parts : Parts) : Prop :=
  ∀ name ∈ names, ∀ tree,
    parts.typed.lookup name = some tree →
      ∃ value, tree.toValue? depth = some value

/-- Reading all members as values keeps step with dividing them. -/
theorem Divide.foldlM
    {written : Tree.Members}
    {members : Json.Members}
    (divide : Divide names depth parts members)
    (adds : written.foldlM (add? names depth) parts = some next)
    (readable : Readable names depth next) :
    ∃ values,
      Tree.memberValues? depth written = some values ∧
        Divide names depth next
          (values.foldl
            (fun sorted (key, value) => Json.Members.insert key value sorted)
            members) := by
  induction written generalizing parts members with
  | nil =>
      obtain rfl := Option.some.inj adds
      exact ⟨[], rfl, divide⟩
  | cons member written inductionHypothesis =>
      obtain ⟨name, tree⟩ := member
      obtain ⟨between, added, addsRest⟩ := Option.bind_eq_some_iff.mp adds
      obtain ⟨key, rfl, added⟩ := add?_cases added
      -- Both kinds of members are values, and keep the parts divided.
      obtain ⟨value, reads, divided⟩ :
          ∃ value,
            tree.toValue? depth = some value ∧
              Divide names depth between
                (Json.Members.insert key value members) := by
        rcases added with ⟨named, -, rfl⟩ | ⟨unnamed, value, reads, rfl⟩
        · obtain ⟨value, reads⟩ := readable key named tree
            (lookup_typed_of_foldlM addsRest List.lookup_cons_self)
          exact ⟨value, reads, divide.addTyped named reads⟩
        · exact ⟨value, reads, divide.addRest unnamed reads⟩
      obtain ⟨values, readRest, dividedAll⟩ :=
        inductionHypothesis divided addsRest
      refine ⟨(key, value) :: values, ?_, dividedAll⟩
      simp [Tree.memberValues?, reads, readRest]

/-- A divided object is a value, of which nothing is lost. -/
theorem divide_of_ofTree?
    {tree : Tree}
    (divides : ofTree? names depth tree = some parts)
    (readable : Readable names depth parts) :
    ∃ members,
      tree.toValue? (depth + 1) = some (.object members) ∧
        Divide names depth parts members := by
  cases tree with
  | object written =>
      obtain ⟨values, reads, divide⟩ := Divide.nothing.foldlM divides readable
      refine ⟨Json.Members.ofList values, ?_, divide⟩
      rw [Tree.toValue?, reads]
      rfl
  | _ =>
      contradiction

variable {members typed : Json.Members}

/--
Members that are written with the others are alike to those that were read, if
the typed ones are.
-/
theorem Divide.alike
    (divide : Divide names depth parts members)
    {settled : String → Value → Option Value}
    (others : ∀ name ∉ names, ∀ value, settled name value = some value)
    (named : ∀ name ∈ typed.keys, name ∈ names)
    (kept : ∀ name ∈ names,
      Option.Rel Value.Alike (typed.lookup name)
        ((members.lookup name).bind (settled name))) :
    (Value.object (typed ++ parts.rest)).Alike
      (.object (members.settle settled)) := by
  refine .object fun name => ?_
  rw [List.lookup_append,
    Json.Members.lookup_settle divide.ascending.nodup_keys]
  by_cases isNamed : name ∈ names
  · have absent : parts.rest.lookup name = none := by
      refine Json.Members.lookup_eq_none fun isKey => ?_
      obtain ⟨member, isMember, rfl⟩ := List.mem_map.mp isKey
      exact divide.apart member isMember isNamed
    rw [absent, Option.or_none]
    exact kept name isNamed
  · have absent : typed.lookup name = none :=
      Json.Members.lookup_eq_none (mt (named name) isNamed)
    rw [absent, Option.none_or, divide.rest name isNamed]
    cases parts.rest.lookup name with
    | none =>
        exact .none
    | some value =>
        rw [Option.bind_some, others name isNamed value]
        exact .some (.same value)

theorem Divide.uniqueKeys
    (divide : Divide names depth parts members)
    (named : ∀ name ∈ typed.keys, name ∈ names)
    (nodup : typed.keys.Nodup)
    (unique : ∀ member ∈ typed, member.2.UniqueKeys) :
    (Value.object (typed ++ parts.rest)).UniqueKeys := by
  refine .object ?_ (List.forall_mem_append.mpr ⟨unique, divide.unique⟩)
  rw [Json.Members.keys, List.map_append]
  refine List.nodup_append.mpr
    ⟨nodup, divide.restAscending.nodup_keys, ?_⟩
  intro name inTyped other inRest
  obtain ⟨member, isMember, rfl⟩ := List.mem_map.mp inRest
  rintro rfl
  exact divide.apart member isMember (named member.1 inTyped)

end Parts

end EventRelay.Backend
