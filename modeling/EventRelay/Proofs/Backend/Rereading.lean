import EventRelay.Backend.Envelope
import EventRelay.Proofs.Backend.PassingThrough
import EventRelay.Proofs.Json.Stable

namespace EventRelay.Backend

/-!
# Documents that are read again

What is written for a document that was read is read as this document: the
typed members are found again, and the others, sorted and stable, stay.
-/

open Json (Number Tree Value)
open Text.Utf8 (encode bytesOf)

/--
A document that was read is read again from the tree of the value that is
written for it.
-/
def Rereads (read : Tree → Option α) (write : α → Value) : Prop :=
  ∀ {tree document},
    tree.EachNumber Number.InRange →
      read tree = some document →
        (write document).EachNumber Number.InRange ∧
          read (.ofValue (write document)) = some document

/-- A text is read again. -/
private theorem rereads_string : Rereads Tree.string? Value.text := by
  intro tree text inRange reads
  exact ⟨.text text, rfl⟩

/-- A whole number is read again. -/
private theorem rereads_integer : Rereads Tree.integer? Value.ofInt := by
  intro tree value inRange reads
  unfold Tree.integer? at reads
  split at reads
  · next number =>
      split at reads
      · next small =>
          obtain rfl := Option.some.inj reads
          cases inRange with
          | number eachNumber =>
              exact ⟨.number (eachNumber _ rfl), if_pos small⟩
      · contradiction
  · contradiction

/-- A status is read again. -/
theorem rereads_status (depth : Nat) :
    Rereads (DeploymentStatus.ofTree? depth)
      (fun status => .text status.name) := by
  intro tree status inRange reads
  refine ⟨.text _, ?_⟩
  cases status <;> cases depth <;> rfl

/-- A list is read again when its items are. -/
theorem rereads_items
    {read : Nat → Tree → Option α}
    {write : α → Value}
    (rereads : ∀ depth, Rereads (read depth) write)
    (depth : Nat) :
    Rereads (itemsOfTree? read depth)
      (fun items => .list (items.map write)) := by
  have each : ∀ {depth : Nat} {items : List Tree} {documents : List α},
      (∀ item ∈ items, item.EachNumber Number.InRange) →
        items.mapM (read depth) = some documents →
          (∀ item ∈ documents.map write, item.EachNumber Number.InRange) ∧
            (Tree.ofItems (documents.map write)).mapM (read depth) =
              some documents := by
    intro depth items
    induction items with
    | nil =>
        intro documents _ reads
        obtain rfl := Option.some.inj reads
        exact ⟨nofun, rfl⟩
    | cons item items inductionHypothesis =>
        intro documents inRange reads
        obtain ⟨isInRange, others⟩ := List.forall_mem_cons.mp inRange
        rw [List.mapM_cons] at reads
        obtain ⟨first, readFirst, reads⟩ := Option.bind_eq_some_iff.mp reads
        obtain ⟨rest, readRest, reads⟩ := Option.bind_eq_some_iff.mp reads
        obtain rfl := Option.some.inj reads
        obtain ⟨firstInRange, firstAgain⟩ :=
          rereads depth isInRange readFirst
        obtain ⟨restInRange, restAgain⟩ := inductionHypothesis others readRest
        refine ⟨List.forall_mem_cons.mpr ⟨firstInRange, restInRange⟩, ?_⟩
        rw [List.map_cons, Tree.ofItems, List.mapM_cons, firstAgain,
          restAgain]
        rfl
  intro tree documents inRange reads
  unfold itemsOfTree? at reads
  split at reads
  · next depth items =>
      cases inRange with
      | list eachItem =>
          obtain ⟨areInRange, again⟩ := each eachItem reads
          exact ⟨.list areInRange, again⟩
  · contradiction

namespace Parts

variable {names : List String} {depth : Nat} {parts next : Parts}

/--
What holds of parts while they are read: whole numbers have 64 bits, and the
members without a type are sorted and stable.
-/
structure Settled (names : List String) (depth : Nat) (parts : Parts) :
    Prop where
  typed :
    ∀ name tree,
      parts.typed.lookup name = some tree →
        tree.EachNumber Number.InRange
  apart : ∀ member ∈ parts.rest, member.1 ∉ names
  ascending : parts.rest.Ascending
  stable : ∀ member ∈ parts.rest, member.2.Stable depth

private theorem Settled.nothing : Settled names depth ⟨[], []⟩ where
  typed _ _ found :=
    nomatch found
  apart :=
    nofun
  ascending :=
    List.Pairwise.nil
  stable :=
    nofun

/-- Reading one more member keeps what holds of the parts. -/
private theorem Settled.add
    (settled : Settled names depth parts)
    {member : Option String × Tree}
    (inRange : member.2.EachNumber Number.InRange)
    (adds : add? names depth parts member = some next) :
    Settled names depth next := by
  obtain ⟨key, -, ⟨named, -, rfl⟩ | ⟨unnamed, value, reads, rfl⟩⟩ :=
    add?_cases adds
  · refine { settled with typed := fun name tree found => ?_ }
    by_cases same : name = key
    · subst same
      rw [List.lookup_cons_self] at found
      exact Option.some.inj found ▸ inRange
    · rw [List.lookup_cons, beq_false_of_ne same] at found
      exact settled.typed name tree found
  · refine ⟨settled.typed, fun member isMember => ?_,
      settled.ascending.insert key value, fun member isMember => ?_⟩
    · rcases Json.Members.mem_insert isMember with rfl | earlier
      · exact unnamed
      · exact settled.apart member earlier
    · rcases Json.Members.mem_insert isMember with rfl | earlier
      · exact Tree.stable_of_toValue? inRange reads
      · exact settled.stable member earlier

/-- Parts that are read are settled. -/
theorem settled_of_ofTree?
    {tree : Tree}
    (inRange : tree.EachNumber Number.InRange)
    (divides : ofTree? names depth tree = some parts) :
    Settled names depth parts := by
  have adds : ∀ {members : Tree.Members} {parts next : Parts},
      (∀ member ∈ members, member.2.EachNumber Number.InRange) →
        Settled names depth parts →
          members.foldlM (add? names depth) parts = some next →
            Settled names depth next := by
    intro members
    induction members with
    | nil =>
        intro parts next _ settled adds
        exact Option.some.inj adds ▸ settled
    | cons member members inductionHypothesis =>
        intro parts next inRange settled adds
        obtain ⟨isInRange, others⟩ := List.forall_mem_cons.mp inRange
        obtain ⟨between, added, adds⟩ := Option.bind_eq_some_iff.mp adds
        exact inductionHypothesis others (settled.add isInRange added) adds
  cases inRange with
  | object eachMember =>
      exact adds eachMember .nothing divides
  | _ =>
      contradiction

/-- Members without a type are added as they are. -/
private theorem add_rest
    (typed : List (String × Tree))
    (earlier : Json.Members)
    {later : Json.Members}
    (apart : ∀ member ∈ later, member.1 ∉ names)
    (ascending : Json.Members.Ascending (earlier ++ later))
    (stable : ∀ member ∈ later, member.2.Stable depth) :
    (Tree.ofMembers later).foldlM (add? names depth) ⟨typed, earlier⟩ =
      some ⟨typed, earlier ++ later⟩ := by
  induction later generalizing earlier with
  | nil =>
      rw [List.append_nil]
      rfl
  | cons member later inductionHypothesis =>
      obtain ⟨key, value⟩ := member
      obtain ⟨unnamed, othersApart⟩ := List.forall_mem_cons.mp apart
      obtain ⟨isStable, othersStable⟩ := List.forall_mem_cons.mp stable
      have isAfter : ∀ other ∈ earlier, other.1 < key :=
        fun other isEarlier =>
          (List.pairwise_append.mp ascending).2.2 other isEarlier
            (key, value) List.mem_cons_self
      have added : add? names depth ⟨typed, earlier⟩
          (some key, Tree.ofValue value) =
            some ⟨typed, earlier ++ [(key, value)]⟩ := by
        simp [add?, unnamed, isStable.rereads,
          Json.Members.insert_after isAfter]
      rw [List.append_cons] at ascending ⊢
      rw [Tree.ofMembers, List.foldlM_cons, added]
      exact inductionHypothesis _ othersApart ascending othersStable

/-- Typed members are added to others of which none has their names. -/
private theorem add_typed
    (depth : Nat)
    (earlier : List (String × Tree))
    {typed : Json.Members}
    (named : ∀ name ∈ typed.keys, name ∈ names)
    (nodup : typed.keys.Nodup)
    (new : ∀ name ∈ typed.keys, earlier.lookup name = none) :
    ∃ taken,
      (Tree.ofMembers typed).foldlM (add? names depth) ⟨earlier, []⟩ =
          some ⟨taken, []⟩ ∧
        ∀ name,
          taken.lookup name =
            (earlier.lookup name).or
              ((typed.lookup name).map Tree.ofValue) := by
  induction typed generalizing earlier with
  | nil =>
      refine ⟨earlier, rfl, fun name => ?_⟩
      simp
  | cons member typed inductionHypothesis =>
      obtain ⟨key, value⟩ := member
      obtain ⟨isNamed, othersNamed⟩ := List.forall_mem_cons.mp named
      obtain ⟨isNew, othersNew⟩ := List.forall_mem_cons.mp new
      obtain ⟨once, othersNodup⟩ := List.nodup_cons.mp nodup
      have added : add? names depth ⟨earlier, []⟩
          (some key, Tree.ofValue value) =
            some ⟨(key, Tree.ofValue value) :: earlier, []⟩ := by
        simp [add?, isNamed, isNew]
      obtain ⟨taken, adds, found⟩ :=
        inductionHypothesis ((key, Tree.ofValue value) :: earlier)
          othersNamed othersNodup (by
            intro name isOther
            have different : name ≠ key := fun same => once (same ▸ isOther)
            rw [List.lookup_cons, beq_false_of_ne different]
            exact othersNew name isOther)
      refine ⟨taken, ?_, fun name => ?_⟩
      · rw [Tree.ofMembers, List.foldlM_cons, added]
        exact adds
      · rw [found, Json.Members.lookup_cons]
        by_cases same : name = key
        · subst same
          simp [isNew]
        · simp [List.lookup_cons, beq_false_of_ne same, same]

/--
What is written for a record is divided into its typed members and the others
again.
-/
theorem Settled.divides
    (settled : Settled names depth parts)
    (typed : Json.Members)
    (sublist : typed.keys.Sublist names)
    (nodup : names.Nodup) :
    ∃ again,
      ofTree? names depth (.ofValue (.object (typed ++ parts.rest))) =
          some again ∧
        again.rest = parts.rest ∧
          ∀ name,
            again.typed.lookup name =
              (typed.lookup name).map Tree.ofValue := by
  obtain ⟨taken, adds, found⟩ :=
    add_typed depth [] (fun _ isKey => sublist.subset isKey)
      (sublist.nodup nodup) (fun _ _ => rfl)
  have addsRest :=
    add_rest taken [] settled.apart
      settled.ascending settled.stable
  refine ⟨⟨taken, parts.rest⟩, ?_, rfl, fun name => ?_⟩
  · rw [Tree.ofValue, ofTree?, Tree.ofMembers_eq_map, List.map_append,
      ← Tree.ofMembers_eq_map, ← Tree.ofMembers_eq_map, List.foldlM_append,
      adds]
    exact addsRest
  · rw [found]
    exact Option.none_or

private theorem Settled.inRange
    (settled : Settled names depth parts) :
    ∀ member ∈ parts.rest, member.2.EachNumber Number.InRange :=
  fun member isMember => (settled.stable member isMember).inRange

/-- A typed member that must be there is read again. -/
theorem Settled.required
    {read : Tree → Option α}
    {write : α → Value}
    {name : String}
    {document : α}
    (settled : Settled names depth parts)
    (rereads : Rereads read write)
    (reads : parts.required? name read = some document) :
    (write document).EachNumber Number.InRange ∧
      ∀ {again : Parts},
        again.typed.lookup name = some (Tree.ofValue (write document)) →
          again.required? name read = some document := by
  obtain ⟨tree, found, reads⟩ := Option.bind_eq_some_iff.mp reads
  obtain ⟨inRange, readsAgain⟩ :=
    rereads (settled.typed name tree found) reads
  exact ⟨inRange, fun foundAgain => by
    rw [required?, foundAgain]
    exact readsAgain⟩

/-- A typed text that may be missing is missing again if it was. -/
private theorem optional?_again
    {again : Parts}
    {name : String}
    {text : Option String}
    (found : again.typed.lookup name =
      (text.map Value.text).map Tree.ofValue) :
    again.optional? name Tree.string? = some text := by
  rw [optional?, found]
  cases text <;> rfl

end Parts

private theorem Inspection.inRange_member (name : String) (text : Option String) :
    ∀ member ∈ Inspection.member name text,
      member.2.EachNumber Number.InRange := by
  cases text with
  | none =>
      exact nofun
  | some text =>
      exact List.forall_mem_singleton.mpr (.text text)

/-- Inspections are read again. -/
theorem rereads_inspection (depth : Nat) :
    Rereads (Inspection.ofTree? depth) Inspection.toValue := by
  intro tree inspection inRange reads
  cases depth with
  | zero =>
      contradiction
  | succ depth =>
      simp only [Inspection.ofTree?, Option.bind_eq_bind,
        Option.bind_eq_some_iff, Option.some.injEq] at reads
      obtain ⟨parts, divides, id, -, name, -, image, -, rfl⟩ := reads
      have settled := Parts.settled_of_ofTree? inRange divides
      obtain ⟨again, dividesAgain, sameRest, found⟩ :=
        settled.divides _ (Inspection.keys_members_sublist id name image)
          (by decide)
      simp only [List.lookup_append, Inspection.lookup_member] at found
      have idAgain : again.optional? "Id" Tree.string? = some id :=
        Parts.optional?_again (by simpa using found "Id")
      have nameAgain : again.optional? "Name" Tree.string? = some name :=
        Parts.optional?_again (by simpa using found "Name")
      have imageAgain : again.optional? "Image" Tree.string? = some image :=
        Parts.optional?_again (by simpa using found "Image")
      refine ⟨.object (List.forall_mem_append.mpr ⟨?_, ?_⟩), ?_⟩
      · simp only [List.forall_mem_append]
        exact ⟨⟨Inspection.inRange_member "Id" id,
          Inspection.inRange_member "Name" name⟩,
          Inspection.inRange_member "Image" image⟩
      · exact settled.inRange
      · simp only [Inspection.ofTree?, Inspection.toValue, dividesAgain,
          Option.bind_eq_bind, Option.bind_some, idAgain, nameAgain,
          imageAgain, sameRest]

/-- Deployments are read again. -/
theorem rereads_deployment (depth : Nat) :
    Rereads (Deployment.ofTree? depth) Deployment.toValue := by
  intro tree deployment inRange reads
  cases depth with
  | zero =>
      contradiction
  | succ depth =>
      simp only [Deployment.ofTree?, Option.bind_eq_bind,
        Option.bind_eq_some_iff, Option.some.injEq] at reads
      obtain ⟨parts, divides, id, readId, digest, readDigest, status,
        readStatus, createdAt, readCreatedAt, rfl⟩ := reads
      have settled := Parts.settled_of_ofTree? inRange divides
      obtain ⟨idInRange, idAgain⟩ := settled.required rereads_integer readId
      obtain ⟨digestInRange, digestAgain⟩ :=
        settled.required rereads_string readDigest
      obtain ⟨statusInRange, statusAgain⟩ :=
        settled.required (rereads_status depth) readStatus
      obtain ⟨createdInRange, createdAgain⟩ :=
        settled.required rereads_string readCreatedAt
      obtain ⟨again, dividesAgain, sameRest, found⟩ :=
        settled.divides
          [("id", .ofInt id), ("digest", .text digest),
            ("status", .text status.name), ("created_at", .text createdAt)]
          (List.Sublist.refl _) (by decide)
      refine ⟨.object (List.forall_mem_append.mpr ⟨?_, ?_⟩), ?_⟩
      · simp [*]
      · exact settled.inRange
      · simp only [Deployment.ofTree?, Deployment.toValue, dividesAgain,
          Option.bind_eq_bind, Option.bind_some, idAgain (found "id"),
          digestAgain (found "digest"), statusAgain (found "status"),
          createdAgain (found "created_at"), sameRest]

/-- States of containers are read again. -/
theorem rereads_containerState (depth : Nat) :
    Rereads (ContainerState.ofTree? depth) ContainerState.toValue := by
  intro tree state inRange reads
  cases depth with
  | zero =>
      contradiction
  | succ depth =>
      simp only [ContainerState.ofTree?, Option.bind_eq_bind,
        Option.bind_eq_some_iff, Option.some.injEq] at reads
      obtain ⟨parts, divides, inspections, readInspections, rfl⟩ := reads
      have settled := Parts.settled_of_ofTree? inRange divides
      obtain ⟨inspectionsInRange, inspectionsAgain⟩ :=
        settled.required (rereads_items rereads_inspection depth)
          readInspections
      obtain ⟨again, dividesAgain, sameRest, found⟩ :=
        settled.divides
          [("container_inspections",
            .list (inspections.map Inspection.toValue))]
          (List.Sublist.refl _) (by decide)
      refine ⟨.object (List.forall_mem_cons.mpr
        ⟨inspectionsInRange, settled.inRange⟩), ?_⟩
      simp only [ContainerState.ofTree?, ContainerState.toValue,
        List.singleton_append] at dividesAgain ⊢
      simp only [dividesAgain, Option.bind_eq_bind, Option.bind_some,
        inspectionsAgain (found "container_inspections"), sameRest]

/-- States of services are read again. -/
theorem rereads_serviceState (depth : Nat) :
    Rereads (ServiceState.ofTree? depth) ServiceState.toValue := by
  intro tree state inRange reads
  cases depth with
  | zero =>
      contradiction
  | succ depth =>
      simp only [ServiceState.ofTree?, Option.bind_eq_bind,
        Option.bind_eq_some_iff, Option.some.injEq] at reads
      obtain ⟨parts, divides, hostname, readHostname, project, readProject,
        service, readService, inspection, readInspection, updated,
        readUpdated, rfl⟩ := reads
      have settled := Parts.settled_of_ofTree? inRange divides
      obtain ⟨hostnameInRange, hostnameAgain⟩ :=
        settled.required rereads_string readHostname
      obtain ⟨projectInRange, projectAgain⟩ :=
        settled.required rereads_string readProject
      obtain ⟨serviceInRange, serviceAgain⟩ :=
        settled.required rereads_string readService
      obtain ⟨inspectionInRange, inspectionAgain⟩ :=
        settled.required (rereads_inspection depth) readInspection
      obtain ⟨updatedInRange, updatedAgain⟩ :=
        settled.required rereads_string readUpdated
      obtain ⟨again, dividesAgain, sameRest, found⟩ :=
        settled.divides
          [("hostname", .text hostname), ("project_name", .text project),
            ("service_name", .text service),
            ("container_inspections", inspection.toValue),
            ("last_updated", .text updated)]
          (List.Sublist.refl _) (by decide)
      refine ⟨.object (List.forall_mem_append.mpr ⟨?_, ?_⟩), ?_⟩
      · simp [*]
      · exact settled.inRange
      · simp only [ServiceState.ofTree?, ServiceState.toValue, dividesAgain,
          Option.bind_eq_bind, Option.bind_some,
          hostnameAgain (found "hostname"),
          projectAgain (found "project_name"),
          serviceAgain (found "service_name"),
          inspectionAgain (found "container_inspections"),
          updatedAgain (found "last_updated"), sameRest]

end EventRelay.Backend
