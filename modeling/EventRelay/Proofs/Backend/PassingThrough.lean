import EventRelay.Proofs.Backend.Dividing

namespace EventRelay.Backend

/-!
# Documents pass through

A document that is read and written again is the document that was read, but
for the order of its members.  Two things are settled on the way: a status in
the form of an object becomes its name, and the identifying texts of an
inspection are left out when they are null.
-/

open Json (Tree Value)

/-- A status is written as its name. -/
def DeploymentStatus.settled : Value → Value
  | .object [(name, .null)] =>
      .text name
  | value =>
      value

/-- The identifying texts of an inspection are left out when they are null. -/
def Inspection.settledMember (name : String) : Value → Option Value
  | .null =>
      if name ∈ ["Id", "Name", "Image"] then
        none
      else
        some .null
  | value =>
      some value

def Inspection.settled : Value → Value :=
  Value.settle Inspection.settledMember

def Deployment.settled : Value → Value :=
  Value.settle (Value.atMember "status" DeploymentStatus.settled)

def ContainerState.settled : Value → Value :=
  Value.settle
    (Value.atMember "container_inspections"
      (Value.mapItems Inspection.settled))

def ServiceState.settled : Value → Value :=
  Value.settle (Value.atMember "container_inspections" Inspection.settled)

/--
What a reader accepts is a value, and is written as this value once it is
settled.
-/
def Keeps
    (settled : Value → Value)
    (depth : Nat)
    (read : Tree → Option α)
    (write : α → Value) : Prop :=
  ∀ {tree document},
    read tree = some document →
      ∃ value,
        tree.toValue? depth = some value ∧
          (write document).Alike (settled value) ∧
            (write document).UniqueKeys

/-- All documents of a type pass through, at every depth. -/
def PassesThrough
    (α : Type)
    [Document α]
    (settled : Value → Value) : Prop :=
  ∀ depth,
    Keeps settled depth (Document.ofTree? depth : Tree → Option α)
      Document.toValue

section

variable {depth : Nat}

private theorem eq_text_of_string?
    {tree : Tree}
    {text : String}
    (reads : tree.string? = some text) :
    tree = .text (some text) := by
  cases tree with
  | text content =>
      exact congrArg Tree.text reads
  | _ =>
      contradiction

/-- A text is read and written unchanged. -/
private theorem keeps_string : Keeps id depth Tree.string? Value.text := by
  intro tree text reads
  obtain rfl := eq_text_of_string? reads
  exact ⟨.text text, rfl, .same _, .text text⟩

/-- A whole number is read and written unchanged. -/
private theorem keeps_integer : Keeps id depth Tree.integer? Value.ofInt := by
  intro tree value reads
  unfold Tree.integer? at reads
  split at reads
  · split at reads
    · obtain rfl := Option.some.inj reads
      exact ⟨_, rfl, .same _, .number _⟩
    · contradiction
  · contradiction

/-- A status is written with the name it was read from. -/
private theorem DeploymentStatus.name_of_ofName?
    {name : String}
    {status : DeploymentStatus}
    (named : ofName? name = some status) :
    status.name = name := by
  have agrees := List.find?_some named
  exact eq_of_beq agrees

/-- A status is read and written unchanged. -/
theorem keeps_status :
    Keeps DeploymentStatus.settled depth (DeploymentStatus.ofTree? depth)
      (fun status => .text status.name) := by
  intro tree status reads
  unfold DeploymentStatus.ofTree? at reads
  split at reads
  · obtain ⟨name, rfl, named⟩ := Option.bind_eq_some_iff.mp reads
    obtain rfl := DeploymentStatus.name_of_ofName? named
    exact ⟨.text _, rfl, .same _, .text _⟩
  · obtain ⟨name, rfl, named⟩ := Option.bind_eq_some_iff.mp reads
    obtain rfl := DeploymentStatus.name_of_ofName? named
    exact ⟨.object [(_, .null)], rfl, .same _, .text _⟩
  · contradiction

end

section

variable {settled : Value → Value} {read : Nat → Tree → Option α}
  {write : α → Value}

/-- Items that are read are values, and are written as these values. -/
private theorem exists_itemValues?
    {depth : Nat}
    {items : List Tree}
    {documents : List α}
    (keeps : Keeps settled depth (read depth) write)
    (reads : items.mapM (read depth) = some documents) :
    ∃ values,
      Tree.itemValues? depth items = some values ∧
        List.Forall₂ Value.Alike (documents.map write)
          (values.map settled) ∧
          ∀ item ∈ documents.map write, item.UniqueKeys := by
  induction items generalizing documents with
  | nil =>
      obtain rfl := Option.some.inj reads
      exact ⟨[], rfl, .nil, nofun⟩
  | cons item items inductionHypothesis =>
      rw [List.mapM_cons] at reads
      obtain ⟨first, readFirst, reads⟩ := Option.bind_eq_some_iff.mp reads
      obtain ⟨rest, readRest, reads⟩ := Option.bind_eq_some_iff.mp reads
      obtain rfl := Option.some.inj reads
      obtain ⟨value, isValue, alike, unique⟩ := keeps readFirst
      obtain ⟨values, areValues, alikeRest, uniqueRest⟩ :=
        inductionHypothesis readRest
      refine ⟨value :: values, ?_, .cons alike alikeRest,
        List.forall_mem_cons.mpr ⟨unique, uniqueRest⟩⟩
      simp [Tree.itemValues?, isValue, areValues]

/-- Lists pass through item by item. -/
theorem keeps_items
    (keeps : ∀ depth, Keeps settled depth (read depth) write)
    (depth : Nat) :
    Keeps (Value.mapItems settled) depth (itemsOfTree? read depth)
      (fun items => .list (items.map write)) := by
  intro tree documents reads
  unfold itemsOfTree? at reads
  split at reads
  · next depth items =>
      obtain ⟨values, areValues, alike, unique⟩ :=
        exists_itemValues? (keeps depth) reads
      refine ⟨.list values, ?_, .list alike, .list unique⟩
      rw [Tree.toValue?, areValues]
      rfl
  · contradiction

end

/--
A typed member is a value, and is written as this value once it is settled, or
left out.
-/
structure Kept
    (settled : String → Value → Option Value)
    (depth : Nat)
    (parts : Parts)
    (name : String)
    (written : Option Value) : Prop where
  readable :
    ∀ tree,
      parts.typed.lookup name = some tree →
        ∃ value, tree.toValue? depth = some value
  alike :
    Option.Rel Value.Alike written
      (((parts.typed.lookup name).bind (Tree.toValue? depth)).bind
        (settled name))
  unique : ∀ value ∈ written, value.UniqueKeys

section

variable {settled : String → Value → Option Value} {depth : Nat}
  {parts : Parts} {name : String}

/--
A member that is found is kept when what is written for it is alike to what it
settles as.
-/
private theorem kept_of_found
    {tree : Tree}
    {value : Value}
    {written : Option Value}
    (found : parts.typed.lookup name = some tree)
    (isValue : tree.toValue? depth = some value)
    (alike : Option.Rel Value.Alike written (settled name value))
    (unique : ∀ value ∈ written, value.UniqueKeys) :
    Kept settled depth parts name written where
  readable other foundOther := by
    obtain rfl := Option.some.inj (found.symm.trans foundOther)
    exact ⟨value, isValue⟩
  alike := by
    rw [found, Option.bind_some, isValue, Option.bind_some]
    exact alike
  unique :=
    unique

/-- A required member is kept when its reader keeps values. -/
private theorem kept_of_required
    {change : Value → Value}
    {read : Tree → Option α}
    {write : α → Value}
    (keeps : Keeps change depth read write)
    (settles : ∀ value, settled name value = some (change value))
    {document : α}
    (reads : parts.required? name read = some document) :
    Kept settled depth parts name (some (write document)) := by
  obtain ⟨tree, found, readTree⟩ := Option.bind_eq_some_iff.mp reads
  obtain ⟨value, isValue, alike, unique⟩ := keeps readTree
  refine kept_of_found found isValue ?_ ?_
  · rw [settles]
    exact .some alike
  · rintro _ ⟨⟩
    exact unique

/-- A text that is missing or null is left out. -/
theorem kept_of_optional
    (settlesNull : settled name .null = none)
    (settlesText : ∀ text, settled name (.text text) = some (.text text))
    {document : Option String}
    (reads : parts.optional? name Tree.string? = some document) :
    Kept settled depth parts name (document.map .text) := by
  unfold Parts.optional? at reads
  split at reads
  · next missing =>
      obtain rfl := Option.some.inj reads
      refine ⟨fun tree found => ?_, ?_, nofun⟩
      · rw [missing] at found
        contradiction
      · rw [missing]
        exact .none
  · next tree found =>
      unfold Tree.optional? at reads
      split at reads
      · obtain rfl := Option.some.inj reads
        refine kept_of_found found rfl ?_ nofun
        rw [settlesNull]
        exact .none
      · obtain ⟨text, readText, rfl⟩ := Option.map_eq_some_iff.mp reads
        obtain rfl := eq_text_of_string? readText
        refine kept_of_found found rfl ?_ ?_
        · rw [settlesText]
          exact .some (.same _)
        · rintro _ ⟨⟩
          exact .text text

/-- Records pass through member by member. -/
theorem keeps_record
    {names : List String}
    {tree : Tree}
    (typed : Json.Members)
    (divides : Parts.ofTree? names depth tree = some parts)
    (others : ∀ name ∉ names, ∀ value, settled name value = some value)
    (nodup : names.Nodup)
    (named : typed.keys.Sublist names)
    (kept : ∀ name ∈ names,
      Kept settled depth parts name (typed.lookup name)) :
    ∃ value,
      tree.toValue? (depth + 1) = some value ∧
        (Value.object (typed ++ parts.rest)).Alike (value.settle settled) ∧
          (Value.object (typed ++ parts.rest)).UniqueKeys := by
  obtain ⟨members, isValue, divide⟩ :=
    Parts.divide_of_ofTree? divides fun name isNamed =>
      (kept name isNamed).readable
  have nodupTyped : typed.keys.Nodup := nodup.sublist named
  refine ⟨.object members, isValue, ?_, ?_⟩
  · refine divide.alike others (fun _ isKey => named.subset isKey) ?_
    intro name isNamed
    rw [divide.typed name isNamed]
    exact (kept name isNamed).alike
  · refine divide.uniqueKeys (fun _ isKey => named.subset isKey) nodupTyped ?_
    intro member isMember
    have isKey : member.1 ∈ typed.keys := List.mem_map_of_mem isMember
    exact (kept member.1 (named.subset isKey)).unique member.2
      (Json.Members.lookup_of_mem nodupTyped isMember)

end

private theorem Inspection.settledMember_of_not_mem
    {name : String}
    (unnamed : name ∉ Inspection.names)
    (value : Value) :
    Inspection.settledMember name value = some value := by
  cases value with
  | null =>
      exact if_neg unnamed
  | _ =>
      rfl

/-- A member is written under its own name, and only when it has a value. -/
theorem Inspection.lookup_member {name other : String} {value : Option String} :
    (Inspection.member name value).lookup other =
      if other = name then value.map .text else none := by
  cases value with
  | none =>
      simp [Inspection.member]
  | some text =>
      exact Json.Members.lookup_cons

private theorem Inspection.keys_member_sublist (name : String) (value : Option String) :
    (Inspection.member name value).keys.Sublist [name] := by
  cases value with
  | none =>
      exact List.nil_sublist _
  | some text =>
      exact List.Sublist.refl _

/--
The typed members of an inspection are written in their order, each at most
once.
-/
theorem Inspection.keys_members_sublist (id name image : Option String) :
    (Inspection.member "Id" id ++ Inspection.member "Name" name ++
        Inspection.member "Image" image).keys.Sublist
      Inspection.names := by
  rw [Json.Members.keys, List.map_append, List.map_append]
  exact ((keys_member_sublist "Id" id).append
    (keys_member_sublist "Name" name)).append
      (keys_member_sublist "Image" image)

/-- Inspections pass through, settled. -/
theorem keeps_inspection (depth : Nat) :
    Keeps Inspection.settled depth (Inspection.ofTree? depth)
      Inspection.toValue := by
  intro tree inspection reads
  cases depth with
  | zero =>
      contradiction
  | succ depth =>
      simp only [Inspection.ofTree?, Option.bind_eq_bind,
        Option.bind_eq_some_iff, Option.some.injEq] at reads
      obtain ⟨parts, divides, id, readId, name, readName, image, readImage,
        rfl⟩ := reads
      refine keeps_record _ divides
        (fun _ => Inspection.settledMember_of_not_mem) (by decide)
        (Inspection.keys_members_sublist id name image) ?_
      intro key isNamed
      simp only [List.lookup_append, Inspection.lookup_member]
      simp only [Inspection.names, List.mem_cons, List.not_mem_nil,
        or_false] at isNamed
      rcases isNamed with rfl | rfl | rfl
      · simpa using kept_of_optional rfl (fun _ => rfl) readId
      · simpa using kept_of_optional rfl (fun _ => rfl) readName
      · simpa using kept_of_optional rfl (fun _ => rfl) readImage

/-- Deployments pass through, settled. -/
theorem keeps_deployment (depth : Nat) :
    Keeps Deployment.settled depth (Deployment.ofTree? depth)
      Deployment.toValue := by
  intro tree deployment reads
  cases depth with
  | zero =>
      contradiction
  | succ depth =>
      simp only [Deployment.ofTree?, Option.bind_eq_bind,
        Option.bind_eq_some_iff, Option.some.injEq] at reads
      obtain ⟨parts, divides, id, readId, digest, readDigest, status,
        readStatus, createdAt, readCreatedAt, rfl⟩ := reads
      refine keeps_record _ divides
        (fun _ => Value.atMember_of_not_mem (by decide)) (by decide)
        (List.Sublist.refl _) ?_
      intro name isNamed
      simp only [Deployment.names, List.mem_cons, List.not_mem_nil,
        or_false] at isNamed
      rcases isNamed with rfl | rfl | rfl | rfl
      · exact kept_of_required keeps_integer (fun _ => rfl) readId
      · exact kept_of_required keeps_string (fun _ => rfl) readDigest
      · exact kept_of_required keeps_status (fun _ => rfl) readStatus
      · exact kept_of_required keeps_string (fun _ => rfl) readCreatedAt

/-- States of containers pass through, settled. -/
theorem keeps_containerState (depth : Nat) :
    Keeps ContainerState.settled depth (ContainerState.ofTree? depth)
      ContainerState.toValue := by
  intro tree state reads
  cases depth with
  | zero =>
      contradiction
  | succ depth =>
      simp only [ContainerState.ofTree?, Option.bind_eq_bind,
        Option.bind_eq_some_iff, Option.some.injEq] at reads
      obtain ⟨parts, divides, inspections, readInspections, rfl⟩ := reads
      refine keeps_record
        [("container_inspections",
          .list (inspections.map Inspection.toValue))]
        divides
        (fun _ => Value.atMember_of_not_mem (by decide)) (by decide)
        (List.Sublist.refl _) ?_
      intro name isNamed
      obtain rfl := List.mem_singleton.mp isNamed
      exact kept_of_required (keeps_items keeps_inspection depth)
        (fun _ => rfl) readInspections

/-- States of services pass through, settled. -/
theorem keeps_serviceState (depth : Nat) :
    Keeps ServiceState.settled depth (ServiceState.ofTree? depth)
      ServiceState.toValue := by
  intro tree state reads
  cases depth with
  | zero =>
      contradiction
  | succ depth =>
      simp only [ServiceState.ofTree?, Option.bind_eq_bind,
        Option.bind_eq_some_iff, Option.some.injEq] at reads
      obtain ⟨parts, divides, hostname, readHostname, project, readProject,
        service, readService, inspection, readInspection, updated,
        readUpdated, rfl⟩ := reads
      refine keeps_record _ divides
        (fun _ => Value.atMember_of_not_mem (by decide)) (by decide)
        (List.Sublist.refl _) ?_
      intro name isNamed
      simp only [ServiceState.names, List.mem_cons, List.not_mem_nil,
        or_false] at isNamed
      rcases isNamed with rfl | rfl | rfl | rfl | rfl
      · exact kept_of_required keeps_string (fun _ => rfl) readHostname
      · exact kept_of_required keeps_string (fun _ => rfl) readProject
      · exact kept_of_required keeps_string (fun _ => rfl) readService
      · exact kept_of_required (keeps_inspection depth) (fun _ => rfl)
          readInspection
      · exact kept_of_required keeps_string (fun _ => rfl) readUpdated

/-- Lists of documents pass through with their items. -/
theorem PassesThrough.list
    [Document α]
    {settled : Value → Value}
    (passes : PassesThrough α settled) :
    PassesThrough (List α) (Value.mapItems settled) :=
  fun depth => keeps_items passes depth

/--
Deployments, inspections, and the states of containers and services are
written as they were read, but for the order of their members, for a status in
the form of an object, and for identifying texts that are null. In what is
written no key occurs twice.
-/
theorem documents_pass_through :
    PassesThrough Deployment Deployment.settled ∧
      PassesThrough Inspection Inspection.settled ∧
        PassesThrough ContainerState ContainerState.settled ∧
          PassesThrough ServiceState ServiceState.settled :=
  ⟨keeps_deployment, keeps_inspection, keeps_containerState,
    keeps_serviceState⟩

/--
A deployment with the name of its service, and with a status in the form of an
object.
-/
def deploymentTree : Tree :=
  .object
    [(some "service_name", .text (some "web")),
      (some "id", .number (some (.whole 12))),
      (some "status", .object [(some "Success", .null)]),
      (some "digest", .text (some "sha256:def")),
      (some "created_at", .text (some "2025-03-02 08:15:00"))]

/-- An inspection with a name that is null, and with a state. -/
def inspectionTree : Tree :=
  .object
    [(some "Id", .text (some "c0ffee")),
      (some "State", .object [(some "Running", .boolean true)]),
      (some "Name", .null)]

def containersTree : Tree :=
  .object
    [(some "hosts", .list [.text (some "node-1")]),
      (some "container_inspections", .list [inspectionTree])]

def serviceTree : Tree :=
  .object
    [(some "hostname", .text (some "node-1")),
      (some "project_name", .text (some "shop")),
      (some "service_name", .text (some "web")),
      (some "container_inspections", inspectionTree),
      (some "last_updated", .text (some "2025-03-02T08:15:00Z"))]

/-- The status becomes a name, and the name that is null is left out. -/
theorem documents_passed_through :
    let inspectionValue : Value :=
      .object
        [("Id", .text "c0ffee"),
          ("State", .object [("Running", .boolean true)])]
    (∃ deployment,
        Deployment.ofTree? 3 deploymentTree = some deployment ∧
          deployment.toValue.Alike
            (.object
              [("created_at", .text "2025-03-02 08:15:00"),
                ("digest", .text "sha256:def"), ("id", .ofInt 12),
                ("service_name", .text "web"),
                ("status", .text "Success")])) ∧
      (∃ inspection,
        Inspection.ofTree? 3 inspectionTree = some inspection ∧
          inspection.toValue.Alike inspectionValue) ∧
        (∃ state,
          ContainerState.ofTree? 4 containersTree = some state ∧
            state.toValue.Alike
              (.object
                [("container_inspections", .list [inspectionValue]),
                  ("hosts", .list [.text "node-1"])])) ∧
          ∃ state,
            ServiceState.ofTree? 3 serviceTree = some state ∧
              state.toValue.Alike
                (.object
                  [("container_inspections", inspectionValue),
                    ("hostname", .text "node-1"),
                    ("last_updated", .text "2025-03-02T08:15:00Z"),
                    ("project_name", .text "shop"),
                    ("service_name", .text "web")]) := by
  intro inspectionValue
  refine ⟨⟨_, rfl, ?_⟩, ⟨_, rfl, ?_⟩, ⟨_, rfl, ?_⟩, _, rfl, ?_⟩
  · obtain ⟨value, isValue, alike, -⟩ := documents_pass_through.1 3
      (rfl : Deployment.ofTree? 3 deploymentTree = some _)
    obtain rfl := Option.some.inj (isValue.symm.trans rfl)
    exact alike
  · obtain ⟨value, isValue, alike, -⟩ := documents_pass_through.2.1 3
      (rfl : Inspection.ofTree? 3 inspectionTree = some _)
    obtain rfl := Option.some.inj (isValue.symm.trans rfl)
    exact alike
  · obtain ⟨value, isValue, alike, -⟩ := documents_pass_through.2.2.1 4
      (rfl : ContainerState.ofTree? 4 containersTree = some _)
    obtain rfl := Option.some.inj (isValue.symm.trans rfl)
    exact alike
  · obtain ⟨value, isValue, alike, -⟩ := documents_pass_through.2.2.2 3
      (rfl : ServiceState.ofTree? 3 serviceTree = some _)
    obtain rfl := Option.some.inj (isValue.symm.trans rfl)
    exact alike

end EventRelay.Backend
