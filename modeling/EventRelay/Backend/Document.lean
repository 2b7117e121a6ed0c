import EventRelay.Json.Print
import EventRelay.Json.Tree

namespace EventRelay.Backend

/-!
# Backend documents

The records that the backend serves.  Of each record a few members have a
type; all others are carried along as they are.  A record is written with its
typed members first, in the order of its declaration, then the others sorted
by key.
-/

open Json (Tree Value)

/-- A type of documents. -/
class Document (α : Type) where
  /-- Reads a document whose nesting stays within a depth. -/
  ofTree? : Nat → Tree → Option α
  /-- The document as a value. -/
  toValue : α → Value

/-- The members of a record: those with a type, as written, and the others. -/
structure Parts where
  typed : List (String × Tree)
  rest : Json.Members

namespace Parts

/-- Adds a member; a typed one must not occur twice. -/
def add?
    (names : List String)
    (depth : Nat)
    (parts : Parts)
    (member : Option String × Tree) : Option Parts := do
  let key ← member.1
  if names.contains key then
    if (parts.typed.lookup key).isSome then
      none
    else
      some { parts with typed := (key, member.2) :: parts.typed }
  else
    let value ← member.2.toValue? depth
    some { parts with rest := Json.Members.insert key value parts.rest }

/-- Divides the members of an object. -/
def ofTree? (names : List String) (depth : Nat) : Tree → Option Parts
  | .object members =>
      members.foldlM (add? names depth) ⟨[], []⟩
  | _ =>
      none

/-- Reads a typed member that must be there. -/
def required?
    (parts : Parts)
    (name : String)
    (read : Tree → Option α) : Option α :=
  (parts.typed.lookup name).bind read

/-- Reads a typed member that may be missing or null. -/
def optional?
    (parts : Parts)
    (name : String)
    (read : Tree → Option α) : Option (Option α) :=
  match parts.typed.lookup name with
  | none =>
      some none
  | some tree =>
      tree.optional? read

end Parts

/-- Reads the items of a list. -/
def itemsOfTree? (read : Nat → Tree → Option α) :
    Nat → Tree → Option (List α)
  | depth + 1, .list items =>
      items.mapM (read depth)
  | _, _ =>
      none

instance [Document α] : Document (List α) where
  ofTree? :=
    itemsOfTree? Document.ofTree?
  toValue items :=
    .list (items.map Document.toValue)

/-! ## Deployments -/

/-- Where a deployment stands. -/
inductive DeploymentStatus where
  | pending
  | started
  | success
  | rollbackFinished
  | noUpdate
  | failed
  | testMessage
  deriving Repr, DecidableEq

namespace DeploymentStatus

/-- Every status. -/
def all : List DeploymentStatus :=
  [.pending, .started, .success, .rollbackFinished, .noUpdate, .failed,
    .testMessage]

/-- The written name of a status. -/
def name : DeploymentStatus → String
  | .pending =>
      "Pending"
  | .started =>
      "Started"
  | .success =>
      "Success"
  | .rollbackFinished =>
      "RollbackFinished"
  | .noUpdate =>
      "NoUpdate"
  | .failed =>
      "Failed"
  | .testMessage =>
      "TestMessage"

/-- The status of a name. -/
def ofName? (name : String) : Option DeploymentStatus :=
  all.find? (·.name == name)

/-- Reads a name, or an object whose only member has that name and is null. -/
def ofTree? : Nat → Tree → Option DeploymentStatus
  | _, .text name =>
      name.bind ofName?
  | _ + 1, .object [(name, .null)] =>
      name.bind ofName?
  | _, _ =>
      none

end DeploymentStatus

instance : Document DeploymentStatus where
  ofTree? :=
    DeploymentStatus.ofTree?
  toValue status :=
    .text status.name

/-- One deployment. -/
structure Deployment where
  id : Int
  digest : String
  status : DeploymentStatus
  createdAt : String
  rest : Json.Members
  deriving Repr

namespace Deployment

/-- The typed members. -/
def names : List String :=
  ["id", "digest", "status", "created_at"]

/-- Reads a deployment. -/
def ofTree? : Nat → Tree → Option Deployment
  | 0, _ =>
      none
  | depth + 1, tree => do
      let parts ← Parts.ofTree? names depth tree
      let id ← parts.required? "id" Tree.integer?
      let digest ← parts.required? "digest" Tree.string?
      let status ← parts.required? "status" (DeploymentStatus.ofTree? depth)
      let createdAt ← parts.required? "created_at" Tree.string?
      some ⟨id, digest, status, createdAt, parts.rest⟩

/-- The deployment as a value. -/
def toValue (deployment : Deployment) : Value :=
  .object
    ([("id", .ofInt deployment.id),
      ("digest", .text deployment.digest),
      ("status", .text deployment.status.name),
      ("created_at", .text deployment.createdAt)] ++ deployment.rest)

end Deployment

instance : Document Deployment where
  ofTree? :=
    Deployment.ofTree?
  toValue :=
    Deployment.toValue

/-! ## Containers -/

/-- What is known of one container. -/
structure Inspection where
  id : Option String
  name : Option String
  image : Option String
  rest : Json.Members
  deriving Repr

namespace Inspection

/-- The typed members. -/
def names : List String :=
  ["Id", "Name", "Image"]

/-- Reads an inspection. -/
def ofTree? : Nat → Tree → Option Inspection
  | 0, _ =>
      none
  | depth + 1, tree => do
      let parts ← Parts.ofTree? names depth tree
      let id ← parts.optional? "Id" Tree.string?
      let name ← parts.optional? "Name" Tree.string?
      let image ← parts.optional? "Image" Tree.string?
      some ⟨id, name, image, parts.rest⟩

/-- A member for a text that is there. -/
def member (name : String) (value : Option String) : Json.Members :=
  match value with
  | none =>
      []
  | some text =>
      [(name, .text text)]

/-- The inspection as a value; missing texts are left out. -/
def toValue (inspection : Inspection) : Value :=
  .object
    (member "Id" inspection.id ++
      member "Name" inspection.name ++
      member "Image" inspection.image ++
      inspection.rest)

end Inspection

instance : Document Inspection where
  ofTree? :=
    Inspection.ofTree?
  toValue :=
    Inspection.toValue

/-- The containers known to the backend. -/
structure ContainerState where
  inspections : List Inspection
  rest : Json.Members
  deriving Repr

namespace ContainerState

/-- The typed members. -/
def names : List String :=
  ["container_inspections"]

/-- Reads the containers. -/
def ofTree? : Nat → Tree → Option ContainerState
  | 0, _ =>
      none
  | depth + 1, tree => do
      let parts ← Parts.ofTree? names depth tree
      let inspections ← parts.required? "container_inspections"
        (itemsOfTree? Inspection.ofTree? depth)
      some ⟨inspections, parts.rest⟩

/-- The containers as a value. -/
def toValue (state : ContainerState) : Value :=
  .object
    (("container_inspections",
        .list (state.inspections.map Inspection.toValue)) :: state.rest)

end ContainerState

instance : Document ContainerState where
  ofTree? :=
    ContainerState.ofTree?
  toValue :=
    ContainerState.toValue

/-- The container of one service on one host. -/
structure ServiceState where
  hostname : String
  projectName : String
  serviceName : String
  inspection : Inspection
  lastUpdated : String
  rest : Json.Members
  deriving Repr

namespace ServiceState

/-- The typed members. -/
def names : List String :=
  ["hostname", "project_name", "service_name", "container_inspections",
    "last_updated"]

/-- Reads the state of a service. -/
def ofTree? : Nat → Tree → Option ServiceState
  | 0, _ =>
      none
  | depth + 1, tree => do
      let parts ← Parts.ofTree? names depth tree
      let hostname ← parts.required? "hostname" Tree.string?
      let projectName ← parts.required? "project_name" Tree.string?
      let serviceName ← parts.required? "service_name" Tree.string?
      let inspection ← parts.required? "container_inspections"
        (Inspection.ofTree? depth)
      let lastUpdated ← parts.required? "last_updated" Tree.string?
      some ⟨hostname, projectName, serviceName, inspection, lastUpdated,
        parts.rest⟩

/-- The state of a service as a value. -/
def toValue (state : ServiceState) : Value :=
  .object
    ([("hostname", .text state.hostname),
      ("project_name", .text state.projectName),
      ("service_name", .text state.serviceName),
      ("container_inspections", state.inspection.toValue),
      ("last_updated", .text state.lastUpdated)] ++ state.rest)

end ServiceState

instance : Document ServiceState where
  ofTree? :=
    ServiceState.ofTree?
  toValue :=
    ServiceState.toValue

/-- Reads bytes that are one document. -/
def read? (α : Type) [Document α] (bytes : List UInt8) : Option α :=
  (Tree.ofBytes? bytes).bind (Document.ofTree? Tree.maxDepth)

/-- The compact text of a document. -/
def write [Document α] (document : α) : String :=
  (Document.toValue document).compact

end EventRelay.Backend
