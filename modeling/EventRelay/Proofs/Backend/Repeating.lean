import EventRelay.Proofs.Backend.Enveloping
import EventRelay.Proofs.Json.Whole

namespace EventRelay.Backend

/-!
# Documents that are written again

A document without floating-point numbers, bare or in an envelope, is written
in a form that stays: what is written is read as the same document, and hence
written again byte for byte.  This holds whatever blanks, escapes, order and
repetition of members the document was first read with.
-/

open Json (HasWholeNumbers Number Tree Value)
open Text.Utf8 (bytesOf)

/--
What is written for documents of a type that were read from texts with whole
numbers is read as these documents.
-/
def Stays (α : Type) [Document α] : Prop :=
  ∀ {bytes : List UInt8} {document : α},
    HasWholeNumbers bytes →
      read? α bytes = some document →
        read? α (bytesOf (write document)) = some document

/-- What a type of documents needs in order to stay, bare and in envelopes. -/
structure Rewritable (α : Type) [Document α] : Prop where
  rereads :
    ∀ depth,
      Rereads (Document.ofTree? depth : Tree → Option α) Document.toValue
  carries :
    ∀ {holds : Number → Prop} {depth : Nat} {tree : Tree} {document : α},
      tree.EachNumber holds →
        Document.ofTree? depth tree = some document →
          (Document.toValue document).EachNumber holds
  present : ∀ document : α, Tree.ofValue (Document.toValue document) ≠ .null

/--
What passes through has no other numbers than the tree that it was read from,
if settling brings none.
-/
theorem PassesThrough.carries
    [Document α]
    {settled : Value → Value}
    (passes : PassesThrough α settled)
    {holds : Number → Prop}
    (settles : ∀ {value}, value.EachNumber holds →
      (settled value).EachNumber holds)
    {depth : Nat}
    {tree : Tree}
    {document : α}
    (each : tree.EachNumber holds)
    (reads : Document.ofTree? depth tree = some document) :
    (Document.toValue document).EachNumber holds := by
  obtain ⟨value, isValue, alike, unique⟩ := passes depth reads
  exact (settles (each.toValue? isValue)).of_alike unique alike

section

variable {holds : Number → Prop} {value : Value}

/-- Settling a status keeps what holds of its numbers. -/
private theorem DeploymentStatus.settled_carries
    (each : value.EachNumber holds) :
    (DeploymentStatus.settled value).EachNumber holds := by
  unfold DeploymentStatus.settled
  split
  · exact .text _
  · exact each

/-- Settling an inspection keeps what holds of its numbers. -/
private theorem Inspection.settled_carries
    (each : value.EachNumber holds) :
    (Inspection.settled value).EachNumber holds := by
  refine each.settle fun {key value changed} each isChanged => ?_
  unfold Inspection.settledMember at isChanged
  split at isChanged
  · split at isChanged
    · cases isChanged
    · exact Option.some.inj isChanged ▸ .null
  · exact Option.some.inj isChanged ▸ each

/-- Settling a deployment keeps what holds of its numbers. -/
private theorem Deployment.settled_carries
    (each : value.EachNumber holds) :
    (Deployment.settled value).EachNumber holds :=
  each.settle (.atMember DeploymentStatus.settled_carries)

/-- Settling a state of a container keeps what holds of its numbers. -/
private theorem ContainerState.settled_carries
    (each : value.EachNumber holds) :
    (ContainerState.settled value).EachNumber holds :=
  each.settle (.atMember (.mapItems Inspection.settled_carries))

/-- Settling the states of a service keeps what holds of their numbers. -/
private theorem ServiceState.settled_carries
    (each : value.EachNumber holds) :
    (ServiceState.settled value).EachNumber holds :=
  each.settle (.atMember Inspection.settled_carries)

end

namespace Rewritable

variable [Document α]

/-- A document that can be rewritten stays as it is. -/
private theorem stays (rewritable : Rewritable α) : Stays α := by
  intro bytes document whole reads
  obtain ⟨tree, isTree, readTree⟩ := Option.bind_eq_some_iff.mp reads
  obtain ⟨inRange, readsAgain⟩ :=
    rewritable.rereads Tree.maxDepth (Tree.inRange_of_ofBytes? isTree) readTree
  have isWhole : (Document.toValue document).EachNumber Number.IsWhole :=
    rewritable.carries (Tree.isWhole_of_ofBytes? whole isTree) readTree
  exact read?_compact (isWhole.isExact inRange) readsAgain

/-- The numbers of an envelope are those of its data. -/
private theorem carries_envelope
    (rewritable : Rewritable α)
    {holds : Number → Prop}
    {depth : Nat}
    {tree : Tree}
    {envelope : Envelope α}
    (each : tree.EachNumber holds)
    (reads : Envelope.ofTree? depth tree = some envelope) :
    envelope.toValue.EachNumber holds := by
  obtain ⟨success, data, error⟩ := envelope
  refine .object ?_
  simp only [List.forall_mem_cons]
  refine ⟨.boolean success, ?data, ?error, List.forall_mem_nil _⟩
  case data =>
    cases data with
    | none =>
        exact .null
    | some data =>
        obtain ⟨inner, part, -, eachPart, readPart⟩ :=
          Envelope.exists_of_data each reads rfl
        exact rewritable.carries eachPart readPart
  case error =>
    cases error with
    | none =>
        exact .null
    | some error =>
        exact .text error

/-- Envelopes are as good as the data in them. -/
theorem envelope (rewritable : Rewritable α) : Rewritable (Envelope α) where
  rereads depth := by
    intro tree envelope inRange reads
    refine ⟨rewritable.carries_envelope inRange reads, ?_⟩
    cases depth with
    | zero =>
        cases reads
    | succ depth =>
        refine Envelope.ofTree?_toValue rewritable.present ?_
        intro data isData
        obtain ⟨inner, part, isInner, partInRange, readPart⟩ :=
          Envelope.exists_of_data inRange reads isData
        obtain rfl := Nat.succ.inj isInner
        exact (rewritable.rereads depth partInRange readPart).2
  carries each reads :=
    rewritable.carries_envelope each reads
  present _ :=
    nofun

private theorem status : Rewritable DeploymentStatus where
  rereads :=
    rereads_status
  carries :=
    PassesThrough.carries (fun _ => keeps_status)
      DeploymentStatus.settled_carries
  present _ :=
    nofun

private theorem deployment : Rewritable Deployment where
  rereads :=
    rereads_deployment
  carries :=
    PassesThrough.carries keeps_deployment Deployment.settled_carries
  present _ :=
    nofun

private theorem deployments : Rewritable (List Deployment) where
  rereads :=
    rereads_items rereads_deployment
  carries :=
    PassesThrough.carries (PassesThrough.list keeps_deployment)
      (.mapItems Deployment.settled_carries)
  present _ :=
    nofun

private theorem inspection : Rewritable Inspection where
  rereads :=
    rereads_inspection
  carries :=
    PassesThrough.carries keeps_inspection Inspection.settled_carries
  present _ :=
    nofun

private theorem containerState : Rewritable ContainerState where
  rereads :=
    rereads_containerState
  carries :=
    PassesThrough.carries keeps_containerState ContainerState.settled_carries
  present _ :=
    nofun

private theorem serviceState : Rewritable ServiceState where
  rereads :=
    rereads_serviceState
  carries :=
    PassesThrough.carries keeps_serviceState ServiceState.settled_carries
  present _ :=
    nofun

/-- Whatever a query is answered with can be written again. -/
theorem answer (query : Query) : Rewritable query.Answer := by
  cases query with
  | deployments | serviceDeployments =>
      exact deployments
  | deployment =>
      exact deployment
  | containers | container =>
      exact containerState
  | serviceContainers =>
      exact serviceState

end Rewritable

/--
Every type of documents stays once it is written, bare and in an envelope.
-/
theorem written_documents_stay :
    (Stays DeploymentStatus ∧ Stays (Envelope DeploymentStatus)) ∧
      (Stays Deployment ∧ Stays (Envelope Deployment)) ∧
        (Stays (List Deployment) ∧ Stays (Envelope (List Deployment))) ∧
          (Stays Inspection ∧ Stays (Envelope Inspection)) ∧
            (Stays ContainerState ∧ Stays (Envelope ContainerState)) ∧
              (Stays ServiceState ∧ Stays (Envelope ServiceState)) := by
  have both {α : Type} [Document α] (rewritable : Rewritable α) :
      Stays α ∧ Stays (Envelope α) :=
    ⟨rewritable.stays, rewritable.envelope.stays⟩
  exact ⟨both .status, both .deployment, both .deployments, both .inspection,
    both .containerState, both .serviceState⟩

/--
A deployment in an envelope, with blanks and escapes, a status in the form of
an object, a member that is repeated, and whole numbers at both ends of the
range.
-/
def untidyText : String :=
  " \x7b\"success\" : true,\n\"data\":\x7b\"b\":[18446744073709551615],\"a\":1," ++
    "\"status\":\x7b\"Failed\":null\x7d,\"digest\":\"\\u000a\",\"a\":\x7b\x7d," ++
    "\"id\":-9223372036854775808,\"created_at\":\"\"\x7d\x7d"

/-- What is written for the deployment. -/
def tidyText : String :=
  "\x7b\"success\":true,\"data\":\x7b\"id\":-9223372036854775808," ++
    "\"digest\":\"\\n\",\"status\":\"Failed\",\"created_at\":\"\"," ++
    "\"a\":\x7b\x7d,\"b\":[18446744073709551615]\x7d,\"error\":null\x7d"

/-- The untidy text is written tidily, and the tidy text stays. -/
theorem tidyText_stays :
    HasWholeNumbers (bytesOf untidyText) ∧
      ∃ envelope : Envelope Deployment,
        read? (Envelope Deployment) (bytesOf untidyText) = some envelope ∧
          write envelope = tidyText ∧
            read? (Envelope Deployment) (bytesOf tidyText) =
              some envelope := by
  have whole : HasWholeNumbers (bytesOf untidyText) := by
    decide +kernel
  have tidied :
      (read? (Envelope Deployment) (bytesOf untidyText)).map write =
        some tidyText := by
    decide +kernel
  obtain ⟨envelope, reads, written⟩ := Option.map_eq_some_iff.mp tidied
  have stays := written_documents_stay.2.1.2 whole reads
  rw [written] at stays
  exact ⟨whole, envelope, reads, written, stays⟩

end EventRelay.Backend
