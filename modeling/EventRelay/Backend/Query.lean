import EventRelay.Backend.Envelope
import EventRelay.Text.Plain

namespace EventRelay.Backend

/-!
# Queries

What can be asked of the backend, where below the base address it is found,
and which kind of document the answer holds.
-/

/-- A question to the backend. -/
inductive Query where
  | deployments
  | deployment (id : Int)
  | serviceDeployments (project service : List Char)
  | containers
  | container (id : List Char)
  | serviceContainers (hostname project service : List Char)
  deriving Repr, DecidableEq

namespace Query

/-- The kind of document that answers a query. -/
abbrev Answer : Query → Type
  | .deployments =>
      List Deployment
  | .deployment _ =>
      Deployment
  | .serviceDeployments _ _ =>
      List Deployment
  | .containers =>
      ContainerState
  | .container _ =>
      ContainerState
  | .serviceContainers _ _ _ =>
      ServiceState

instance (query : Query) : Document query.Answer :=
  match query with
  | .deployments =>
      inferInstanceAs (Document (List Deployment))
  | .deployment _ =>
      inferInstanceAs (Document Deployment)
  | .serviceDeployments _ _ =>
      inferInstanceAs (Document (List Deployment))
  | .containers =>
      inferInstanceAs (Document ContainerState)
  | .container _ =>
      inferInstanceAs (Document ContainerState)
  | .serviceContainers _ _ _ =>
      inferInstanceAs (Document ServiceState)

/-- The names that the asker chose; they become segments of the path. -/
def chosen : Query → List (List Char)
  | .deployments =>
      []
  | .deployment _ =>
      []
  | .serviceDeployments project service =>
      [project, service]
  | .containers =>
      []
  | .container id =>
      [id]
  | .serviceContainers hostname project service =>
      [hostname, project, service]

/-- Whether all chosen names are safe as segments. -/
def isAllowed (query : Query) : Bool :=
  query.chosen.all Text.isPlainSegment

/-- The segments below the base address. -/
def segments : Query → List (List Char)
  | .deployments =>
      ["deployments".toList]
  | .deployment id =>
      ["deployments".toList, Json.Number.wholeText id]
  | .serviceDeployments project service =>
      ["deployments".toList, project, service]
  | .containers =>
      ["container".toList, "state".toList]
  | .container id =>
      ["container".toList, "state".toList, id]
  | .serviceContainers hostname project service =>
      ["container".toList, "state".toList, hostname, project, service]

/-- The path below the base address. -/
def path (query : Query) : List Char :=
  ['/'].intercalate query.segments

end Query

end EventRelay.Backend
