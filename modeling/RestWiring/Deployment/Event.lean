import RestWiring.Orchestration.Plan

/-!
# Deployment events and reports

Events tell how a deployment goes on while it runs; a report tells at the end how every component
fared.
-/
namespace RestWiring

/-- How a component fared. -/
inductive SubgraphStatus where
  | planned
  | deployed
  | failed (error : OrchestrationError)
  | cancelled
  deriving DecidableEq, Repr

namespace SubgraphStatus

def isUnfinished : SubgraphStatus → Bool
  | .failed _ | .cancelled => true
  | .planned | .deployed => false

def members : SubgraphStatus → List (String × Json)
  | .planned => [("status", .string "planned")]
  | .deployed => [("status", .string "deployed")]
  | .failed error => [("status", .string "failed"), ("error", .string error.message)]
  | .cancelled => [("status", .string "cancelled")]

end SubgraphStatus

structure SubgraphReport where
  index : Nat
  /-- Absent if the component could not be planned. -/
  plan : Option SubgraphPlan
  status : SubgraphStatus

def SubgraphReport.toJson (r : SubgraphReport) : Json :=
  .object <|
    [("index", .nat r.index)] ++ Json.optional "plan" (r.plan.map (·.toJson)) ++ r.status.members

structure DeploymentReport where
  deploymentId : String
  dryRun : Bool
  channel : String
  /-- One entry for each component, in order. -/
  subgraphs : List SubgraphReport

namespace DeploymentReport

/-- The components that failed or were cancelled. -/
def unfinished (r : DeploymentReport) : List SubgraphReport :=
  r.subgraphs.filter (·.status.isUnfinished)

def isSuccess (r : DeploymentReport) : Bool := r.unfinished.isEmpty

def toJson (r : DeploymentReport) : Json :=
  .object
    [("deployment_id", .string r.deploymentId), ("dry_run", .bool r.dryRun),
     ("channel", .string r.channel), ("subgraphs", .array (r.subgraphs.map (·.toJson)))]

end DeploymentReport

inductive DeploymentEvent where
  | deploymentStarted (subgraphs : Nat) (dryRun : Bool)
  | subgraphStarted (index : Nat)
  | constructRegistered (kind : ConstructKind) (name : String) (registration : Registration)
  | edgeWired (start target : String)
  | subgraphCompleted (index : Nat)
  | subgraphFailed (index : Nat) (error : OrchestrationError)
  | subgraphCancelled (index : Nat)
  | deploymentCompleted (failed : Nat)
  deriving DecidableEq, Repr

namespace DeploymentEvent

def name : DeploymentEvent → String
  | .deploymentStarted .. => "DeploymentStarted"
  | .subgraphStarted _ => "SubgraphStarted"
  | .constructRegistered .. => "ConstructRegistered"
  | .edgeWired .. => "EdgeWired"
  | .subgraphCompleted _ => "SubgraphCompleted"
  | .subgraphFailed .. => "SubgraphFailed"
  | .subgraphCancelled _ => "SubgraphCancelled"
  | .deploymentCompleted _ => "DeploymentCompleted"

def members : DeploymentEvent → List (String × Json)
  | .deploymentStarted subgraphs dryRun => [("subgraphs", .nat subgraphs), ("dry_run", .bool dryRun)]
  | .subgraphStarted index | .subgraphCompleted index | .subgraphCancelled index => [("index", .nat index)]
  | .constructRegistered kind name registration =>
    [("kind", .string kind.text), ("name", .string name), ("registration", .string registration.text)]
  | .edgeWired start target => [("from", .string start), ("to", .string target)]
  | .subgraphFailed index error => [("index", .nat index), ("error", .string error.message)]
  | .deploymentCompleted failed => [("failed", .nat failed)]

/-- The event that tells how the cascade of a component ended. -/
def ofStatus (index : Nat) : SubgraphStatus → DeploymentEvent
  | .failed e => .subgraphFailed index e
  | .cancelled => .subgraphCancelled index
  | .planned | .deployed => .subgraphCompleted index

/-- An event as the deployment of a given name reports it. -/
def toJson (deploymentId : String) (e : DeploymentEvent) : Json :=
  .object [(e.name, .object (("deployment_id", .string deploymentId) :: e.members))]

end DeploymentEvent

end RestWiring
