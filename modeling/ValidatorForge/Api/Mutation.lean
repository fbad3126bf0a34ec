import ValidatorForge.Api.Types

/-!
# The mutation root

crates/validatorforge-api/src/mutation.rs. What a mutation is given is checked field by
field, in the order of the source, before the engine is called.
-/
namespace ValidatorForge.Api

open ValidatorForge.Types ValidatorForge.Core

/-- mirrors crates/validatorforge-api/src/mutation.rs:12-27 -/
structure RegisterNodeInput where
  id : String
  clusterName : String
  cluster : Cluster
  host : String
  role : NodeRole
  version : String
  deriving DecidableEq, Repr

/-- mirrors crates/validatorforge-api/src/mutation.rs:29-40 -/
structure StartDeploymentInput where
  nodeId : String
  kind : DeploymentKindGql
  targetVersion : Option String
  spare : Option String
  deriving DecidableEq, Repr

namespace MutationRoot

/-- `now` is what `Utc::now()` returned.
mirrors crates/validatorforge-api/src/mutation.rs:47-68 -/
def registerNode (now : DateTime) (input : RegisterNodeInput) : Resolver NodeObject := do
  let id ← checked (NodeId.new input.id)
  let clusterName ← checked (ClusterName.new input.clusterName)
  let host ← checked (HostAddr.new input.host)
  let version ← checked (ValidatorVersion.new input.version)
  let node := ValidatorNode.new id clusterName input.cluster host input.role version now
  served (OpsEngine.registerNode node)
  return NodeObject.ofNode node

/-- mirrors crates/validatorforge-api/src/mutation.rs:80-100 -/
def deploymentKind (input : StartDeploymentInput) : Resolver DeploymentKind :=
  match input.kind with
  | .provision => return .provision
  | .decommission => return .decommission
  | .upgrade =>
    match input.targetVersion with
    | none => throw { message := "targetVersion required for UPGRADE", code := none }
    | some v => do return .upgrade (← checked (ValidatorVersion.new v))
  | .failover =>
    match input.spare with
    | none => throw { message := "spare required for FAILOVER", code := none }
    | some s => do return .failover (← checked (NodeId.new s))

/-- mirrors crates/validatorforge-api/src/mutation.rs:70-108 -/
def startDeployment (input : StartDeploymentInput) : Resolver RunObject := do
  let nodeId ← checked (NodeId.new input.nodeId)
  let kind ← deploymentKind input
  let run ← served (OpsEngine.startDeployment nodeId kind)
  return RunObject.ofRun run

end MutationRoot

end ValidatorForge.Api
