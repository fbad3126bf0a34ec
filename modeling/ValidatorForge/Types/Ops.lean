import ValidatorForge.Types.Ids

/-!
# Deployment kinds, run records

crates/validatorforge-types/src/ops.rs: what a run is asked to do
(`DeploymentKind`), the actions its steps stand for (`OpsActionKind`) and the
record that tracks it (`DeploymentRun`), with its two mutations.
-/
namespace ValidatorForge.Types

/-- mirrors crates/validatorforge-types/src/ops.rs:9-27 -/
inductive DeploymentKind where
  | provision
  | upgrade (targetVersion : ValidatorVersion)
  | failover (spare : NodeId)
  | decommission
  deriving DecidableEq, Repr

/-- mirrors crates/validatorforge-types/src/ops.rs:29-40 -/
def DeploymentKind.asStr : DeploymentKind → String
  | .provision => "provision"
  | .upgrade _ => "upgrade"
  | .failover _ => "failover"
  | .decommission => "decommission"

/-- mirrors crates/validatorforge-types/src/ops.rs:42-61 -/
inductive OpsActionKind where
  | applyInfra | tuneHost | startValidator | awaitCatchup | drain | swapIdentity | destroyInfra
  deriving DecidableEq, Repr

/-- mirrors crates/validatorforge-types/src/ops.rs:62-75 -/
def OpsActionKind.asStr : OpsActionKind → String
  | .applyInfra => "apply_infra"
  | .tuneHost => "tune_host"
  | .startValidator => "start_validator"
  | .awaitCatchup => "await_catchup"
  | .drain => "drain"
  | .swapIdentity => "swap_identity"
  | .destroyInfra => "destroy_infra"

/-- mirrors crates/validatorforge-types/src/ops.rs:108-120 -/
inductive RunStatus where
  | running | succeeded | rolledBack | failed
  deriving DecidableEq, Repr

/-- mirrors crates/validatorforge-types/src/ops.rs:122-132 -/
def RunStatus.asStr : RunStatus → String
  | .running => "running"
  | .succeeded => "succeeded"
  | .rolledBack => "rolled_back"
  | .failed => "failed"

/-- mirrors crates/validatorforge-types/src/ops.rs:134-138 -/
def RunStatus.isTerminal : RunStatus → Bool
  | .running => false
  | _ => true

/-- mirrors crates/validatorforge-types/src/ops.rs:147-157 -/
structure DeploymentRun where
  id : RunId
  target : NodeId
  kind : DeploymentKind
  status : RunStatus
  completedSteps : List OpsActionKind
  startedAt : DateTime
  finishedAt : Option DateTime
  deriving DecidableEq, Repr

namespace DeploymentRun

/-- mirrors crates/validatorforge-types/src/ops.rs:159-172 -/
def new (id : RunId) (target : NodeId) (kind : DeploymentKind) (startedAt : DateTime) :
    DeploymentRun :=
  { id, target, kind, status := .running, completedSteps := [], startedAt, finishedAt := none }

/-- mirrors crates/validatorforge-types/src/ops.rs:216-219 -/
def recordStep (r : DeploymentRun) (action : OpsActionKind) : DeploymentRun :=
  { r with completedSteps := r.completedSteps ++ [action] }

/-- mirrors crates/validatorforge-types/src/ops.rs:221-225 -/
def finish (r : DeploymentRun) (status : RunStatus) (now : DateTime) : DeploymentRun :=
  { r with status, finishedAt := some now }

/-- `r` after recording `actions` one by one. -/
def recordSteps (r : DeploymentRun) (actions : List OpsActionKind) : DeploymentRun :=
  { r with completedSteps := r.completedSteps ++ actions }

@[simp] theorem recordStep_id (r : DeploymentRun) (a : OpsActionKind) :
    (r.recordStep a).id = r.id := rfl

@[simp] theorem recordSteps_id (r : DeploymentRun) (as : List OpsActionKind) :
    (r.recordSteps as).id = r.id := rfl

@[simp] theorem recordSteps_completedSteps (r : DeploymentRun) (as : List OpsActionKind) :
    (r.recordSteps as).completedSteps = r.completedSteps ++ as := rfl

@[simp] theorem recordSteps_nil (r : DeploymentRun) : r.recordSteps [] = r := by
  simp [recordSteps]

theorem recordSteps_recordStep (r : DeploymentRun) (a : OpsActionKind) (as : List OpsActionKind) :
    (r.recordStep a).recordSteps as = r.recordSteps (a :: as) := by
  simp [recordSteps, recordStep]

end DeploymentRun

end ValidatorForge.Types
