import ValidatorForge.Core.Engine

/-!
# The objects of the API

crates/validatorforge-api/src/types.rs and schema.rs. A `GqlError` is the
message of a GraphQL error and its `code` extension.
-/
namespace ValidatorForge.Api

open ValidatorForge.Types ValidatorForge.Core

structure GqlError where
  message : String
  code : Option String
  deriving DecidableEq, Repr

/-- mirrors crates/validatorforge-api/src/schema.rs:30-34 -/
def toErr (e : CoreError) : GqlError := { message := e.fmt, code := some e.code }

/-- mirrors crates/validatorforge-api/src/types.rs:47-64 -/
structure RunObject where
  id : String
  target : String
  kind : String
  status : String
  completedSteps : List String
  startedAt : DateTime
  finishedAt : Option DateTime
  deriving DecidableEq, Repr

/-- mirrors crates/validatorforge-api/src/types.rs:66-82 -/
def RunObject.ofRun (r : DeploymentRun) : RunObject :=
  { id := r.id.fmt
    target := r.target.raw
    kind := r.kind.asStr
    status := r.status.asStr
    completedSteps := r.completedSteps.map OpsActionKind.asStr
    startedAt := r.startedAt
    finishedAt := r.finishedAt }

/-- mirrors crates/validatorforge-api/src/types.rs:8-29 -/
structure NodeObject where
  id : String
  cluster : String
  clusterName : String
  host : String
  role : String
  state : String
  version : String
  createdAt : DateTime
  updatedAt : DateTime
  deriving DecidableEq, Repr

/-- mirrors crates/validatorforge-api/src/types.rs:31-45 -/
def NodeObject.ofNode (n : ValidatorNode) : NodeObject :=
  { id := n.id.raw
    cluster := n.cluster.asStr
    clusterName := n.clusterName.raw
    host := n.host.raw
    role := n.role.asStr
    state := n.state.asStr
    version := n.version.raw
    createdAt := n.createdAt
    updatedAt := n.updatedAt }

/-- `nodes` is an `i32`.
mirrors crates/validatorforge-api/src/types.rs:84-91 -/
structure HealthObject where
  status : String
  nodes : Nat
  deriving DecidableEq, Repr

/-- The enums of the input are those of the domain, case by case
(crates/validatorforge-api/src/types.rs:110-148); the selector of a kind is not.
mirrors crates/validatorforge-api/src/types.rs:150-163 -/
inductive DeploymentKindGql where
  | provision | upgrade | failover | decommission
  deriving DecidableEq, Repr

/-! ## Resolvers -/

/-- A resolver is a program over the engine's ports that may fail with a `GqlError`. -/
abbrev Resolver : Type → Type := ExceptT GqlError (Interaction.Prog EngineSig)

/-- `.await.map_err(to_err)?` on a method of the engine. -/
def served {α : Type} (x : Engine α) : Resolver α :=
  ExceptT.mk do return (← x.run).mapError toErr

/-- `.map_err(|e| Error::new(e.to_string()))?` on a constructor. -/
def checked {α : Type} (x : Except DomainError α) : Resolver α :=
  ExceptT.mk (.ret (x.mapError fun e => { message := e.fmt, code := none }))

end ValidatorForge.Api
