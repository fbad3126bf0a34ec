import ValidatorForge.Lib.Prog
import ValidatorForge.Types.Node
import ValidatorForge.Types.Ops
import ValidatorForge.Types.Health

/-!
# Errors, events and the outbound ports

crates/validatorforge-core/src/error.rs, event.rs, ports.rs and config.rs. Each
port is a signature: `AgentSig` is the `NodeAgent` trait, `EngineSig` is
everything `OpsEngine` calls (repository, agent, event sink, advisor, wall
clock, the two admission gates and the run counter). What stands behind a port
is an environment and never part of the code.
-/
namespace ValidatorForge.Core

open Interaction ValidatorForge.Types

/-- mirrors crates/validatorforge-core/src/error.rs:7-21 -/
inductive PortError where
  | unavailable (msg : String)
  | timeout (msg : String)
  | rejected (msg : String)
  | internal (msg : String)
  deriving DecidableEq, Repr

/-- mirrors crates/validatorforge-core/src/error.rs:24-28 -/
def PortError.isRetryable : PortError → Bool
  | .unavailable _ | .timeout _ => true
  | _ => false

/-- mirrors crates/validatorforge-core/src/error.rs:30-39 -/
def PortError.code : PortError → String
  | .unavailable _ => "UNAVAILABLE"
  | .timeout _ => "TIMEOUT"
  | .rejected _ => "REJECTED"
  | .internal _ => "INTERNAL"

/-- `to_string` of an error.
mirrors crates/validatorforge-core/src/error.rs:6-21 -/
def PortError.fmt : PortError → String
  | .unavailable msg => "dependency unavailable: " ++ msg
  | .timeout msg => "operation timed out: " ++ msg
  | .rejected msg => "rejected: " ++ msg
  | .internal msg => "internal error: " ++ msg

/-- mirrors crates/validatorforge-core/src/error.rs:42-60 -/
inductive CoreError where
  | domain (e : DomainError)
  | port (e : PortError)
  | notFound (what : String)
  | throttled
  | circuitOpen
  deriving DecidableEq, Repr

/-- mirrors crates/validatorforge-core/src/error.rs:62-74 -/
def CoreError.code : CoreError → String
  | .domain e => e.code.asStr
  | .port e => e.code
  | .notFound _ => "NOT_FOUND"
  | .throttled => "THROTTLED"
  | .circuitOpen => "CIRCUIT_OPEN"

/-- mirrors crates/validatorforge-core/src/error.rs:42-60 -/
def CoreError.fmt : CoreError → String
  | .domain e => e.fmt
  | .port e => e.fmt
  | .notFound what => "not found: " ++ what
  | .throttled => "request throttled"
  | .circuitOpen => "circuit open"

/-- mirrors crates/validatorforge-core/src/event.rs:13-70 -/
inductive OpsEvent where
  | runStarted (run : RunId) (node : NodeId) (kind : DeploymentKind) (at' : DateTime)
  | stepCompleted (run : RunId) (action : OpsActionKind) (at' : DateTime)
  | stepCompensated (run : RunId) (action : OpsActionKind) (at' : DateTime)
  | nodeStateChanged (node : NodeId) (from' to' : NodeState) (at' : DateTime)
  | healthEvaluated (node : NodeId) (status : HealthStatus) (at' : DateTime)
  | runFinished (run : RunId) (status : RunStatus) (at' : DateTime)
  deriving DecidableEq, Repr

/-- The calls of the `NodeAgent` trait.
mirrors crates/validatorforge-core/src/ports.rs:24-44 -/
inductive AgentCall where
  | applyInfra (host : HostAddr)
  | tuneHost (host : HostAddr)
  | startValidator (host : HostAddr) (version : ValidatorVersion)
  | awaitCatchup (host : HostAddr)
  | drain (host : HostAddr)
  | swapIdentity (from' to' : HostAddr)
  | destroyInfra (host : HostAddr)
  deriving DecidableEq, Repr

/-- What a successful call returns: `await_catchup` the tip slot, the rest nothing. -/
@[reducible] def AgentCall.Reply : AgentCall → Type
  | .awaitCatchup _ => Slot
  | _ => Unit

/-- A reply to a successful call. -/
def AgentCall.okReply : (c : AgentCall) → c.Reply
  | .awaitCatchup _ => ⟨0⟩
  | .applyInfra _ | .tuneHost _ | .startValidator .. | .drain _ | .swapIdentity .. |
    .destroyInfra _ => ()

abbrev AgentSig : Sig where
  Op := AgentCall
  Resp c := Except PortError c.Reply

/-- mirrors crates/validatorforge-core/src/config.rs:5-35 (times in
nanoseconds; the admission rates are rationals) -/
structure OpsConfig where
  lagWarn : Nat
  lagCrit : Nat
  skipCrit : F64
  freshnessSecs : Int
  opTimeout : Nat
  maxAttempts : Nat
  retryBase : Nat
  retryMax : Nat
  breakerThreshold : Nat
  breakerCooldownMs : Nat
  rateCapacity : Rat
  ratePerSec : Rat
  maxConcurrentDeploys : Nat

/-- mirrors crates/validatorforge-core/src/config.rs:37-55 -/
def OpsConfig.default : OpsConfig :=
  { lagWarn := 32, lagCrit := 128, skipCrit := .num (1 / 2), freshnessSecs := 60,
    opTimeout := 30000000000, maxAttempts := 3, retryBase := 50000000, retryMax := 5000000000,
    breakerThreshold := 5, breakerCooldownMs := 10000, rateCapacity := 16, ratePerSec := 4,
    maxConcurrentDeploys := 8 }

/-- Everything `OpsEngine` calls. `limiterTryAcquire` and `bulkheadTryAcquire`
are the admission gates (the latter answers whether a slot was free),
`bulkheadRelease` is the drop of the slot's guard, `nextRun` is
`next_run.fetch_add(1)` and `now` is the wall clock.
mirrors crates/validatorforge-core/src/engine.rs:22-33 and ports.rs:16-94 -/
inductive EngineOp where
  | limiterTryAcquire
  | bulkheadTryAcquire
  | bulkheadRelease
  | getNode (id : NodeId)
  | saveNode (node : ValidatorNode)
  | listNodes
  | getRun (id : RunId)
  | saveRun (run : DeploymentRun)
  | listRuns (limit : Nat)
  | nextRun
  | now
  | publish (event : OpsEvent)
  | agent (call : AgentCall)
  | advise (node : ValidatorNode) (context : String)

@[reducible] def EngineOp.Resp : EngineOp → Type
  | .limiterTryAcquire | .bulkheadTryAcquire => Bool
  | .bulkheadRelease | .publish _ => Unit
  | .getNode _ => Except PortError (Option ValidatorNode)
  | .saveNode _ | .saveRun _ => Except PortError Unit
  | .listNodes => Except PortError (List ValidatorNode)
  | .getRun _ => Except PortError (Option DeploymentRun)
  | .listRuns _ => Except PortError (List DeploymentRun)
  | .nextRun => UInt64
  | .now => DateTime
  | .agent c => Except PortError c.Reply
  | .advise .. => String

abbrev EngineSig : Sig where
  Op := EngineOp
  Resp := EngineOp.Resp

end ValidatorForge.Core
