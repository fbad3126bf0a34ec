import ValidatorForge.Core.Saga

/-!
# The concrete steps and plans

crates/validatorforge-core/src/saga.rs:47-162. Each method of a `PlanStep` is a
program over `AgentSig`; `executeCall` and `compensateCall` name the one agent
call it makes, if any (`exec_execute`, `exec_compensate`). `buildPlan` lists the
steps of a deployment kind.
-/
namespace ValidatorForge.Core

open Interaction ValidatorForge.Types Prog

/-- mirrors crates/validatorforge-core/src/saga.rs:47-140 -/
inductive PlanStep where
  | applyInfraStep | tuneHostStep | startValidatorStep | awaitCatchupStep | drainStep
  | swapIdentityStep | destroyInfraStep
  deriving DecidableEq, Repr

instance : SagaStep PlanStep where
  action
    | .applyInfraStep => .applyInfra
    | .tuneHostStep => .tuneHost
    | .startValidatorStep => .startValidator
    | .awaitCatchupStep => .awaitCatchup
    | .drainStep => .drain
    | .swapIdentityStep => .swapIdentity
    | .destroyInfraStep => .destroyInfra

/-- A reply of the agent seen as `Result<(), PortError>`. -/
def unitOf {c : AgentCall} (r : Except PortError c.Reply) : Except PortError Unit :=
  r.map fun _ => ()

/-- One call of the agent; what it replies (only `await_catchup` replies
anything) is dropped. -/
def call (c : AgentCall) : Prog AgentSig (Except PortError Unit) := do
  return unitOf (← perform (S := AgentSig) c)

namespace PlanStep

/-- mirrors crates/validatorforge-core/src/saga.rs:53-55,67-69,78-80,92-94,103-105,114-120,136-138 -/
def execute : PlanStep → SagaContext → Prog AgentSig (Except PortError Unit)
  | .applyInfraStep, ctx => call (.applyInfra ctx.host)
  | .tuneHostStep, ctx => call (.tuneHost ctx.host)
  | .startValidatorStep, ctx => call (.startValidator ctx.host ctx.version)
  | .awaitCatchupStep, ctx => call (.awaitCatchup ctx.host)
  | .drainStep, ctx => call (.drain ctx.host)
  | .swapIdentityStep, ctx =>
    match ctx.spareHost with
    | none => pure (.error (.rejected "failover requires a spare host"))
    | some spare => call (.swapIdentity ctx.host spare)
  | .destroyInfraStep, ctx => call (.destroyInfra ctx.host)

/-- The trait's default is a no-op that succeeds.
mirrors crates/validatorforge-core/src/saga.rs:42-44,56-58,81-83,121-128 -/
def compensate : PlanStep → SagaContext → Prog AgentSig (Except PortError Unit)
  | .applyInfraStep, ctx => call (.destroyInfra ctx.host)
  | .startValidatorStep, ctx => call (.drain ctx.host)
  | .swapIdentityStep, ctx =>
    match ctx.spareHost with
    | some spare => call (.swapIdentity spare ctx.host)
    | none => pure (.ok ())
  | _, _ => pure (.ok ())

end PlanStep

open PlanStep in
/-- mirrors crates/validatorforge-core/src/saga.rs:142-162 -/
def buildPlan : DeploymentKind → List PlanStep
  | .provision => [applyInfraStep, tuneHostStep, startValidatorStep, awaitCatchupStep]
  | .upgrade _ => [drainStep, startValidatorStep, awaitCatchupStep]
  | .failover _ => [drainStep, swapIdentityStep]
  | .decommission => [drainStep, destroyInfraStep]

namespace PlanStep

/-! ## The call behind each method -/

def executeCall : PlanStep → SagaContext → Option AgentCall
  | .applyInfraStep, ctx => some (.applyInfra ctx.host)
  | .tuneHostStep, ctx => some (.tuneHost ctx.host)
  | .startValidatorStep, ctx => some (.startValidator ctx.host ctx.version)
  | .awaitCatchupStep, ctx => some (.awaitCatchup ctx.host)
  | .drainStep, ctx => some (.drain ctx.host)
  | .swapIdentityStep, ctx => ctx.spareHost.map (.swapIdentity ctx.host ·)
  | .destroyInfraStep, ctx => some (.destroyInfra ctx.host)

def compensateCall : PlanStep → SagaContext → Option AgentCall
  | .applyInfraStep, ctx => some (.destroyInfra ctx.host)
  | .startValidatorStep, ctx => some (.drain ctx.host)
  | .swapIdentityStep, ctx => ctx.spareHost.map (.swapIdentity · ctx.host)
  | _, _ => none

@[simp] theorem isOk_unitOf {c : AgentCall} (r : Except PortError c.Reply) :
    (unitOf r).isOk = r.isOk := by
  cases r <;> rfl

theorem exec_call (c : AgentCall) (tr : List AgentSig.Ev) (r : Except PortError Unit) :
    (call c).Exec tr r ↔ ∃ reply, tr = [⟨c, reply⟩] ∧ r = unitOf reply := by
  constructor
  · rintro ⟨reply, _, rfl, rfl, rfl⟩; exact ⟨reply, rfl, rfl⟩
  · rintro ⟨reply, rfl, rfl⟩; exact ⟨reply, [], rfl, rfl, rfl⟩

/-- A step's `execute` is one call of the agent; only `SwapIdentity` without a
spare host fails without one. -/
theorem exec_execute (s : PlanStep) (ctx : SagaContext) (tr : List AgentSig.Ev)
    (r : Except PortError Unit) :
    (s.execute ctx).Exec tr r ↔ match s.executeCall ctx with
      | some c => ∃ reply, tr = [⟨c, reply⟩] ∧ r = unitOf reply
      | none => tr = [] ∧ r = .error (.rejected "failover requires a spare host") := by
  cases s with
  | swapIdentityStep =>
    cases hs : ctx.spareHost with
    | none => simp only [execute, executeCall, hs]; rfl
    | some spare => simp only [execute, executeCall, hs, Option.map_some]; exact exec_call ..
  | _ => exact exec_call ..

/-- A step's `compensate` is one call of the agent, or nothing. -/
theorem exec_compensate (s : PlanStep) (ctx : SagaContext) (tr : List AgentSig.Ev)
    (r : Except PortError Unit) :
    (s.compensate ctx).Exec tr r ↔ match s.compensateCall ctx with
      | some c => ∃ reply, tr = [⟨c, reply⟩] ∧ r = unitOf reply
      | none => tr = [] ∧ r = .ok () := by
  cases s with
  | applyInfraStep | startValidatorStep => exact exec_call ..
  | swapIdentityStep =>
    cases hs : ctx.spareHost with
    | none => simp only [compensate, compensateCall, hs]; rfl
    | some spare => simp only [compensate, compensateCall, hs, Option.map_some]; exact exec_call ..
  | _ => exact Iff.rfl

/-- The agent call behind an `execute`, or the failure without one. -/
theorem execute_cases {s : PlanStep} {ctx : SagaContext} {tr : List AgentSig.Ev}
    {r : Except PortError Unit} (h : (s.execute ctx).Exec tr r) :
    (∃ c reply, s.executeCall ctx = some c ∧ tr = [⟨c, reply⟩] ∧ r = unitOf reply) ∨
      (s.executeCall ctx = none ∧ tr = [] ∧ r.isOk = false) := by
  rw [exec_execute] at h
  cases hc : s.executeCall ctx with
  | some c =>
    rw [hc] at h
    obtain ⟨reply, htr, hr⟩ := h
    exact .inl ⟨c, reply, rfl, htr, hr⟩
  | none =>
    rw [hc] at h
    obtain ⟨htr, hr⟩ := h
    exact .inr ⟨rfl, htr, by rw [hr]; rfl⟩

/-- The agent call behind a `compensate`, or nothing. -/
theorem compensate_cases {s : PlanStep} {ctx : SagaContext} {tr : List AgentSig.Ev}
    {r : Except PortError Unit} (h : (s.compensate ctx).Exec tr r) :
    (∃ c reply, s.compensateCall ctx = some c ∧ tr = [⟨c, reply⟩] ∧ r = unitOf reply) ∨
      (s.compensateCall ctx = none ∧ tr = []) := by
  rw [exec_compensate] at h
  cases hc : s.compensateCall ctx with
  | some c =>
    rw [hc] at h
    obtain ⟨reply, htr, hr⟩ := h
    exact .inl ⟨c, reply, rfl, htr, hr⟩
  | none =>
    rw [hc] at h
    exact .inr ⟨rfl, h.1⟩

end PlanStep

end ValidatorForge.Core
