import ValidatorForge.Core.Plan
import ValidatorForge.Resilience.Breaker
import ValidatorForge.Resilience.Retry

/-!
# The resilient agent

crates/validatorforge-core/src/agent.rs. `ResilientNodeAgent.guard` is a program
over `ResilientSig`: the breaker's methods, one attempt on the inner agent under
a timeout, the backoff and the sleep (and the executor's own two ports, which
pass the agent by). `breakerEnv` is what answers it: the one breaker, a clock
that never runs backwards, and an inner agent that may answer anything.

`exec_guard`: a guarded call is either refused by the breaker, the inner agent
hearing nothing of it, or makes at least one attempt on the inner agent.
-/
namespace ValidatorForge.Core

open Interaction ValidatorForge.Types Prog Resilience

/-- The label each method of the wrapper passes to `guard`.
mirrors crates/validatorforge-core/src/agent.rs:89-129 -/
def AgentCall.label : AgentCall → String
  | .applyInfra _ => "apply_infra"
  | .tuneHost _ => "tune_host"
  | .startValidator .. => "start_validator"
  | .awaitCatchup _ => "await_catchup"
  | .drain _ => "drain"
  | .swapIdentity .. => "swap_identity"
  | .destroyInfra _ => "destroy_infra"

/-- `withTimeout dur c` is one attempt: `c` on the inner agent, given up after
`dur`. -/
inductive ResilientOp where
  | acquire
  | onSuccess
  | onFailure
  | withTimeout (dur : Nat) (c : AgentCall)
  | backoffFor (retryIndex : Nat)
  | sleep (delay : Nat)
  | publish (event : OpsEvent)
  | now

/-- An attempt answers `none` when it timed out.
mirrors crates/validatorforge-resilience/src/timeout.rs:13-24 -/
@[reducible] def ResilientOp.Resp : ResilientOp → Type
  | .acquire => Except BreakerError Unit
  | .withTimeout _ c => Option (Except PortError c.Reply)
  | .backoffFor _ => Nat
  | .onSuccess | .onFailure | .sleep _ | .publish _ => Unit
  | .now => DateTime

abbrev ResilientSig : Sig where
  Op := ResilientOp
  Resp := ResilientOp.Resp

/-- mirrors crates/validatorforge-core/src/agent.rs:17-23 -/
structure ResilientNodeAgent where
  breaker : CircuitBreaker
  retry : RetryPolicy
  opTimeout : Nat

namespace ResilientNodeAgent

/-- mirrors crates/validatorforge-core/src/agent.rs:26-40 -/
def new (cfg : OpsConfig) : ResilientNodeAgent :=
  { breaker := .new cfg.breakerThreshold cfg.breakerCooldownMs
    retry := .new cfg.maxAttempts cfg.retryBase cfg.retryMax
    opTimeout := cfg.opTimeout }

def perform (o : ResilientOp) : Prog ResilientSig o.Resp := Prog.perform (S := ResilientSig) o

/-- One attempt, reported to the breaker.
mirrors crates/validatorforge-core/src/agent.rs:61-82 -/
def attempt (A : ResilientNodeAgent) (c : AgentCall) :
    Prog ResilientSig (Except PortError c.Reply) := do
  match ← perform (.withTimeout A.opTimeout c) with
  | some (.ok v) => do
    perform .onSuccess
    return .ok v
  | some (.error e) => do
    perform .onFailure
    return .error e
  | none => do
    perform .onFailure
    return .error (.timeout c.label)

/-- mirrors crates/validatorforge-core/src/agent.rs:48-86 -/
def guard (A : ResilientNodeAgent) (c : AgentCall) :
    Prog ResilientSig (Except PortError c.Reply) := do
  match ← perform .acquire with
  | .error _ => return .error (.unavailable ("circuit open for " ++ c.label))
  | .ok () =>
    A.retry.retry (A.attempt c) PortError.isRetryable (fun i => perform (.backoffFor i))
      (fun d => perform (.sleep d))

def innerCallOf : ResilientSig.Ev → Option AgentCall
  | ⟨.withTimeout _ c, _⟩ => some c
  | _ => none

/-- The calls the inner agent received. -/
def innerCalls (tr : List ResilientSig.Ev) : List AgentCall := tr.filterMap innerCallOf

/-- **A guarded call** is refused unheard, or reaches the inner agent. -/
theorem exec_guard {A : ResilientNodeAgent} {c : AgentCall} {tr : List ResilientSig.Ev}
    {r : Except PortError c.Reply} (h : (A.guard c).Exec tr r) :
    (tr = [⟨.acquire, .error {}⟩] ∧ r = .error (.unavailable ("circuit open for " ++ c.label))) ∨
      c ∈ innerCalls tr := by
  obtain ⟨ans, rest, rfl, h⟩ := h
  cases ans with
  | error e =>
    obtain ⟨rfl, rfl⟩ := h
    exact .inl ⟨rfl, rfl⟩
  | ok _ =>
    obtain ⟨t₁, a, t₂, rfl, ⟨reply, t₃, rfl, -⟩⟩ := RetryPolicy.exec_retry h
    exact .inr (List.mem_filterMap.2 ⟨⟨.withTimeout A.opTimeout c, reply⟩, by simp, rfl⟩)

end ResilientNodeAgent

/-! ## What answers it -/

/-- The breaker's mutable part and its clock, in milliseconds. -/
structure Clocked where
  inner : Inner
  now : Nat

namespace ResilientNodeAgent

/-- Every operation may take any time; a sleep takes at least what it was asked
(its argument is in nanoseconds). -/
def breakerEnv (A : ResilientNodeAgent) : Env ResilientSig Clocked
  | .acquire, w, r, w' => w.now ≤ w'.now ∧ A.breaker.acquire w'.now w.inner = (r, w'.inner)
  | .onSuccess, w, _, w' => w.now ≤ w'.now ∧ w'.inner = CircuitBreaker.onSuccess w.inner
  | .onFailure, w, _, w' => w.now ≤ w'.now ∧ w'.inner = A.breaker.onFailure w'.now w.inner
  | .backoffFor i, w, d, w' =>
    w.now ≤ w'.now ∧ w'.inner = w.inner ∧ ∃ nanos, A.retry.backoffFor nanos i = some d
  | .sleep d, w, _, w' => w.now + d / 1000000 ≤ w'.now ∧ w'.inner = w.inner
  | .withTimeout .., w, _, w' | .publish _, w, _, w' | .now, w, _, w' =>
    w.now ≤ w'.now ∧ w'.inner = w.inner

/-- Having performed `pre`, the breaker was open and cooling when `tr` asked it. -/
structure RefusedBy (A : ResilientNodeAgent) (w : Clocked) (pre tr : List ResilientSig.Ev) :
    Prop where
  asked : tr = [⟨.acquire, .error {}⟩]
  cooling : ∃ w₁ now, A.breakerEnv.Accepts w pre w₁ ∧ w₁.now ≤ now ∧
    A.breaker.Cooling now w₁.inner

theorem refusedBy_of_accepts {A : ResilientNodeAgent} {w w' : Clocked}
    {pre tr post : List ResilientSig.Ev} (htr : tr = [⟨.acquire, .error {}⟩])
    (hw : A.breakerEnv.Accepts w (pre ++ tr ++ post) w') : A.RefusedBy w pre tr := by
  rw [List.append_assoc, Env.accepts_append] at hw
  obtain ⟨w₁, hpre, h⟩ := hw
  subst htr
  obtain ⟨w₃, ⟨hnow, hacq⟩, -⟩ := h
  exact ⟨rfl, w₁, w₃.now, hpre, hnow, CircuitBreaker.acquire_eq_error.1 (congrArg Prod.fst hacq)⟩

/-! ## The saga's steps through the agent -/

/-- What carries out the executor's operations when the steps' agent is `A`. -/
def sagaPort (A : ResilientNodeAgent) :
    (o : SagaOp PlanStep) → Prog ResilientSig ((SagaSig PlanStep).Resp o)
  | .execute s ctx => (s.execute ctx).interp A.guard
  | .compensate s ctx => (s.compensate ctx).interp A.guard
  | .publish e => perform (.publish e)
  | .now => perform .now

/-- A compensation that calls the agent is one guarded call. -/
theorem exec_compensate {A : ResilientNodeAgent} {s : PlanStep} {ctx : SagaContext}
    {c : AgentCall} (hc : s.compensateCall ctx = some c) {tr : List ResilientSig.Ev}
    {ans : Except PortError Unit} (h : (A.sagaPort (.compensate s ctx)).Exec tr ans) :
    ∃ reply, (A.guard c).Exec tr reply ∧ ans = unitOf reply := by
  have h : ((s.compensate ctx).interp A.guard).Exec tr ans := h
  obtain ⟨segs, hx, hr, rfl⟩ := (exec_interp ..).1 h
  rw [PlanStep.exec_compensate, hc] at hx
  obtain ⟨reply, hup, rfl⟩ := hx
  have hup : upper segs = [] ++ ⟨c, reply⟩ :: [] := hup
  obtain ⟨l₁, seg, l₂, rfl, h₁, h₂⟩ := exists_segs hup
  have hl₁ : l₁ = [] := List.map_eq_nil_iff.1 h₁
  have hl₂ : l₂ = [] := List.map_eq_nil_iff.1 h₂
  subst hl₁ hl₂
  have hseg := hr _ (List.mem_cons_self ..)
  exact ⟨reply, by simpa using hseg, rfl⟩

end ResilientNodeAgent

end ValidatorForge.Core
