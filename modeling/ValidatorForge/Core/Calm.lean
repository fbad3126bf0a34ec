import ValidatorForge.Core.Agent
import ValidatorForge.Core.Progress
import ValidatorForge.Lib.Rely

/-!
# The engine while nothing fails

What the engine does as long as its agent and its repository answer `Ok` (`Calm`):
it saves a run only as it opens it or with its whole plan completed, publishes no
compensation, and the only errors it returns are refusals (`startDeployment_calm`).
And what the resilient agent does as long as the agent it wraps answers `Ok` in time:
one attempt, no retry, no failure reported to the breaker (`guard_steady`). The
engine as `OpsEngine::new` wires it, with every agent call a guarded one, is
`wired` (crates/validatorforge-core/src/engine.rs:45); `wired_calm` joins the two.
-/
namespace ValidatorForge.Core

open Interaction ValidatorForge.Types Prog Resilience

/-! ## The engine -/

namespace OpsEngine

/-- The agent does what it is asked and the repository does not fail. -/
def Calm : Answers EngineSig
  | .agent _, r => r.isOk = true
  | .getNode _, r => r.isOk = true
  | .listNodes, r => r.isOk = true
  | .getRun _, r => r.isOk = true
  | .listRuns _, r => r.isOk = true
  | .saveNode _, r | .saveRun _, r => r.isOk = true
  | _, _ => True

/-- Just opened, or done as planned. -/
def Unbroken (run : DeploymentRun) : Prop :=
  run.status = .running ∧ run.completedSteps = [] ∨
    run.status = .succeeded ∧ run.completedSteps = planned run.kind

instance (run : DeploymentRun) : Decidable (Unbroken run) := inferInstanceAs (Decidable (_ ∨ _))

/-- Nothing went wrong, by the event. -/
def Undisturbed : OpsEvent → Prop
  | .stepCompensated .. => False
  | .runFinished _ status _ => status = .succeeded
  | _ => True

/-- What the engine asks for while nothing fails. -/
def Smooth : EngineOp → Prop
  | .saveRun run => Unbroken run
  | .publish ev => Undisturbed ev
  | _ => True

/-- An error that is an answer to the request and not to a failing port. -/
def Refusal : CoreError → Prop
  | .domain (.illegalTransition ..) | .notFound _ | .throttled => True
  | _ => False

/-- A value in `Q`, or a refusal. -/
def Served {α : Type} (Q : α → Prop) : Except CoreError α → Prop
  | .ok a => Q a
  | .error e => Refusal e

section Rules
variable {α β : Type} {Q : α → Prop} {Q' : β → Prop}

theorem ask_calm {o : EngineOp} (h : Smooth o) :
    (ask o).run.Ensures Calm Smooth (Served (Calm o)) :=
  Ensures.bind ((ensures_perform (S := EngineSig)).2 ⟨h, fun _ hr => hr⟩) fun _ hr => hr

theorem port_calm {p : Prog EngineSig (Except PortError α)}
    (h : p.Ensures Calm Smooth fun r => r.isOk = true) :
    (port p).run.Ensures Calm Smooth (Served fun _ => True) := by
  refine h.bind fun r hr => ?_
  cases r with
  | error e => cases hr
  | ok a => exact trivial

theorem Served.tryBind {x : Engine α} {f : α → Engine β}
    (hx : x.run.Ensures Calm Smooth (Served Q))
    (hf : ∀ a, Q a → (f a).run.Ensures Calm Smooth (Served Q')) :
    (x >>= f).run.Ensures Calm Smooth (Served Q') := hx.tryBind (fun _ h => h) hf

/-- An answer that is not looked at. -/
theorem ask_then {o : EngineOp} (h : Smooth o) {f : o.Resp → Engine β}
    (hf : ∀ r, (f r).run.Ensures Calm Smooth (Served Q')) :
    (ask o >>= f).run.Ensures Calm Smooth (Served Q') :=
  Served.tryBind (ask_calm h) fun r _ => hf r

theorem findNode_calm (id : NodeId) :
    (findNode id).run.Ensures Calm Smooth (Served fun _ => True) := by
  refine Served.tryBind (port_calm ⟨by trivial, fun _ hr => hr⟩) fun n _ => ?_
  cases n with
  | none => exact trivial
  | some node => exact trivial

theorem findSpare_calm (kind : DeploymentKind) :
    (findSpare kind).run.Ensures Calm Smooth
      (Served fun sp => ∀ spare, kind = .failover spare → sp.isSome = true) := by
  cases kind with
  | failover spare => exact Served.tryBind (findNode_calm spare) fun sp _ _ _ => rfl
  | provision | upgrade _ | decommission => exact fun _ hk => by cases hk

theorem beginRun_calm (node : ValidatorNode) (kind : DeploymentKind) :
    (beginRun node kind).run.Ensures Calm Smooth
      (Served fun run => run.kind = kind ∧ run.completedSteps = []) := by
  refine ask_then (by trivial) fun n => ask_then (by trivial) fun t => ?_
  refine Served.tryBind (port_calm ⟨.inl ⟨rfl, rfl⟩, fun _ hr => hr⟩) fun _ _ => ?_
  exact ask_then (by trivial) fun t' => ask_then (by trivial) fun _ => ⟨rfl, rfl⟩

end Rules

/-! ## The saga -/

/-- The steps do what they are asked. -/
def StepsOk {σ : Type} : Answers (SagaSig σ)
  | .execute .., r => r.isOk = true
  | _, _ => True

/-- Steps in `P` are executed under `ctx`, none is compensated. -/
def Forward {σ : Type} (P : σ → Prop) (ctx : SagaContext) : SagaOp σ → Prop
  | .execute s c => P s ∧ c = ctx
  | .compensate .. => False
  | .publish ev => Undisturbed ev
  | .now => True

/-- The executor goes through its steps. -/
theorem forward_calm {σ : Type} [SagaStep σ] {P : σ → Prop} (ctx : SagaContext) {steps : List σ}
    (hP : ∀ s ∈ steps, P s) (completed : List σ) (run : DeploymentRun) :
    (SagaExecutor.forward ctx steps completed run).Ensures StepsOk (Forward P ctx) fun out =>
      out = (.succeeded, run.recordSteps (steps.map SagaStep.action)) := by
  induction steps generalizing completed run with
  | nil =>
    show (RunStatus.succeeded, run) = _
    rw [List.map_nil, DeploymentRun.recordSteps_nil]
  | cons s steps ih =>
    refine ⟨⟨hP s List.mem_cons_self, rfl⟩, fun r hr => ?_⟩
    cases r with
    | error e => cases hr
    | ok _ =>
      refine ⟨trivial, fun t _ => ⟨trivial, fun _ _ => ?_⟩⟩
      have hrest := ih (fun s' hs => hP s' (List.mem_cons_of_mem _ hs)) (completed ++ [s])
        (run.recordStep (SagaStep.action s))
      rw [DeploymentRun.recordSteps_recordStep] at hrest
      exact hrest

/-- A step whose method makes an agent call is one such call. -/
theorem execute_calm {s : PlanStep} {ctx : SagaContext} (h : (s.executeCall ctx).isSome = true) :
    ((s.execute ctx).interp agentPort).Ensures Calm Smooth fun r => r.isOk = true := by
  have hcall : ∀ c, ((call c).interp agentPort).Ensures Calm Smooth fun r => r.isOk = true := by
    intro c
    refine ⟨trivial, fun r hr => ?_⟩
    show (unitOf r).isOk = true
    rw [PlanStep.isOk_unitOf]
    exact hr
  cases s with
  | swapIdentityStep =>
    cases hs : ctx.spareHost with
    | none =>
      rw [PlanStep.executeCall, hs] at h
      cases h
    | some spare =>
      have heq : PlanStep.execute .swapIdentityStep ctx = call (.swapIdentity ctx.host spare) := by
        rw [PlanStep.execute, hs]
      rw [heq]
      exact hcall _
  | _ => exact hcall _

/-- Only a failover swaps identities. -/
theorem failover_of_swap {kind : DeploymentKind} (h : PlanStep.swapIdentityStep ∈ buildPlan kind) :
    ∃ spare, kind = .failover spare := by
  cases kind with
  | failover spare => exact ⟨spare, rfl⟩
  | provision | upgrade _ | decommission => simp [buildPlan] at h

theorem executeCall_isSome (node : ValidatorNode) {kind : DeploymentKind}
    {spareHost : Option HostAddr} (h : ∀ spare, kind = .failover spare → spareHost.isSome = true) :
    ∀ s ∈ buildPlan kind, (s.executeCall (ctxFor node kind spareHost)).isSome = true := by
  intro s hs
  cases s with
  | swapIdentityStep =>
    obtain ⟨spare, hk⟩ := failover_of_swap hs
    obtain ⟨host, rfl⟩ := Option.isSome_iff_exists.1 (h spare hk)
    rfl
  | _ => rfl

theorem sagaRun_calm {node : ValidatorNode} {kind : DeploymentKind} {spareHost : Option HostAddr}
    (h : ∀ spare, kind = .failover spare → spareHost.isSome = true) (run : DeploymentRun) :
    (sagaRun node kind spareHost run).Ensures Calm Smooth fun out =>
      out = (.succeeded, run.recordSteps (planned kind)) := by
  have hforward := forward_calm (ctxFor node kind spareHost) (executeCall_isSome node h) [] run
  refine Ensures.interp (fun o ho => ?_) hforward
  cases o with
  | execute s ctx =>
    obtain ⟨hs, rfl⟩ := ho
    exact execute_calm hs
  | compensate s ctx => cases ho
  | publish ev => exact ⟨ho, fun _ _ => trivial⟩
  | now => exact ⟨trivial, fun _ _ => trivial⟩

/-! ## A deployment -/

theorem transitions_calm (node : ValidatorNode) (path : List NodeState) :
    (transitions node path).run.Ensures Calm Smooth (Served fun _ => True) := by
  induction path generalizing node with
  | nil => exact trivial
  | cons t path ih =>
    refine ask_then (by trivial) fun t₀ => Served.tryBind (Q := fun _ => True) ?_ fun n _ => ?_
    · show Served _ ((node.transitionTo t t₀).mapError .domain)
      unfold ValidatorNode.transitionTo
      split <;> exact trivial
    · exact ask_then (by trivial) fun t₁ => ask_then (by trivial) fun _ => ih n

theorem settleNode_calm (kind : DeploymentKind) (status : RunStatus) (node : ValidatorNode) :
    (settleNode kind status node).run.Ensures Calm Smooth (Served fun _ => True) := by
  refine Served.tryBind (transitions_calm node _) fun n _ => ?_
  refine Served.tryBind (Q := fun _ => True) ?_ fun m _ => port_calm ⟨by trivial, fun _ hr => hr⟩
  unfold stampVersion
  by_cases hs : status = .succeeded
  · rw [if_pos hs]
    cases kind with
    | upgrade v => exact ask_then (by trivial) fun _ => trivial
    | provision | failover _ | decommission => exact trivial
  · rw [if_neg hs]
    exact trivial

/-- A run that did what `kind` plans. -/
def Done (kind : DeploymentKind) (run : DeploymentRun) : Prop :=
  run.kind = kind ∧ run.status = .succeeded ∧ run.completedSteps = planned kind

theorem finishRun_calm {kind : DeploymentKind} {run : DeploymentRun} (hk : run.kind = kind)
    (hs : run.completedSteps = planned kind) :
    (finishRun .succeeded run).run.Ensures Calm Smooth (Served (Done kind)) := by
  refine ask_then (by trivial) fun t => ?_
  refine Served.tryBind (port_calm ⟨.inr ⟨rfl, ?_⟩, fun _ hr => hr⟩) fun _ _ => ?_
  · rw [← hk] at hs
    exact hs
  · exact ask_then (by trivial) fun t' => ask_then (by rfl) fun _ => ⟨hk, rfl, hs⟩

theorem deploy_calm {node : ValidatorNode} {kind : DeploymentKind} {spareHost : Option HostAddr}
    (h : ∀ spare, kind = .failover spare → spareHost.isSome = true) :
    (deploy node kind spareHost).run.Ensures Calm Smooth (Served (Done kind)) := by
  refine Served.tryBind (beginRun_calm node kind) fun run hrun => ?_
  obtain ⟨hk, hno⟩ := hrun
  refine Served.tryBind (Q := fun out => out = (.succeeded, run.recordSteps (planned kind)))
    ((sagaRun_calm h run).bind fun out hout => by exact hout) fun out hout => ?_
  subst hout
  refine Served.tryBind (settleNode_calm kind .succeeded node) fun _ _ => finishRun_calm hk ?_
  rw [DeploymentRun.recordSteps_completedSteps, hno, List.nil_append]

/-- **While nothing fails** a deployment is refused, or done as planned. -/
theorem startDeployment_calm (nodeId : NodeId) (kind : DeploymentKind) :
    (startDeployment nodeId kind).run.Ensures Calm Smooth (Served (Done kind)) := by
  refine ask_then (by trivial) fun ok => ?_
  cases ok with
  | false => exact trivial
  | true =>
    refine ask_then (by trivial) fun ok => ?_
    cases ok with
    | false => exact trivial
    | true =>
      refine Ensures.bind (Q := Served (Done kind)) ?_ fun r hr => ⟨trivial, fun _ _ => hr⟩
      refine Served.tryBind (findNode_calm nodeId) fun node _ => ?_
      exact Served.tryBind (findSpare_calm kind) fun spareHost hsp => deploy_calm hsp

theorem registerNode_calm (node : ValidatorNode) :
    (registerNode node).run.Ensures Calm Smooth (Served fun _ => True) :=
  port_calm ⟨by trivial, fun _ hr => hr⟩

theorem evaluateHealth_calm (cfg : OpsConfig) (nodeId : NodeId) (snapshot : HealthSnapshot) :
    (evaluateHealth cfg nodeId snapshot).run.Ensures Calm Smooth (Served fun _ => True) := by
  refine Served.tryBind (findNode_calm nodeId) fun _ _ => ask_then (by trivial) fun t => ?_
  exact ask_then (by trivial) fun t' => ask_then (by trivial) fun _ => trivial

theorem advise_calm (nodeId : NodeId) (context : String) :
    (advise nodeId context).run.Ensures Calm Smooth (Served fun _ => True) :=
  Served.tryBind (findNode_calm nodeId) fun node _ => (ask_calm (by trivial)).mono fun r hr => by
    cases r with
    | error e => exact hr
    | ok a => exact trivial

end OpsEngine

/-! ## The resilient agent -/

namespace ResilientNodeAgent

/-- The breaker admits, and an attempt does what it is asked in time. -/
def Steady : Answers ResilientSig
  | .acquire, r => r.isOk = true
  | .withTimeout .., r => ∃ v, r = some (.ok v)
  | _, _ => True

/-- No retry, and no failure reported. -/
def Untried (A : ResilientNodeAgent) : ResilientOp → Prop
  | .acquire | .onSuccess => True
  | .withTimeout dur _ => dur = A.opTimeout
  | _ => False

theorem attempt_steady (A : ResilientNodeAgent) (c : AgentCall) :
    (A.attempt c).Ensures Steady A.Untried fun r => r.isOk = true := by
  refine ⟨rfl, fun r hr => ?_⟩
  obtain ⟨v, rfl⟩ := hr
  exact ⟨trivial, fun _ _ => rfl⟩

/-- **One attempt.** -/
theorem guard_steady (A : ResilientNodeAgent) (c : AgentCall) :
    (A.guard c).Ensures Steady A.Untried fun r => r.isOk = true := by
  refine ⟨trivial, fun r hr => ?_⟩
  cases r with
  | error e => cases hr
  | ok _ =>
    unfold RetryPolicy.retry RetryPolicy.retryLoop
    refine (A.attempt_steady c).bind fun a ha => ?_
    cases a with
    | error e => cases ha
    | ok v => rfl

end ResilientNodeAgent

/-! ## Wired together -/

/-- What the engine and its resilient agent call: the engine's ports but for the
agent, and the breaker, the attempts and the pauses. -/
inductive NodeOp where
  | engine (o : EngineOp)
  | agent (o : ResilientOp)

@[reducible] def NodeOp.Resp : NodeOp → Type
  | .engine o => o.Resp
  | .agent o => o.Resp

abbrev NodeSig : Sig where
  Op := NodeOp
  Resp := NodeOp.Resp

namespace OpsEngine

/-- mirrors crates/validatorforge-core/src/engine.rs:45 and agent.rs:42-129 -/
def wirePort (A : ResilientNodeAgent) : (o : EngineOp) → Prog NodeSig o.Resp
  | .agent c => (A.guard c).interp fun o => perform (S := NodeSig) (.agent o)
  | o => perform (S := NodeSig) (.engine o)

/-- An engine's method as the wired engine performs it. -/
def wired {α : Type} (A : ResilientNodeAgent) (p : Prog EngineSig α) : Prog NodeSig α :=
  p.interp (wirePort A)

def CalmNode : Answers NodeSig
  | .engine o, r => Calm o r
  | .agent o, r => ResilientNodeAgent.Steady o r

def SmoothNode (A : ResilientNodeAgent) : NodeOp → Prop
  | .engine o => (∀ c, o ≠ .agent c) ∧ Smooth o
  | .agent o => A.Untried o

theorem wirePort_calm (A : ResilientNodeAgent) {o : EngineOp} (ho : Smooth o) :
    (wirePort A o).Ensures CalmNode (SmoothNode A) (Calm o) := by
  cases o with
  | agent c =>
    refine Ensures.interp (fun o ho => ?_) (A.guard_steady c)
    exact ⟨ho, fun _ hr => hr⟩
  | _ => exact ⟨⟨by simp, ho⟩, fun _ hr => hr⟩

/-- A guarded call is nothing to the engine's other ports. -/
theorem wirePort_agent (A : ResilientNodeAgent) (c : AgentCall) :
    (wirePort A (.agent c)).Only fun o => ∃ a, o = NodeOp.agent a := by
  have hport : ∀ o, (perform (S := NodeSig) (.agent o)).Only fun o => ∃ a, o = NodeOp.agent a :=
    fun o => (only_perform (S := NodeSig) _).2 ⟨o, rfl⟩
  exact Only.interp hport (A.guard c)

end OpsEngine

end ValidatorForge.Core
