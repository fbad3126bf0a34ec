import ValidatorForge.Core.Agent
import ValidatorForge.Core.Contract

/-!
# Compensations through the resilient agent

The breaker that guards a saga's forward calls guards its compensations too, and
counts the failures of both. `compensation_reaches`: after a failure, each
compensation that calls the agent either reaches the inner agent, or is refused
by a breaker open and cooling at that moment, and then the run ends `Failed`.
`compensation_refused`: the second does happen, with the default configuration.
-/
namespace ValidatorForge.Core

open Interaction ValidatorForge.Types Prog Resilience OpsEngine SagaExecutor ResilientNodeAgent

/-- A step is known by its action. -/
theorem PlanStep.eq_of_action {s s' : PlanStep} (h : SagaStep.action s = SagaStep.action s') :
    s = s' := by
  cases s <;> cases s' <;> first | rfl | cases h

/-- How the compensation `c` of the completed step `s` went: it came after the
failure, as the operations `seg`, and reached the inner agent unless the breaker
refused it. -/
structure CompensationMade (A : ResilientNodeAgent) (w : Clocked) (ctx : SagaContext)
    (segs : List (Seg (SagaSig PlanStep) ResilientSig)) (status : RunStatus) (s : PlanStep)
    (c : AgentCall) (pre : List (Seg (SagaSig PlanStep) ResilientSig)) (ans : Except PortError Unit)
    (seg : List ResilientSig.Ev) (post : List (Seg (SagaSig PlanStep) ResilientSig)) : Prop where
  split : segs = pre ++ (⟨.compensate s ctx, ans⟩, seg) :: post
  after : ∃ f, Call.execute f ctx false ∈ calls (upper pre)
  reached : c ∈ innerCalls seg ∨ (A.RefusedBy w (lower pre) seg ∧
    ans = .error (.unavailable ("circuit open for " ++ c.label)) ∧ status = .failed)

/-- **Compensations.** A run of a plan through a resilient agent, from any state
of the breaker, whatever the inner agent answers and however long things take:
if it does not succeed, the compensating call of each completed step comes after
the failure and either reaches the inner agent or is refused by an open breaker
whose cooldown has not elapsed; in that case the run is `Failed`. -/
theorem compensation_reaches {cfg : OpsConfig} {kind : DeploymentKind} {ctx : SagaContext}
    {id : RunId} {target : NodeId} {t : DateTime} {status : RunStatus} {r' : DeploymentRun}
    {tr : List ResilientSig.Ev} {w w' : Clocked}
    (hrun : ((SagaExecutor.run (buildPlan kind) ctx (.new id target kind t)).interp
      (new cfg).sagaPort).Exec tr (status, r'))
    (hw : (new cfg).breakerEnv.Accepts w tr w') (hstatus : status ≠ .succeeded) :
    ∃ segs, Refined (new cfg).sagaPort segs ∧ tr = lower segs ∧
      (SagaExecutor.run (buildPlan kind) ctx (.new id target kind t)).Exec (upper segs)
        (status, r') ∧
      ∀ (s : PlanStep) c, SagaStep.action s ∈ r'.completedSteps → s.compensateCall ctx = some c →
        ∃ pre ans seg post, CompensationMade (new cfg) w ctx segs status s c pre ans seg post := by
  obtain ⟨segs, hx, hr, rfl⟩ := (exec_interp ..).1 hrun
  refine ⟨segs, hr, rfl, hx, fun s c hs hc => ?_⟩
  obtain ⟨sh, hsh⟩ := forward_spec ctx (buildPlan kind) [] _ _ _ _ hx
  have hdone : s ∈ sh.done := by
    rw [hsh.record] at hs
    obtain ⟨s', hs', heq⟩ := List.mem_map.1 hs
    rwa [← PlanStep.eq_of_action heq]
  obtain ⟨f, hf⟩ : ∃ f, sh.failed = some f := by
    cases hf : sh.failed with
    | none => exact absurd (by rw [hsh.status, hf]; rfl) hstatus
    | some f => exact ⟨f, rfl⟩
  obtain ⟨t₁, ans, t₂, htr, hafter, hfailed⟩ := hsh.compensated hf hdone
  obtain ⟨pre, seg, post, rfl, rfl, -⟩ := exists_segs htr
  have hseg : (⟨.compensate s ctx, ans⟩, seg) ∈ pre ++ (⟨.compensate s ctx, ans⟩, seg) :: post :=
    List.mem_append_right _ List.mem_cons_self
  obtain ⟨reply, hg, rfl⟩ := exec_compensate hc (hr _ hseg)
  refine ⟨pre, _, seg, post, rfl, ⟨f, hafter⟩, ?_⟩
  have hcut : (new cfg).breakerEnv.Accepts w (lower pre ++ seg ++ lower post) w' := by
    simpa using hw
  rcases exec_guard hg with ⟨hseg, rfl⟩ | hreach
  · exact .inr ⟨refusedBy_of_accepts hseg hcut, rfl, hfailed rfl⟩
  · exact .inl hreach

/-- An inner agent that fails the calls of `down`, each attempt taking no time. -/
def downAgent (A : ResilientNodeAgent) (down : AgentCall → Bool) : Handler ResilientSig Clocked
  | .acquire, w => ((A.breaker.acquire w.now w.inner).1,
      { w with inner := (A.breaker.acquire w.now w.inner).2 })
  | .onSuccess, w => ((), { w with inner := CircuitBreaker.onSuccess w.inner })
  | .onFailure, w => ((), { w with inner := A.breaker.onFailure w.now w.inner })
  | .withTimeout _ c, w =>
    (some (if down c then .error (.unavailable "no route to host") else .ok c.okReply), w)
  | .backoffFor i, w => ((A.retry.backoffFor 0 i).getD 0, w)
  | .sleep d, w => ((), { w with now := w.now + d / 1000000 })
  | .publish _, w => ((), w)
  | .now, w => (0, w)

theorem downAgent_allowed {A : ResilientNodeAgent} (hA : A.retry.maxDelay ≤ U64_MAX)
    (down : AgentCall → Bool) (o : ResilientOp) (w : Clocked) :
    A.breakerEnv o w (downAgent A down o w).1 (downAgent A down o w).2 := by
  cases o with
  | acquire => exact ⟨Nat.le_refl _, rfl⟩
  | onSuccess => exact ⟨Nat.le_refl _, rfl⟩
  | onFailure => exact ⟨Nat.le_refl _, rfl⟩
  | withTimeout d c => exact ⟨Nat.le_refl _, rfl⟩
  | backoffFor i =>
    obtain ⟨d, hd⟩ := RetryPolicy.exists_backoffFor hA 0 i
    refine ⟨Nat.le_refl _, rfl, 0, ?_⟩
    rw [hd]
    show some d = some ((A.retry.backoffFor 0 i).getD 0)
    rw [hd]
    rfl
  | sleep d => exact ⟨Nat.le_refl _, rfl⟩
  | publish e => exact ⟨Nat.le_refl _, rfl⟩
  | now => exact ⟨Nat.le_refl _, rfl⟩

/-- The provisioning of a fleet node, with the default configuration. -/
def guardedProvision : Prog ResilientSig (RunStatus × DeploymentRun) :=
  (SagaExecutor.run (buildPlan .provision) (ctxFor (fleetNode .provisioning) .provision none)
    (.new ⟨1⟩ (fleetNode .provisioning).id .provision 0)).interp (new .default).sagaPort

/-- It, when the started validator can neither catch up nor be drained: the
failures of the two together open the breaker. -/
def sickProvision : Outcome ResilientSig Clocked (RunStatus × DeploymentRun) :=
  guardedProvision.runWith (downAgent (new .default) fun c =>
    c = .awaitCatchup ⟨"val01.internal"⟩ ∨ c = .drain ⟨"val01.internal"⟩) ⟨.new, 0⟩

theorem sickProvision_innerCalls : innerCalls sickProvision.trace =
    [.applyInfra ⟨"val01.internal"⟩, .tuneHost ⟨"val01.internal"⟩,
      .startValidator ⟨"val01.internal"⟩ ⟨"2.0.14"⟩, .awaitCatchup ⟨"val01.internal"⟩,
      .awaitCatchup ⟨"val01.internal"⟩, .awaitCatchup ⟨"val01.internal"⟩,
      .drain ⟨"val01.internal"⟩, .drain ⟨"val01.internal"⟩, .drain ⟨"val01.internal"⟩] := by
  decide +kernel

theorem sickProvision_exec :
    guardedProvision.Exec sickProvision.trace (.failed, sickProvision.val.2) := by
  have hstatus : sickProvision.val.1 = .failed := by decide +kernel
  rw [← hstatus]
  exact exec_runWith (downAgent (new .default) _) guardedProvision ⟨.new, 0⟩

theorem sickProvision_accepts :
    (new .default).breakerEnv.Accepts ⟨.new, 0⟩ sickProvision.trace sickProvision.world :=
  Env.accepts_runWith (downAgent_allowed (by decide) _) guardedProvision ⟨.new, 0⟩

theorem sickProvision_completed :
    sickProvision.val.2.completedSteps = [.applyInfra, .tuneHost, .startValidator] := by
  decide +kernel

/-- The host it applied is never destroyed: the inner agent does not hear of it. -/
theorem compensation_refused :
    ¬ ∀ (cfg : OpsConfig) (kind : DeploymentKind) (ctx : SagaContext) (id : RunId)
      (target : NodeId) (t : DateTime) (status : RunStatus) (r' : DeploymentRun)
      (tr : List ResilientSig.Ev) (w w' : Clocked),
      ¬ (new cfg).breaker.Cooling w.now w.inner →
      ((SagaExecutor.run (buildPlan kind) ctx (.new id target kind t)).interp
        (new cfg).sagaPort).Exec tr (status, r') →
      (new cfg).breakerEnv.Accepts w tr w' → status ≠ .succeeded →
      ∀ (s : PlanStep) c, SagaStep.action s ∈ r'.completedSteps → s.compensateCall ctx = some c →
        c ∈ innerCalls tr := by
  intro h
  have hmem : .destroyInfra ⟨"val01.internal"⟩ ∈ innerCalls sickProvision.trace :=
    h .default .provision _ _ _ _ .failed _ _ ⟨.new, 0⟩ _ (by decide) sickProvision_exec
      sickProvision_accepts (by decide) .applyInfraStep _
      (by rw [sickProvision_completed]; decide) rfl
  rw [sickProvision_innerCalls] at hmem
  exact absurd hmem (by decide)

theorem compensation_reaches_sick :
    ∃ segs pre ans seg post, sickProvision.trace = lower segs ∧
      CompensationMade (new .default) ⟨.new, 0⟩ (ctxFor (fleetNode .provisioning) .provision none)
        segs .failed .startValidatorStep (.drain ⟨"val01.internal"⟩) pre ans seg post := by
  obtain ⟨segs, -, htr, -, hmade⟩ :=
    compensation_reaches sickProvision_exec sickProvision_accepts (by decide)
  obtain ⟨pre, ans, seg, post, h⟩ := hmade .startValidatorStep _
    (by rw [sickProvision_completed]; decide) rfl
  exact ⟨segs, pre, ans, seg, post, htr, h⟩

end ValidatorForge.Core
