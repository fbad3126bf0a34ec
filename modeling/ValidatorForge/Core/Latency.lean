import ValidatorForge.Core.Calm
import ValidatorForge.Core.Contract
import ValidatorForge.Lib.Cost

/-!
# How long a deployment takes

Whatever the hosts do, an attempt on one is given up after `op_timeout`
(crates/validatorforge-core/src/agent.rs:61-66), attempts and pauses are counted, and
so are the steps of a plan and their compensations. `timers` is a clock that says so
much and no more: timers fire at most `late` after they are due, and the engine's other
ports answer within `port`.

* `deployment_latency`: so a deployment ends, in a time that its plan and the
  configuration bound.
-/
namespace ValidatorForge.Core

open Interaction ValidatorForge.Types ValidatorForge.Resilience Prog

namespace ResilientNodeAgent

/-! ## A guarded call -/

/-- The clock, in nanoseconds. -/
def timers (A : ResilientNodeAgent) (late : Nat) : Env ResilientSig Nat
  | .withTimeout dur _, t, _, t' => t ≤ t' ∧ t' ≤ t + dur + late
  | .sleep d, t, _, t' => t + d ≤ t' ∧ t' ≤ t + d + late
  | .backoffFor i, t, d, t' => t' = t ∧ ∃ nanos, A.retry.backoffFor nanos i = some d
  | _, t, _, t' => t' = t

/-- The longest an operation takes. -/
def longest (late : Nat) : ResilientOp → Nat
  | .withTimeout dur _ => dur + late
  | .sleep d => d + late
  | _ => 0

/-- No backoff is longer than the policy's longest. -/
def Capped (A : ResilientNodeAgent) : Answers ResilientSig
  | .backoffFor _, d => d ≤ A.retry.maxDelay
  | _, _ => True

theorem timers_longest {A : ResilientNodeAgent} {late : Nat} (o : ResilientOp) (t : Nat)
    (r : o.Resp) (t' : Nat) (h : A.timers late o t r t') :
    A.Capped o r ∧ t' ≤ t + longest late o := by
  cases o with
  | withTimeout dur c =>
    have hle : t' ≤ t + dur + late := h.2
    exact ⟨trivial, by simp only [longest]; omega⟩
  | sleep d =>
    have hle : t' ≤ t + d + late := h.2
    exact ⟨trivial, by simp only [longest]; omega⟩
  | backoffFor i =>
    obtain ⟨rfl, nanos, hd⟩ := h
    exact ⟨Nat.le_trans (RetryPolicy.jittered_le hd) (Nat.min_le_right ..), Nat.le_refl _⟩
  | _ =>
    obtain rfl : t' = t := h
    exact ⟨trivial, Nat.le_refl _⟩

theorem within_operation {A : ResilientNodeAgent} {late n : Nat} {o : ResilientOp}
    (h : longest late o ≤ n) : (perform o).Within A.Capped (longest late) n :=
  Prog.within_perform.2 h

/-- Only the attempt takes time, not its report to the breaker. -/
theorem within_attempt (A : ResilientNodeAgent) (late : Nat) (c : AgentCall) :
    (A.attempt c).Within A.Capped (longest late) (A.opTimeout + late) := by
  refine Within.andThen (m := 0) (within_operation (Nat.le_refl _)) ?_
  intro a
  cases a with
  | none => exact Within.andThen (m := 0) (within_operation (Nat.le_refl 0)) fun _ => within_ret _
  | some r =>
    cases r <;>
      exact Within.andThen (m := 0) (within_operation (Nat.le_refl 0)) fun _ => within_ret _

/-- All attempts run into their timeout, and all pauses are the longest. -/
def guardTime (cfg : OpsConfig) (late : Nat) : Nat :=
  max cfg.maxAttempts 1 * (cfg.opTimeout + late) +
    (max cfg.maxAttempts 1 - 1) * (cfg.retryMax + late)

theorem within_guard (cfg : OpsConfig) (late : Nat) (c : AgentCall) :
    ((new cfg).guard c).Within (new cfg).Capped (longest late) (guardTime cfg late) := by
  have hmax : (new cfg).retry.maxAttempts = max cfg.maxAttempts 1 := rfl
  obtain ⟨n, hn⟩ : ∃ n, max cfg.maxAttempts 1 = n + 1 := ⟨max cfg.maxAttempts 1 - 1, by omega⟩
  unfold guardTime
  rw [hn, Nat.add_sub_cancel]
  have hacquire : (perform .acquire).Within (new cfg).Capped (longest late) 0 :=
    within_operation (Nat.le_refl 0)
  refine (hacquire.andThen ?_).mono (Nat.zero_add _).le
  intro a
  cases a with
  | error e => exact within_ret _
  | ok u =>
    apply RetryPolicy.within_retryLoop (within_attempt _ late c)
    · intro i
      exact within_operation (Nat.le_refl 0)
    · intro i
      exact ⟨trivial, fun _ hd => hd⟩
    · intro d hd
      exact within_operation (Nat.add_le_add_right hd late)
    · omega

end ResilientNodeAgent

/-! ## The saga -/

namespace SagaExecutor

/-- A step's two methods take at most `host`, and everything else at most `port`. -/
def longest {σ : Type} (host port : Nat) : SagaOp σ → Nat
  | .execute .. | .compensate .. => host
  | .publish _ | .now => port

section Executor
variable {σ : Type} {host port : Nat} {G : Answers (SagaSig σ)}

/-- An event is dated and published. -/
theorem within_announce {β : Type} {f : DateTime → OpsEvent} {q : Prog (SagaSig σ) β} {n : Nat}
    (hq : q.Within G (longest host port) n) :
    (now >>= fun t => publish (f t) >>= fun _ => q).Within G (longest host port)
      (2 * port + n) := by
  have hport : port ≤ port := Nat.le_refl _
  have hall := Within.andThen (p := now (σ := σ)) (G := G) (within_perform.2 hport)
    fun t => Within.andThen (p := publish (f t)) (within_perform.2 hport) fun _ => hq
  exact hall.mono (by omega)

variable [SagaStep σ]

theorem within_unwind (ctx : SagaContext) (run : DeploymentRun) (done : List σ) (all : Bool) :
    (unwind ctx run done all).Within G (longest host port) (done.length * (host + 2 * port)) := by
  induction done generalizing all with
  | nil => exact within_ret _
  | cons s done ih =>
    have hcompensate : (compensate s ctx).Within G (longest host port) host :=
      within_perform.2 (Nat.le_refl host)
    rw [List.length_cons, Nat.succ_mul, unwind]
    refine (hcompensate.andThen (m := 2 * port + done.length * (host + 2 * port)) ?_).mono
      (by omega)
    intro r
    cases r with
    | ok u => exact within_announce (ih all)
    | error e => exact (ih false).mono (by omega)

/-- Every step may be carried out, and all that were may be compensated. -/
theorem within_forward (ctx : SagaContext) (steps completed : List σ) (run : DeploymentRun) :
    (forward ctx steps completed run).Within G (longest host port)
      ((2 * steps.length + completed.length) * (host + 2 * port)) := by
  induction steps generalizing completed run with
  | nil => exact within_ret _
  | cons s steps ih =>
    have hexecute : (execute s ctx).Within G (longest host port) host :=
      within_perform.2 (Nat.le_refl host)
    have hrest := ih (completed ++ [s]) (run.recordStep (SagaStep.action s))
    have hundo : (unwind ctx run completed.reverse true).Within G (longest host port) _ :=
      within_unwind ctx run completed.reverse true
    rw [List.length_append, List.length_singleton] at hrest
    rw [List.length_reverse] at hundo
    have hcount : (2 * (s :: steps).length + completed.length) * (host + 2 * port) =
        host + (2 * port + (2 * steps.length + (completed.length + 1)) * (host + 2 * port)) := by
      have hlen : 2 * (s :: steps).length + completed.length =
          2 * steps.length + (completed.length + 1) + 1 := by
        rw [List.length_cons]
        omega
      rw [hlen, Nat.succ_mul]
      omega
    rw [hcount, forward]
    apply hexecute.andThen
    intro r
    cases r with
    | ok u => exact within_announce hrest
    | error e =>
      refine (hundo.andThen (m := 0) fun all => within_ret _).mono ?_
      have hle : completed.length * (host + 2 * port) ≤
          (2 * steps.length + (completed.length + 1)) * (host + 2 * port) :=
        Nat.mul_le_mul_right _ (by omega)
      omega

end Executor

end SagaExecutor

/-! ## The engine -/

namespace OpsEngine

/-- A call of the agent takes at most `host`, and everything else at most `port`. -/
def longest (host port : Nat) : EngineOp → Nat
  | .agent _ => host
  | _ => port

/-- Any answer. -/
def Any {S : Sig} : Answers S := fun _ _ => True

section Methods
variable {host port : Nat} {α β : Type}

abbrev Takes (host port : Nat) (x : Engine α) (n : Nat) : Prop :=
  x.run.Within Any (longest host port) n

theorem takes_pure (a : α) (n : Nat) : Takes host port (pure a) n := within_ret _

theorem takes_throw (e : CoreError) (n : Nat) : Takes host port (throw e : Engine α) n :=
  within_ret _

theorem takes_ask {o : EngineOp} (h : longest host port o = port) : Takes host port (ask o) port :=
  Within.andThen (m := 0) (within_perform.2 (Nat.le_of_eq h)) fun _ => within_ret _

theorem takes_port {p : Prog EngineSig (Except PortError α)}
    (hp : p.Within Any (longest host port) port) : Takes host port (Core.port p) port :=
  Within.andThen (m := 0) hp fun _ => within_ret _

theorem takes_findNode (id : NodeId) : Takes host port (findNode id) port := by
  have hget : Takes host port (getNodeOp id) port := takes_port (within_perform.2 (Nat.le_refl _))
  refine Within.tryThen (m := 0) hget ?_
  intro found
  cases found with
  | none => exact takes_throw _ _
  | some node => exact takes_pure _ _

theorem takes_findSpare (kind : DeploymentKind) : Takes host port (findSpare kind) port := by
  cases kind with
  | failover spare =>
    exact Within.tryThen (m := 0) (takes_findNode spare) fun node => takes_pure _ _
  | _ => exact takes_pure _ _

/-- An operation, and then the rest. -/
theorem takes_ask_then {o : EngineOp} (h : longest host port o = port) {f : o.Resp → Engine α}
    {n : Nat} (hf : ∀ r, Takes host port (f r) n) : Takes host port (ask o >>= f) (port + n) :=
  Within.tryThen (takes_ask h) hf

theorem takes_saveRun (run : DeploymentRun) : Takes host port (saveRunOp run) port :=
  takes_port (within_perform.2 (Nat.le_refl _))

theorem takes_saveNode (node : ValidatorNode) : Takes host port (saveNodeOp node) port :=
  takes_port (within_perform.2 (Nat.le_refl _))

theorem takes_beginRun (node : ValidatorNode) (kind : DeploymentKind) :
    Takes host port (beginRun node kind) (5 * port) := by
  have hall : Takes host port (beginRun node kind) (port + (port + (port + (port + (port + 0))))) :=
    takes_ask_then rfl fun n => takes_ask_then rfl fun t =>
      Within.tryThen (takes_saveRun _) fun _ => takes_ask_then rfl fun t' =>
        takes_ask_then rfl fun _ => takes_pure _ _
  exact hall.mono (by omega)

theorem takes_finishRun (status : RunStatus) (run : DeploymentRun) :
    Takes host port (finishRun status run) (4 * port) := by
  have hall : Takes host port (finishRun status run) (port + (port + (port + (port + 0)))) :=
    takes_ask_then rfl fun t => Within.tryThen (takes_saveRun _) fun _ =>
      takes_ask_then rfl fun t' => takes_ask_then rfl fun _ => takes_pure _ _
  exact hall.mono (by omega)

theorem takes_transitions (node : ValidatorNode) (path : List NodeState) :
    Takes host port (transitions node path) (path.length * (3 * port)) := by
  induction path generalizing node with
  | nil => exact takes_pure _ _
  | cons to' path ih =>
    have hstep : ∀ x : Except DomainError ValidatorNode,
        Takes host port (domain x) 0 := fun x => within_ret _
    have hall : Takes host port (transitions node (to' :: path))
        (port + (0 + (port + (port + path.length * (3 * port))))) :=
      takes_ask_then rfl fun t => Within.tryThen (hstep _) fun m => takes_ask_then rfl fun t' =>
        takes_ask_then rfl fun _ => ih m
    rw [List.length_cons, Nat.succ_mul]
    exact hall.mono (by omega)

theorem length_pathFor_le (kind : DeploymentKind) (status : RunStatus) :
    (pathFor kind status).length ≤ 3 := by
  cases kind <;> cases status <;> simp [pathFor, successPath, failurePath]

theorem takes_settleNode (kind : DeploymentKind) (status : RunStatus) (node : ValidatorNode) :
    Takes host port (settleNode kind status node) (11 * port) := by
  have hstamp : ∀ m, Takes host port (stampVersion kind status m) port := by
    intro m
    unfold stampVersion
    split
    · cases kind with
      | upgrade targetVersion => exact takes_ask_then (n := 0) rfl fun t => takes_pure _ _
      | _ => exact takes_pure _ _
    · exact takes_pure _ _
  have hpath := Nat.mul_le_mul_right (3 * port) (length_pathFor_le kind status)
  have hall : Takes host port (settleNode kind status node)
      ((pathFor kind status).length * (3 * port) + (port + port)) :=
    Within.tryThen (takes_transitions node _) fun m => Within.tryThen (hstamp m) fun m' =>
      takes_saveNode m'
  exact hall.mono (by omega)

/-- A step's methods call the agent once at most. -/
theorem within_sagaPort (o : SagaOp PlanStep) :
    (sagaPort o).Within Any (longest host port) (SagaExecutor.longest host port o) := by
  have hagent : ∀ c : AgentCall, (agentPort c).Within Any (longest host port) host :=
    fun c => within_perform.2 (Nat.le_refl _)
  have hcall : ∀ c : AgentCall, ((call c).interp agentPort).Within Any (longest host port) host :=
    fun c => Within.andThen (m := 0) (hagent c) fun _ => within_ret _
  cases o with
  | execute s ctx =>
    cases s with
    | swapIdentityStep =>
      obtain ⟨from', version, spareHost⟩ := ctx
      cases spareHost with
      | none => exact within_ret _
      | some spare => exact hcall _
    | _ => exact hcall _
  | compensate s ctx =>
    cases s with
    | swapIdentityStep =>
      obtain ⟨from', version, spareHost⟩ := ctx
      cases spareHost with
      | none => exact within_ret _
      | some spare => exact hcall _
    | applyInfraStep => exact hcall _
    | startValidatorStep => exact hcall _
    | _ => exact within_ret _
  | publish ev => exact within_perform.2 (Nat.le_refl _)
  | now => exact within_perform.2 (Nat.le_refl _)

/-- The time of a saga. -/
def sagaTime (kind : DeploymentKind) (host port : Nat) : Nat :=
  2 * (buildPlan kind).length * (host + 2 * port)

theorem within_sagaRun (node : ValidatorNode) (kind : DeploymentKind) (spareHost : Option HostAddr)
    (run : DeploymentRun) :
    (sagaRun node kind spareHost run).Within Any (longest host port) (sagaTime kind host port) :=
  Within.interp (G := Any) within_sagaPort (fun o => (sagaPort o).ensures_true)
    (SagaExecutor.within_forward (ctxFor node kind spareHost) (buildPlan kind) [] run)

theorem takes_deploy (node : ValidatorNode) (kind : DeploymentKind) (spareHost : Option HostAddr) :
    Takes host port (deploy node kind spareHost) (20 * port + sagaTime kind host port) := by
  have hsaga : ∀ run, Takes host port (liftM (sagaRun node kind spareHost run))
      (sagaTime kind host port) := fun run =>
    Within.andThen (m := 0) (within_sagaRun node kind spareHost run) fun _ => within_ret _
  have hall : Takes host port (deploy node kind spareHost)
      (5 * port + (sagaTime kind host port + (11 * port + 4 * port))) :=
    Within.tryThen (takes_beginRun node kind) fun run => Within.tryThen (hsaga run) fun out =>
      Within.tryThen (takes_settleNode kind out.1 node) fun _ => takes_finishRun out.1 out.2
  exact hall.mono (by omega)

theorem takes_withSlot {x : Engine α} {n : Nat} (hx : Takes host port x n) :
    Takes host port (withSlot x) (n + port) :=
  Within.andThen hx fun _ => Within.andThen (m := 0) (within_perform.2 (Nat.le_refl _)) fun _ =>
    within_ret _

theorem takes_startDeployment (nodeId : NodeId) (kind : DeploymentKind) :
    Takes host port (startDeployment nodeId kind) (25 * port + sagaTime kind host port) := by
  have hbody : Takes host port (withSlot do
      let node ← findNode nodeId
      let spareHost ← findSpare kind
      deploy node kind spareHost)
      (port + (port + (20 * port + sagaTime kind host port)) + port) :=
    takes_withSlot (Within.tryThen (takes_findNode nodeId) fun node =>
      Within.tryThen (takes_findSpare kind) fun spareHost => takes_deploy node kind spareHost)
  have hall : Takes host port (startDeployment nodeId kind)
      (port + (port + (port + (port + (20 * port + sagaTime kind host port)) + port))) := by
    apply takes_ask_then rfl
    intro fresh
    cases fresh with
    | false => exact takes_throw _ _
    | true =>
      apply takes_ask_then rfl
      intro slot
      cases slot with
      | false => exact takes_throw _ _
      | true => exact hbody
  exact hall.mono (by omega)

end Methods

/-! ## The engine and its agent -/

def nodeTimers (A : ResilientNodeAgent) (port late : Nat) : Env NodeSig Nat
  | .engine _, t, _, t' => t ≤ t' ∧ t' ≤ t + port
  | .agent o, t, r, t' => A.timers late o t r t'

def nodeLongest (port late : Nat) : NodeOp → Nat
  | .engine _ => port
  | .agent o => ResilientNodeAgent.longest late o

def NodeCapped (A : ResilientNodeAgent) : Answers NodeSig
  | .engine _, _ => True
  | .agent o, r => A.Capped o r

theorem nodeTimers_longest {A : ResilientNodeAgent} {port late : Nat} (o : NodeOp) (t : Nat)
    (r : o.Resp) (t' : Nat) (h : nodeTimers A port late o t r t') :
    NodeCapped A o r ∧ t' ≤ t + nodeLongest port late o := by
  cases o with
  | engine o => exact ⟨trivial, h.2⟩
  | agent o => exact ResilientNodeAgent.timers_longest o t r t' h

theorem within_wirePort (cfg : OpsConfig) (port late : Nat) (o : EngineOp) :
    (wirePort (.new cfg) o).Within (NodeCapped (.new cfg)) (nodeLongest port late)
      (longest (ResilientNodeAgent.guardTime cfg late) port o) := by
  cases o with
  | agent c =>
    refine Within.interp (R := fun _ => True) ?_ ?_ (ResilientNodeAgent.within_guard cfg late c)
    · intro o
      exact within_perform.2 (Nat.le_refl _)
    · intro o
      exact ⟨trivial, fun _ hr => hr⟩
  | _ => exact within_perform.2 (Nat.le_refl _)

/-- **A deployment ends.** While timers are at most `late` and the other ports answer within
`port`, a deployment takes at most the time of its 25 operations on those ports and of
carrying out and compensating every step, each attempt running into its timeout. -/
theorem deployment_latency {cfg : OpsConfig} {nodeId : NodeId} {kind : DeploymentKind}
    {tr : List NodeSig.Ev} {r : Except CoreError DeploymentRun}
    (h : (wired (.new cfg) (startDeployment nodeId kind).run).Exec tr r) {port late t t' : Nat}
    (hw : (nodeTimers (.new cfg) port late).Accepts t tr t') :
    t' ≤ t + (25 * port + 2 * (buildPlan kind).length *
      (ResilientNodeAgent.guardTime cfg late + 2 * port)) := by
  have hwired : (wired (.new cfg) (startDeployment nodeId kind).run).Within (NodeCapped (.new cfg))
      (nodeLongest port late) _ :=
    Within.interp (within_wirePort cfg port late) (fun o => (wirePort _ o).ensures_true)
      (takes_startDeployment nodeId kind)
  exact hwired.elapsed nodeTimers_longest h hw

/-- Every attempt on a host times out. -/
def deafHosts (A : ResilientNodeAgent) : Handler NodeSig Nat
  | .engine o, t =>
    ((fixedPorts (fleetNode .provisioning) (fun _ => false) (.rejected "") o ()).1, t)
  | .agent .acquire, t => (.ok (), t)
  | .agent (.withTimeout dur _), t => (none, t + dur)
  | .agent (.backoffFor i), t => ((A.retry.backoffFor 0 i).getD 0, t)
  | .agent (.sleep d), t => ((), t + d)
  | .agent .onSuccess, t | .agent .onFailure, t | .agent (.publish _), t => ((), t)
  | .agent .now, t => (0, t)

theorem deafHosts_allowed {A : ResilientNodeAgent} (h : A.retry.maxDelay ≤ U64_MAX) (o : NodeOp)
    (t : Nat) : nodeTimers A 0 0 o t (deafHosts A o t).1 (deafHosts A o t).2 := by
  cases o with
  | engine o => exact ⟨Nat.le_refl _, Nat.le_refl _⟩
  | agent o =>
    cases o with
    | withTimeout dur c => exact ⟨Nat.le_add_right .., Nat.le_refl _⟩
    | sleep d => exact ⟨Nat.le_refl _, Nat.le_refl _⟩
    | backoffFor i =>
      obtain ⟨d, hd⟩ := RetryPolicy.exists_backoffFor h 0 i
      refine ⟨rfl, 0, ?_⟩
      show _ = some ((A.retry.backoffFor 0 i).getD 0)
      rw [hd]
      rfl
    | _ => rfl

/-- By default, a provisioning whose host never answers is over in 800 seconds. -/
theorem deployment_latency_deaf :
    ((wired (.new .default) (startDeployment ⟨"eu-val-01"⟩ .provision).run).runWith
      (deafHosts (.new .default)) 0).world ≤ 800000000000 := by
  have hle := deployment_latency (exec_runWith (deafHosts (.new .default))
    (wired (.new .default) (startDeployment ⟨"eu-val-01"⟩ .provision).run) 0)
    (Env.accepts_runWith (deafHosts_allowed (by decide)) _ 0)
  exact hle

end OpsEngine

end ValidatorForge.Core
