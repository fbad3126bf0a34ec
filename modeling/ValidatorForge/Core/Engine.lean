import ValidatorForge.Core.Plan

/-!
# The ops engine

crates/validatorforge-core/src/engine.rs. Each method of `OpsEngine` is a
program over `EngineSig` that may fail with a `CoreError` (`Engine`); `?` on a
port's answer is `port`, which wraps the port's error. `startDeployment` is the
source's one long method cut at the points where it changes subject: admission
and loading, `beginRun`, the saga, `conclude`.

A trace of the engine is read through four projections: the agent calls with
their answers (`agentCalls`), the nodes and the runs saved with the
repository's answers (`savedNodes`, `savedRuns`), and the events published
(`events`).
-/
namespace ValidatorForge.Core

open Interaction ValidatorForge.Types Prog

abbrev Engine : Type → Type := ExceptT CoreError (Prog EngineSig)

/-- An operation that cannot fail. -/
def ask (o : EngineOp) : Engine o.Resp := liftM (perform (S := EngineSig) o)

/-- `?` on the answer of a port.
mirrors crates/validatorforge-core/src/error.rs:44-49 -/
def port {α : Type} (p : Prog EngineSig (Except PortError α)) : Engine α :=
  ExceptT.mk do return (← p).mapError .port

/-- `?` on a domain result. -/
def domain {α : Type} (x : Except DomainError α) : Engine α :=
  ExceptT.mk (.ret (x.mapError .domain))

def getNodeOp (id : NodeId) : Engine (Option ValidatorNode) :=
  port (perform (S := EngineSig) (.getNode id))

def saveNodeOp (node : ValidatorNode) : Engine Unit :=
  port (perform (S := EngineSig) (.saveNode node))

def saveRunOp (run : DeploymentRun) : Engine Unit :=
  port (perform (S := EngineSig) (.saveRun run))

namespace OpsEngine

/-- The agent as the saga sees it: the engine's agent port. -/
def agentPort (c : AgentCall) : Prog EngineSig (Except PortError c.Reply) :=
  perform (S := EngineSig) (.agent c)

/-- What the executor's operations are on the engine's ports. -/
def sagaPort : (o : SagaOp PlanStep) → Prog EngineSig o.Resp
  | .execute s ctx => (s.execute ctx).interp agentPort
  | .compensate s ctx => (s.compensate ctx).interp agentPort
  | .publish e => perform (S := EngineSig) (.publish e)
  | .now => perform (S := EngineSig) .now

/-- mirrors crates/validatorforge-core/src/engine.rs:173-190 -/
def successPath : DeploymentKind → List NodeState
  | .provision => [.bootstrapping, .catchingUp, .active]
  | .upgrade _ => [.draining, .catchingUp, .active]
  | .failover _ | .decommission => [.draining, .decommissioned]

/-- mirrors crates/validatorforge-core/src/engine.rs:192-200 -/
def failurePath : DeploymentKind → List NodeState
  | .provision => [.failed]
  | _ => []

/-- mirrors crates/validatorforge-core/src/engine.rs:64-71 -/
def registerNode (node : ValidatorNode) : Engine Unit := saveNodeOp node

/-- `get_node(id)?.ok_or_else(NotFound)`, used for the target and the spare.
mirrors crates/validatorforge-core/src/engine.rs:93-97,100-105 -/
def findNode (id : NodeId) : Engine ValidatorNode := do
  match ← getNodeOp id with
  | some node => pure node
  | none => throw (.notFound id.raw)

/-- mirrors crates/validatorforge-core/src/engine.rs:99-109 -/
def findSpare : DeploymentKind → Engine (Option HostAddr)
  | .failover spare => do
    let sp ← findNode spare
    return some sp.host
  | _ => pure none

/-- mirrors crates/validatorforge-core/src/engine.rs:110-113 -/
def versionFor (node : ValidatorNode) : DeploymentKind → ValidatorVersion
  | .upgrade targetVersion => targetVersion
  | _ => node.version

/-- `u128::from(next_run.fetch_add(1))`. -/
def runIdOf (n : UInt64) : RunId := ⟨BitVec.ofNat 128 n.toNat⟩

/-- Open the run record and announce it.
mirrors crates/validatorforge-core/src/engine.rs:115-125 -/
def beginRun (node : ValidatorNode) (kind : DeploymentKind) : Engine DeploymentRun := do
  let runId := runIdOf (← ask .nextRun)
  let run := DeploymentRun.new runId node.id kind (← ask .now)
  saveRunOp run
  ask (.publish (.runStarted runId node.id kind (← ask .now)))
  return run

/-- mirrors crates/validatorforge-core/src/engine.rs:127-132 -/
def ctxFor (node : ValidatorNode) (kind : DeploymentKind) (spareHost : Option HostAddr) :
    SagaContext :=
  { host := node.host, version := versionFor node kind, spareHost }

/-- mirrors crates/validatorforge-core/src/engine.rs:133-134 -/
def sagaRun (node : ValidatorNode) (kind : DeploymentKind) (spareHost : Option HostAddr)
    (run : DeploymentRun) : Prog EngineSig (RunStatus × DeploymentRun) :=
  (SagaExecutor.run (buildPlan kind) (ctxFor node kind spareHost) run).interp sagaPort

/-- The loop over the path.
mirrors crates/validatorforge-core/src/engine.rs:141-152 -/
def transitions (node : ValidatorNode) : List NodeState → Engine ValidatorNode
  | [] => pure node
  | to' :: path => do
    let from' := node.state
    let node ← domain (node.transitionTo to' (← ask .now))
    ask (.publish (.nodeStateChanged node.id from' to' (← ask .now)))
    transitions node path

/-- mirrors crates/validatorforge-core/src/engine.rs:136-140 -/
def pathFor (kind : DeploymentKind) (status : RunStatus) : List NodeState :=
  if status = .succeeded then successPath kind else failurePath kind

/-- mirrors crates/validatorforge-core/src/engine.rs:153-157 -/
def stampVersion (kind : DeploymentKind) (status : RunStatus) (node : ValidatorNode) :
    Engine ValidatorNode :=
  if status = .succeeded then
    match kind with
    | .upgrade targetVersion => do return node.setVersion targetVersion (← ask .now)
    | _ => pure node
  else pure node

/-- Save the node.
mirrors crates/validatorforge-core/src/engine.rs:136-158 -/
def settleNode (kind : DeploymentKind) (status : RunStatus) (node : ValidatorNode) :
    Engine Unit := do
  let node ← transitions node (pathFor kind status)
  let node ← stampVersion kind status node
  saveNodeOp node

/-- Close the run record.
mirrors crates/validatorforge-core/src/engine.rs:160-170 -/
def finishRun (status : RunStatus) (run : DeploymentRun) : Engine DeploymentRun := do
  let run := run.finish status (← ask .now)
  saveRunOp run
  ask (.publish (.runFinished run.id status (← ask .now)))
  return run

/-- Everything after the node and the spare are loaded.
mirrors crates/validatorforge-core/src/engine.rs:115-171 -/
def deploy (node : ValidatorNode) (kind : DeploymentKind) (spareHost : Option HostAddr) :
    Engine DeploymentRun := do
  let run ← beginRun node kind
  let (status, run) ← (liftM (sagaRun node kind spareHost run) : Engine _)
  settleNode kind status node
  finishRun status run

/-- The slot's guard is dropped however its scope is left. -/
def withSlot {α : Type} (body : Engine α) : Engine α := ExceptT.mk do
  let r ← body.run
  perform (S := EngineSig) .bulkheadRelease
  return r

/-- mirrors crates/validatorforge-core/src/engine.rs:82-171 -/
def startDeployment (nodeId : NodeId) (kind : DeploymentKind) : Engine DeploymentRun := do
  if !(← ask .limiterTryAcquire) then throw .throttled else
  if !(← ask .bulkheadTryAcquire) then throw .throttled else
  withSlot do
    let node ← findNode nodeId
    let spareHost ← findSpare kind
    deploy node kind spareHost

/-- mirrors crates/validatorforge-core/src/engine.rs:202-234 -/
def evaluateHealth (cfg : OpsConfig) (nodeId : NodeId) (snapshot : HealthSnapshot) :
    Engine HealthStatus := do
  let _ ← findNode nodeId
  let status := snapshot.classify (← ask .now) cfg.lagWarn cfg.lagCrit cfg.skipCrit
    cfg.freshnessSecs
  ask (.publish (.healthEvaluated nodeId status (← ask .now)))
  return status

/-- mirrors crates/validatorforge-core/src/engine.rs:236-247 -/
def advise (nodeId : NodeId) (context : String) : Engine String := do
  let node ← findNode nodeId
  ask (.advise node context)

/-- mirrors crates/validatorforge-core/src/engine.rs:249-255 -/
def getNode (nodeId : NodeId) : Engine (Option ValidatorNode) := getNodeOp nodeId

/-- mirrors crates/validatorforge-core/src/engine.rs:257-263 -/
def listNodes : Engine (List ValidatorNode) := port (perform (S := EngineSig) .listNodes)

/-- mirrors crates/validatorforge-core/src/engine.rs:265-271 -/
def getRun (runId : RunId) : Engine (Option DeploymentRun) :=
  port (perform (S := EngineSig) (.getRun runId))

/-- mirrors crates/validatorforge-core/src/engine.rs:273-279 -/
def listRuns (limit : Nat) : Engine (List DeploymentRun) :=
  port (perform (S := EngineSig) (.listRuns limit))

end OpsEngine

/-! ## Executions

How each kind of step followed by the rest is executed. -/

section Rules
variable {α β : Type}

theorem exec_ask (o : EngineOp) (tr : List EngineSig.Ev) (r : Except CoreError o.Resp) :
    (ask o).run.Exec tr r ↔ ∃ a, tr = [⟨o, a⟩] ∧ r = .ok a := by
  unfold ask
  rw [exec_lift]
  exact exists_congr fun a => and_congr_left' (exec_perform (S := EngineSig) o tr a)

theorem exec_ask_bind (o : EngineOp) (f : o.Resp → Engine β) (tr : List EngineSig.Ev)
    (r : Except CoreError β) :
    (ask o >>= f).run.Exec tr r ↔ ∃ a tr', tr = ⟨o, a⟩ :: tr' ∧ (f a).run.Exec tr' r := by
  rw [exec_tryBind]
  simp only [exec_ask]
  refine ⟨?_, ?_⟩
  · intro h
    rcases h with ⟨e, ⟨a, rfl, he⟩, rfl⟩ | ⟨t₁, a, t₂, rfl, ⟨b, rfl, hb⟩, h⟩
    · cases he
    · cases hb
      exact ⟨a, t₂, rfl, h⟩
  · intro h
    obtain ⟨a, tr', rfl, h⟩ := h
    exact .inr ⟨[⟨o, a⟩], a, tr', rfl, ⟨a, rfl, rfl⟩, h⟩

theorem exec_port (p : Prog EngineSig (Except PortError α)) (tr : List EngineSig.Ev)
    (r : Except CoreError α) :
    (port p).run.Exec tr r ↔ ∃ a, p.Exec tr a ∧ r = a.mapError .port := by
  have hp : (port p).run = p >>= fun a => .ret (a.mapError .port) := rfl
  rw [hp, exec_bind]
  refine ⟨?_, ?_⟩
  · intro h
    obtain ⟨t₁, a, t₂, rfl, h, rfl, rfl⟩ := h
    exact ⟨a, by simpa using h, rfl⟩
  · intro h
    obtain ⟨a, h, rfl⟩ := h
    exact ⟨tr, a, [], by simp, h, rfl, rfl⟩

/-- `?` on a port: its error is the result, or the rest goes on with its value. -/
theorem exec_port_bind (p : Prog EngineSig (Except PortError α)) (f : α → Engine β)
    (tr : List EngineSig.Ev) (r : Except CoreError β) :
    (port p >>= f).run.Exec tr r ↔
      (∃ e, p.Exec tr (.error e) ∧ r = .error (.port e)) ∨
      (∃ t₁ a t₂, tr = t₁ ++ t₂ ∧ p.Exec t₁ (.ok a) ∧ (f a).run.Exec t₂ r) := by
  rw [exec_tryBind]
  simp only [exec_port]
  refine ⟨?_, ?_⟩
  · intro h
    rcases h with ⟨e, ⟨a, ha, he⟩, rfl⟩ | ⟨t₁, b, t₂, rfl, ⟨a, ha, hb⟩, h⟩
    · cases a with
      | error e' => cases he; exact .inl ⟨e', ha, rfl⟩
      | ok _ => cases he
    · cases a with
      | error _ => cases hb
      | ok _ => cases hb; exact .inr ⟨t₁, b, t₂, rfl, ha, h⟩
  · intro h
    rcases h with ⟨e, h, rfl⟩ | ⟨t₁, a, t₂, rfl, ha, h⟩
    · exact .inl ⟨.port e, ⟨.error e, h, rfl⟩, rfl⟩
    · exact .inr ⟨t₁, a, t₂, rfl, ⟨.ok a, ha, rfl⟩, h⟩

/-- The same for a port call that is one operation `ev`. -/
theorem exec_portOp_bind {p : Prog EngineSig (Except PortError α)}
    {ev : Except PortError α → EngineSig.Ev} (hp : ∀ t a, p.Exec t a ↔ t = [ev a])
    (f : α → Engine β) (tr : List EngineSig.Ev) (r : Except CoreError β) :
    (port p >>= f).run.Exec tr r ↔
      (∃ e, tr = [ev (.error e)] ∧ r = .error (.port e)) ∨
      (∃ a tr', tr = ev (.ok a) :: tr' ∧ (f a).run.Exec tr' r) := by
  rw [exec_port_bind]
  simp only [hp]
  refine or_congr Iff.rfl ⟨?_, ?_⟩
  · intro h
    obtain ⟨_, a, t₂, rfl, rfl, h₂⟩ := h
    exact ⟨a, t₂, rfl, h₂⟩
  · intro h
    obtain ⟨a, t₂, rfl, h₂⟩ := h
    exact ⟨_, a, t₂, rfl, rfl, h₂⟩

theorem exec_getNodeOp_bind (id : NodeId) (f : Option ValidatorNode → Engine β)
    (tr : List EngineSig.Ev) (r : Except CoreError β) :
    (getNodeOp id >>= f).run.Exec tr r ↔
      (∃ e, tr = [⟨.getNode id, .error e⟩] ∧ r = .error (.port e)) ∨
      (∃ n tr', tr = ⟨.getNode id, .ok n⟩ :: tr' ∧ (f n).run.Exec tr' r) :=
  exec_portOp_bind (exec_perform (S := EngineSig) (.getNode id)) f tr r

theorem exec_saveRunOp_bind (run : DeploymentRun) (f : Unit → Engine β) (tr : List EngineSig.Ev)
    (r : Except CoreError β) :
    (saveRunOp run >>= f).run.Exec tr r ↔
      (∃ e, tr = [⟨.saveRun run, .error e⟩] ∧ r = .error (.port e)) ∨
      (∃ u tr', tr = ⟨.saveRun run, .ok u⟩ :: tr' ∧ (f u).run.Exec tr' r) :=
  exec_portOp_bind (exec_perform (S := EngineSig) (.saveRun run)) f tr r

theorem exec_saveNodeOp_bind (node : ValidatorNode) (f : Unit → Engine β)
    (tr : List EngineSig.Ev) (r : Except CoreError β) :
    (saveNodeOp node >>= f).run.Exec tr r ↔
      (∃ e, tr = [⟨.saveNode node, .error e⟩] ∧ r = .error (.port e)) ∨
      (∃ u tr', tr = ⟨.saveNode node, .ok u⟩ :: tr' ∧ (f u).run.Exec tr' r) :=
  exec_portOp_bind (exec_perform (S := EngineSig) (.saveNode node)) f tr r

theorem exec_saveNodeOp (node : ValidatorNode) (tr : List EngineSig.Ev)
    (r : Except CoreError Unit) :
    (saveNodeOp node).run.Exec tr r ↔ ∃ a, tr = [⟨.saveNode node, a⟩] ∧ r = a.mapError .port := by
  unfold saveNodeOp
  rw [exec_port]
  exact exists_congr fun a => and_congr_left' (exec_perform (S := EngineSig) (.saveNode node) tr a)

theorem exec_domain_bind (x : Except DomainError α) (f : α → Engine β) (tr : List EngineSig.Ev)
    (r : Except CoreError β) :
    (domain x >>= f).run.Exec tr r ↔
      (∃ e, x = .error e ∧ tr = [] ∧ r = .error (.domain e)) ∨
      (∃ a, x = .ok a ∧ (f a).run.Exec tr r) := by
  rw [exec_tryBind]
  cases x with
  | error e =>
    refine ⟨?_, ?_⟩
    · intro h
      rcases h with ⟨e', ⟨rfl, he⟩, rfl⟩ | ⟨t₁, a, t₂, rfl, ⟨-, ha⟩, h⟩
      · cases he; exact .inl ⟨e, rfl, rfl, rfl⟩
      · cases ha
    · intro h
      rcases h with ⟨e', he, rfl, rfl⟩ | ⟨a, ha, -⟩
      · cases he; exact .inl ⟨.domain e, ⟨rfl, rfl⟩, rfl⟩
      · cases ha
  | ok a =>
    refine ⟨?_, ?_⟩
    · intro h
      rcases h with ⟨e', ⟨rfl, he⟩, rfl⟩ | ⟨t₁, b, t₂, rfl, ⟨rfl, hb⟩, h⟩
      · cases he
      · cases hb; exact .inr ⟨a, rfl, h⟩
    · intro h
      rcases h with ⟨e', he, -, -⟩ | ⟨b, hb, h⟩
      · cases he
      · cases hb; exact .inr ⟨[], a, tr, rfl, ⟨rfl, rfl⟩, h⟩

theorem exec_lift_bind (p : Prog EngineSig α) (f : α → Engine β) (tr : List EngineSig.Ev)
    (r : Except CoreError β) :
    ((liftM p : Engine α) >>= f).run.Exec tr r ↔
      ∃ t₁ a t₂, tr = t₁ ++ t₂ ∧ p.Exec t₁ a ∧ (f a).run.Exec t₂ r := by
  rw [exec_tryBind]
  simp only [exec_lift]
  refine ⟨?_, ?_⟩
  · intro h
    rcases h with ⟨e, ⟨a, ha, he⟩, rfl⟩ | ⟨t₁, a, t₂, rfl, ⟨b, hb, hab⟩, h⟩
    · cases he
    · cases hab
      exact ⟨t₁, a, t₂, rfl, hb, h⟩
  · intro h
    obtain ⟨t₁, a, t₂, rfl, ha, h⟩ := h
    exact .inr ⟨t₁, a, t₂, rfl, ⟨a, ha, rfl⟩, h⟩

theorem exec_withSlot (body : Engine α) (tr : List EngineSig.Ev) (r : Except CoreError α) :
    (OpsEngine.withSlot body).run.Exec tr r ↔
      ∃ t, tr = t ++ [⟨.bulkheadRelease, ()⟩] ∧ body.run.Exec t r := by
  have hw : (OpsEngine.withSlot body).run = body.run >>= fun r =>
    perform (S := EngineSig) .bulkheadRelease >>= fun _ => .ret r := rfl
  rw [hw, exec_bind]
  refine ⟨?_, ?_⟩
  · intro h
    obtain ⟨t, a, _, rfl, h, _, _, rfl, rfl, rfl⟩ := h
    exact ⟨t, rfl, h⟩
  · intro h
    obtain ⟨t, rfl, h⟩ := h
    exact ⟨t, r, _, rfl, h, _, _, rfl, rfl, rfl⟩

end Rules

end ValidatorForge.Core
