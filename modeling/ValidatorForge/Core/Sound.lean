import ValidatorForge.Core.Engine
import ValidatorForge.Lib.Rely
import ValidatorForge.Types.Wire

/-!
# What the engine makes of valid records

The newtypes do not carry their check, and the engine does not repeat it: it saves
what it is given and what it read. `Sound` is what it relies on, `Filed` what it then
ensures: records that pass the checks again. `startDeployment_sound` goes through the
whole method, `?` and compensations included.
-/
namespace ValidatorForge.Core.OpsEngine

open Interaction ValidatorForge.Types Prog

/-- What is read is valid. -/
def Sound : Answers EngineSig
  | .getNode _, r => IfOk (fun n => ∀ node, n = some node → node.Valid) r
  | .listNodes, r => IfOk (fun l => ∀ node ∈ l, node.Valid) r
  | .getRun _, r => IfOk (fun n => ∀ run, n = some run → run.Valid) r
  | .listRuns _, r => IfOk (fun l => ∀ run ∈ l, run.Valid) r
  | _, _ => True

/-- What is saved is valid. -/
def Filed : EngineOp → Prop
  | .saveNode node => node.Valid
  | .saveRun run => run.Valid
  | _ => True

section Rules
variable {α β : Type} {G : Answers EngineSig} {R : EngineOp → Prop}

/-- An answer that is not looked at. -/
theorem ask_ensures {o : EngineOp} (h : R o) {f : o.Resp → Engine β} {P : Except CoreError β → Prop}
    (hf : ∀ r, (f r).run.Ensures G R P) : (ask o >>= f).run.Ensures G R P := by
  have hask : (ask o).run.Ensures G R fun r => ∃ a, r = .ok a := ⟨h, fun r _ => ⟨r, rfl⟩⟩
  refine hask.tryBind (fun e he => ?_) fun r _ => hf r
  obtain ⟨a, ha⟩ := he
  cases ha

theorem port_ensures {p : Prog EngineSig (Except PortError α)} {P : Except CoreError α → Prop}
    (h : p.Ensures G R fun r => P (r.mapError .port)) : (port p).run.Ensures G R P :=
  h.bind fun _ hr => hr

variable {Q : α → Prop} {Q' : β → Prop}

theorem ask_sound {o : EngineOp} (h : Filed o) {f : o.Resp → Engine β}
    (hf : ∀ r, (f r).run.Ensures Sound Filed (IfOk Q')) :
    (ask o >>= f).run.Ensures Sound Filed (IfOk Q') := ask_ensures h hf

theorem port_sound {p : Prog EngineSig (Except PortError α)}
    (h : p.Ensures Sound Filed (IfOk Q)) : (port p).run.Ensures Sound Filed (IfOk Q) := by
  refine port_ensures (h.mono fun r hr => ?_)
  cases r with
  | error e => exact trivial
  | ok a => exact hr

theorem findNode_sound (id : NodeId) :
    (findNode id).run.Ensures Sound Filed (IfOk ValidatorNode.Valid) := by
  refine Ensures.tryThen (port_sound ⟨trivial, fun _ hr => hr⟩) fun n hn => ?_
  cases n with
  | none => exact trivial
  | some node => exact hn node rfl

theorem findSpare_sound (kind : DeploymentKind) :
    (findSpare kind).run.Ensures Sound Filed (IfOk fun _ => True) := by
  cases kind with
  | failover spare => exact (findNode_sound spare).tryThen fun _ _ => trivial
  | provision | upgrade _ | decommission => exact trivial

end Rules

/-! ## The record of a run -/

theorem beginRun_sound {node : ValidatorNode} {kind : DeploymentKind} (hn : node.Valid)
    (hk : kind.Valid) :
    (beginRun node kind).run.Ensures Sound Filed (IfOk DeploymentRun.Valid) := by
  refine ask_sound (by trivial) fun n => ask_sound (by trivial) fun t => ?_
  have hopen : (DeploymentRun.new (runIdOf n) node.id kind t).Valid := ⟨hn.id, hk⟩
  refine Ensures.tryThen (port_sound (Q := fun _ => True) ⟨hopen, ?_⟩) fun _ _ => ?_
  · intro r _
    cases r <;> exact trivial
  · exact ask_sound (by trivial) fun t' => ask_sound (by trivial) fun _ => hopen

theorem finishRun_sound {run : DeploymentRun} (h : run.Valid) (status : RunStatus) :
    (finishRun status run).run.Ensures Sound Filed (IfOk DeploymentRun.Valid) := by
  refine ask_sound (by trivial) fun t => ?_
  have hfin : (run.finish status t).Valid := ⟨h.target, h.kind⟩
  refine Ensures.tryThen (port_sound (Q := fun _ => True) ⟨hfin, ?_⟩) fun _ _ => ?_
  · intro r _
    cases r <;> exact trivial
  · exact ask_sound (by trivial) fun t' => ask_sound (by trivial) fun _ => hfin

/-- Whatever the steps answer, the record keeps its target and its kind. -/
theorem forward_sound {σ : Type} [SagaStep σ] (ctx : SagaContext) (steps completed : List σ)
    {run : DeploymentRun} (h : run.Valid) :
    (SagaExecutor.forward ctx steps completed run).Ensures (fun _ _ => True) (fun _ => True)
      fun out => out.2.Valid := by
  induction steps generalizing completed run with
  | nil => exact h
  | cons s steps ih =>
    refine ⟨trivial, fun r _ => ?_⟩
    cases r with
    | error e =>
      have hunwind := ensures_true (G := fun _ _ => True)
        (SagaExecutor.unwind ctx run completed.reverse true)
      have hstatus : ∀ all : Bool, Ensures (S := SagaSig σ) (fun _ _ => True) (fun _ => True)
          (pure (if all then RunStatus.rolledBack else .failed, run)) fun out => out.2.Valid :=
        fun _ => h
      exact hunwind.bind fun all _ => hstatus all
    | ok _ => exact ⟨trivial, fun t _ => ⟨trivial, fun _ _ => ih _ ⟨h.target, h.kind⟩⟩⟩

theorem sagaRun_sound (node : ValidatorNode) (kind : DeploymentKind) (spareHost : Option HostAddr)
    {run : DeploymentRun} (h : run.Valid) :
    (sagaRun node kind spareHost run).Ensures Sound Filed fun out => out.2.Valid := by
  have hagent : ∀ p : Prog AgentSig (Except PortError Unit),
      (p.interp agentPort).Ensures Sound Filed fun _ => True := by
    intro p
    refine Ensures.interp (fun c _ => ?_) (ensures_true (G := fun _ _ => True) p)
    exact ⟨trivial, fun _ _ => trivial⟩
  refine Ensures.interp (fun o _ => ?_) (forward_sound _ _ [] h)
  cases o with
  | execute s ctx => exact hagent _
  | compensate s ctx => exact hagent _
  | publish ev => exact ⟨trivial, fun _ _ => trivial⟩
  | now => exact ⟨trivial, fun _ _ => trivial⟩

/-! ## The record of the node -/

theorem transitions_sound {node : ValidatorNode} (h : node.Valid) (path : List NodeState) :
    (transitions node path).run.Ensures Sound Filed (IfOk ValidatorNode.Valid) := by
  induction path generalizing node with
  | nil => exact h
  | cons t path ih =>
    refine ask_sound (by trivial) fun t₀ => Ensures.tryThen (Q := ValidatorNode.Valid) ?_ ?_
    · show IfOk _ ((node.transitionTo t t₀).mapError CoreError.domain)
      cases hm : node.transitionTo t t₀ with
      | error e => exact trivial
      | ok m =>
        obtain ⟨-, rfl⟩ := ValidatorNode.transitionTo_eq_ok.1 hm
        exact ⟨h.id, h.clusterName, h.host, h.version⟩
    · intro m hm
      exact ask_sound (by trivial) fun t₁ => ask_sound (by trivial) fun _ => ih hm

theorem stampVersion_sound {kind : DeploymentKind} (hk : kind.Valid) (status : RunStatus)
    {node : ValidatorNode} (h : node.Valid) :
    (stampVersion kind status node).run.Ensures Sound Filed (IfOk ValidatorNode.Valid) := by
  unfold stampVersion
  by_cases hs : status = .succeeded
  · rw [if_pos hs]
    cases kind with
    | upgrade v => exact ask_sound (by trivial) fun t => ⟨h.id, h.clusterName, h.host, hk⟩
    | provision | failover _ | decommission => exact h
  · rw [if_neg hs]
    exact h

theorem saveNodeOp_sound {node : ValidatorNode} (h : node.Valid) :
    (saveNodeOp node).run.Ensures Sound Filed (IfOk fun _ => True) := by
  refine port_sound ⟨h, ?_⟩
  intro r _
  cases r <;> exact trivial

theorem settleNode_sound {kind : DeploymentKind} (hk : kind.Valid) (status : RunStatus)
    {node : ValidatorNode} (h : node.Valid) :
    (settleNode kind status node).run.Ensures Sound Filed (IfOk fun _ => True) := by
  refine (transitions_sound h _).tryThen fun n hn => ?_
  exact (stampVersion_sound hk status hn).tryThen fun m hm => saveNodeOp_sound hm

/-! ## The methods -/

theorem deploy_sound {node : ValidatorNode} {kind : DeploymentKind} (hn : node.Valid)
    (hk : kind.Valid) (spareHost : Option HostAddr) :
    (deploy node kind spareHost).run.Ensures Sound Filed (IfOk DeploymentRun.Valid) := by
  refine (beginRun_sound hn hk).tryThen fun run hrun => ?_
  have hsaga : ((liftM (sagaRun node kind spareHost run) : Engine _)).run.Ensures Sound Filed
      (IfOk fun out => out.2.Valid) :=
    (sagaRun_sound node kind spareHost hrun).bind fun out hout => by exact hout
  refine hsaga.tryThen fun out hout => ?_
  exact (settleNode_sound hk out.1 hn).tryThen fun _ _ => finishRun_sound hout out.1

/-- **A deployment**, refused, stuck or done: whatever it saves is valid. -/
theorem startDeployment_sound (nodeId : NodeId) {kind : DeploymentKind} (hk : kind.Valid) :
    (startDeployment nodeId kind).run.Ensures Sound Filed (IfOk DeploymentRun.Valid) := by
  refine ask_sound (by trivial) fun ok => ?_
  cases ok with
  | false => exact trivial
  | true =>
    refine ask_sound (by trivial) fun ok => ?_
    cases ok with
    | false => exact trivial
    | true =>
      refine Ensures.bind (Q := IfOk DeploymentRun.Valid) ?_ fun r hr => ⟨trivial, fun _ _ => hr⟩
      refine (findNode_sound nodeId).tryThen fun node hn => ?_
      exact (findSpare_sound kind).tryThen fun spareHost _ => deploy_sound hn hk spareHost

theorem registerNode_sound {node : ValidatorNode} (h : node.Valid) :
    (registerNode node).run.Ensures Sound Filed (IfOk fun _ => True) := saveNodeOp_sound h

theorem advise_sound (nodeId : NodeId) (context : String) :
    (advise nodeId context).run.Ensures Sound Filed (IfOk fun _ => True) :=
  (findNode_sound nodeId).tryThen fun node _ => ⟨by trivial, fun _ _ => trivial⟩

/-- The methods that read. -/
theorem getNode_sound (nodeId : NodeId) : (getNode nodeId).run.Ensures Sound Filed
    (IfOk fun n => ∀ node, n = some node → node.Valid) :=
  port_sound ⟨trivial, fun _ hr => hr⟩

theorem listNodes_sound : listNodes.run.Ensures Sound Filed
    (IfOk fun l => ∀ node ∈ l, node.Valid) := port_sound ⟨trivial, fun _ hr => hr⟩

theorem getRun_sound (runId : RunId) : (getRun runId).run.Ensures Sound Filed
    (IfOk fun n => ∀ run, n = some run → run.Valid) := port_sound ⟨trivial, fun _ hr => hr⟩

theorem listRuns_sound (limit : Nat) : (listRuns limit).run.Ensures Sound Filed
    (IfOk fun l => ∀ run ∈ l, run.Valid) := port_sound ⟨trivial, fun _ hr => hr⟩

end ValidatorForge.Core.OpsEngine
