import ValidatorForge.Lib.Relate
import ValidatorForge.Infra.Repo

/-!
# A deployment replayed

What a call of `start_deployment` does depends on the node it loaded only
through the fields other than `updatedAt`, and neither on its run id nor on the
clock (`deploy_coupled`). So a call that returned `Ok` can be made again
wherever the stored node agrees with the one it loaded: it calls the agent the
same way, gets the same answers and returns `Ok` with the same outcome
(`replay_deployment`).
-/
namespace ValidatorForge.Infra

open Interaction ValidatorForge.Types ValidatorForge.Core ValidatorForge.Core.OpsEngine Prog

/-- The nodes differ at most in `updatedAt`. -/
structure Like (n n' : ValidatorNode) : Prop where
  record : n.SameRecord n'
  state : n'.state = n.state
  version : n'.version = n.version

theorem Like.symm {a b : ValidatorNode} (h : Like a b) : Like b a :=
  ⟨h.record.symm, h.state.symm, h.version.symm⟩

theorem Like.trans {a b c : ValidatorNode} (h : Like a b) (h' : Like b c) : Like a c :=
  ⟨h.record.trans h'.record, h'.state.trans h.state, h'.version.trans h.version⟩

/-- The runs went the same way. -/
structure SameOutcome (r r' : DeploymentRun) : Prop where
  status : r'.status = r.status
  steps : r'.completedSteps = r.completedSteps

/-! ## The executor -/

section Saga
variable {σ : Type}

/-- The same method of the same step in the same context, with the same answer;
events and times may differ. -/
def sagaAlike : Coupling (SagaSig σ) (SagaSig σ) where
  op
    | .execute s ctx, .execute s' ctx' => s = s' ∧ ctx = ctx'
    | .compensate s ctx, .compensate s' ctx' => s = s' ∧ ctx = ctx'
    | .publish _, .publish _ | .now, .now => True
    | _, _ => False
  resp
    | .execute _ _, .execute _ _, r, r' | .compensate _ _, .compensate _ _, r, r' => r = r'
    | _, _, _, _ => True

theorem announce_coupled {α β : Type} {Q : α → β → Prop} {e e' : DateTime → OpsEvent}
    {p : Prog (SagaSig σ) α} {q : Prog (SagaSig σ) β} (h : Coupled sagaAlike Q p q) :
    Coupled sagaAlike Q (do SagaExecutor.publish (e (← SagaExecutor.now)); p)
      (do SagaExecutor.publish (e' (← SagaExecutor.now)); q) := by
  refine .op trivial ?_
  intro t t' _
  refine .op trivial ?_
  intro _ _ _
  exact h

variable [SagaStep σ]

theorem unwind_coupled (ctx : SagaContext) (r r' : DeploymentRun) (l : List σ) (all : Bool) :
    Coupled sagaAlike Eq (SagaExecutor.unwind ctx r l all) (SagaExecutor.unwind ctx r' l all) := by
  induction l generalizing all with
  | nil => exact .ret rfl
  | cons s l ih =>
    refine .op ⟨rfl, rfl⟩ ?_
    intro a b hab
    cases hab
    cases a with
    | ok _ => exact announce_coupled (ih all)
    | error _ => exact ih false

theorem forward_coupled (ctx : SagaContext) (steps completed : List σ) (r r' : DeploymentRun)
    (h : r'.completedSteps = r.completedSteps) :
    Coupled sagaAlike (fun a b => b.1 = a.1 ∧ b.2.completedSteps = a.2.completedSteps)
      (SagaExecutor.forward ctx steps completed r)
      (SagaExecutor.forward ctx steps completed r') := by
  induction steps generalizing completed r r' with
  | nil => exact .ret ⟨rfl, h⟩
  | cons s steps ih =>
    refine .op ⟨rfl, rfl⟩ ?_
    intro a b hab
    cases hab
    cases a with
    | ok _ =>
      refine announce_coupled (ih _ _ _ ?_)
      simp [DeploymentRun.recordStep, h]
    | error _ =>
      refine (unwind_coupled ctx r r' completed.reverse true).bind ?_
      intro all all' hall
      cases hall
      exact .ret ⟨rfl, h⟩

end Saga

/-! ## The engine -/

/-- The same agent call with the same answer, the same answer to a save of a
like node or of any run; run ids, times and events may differ. -/
def alike : Coupling EngineSig EngineSig where
  op
    | .saveNode n, .saveNode n' => Like n n'
    | .agent c, .agent c' => c = c'
    | .saveRun _, .saveRun _ | .publish _, .publish _ | .nextRun, .nextRun | .now, .now => True
    | _, _ => False
  resp
    | .saveNode _, .saveNode _, r, r' | .saveRun _, .saveRun _, r, r' => r = r'
    | .agent _, .agent _, r, r' => HEq r r'
    | _, _, _, _ => True

theorem agent_coupled {α : Type} (p : Prog AgentSig α) :
    Coupled alike Eq (p.interp agentPort) (p.interp agentPort) := by
  induction p with
  | ret a => exact .ret rfl
  | op c k ih =>
    refine .op rfl ?_
    intro r r' h
    cases eq_of_heq h
    exact ih r

theorem sagaPort_coupled (o o' : SagaOp PlanStep) (h : sagaAlike.op o o') :
    Coupled alike (sagaAlike.resp o o') (sagaPort o) (sagaPort o') := by
  cases o with
  | execute s ctx =>
    cases o' with
    | execute s' ctx' =>
      obtain ⟨rfl, rfl⟩ := h
      exact agent_coupled _
    | _ => cases h
  | compensate s ctx =>
    cases o' with
    | compensate s' ctx' =>
      obtain ⟨rfl, rfl⟩ := h
      exact agent_coupled _
    | _ => cases h
  | publish e =>
    cases o' with
    | publish e' => exact .op trivial fun _ _ _ => .ret trivial
    | _ => cases h
  | now =>
    cases o' with
    | now => exact .op trivial fun _ _ _ => .ret trivial
    | _ => cases h

theorem sagaRun_coupled {n n' : ValidatorNode} (hn : Like n n') (kind : DeploymentKind)
    (spareHost : Option HostAddr) {r r' : DeploymentRun} (h : r'.completedSteps = r.completedSteps) :
    Coupled alike (fun a b => b.1 = a.1 ∧ b.2.completedSteps = a.2.completedSteps)
      (sagaRun n kind spareHost r) (sagaRun n' kind spareHost r') := by
  have hctx : ctxFor n' kind spareHost = ctxFor n kind spareHost := by
    unfold ctxFor versionFor
    rw [hn.record.host, hn.version]
  unfold sagaRun
  rw [hctx]
  exact (forward_coupled _ _ _ _ _ h).interp sagaPort_coupled

theorem ask_coupled (o o' : EngineOp) (ho : alike.op o o') :
    Coupled alike (ExceptRel (alike.resp o o')) (ask o).run (ask o').run :=
  (Coupled.perform ho).lift

/-- An event is announced with the time, and nothing comes of it. -/
theorem emit_coupled {α β : Type} {R : α → β → Prop} {ev ev' : DateTime → OpsEvent}
    {k : Engine α} {k' : Engine β} (h : Coupled alike (ExceptRel R) k.run k'.run) :
    Coupled alike (ExceptRel R)
      (ExceptT.run (ask .now >>= fun t => ask (.publish (ev t)) >>= fun _ => k))
      (ExceptT.run (ask .now >>= fun t => ask (.publish (ev' t)) >>= fun _ => k')) := by
  refine (ask_coupled .now .now trivial).tryBind ?_
  intro t t' _
  refine (ask_coupled (.publish _) (.publish _) trivial).tryBind ?_
  intro _ _ _
  exact h

/-- A port call whose answer is the same on both sides. -/
theorem port_coupled {α : Type} {p q : Prog EngineSig (Except PortError α)}
    (h : Coupled alike Eq p q) : Coupled alike (ExceptRel Eq) (port p).run (port q).run := by
  refine h.bind ?_
  intro a b hab
  cases hab
  cases a with
  | error e => exact .ret (.error _ _)
  | ok a => exact .ret (.ok rfl)

theorem saveRunOp_coupled (r r' : DeploymentRun) :
    Coupled alike (ExceptRel Eq) (saveRunOp r).run (saveRunOp r').run :=
  port_coupled (.op trivial fun _ _ h => .ret h)

theorem saveNodeOp_coupled {n n' : ValidatorNode} (h : Like n n') :
    Coupled alike (ExceptRel Eq) (saveNodeOp n).run (saveNodeOp n').run :=
  port_coupled (.op h fun _ _ h => .ret h)

theorem beginRun_coupled (n n' : ValidatorNode) (kind : DeploymentKind) :
    Coupled alike (ExceptRel fun r r' => r'.completedSteps = r.completedSteps)
      (beginRun n kind).run (beginRun n' kind).run := by
  refine (ask_coupled .nextRun .nextRun trivial).tryBind ?_
  intro i i' _
  refine (ask_coupled .now .now trivial).tryBind ?_
  intro t t' _
  refine (saveRunOp_coupled _ _).tryBind ?_
  intro _ _ _
  apply emit_coupled
  exact .pure rfl

theorem transitions_coupled {n n' : ValidatorNode} (h : Like n n') (path : List NodeState) :
    Coupled alike (ExceptRel Like) (transitions n path).run (transitions n' path).run := by
  induction path generalizing n n' with
  | nil => exact .pure h
  | cons s path ih =>
    refine (ask_coupled .now .now trivial).tryBind ?_
    intro t t' _
    unfold ValidatorNode.transitionTo
    rw [h.state]
    cases hc : n.state.canTransitionTo s with
    | false => exact .ret (.error _ _)
    | true =>
      have hm : Like { n with state := s, updatedAt := t } { n' with state := s, updatedAt := t' } :=
        ⟨⟨h.record.id, h.record.clusterName, h.record.cluster, h.record.host, h.record.role,
          h.record.createdAt⟩, rfl, h.version⟩
      apply emit_coupled
      exact ih hm

theorem stampVersion_coupled {n n' : ValidatorNode} (h : Like n n') (kind : DeploymentKind)
    (status : RunStatus) :
    Coupled alike (ExceptRel Like) (stampVersion kind status n).run
      (stampVersion kind status n').run := by
  unfold stampVersion
  by_cases hs : status = .succeeded
  · rw [if_pos hs, if_pos hs]
    cases kind with
    | upgrade v =>
      refine (ask_coupled .now .now trivial).tryBind ?_
      intro t t' _
      refine .pure ⟨?_, h.state, rfl⟩
      exact ⟨h.record.id, h.record.clusterName, h.record.cluster, h.record.host, h.record.role,
        h.record.createdAt⟩
    | provision | failover _ | decommission => exact .pure h
  · rw [if_neg hs, if_neg hs]
    exact .pure h

theorem settleNode_coupled {n n' : ValidatorNode} (h : Like n n') (kind : DeploymentKind)
    (status : RunStatus) :
    Coupled alike (ExceptRel Eq) (settleNode kind status n).run (settleNode kind status n').run := by
  refine (transitions_coupled h _).tryBind ?_
  intro m m' hm
  refine (stampVersion_coupled hm kind status).tryBind ?_
  intro v v' hv
  exact saveNodeOp_coupled hv

theorem finishRun_coupled (status : RunStatus) {r r' : DeploymentRun}
    (h : r'.completedSteps = r.completedSteps) :
    Coupled alike (ExceptRel SameOutcome) (finishRun status r).run (finishRun status r').run := by
  refine (ask_coupled .now .now trivial).tryBind ?_
  intro t t' _
  refine (saveRunOp_coupled _ _).tryBind ?_
  intro _ _ _
  apply emit_coupled
  exact .pure ⟨rfl, h⟩

/-- **A deployment of a like node goes the same way.** -/
theorem deploy_coupled {n n' : ValidatorNode} (h : Like n n') (kind : DeploymentKind)
    (spareHost : Option HostAddr) :
    Coupled alike (ExceptRel SameOutcome) (deploy n kind spareHost).run
      (deploy n' kind spareHost).run := by
  refine (beginRun_coupled n n' kind).tryBind ?_
  intro r r' hr
  refine (sagaRun_coupled h kind spareHost hr).lift.tryBind ?_
  intro a b hab
  obtain ⟨status, run⟩ := a
  obtain ⟨status', run'⟩ := b
  obtain ⟨rfl, hsteps⟩ := hab
  refine (settleNode_coupled h kind status').tryBind ?_
  intro _ _ _
  exact finishRun_coupled status' hsteps

/-! ## Replaying a call -/

/-- The converse of `startDeployment_cases` for a call that loads its node. -/
theorem startDeployment_exec {nodeId : NodeId} {kind : DeploymentKind} {node : ValidatorNode}
    {spareHost : Option HostAddr} {lt bt : List EngineSig.Ev} {r : Except CoreError DeploymentRun}
    (hl : Loaded nodeId kind node spareHost lt) (hd : (deploy node kind spareHost).run.Exec bt r) :
    (startDeployment nodeId kind).run.Exec (lt ++ bt ++ [⟨.bulkheadRelease, ()⟩]) r := by
  cases hl with
  | @mk st hst =>
    unfold startDeployment
    refine (exec_ask_bind ..).2 ⟨true, _, rfl, ?_⟩
    refine (exec_ask_bind .bulkheadTryAcquire ..).2 ⟨true, _, rfl, ?_⟩
    refine (exec_withSlot ..).2 ⟨⟨.getNode nodeId, .ok (some node)⟩ :: (st ++ bt), by simp, ?_⟩
    refine (exec_findNode_bind ..).2 (.inr (.inr ⟨node, st ++ bt, rfl, ?_⟩))
    cases hst with
    | failover spare sp =>
      have hf : findSpare (.failover spare) >>= (fun host => deploy node (.failover spare) host) =
          findNode spare >>= fun sp => deploy node (.failover spare) (some sp.host) := by
        unfold findSpare
        rw [bind_assoc]
        rfl
      rw [hf]
      exact (exec_findNode_bind ..).2 (.inr (.inr ⟨sp, bt, rfl, hd⟩))
    | other _ hk =>
      cases kind with
      | failover spare => exact absurd rfl (hk spare)
      | provision | upgrade v | decommission => exact hd

/-- The repository answered `Ok`, as the in-memory one always does. -/
def Good : EngineSig.Ev → Prop
  | ⟨.saveNode _, r⟩ | ⟨.saveRun _, r⟩ => r = .ok ()
  | _ => True

theorem good_of_memoryEnv {o : EngineOp} {w w' : EngineState} {r : o.Resp}
    (h : memoryEnv o w r w') : Good ⟨o, r⟩ := by
  cases o with
  | saveNode _ | saveRun _ => exact h.1
  | _ => trivial

/-- The in-memory environment can answer anything coupled to a good answer. -/
theorem memoryEnv_alike (o o' : EngineOp) (r : o.Resp) (w : EngineState) (ho : alike.op o o')
    (hG : Good ⟨o, r⟩) : ∃ r' w', memoryEnv o' w r' w' ∧ alike.resp o o' r r' := by
  cases o with
  | saveNode n =>
    cases o' with
    | saveNode n' => exact ⟨.ok (), _, ⟨rfl, rfl⟩, hG⟩
    | _ => cases ho
  | saveRun n =>
    cases o' with
    | saveRun n' => exact ⟨.ok (), _, ⟨rfl, rfl⟩, hG⟩
    | _ => cases ho
  | agent c =>
    cases o' with
    | agent c' =>
      cases ho
      exact ⟨r, w, rfl, .rfl⟩
    | _ => cases ho
  | nextRun =>
    cases o' with
    | nextRun => exact ⟨w.nextRun, _, ⟨rfl, rfl⟩, trivial⟩
    | _ => cases ho
  | now =>
    cases o' with
    | now => exact ⟨r, w, rfl, trivial⟩
    | _ => cases ho
  | publish e =>
    cases o' with
    | publish e' => exact ⟨(), w, rfl, trivial⟩
    | _ => cases ho
  | _ => cases ho

theorem alike_agentCalls {tr tr' : List EngineSig.Ev} (h : List.Forall₂ alike.Ev tr tr') :
    agentCalls tr' = agentCalls tr := by
  induction h with
  | nil => rfl
  | @cons e e' _ _ he _ ih =>
    obtain ⟨o, r⟩ := e
    obtain ⟨o', r'⟩ := e'
    obtain ⟨ho, hr⟩ := he
    rw [agentCalls_cons, agentCalls_cons, ih]
    cases o with
    | agent c =>
      cases o' with
      | agent c' =>
        cases ho
        cases eq_of_heq hr
        rfl
      | _ => cases ho
    | _ => cases o' <;> first | rfl | cases ho

theorem alike_savedNodes {tr tr' : List EngineSig.Ev} (h : List.Forall₂ alike.Ev tr tr') :
    List.Forall₂ (fun p p' => Like p.1 p'.1) (savedNodes tr) (savedNodes tr') := by
  induction h with
  | nil => exact .nil
  | @cons e e' _ _ he _ ih =>
    obtain ⟨o, r⟩ := e
    obtain ⟨o', r'⟩ := e'
    obtain ⟨ho, -⟩ := he
    rw [savedNodes_cons, savedNodes_cons]
    cases o with
    | saveNode n =>
      cases o' with
      | saveNode n' => exact .cons ho ih
      | _ => cases ho
    | _ => cases o' <;> first | exact ih | cases ho

/-- **A call replayed.** A call that returned `Ok` over the in-memory
repository can be made again from any state in which the stored node is like
the one it loaded and the spare is at the same host: same agent calls and
answers, `Ok` again, a like node saved. -/
theorem replay_deployment {nodeId : NodeId} {kind : DeploymentKind} {node node' : ValidatorNode}
    {spareHost : Option HostAddr} {lt lt' rest : List EngineSig.Ev} {run : DeploymentRun}
    {w : EngineState} (h : (startDeployment nodeId kind).run.Exec (lt ++ rest) (.ok run))
    (hgood : ∀ e ∈ rest, Good e) (hl : Loaded nodeId kind node spareHost lt)
    (hl' : Loaded nodeId kind node' spareHost lt') (hlike : Like node node')
    (hw : memoryEnv.Accepts w lt' w) :
    ∃ tr' run' w', (startDeployment nodeId kind).run.Exec tr' (.ok run') ∧
      memoryEnv.Accepts w tr' w' ∧ agentCalls tr' = agentCalls (lt ++ rest) ∧
      SameOutcome run run' ∧
      List.Forall₂ (fun p p' => Like p.1 p'.1) (savedNodes (lt ++ rest)) (savedNodes tr') := by
  obtain ⟨bt, rfl, hd⟩ := startDeployment_loaded h hl
  have hg : ∀ e ∈ bt, Good e := fun e he => hgood e (List.mem_append_left _ he)
  obtain ⟨bt', r', w', hx, hacc, hall, hq⟩ := (deploy_coupled hlike kind spareHost).replay
    (I := fun _ => True) (fun o o' r w ho hG _ =>
      let ⟨r', w', he, hr⟩ := memoryEnv_alike o o' r w ho hG
      ⟨r', w', he, hr, trivial⟩) hd hg (w := w) trivial
  cases hq with
  | @ok _ run' hout =>
    refine ⟨_, run', w', startDeployment_exec hl' hx, ?_, ?_, hout, ?_⟩
    · exact (Env.accepts_append ..).2 ⟨w', (Env.accepts_append ..).2 ⟨w, hw, hacc⟩, w', rfl, rfl⟩
    · simp [hl.untouched.1.agents, hl'.untouched.1.agents, alike_agentCalls hall, agentCallOf]
    · simpa [hl.untouched.1.nodes, hl'.untouched.1.nodes, savedNodeOf] using alike_savedNodes hall

end ValidatorForge.Infra
