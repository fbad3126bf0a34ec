import ValidatorForge.Core.Engine

/-!
# What one deployment does

The stages of `start_deployment` seen from outside: for each, which calls it
makes and what it returns, whatever the ports answer (`beginRun_cases`,
`sagaRun_spec`, `settleNode_cases`, `finishRun_cases`), and from these the
shape of a whole call (`startDeployment_cases`, `deploy_cases`). Every result
about `start_deployment` starts from these and never unfolds it.
-/
namespace ValidatorForge.Core

open Interaction ValidatorForge.Types Prog

namespace OpsEngine

/-! ## Reading a trace -/

def agentCallOf : EngineSig.Ev → Option AgentSig.Ev
  | ⟨.agent c, r⟩ => some ⟨c, r⟩
  | _ => none

def savedNodeOf : EngineSig.Ev → Option (ValidatorNode × Except PortError Unit)
  | ⟨.saveNode n, r⟩ => some (n, r)
  | _ => none

def savedRunOf : EngineSig.Ev → Option (DeploymentRun × Except PortError Unit)
  | ⟨.saveRun n, r⟩ => some (n, r)
  | _ => none

def eventOf : EngineSig.Ev → Option OpsEvent
  | ⟨.publish e, _⟩ => some e
  | _ => none

/-- The calls of the agent with its answers, the `save_node` and `save_run`
calls with the repository's answers, and the published events. -/
def agentCalls (tr : List EngineSig.Ev) : List AgentSig.Ev := tr.filterMap agentCallOf

def savedNodes (tr : List EngineSig.Ev) : List (ValidatorNode × Except PortError Unit) :=
  tr.filterMap savedNodeOf

def savedRuns (tr : List EngineSig.Ev) : List (DeploymentRun × Except PortError Unit) :=
  tr.filterMap savedRunOf

def events (tr : List EngineSig.Ev) : List OpsEvent := tr.filterMap eventOf

@[simp] theorem agentCalls_nil : agentCalls [] = [] := rfl
@[simp] theorem savedNodes_nil : savedNodes [] = [] := rfl
@[simp] theorem savedRuns_nil : savedRuns [] = [] := rfl
@[simp] theorem events_nil : events [] = [] := rfl

@[simp] theorem agentCalls_cons (e : EngineSig.Ev) (tr : List EngineSig.Ev) :
    agentCalls (e :: tr) = (agentCallOf e).toList ++ agentCalls tr :=
  SagaExecutor.filterMap_cons_toList ..

@[simp] theorem savedNodes_cons (e : EngineSig.Ev) (tr : List EngineSig.Ev) :
    savedNodes (e :: tr) = (savedNodeOf e).toList ++ savedNodes tr :=
  SagaExecutor.filterMap_cons_toList ..

@[simp] theorem savedRuns_cons (e : EngineSig.Ev) (tr : List EngineSig.Ev) :
    savedRuns (e :: tr) = (savedRunOf e).toList ++ savedRuns tr :=
  SagaExecutor.filterMap_cons_toList ..

@[simp] theorem events_cons (e : EngineSig.Ev) (tr : List EngineSig.Ev) :
    events (e :: tr) = (eventOf e).toList ++ events tr :=
  SagaExecutor.filterMap_cons_toList ..

@[simp] theorem agentCalls_append (t₁ t₂ : List EngineSig.Ev) :
    agentCalls (t₁ ++ t₂) = agentCalls t₁ ++ agentCalls t₂ := List.filterMap_append ..

@[simp] theorem savedNodes_append (t₁ t₂ : List EngineSig.Ev) :
    savedNodes (t₁ ++ t₂) = savedNodes t₁ ++ savedNodes t₂ := List.filterMap_append ..

@[simp] theorem savedRuns_append (t₁ t₂ : List EngineSig.Ev) :
    savedRuns (t₁ ++ t₂) = savedRuns t₁ ++ savedRuns t₂ := List.filterMap_append ..

@[simp] theorem events_append (t₁ t₂ : List EngineSig.Ev) :
    events (t₁ ++ t₂) = events t₁ ++ events t₂ := List.filterMap_append ..

/-- Nothing saved and the agent not called. -/
structure Untouched (tr : List EngineSig.Ev) : Prop where
  agents : agentCalls tr = []
  nodes : savedNodes tr = []
  runs : savedRuns tr = []

/-! ## Admission and loading -/

/-- The ways a call ends before it opens a run, and the error it returns. -/
inductive Refused (nodeId : NodeId) (kind : DeploymentKind) : List EngineSig.Ev → CoreError → Prop
  | limited : Refused nodeId kind [⟨.limiterTryAcquire, false⟩] .throttled
  | full : Refused nodeId kind [⟨.limiterTryAcquire, true⟩, ⟨.bulkheadTryAcquire, false⟩] .throttled
  | unknown : Refused nodeId kind [⟨.limiterTryAcquire, true⟩, ⟨.bulkheadTryAcquire, true⟩,
      ⟨.getNode nodeId, .ok none⟩, ⟨.bulkheadRelease, ()⟩] (.notFound nodeId.raw)
  | unread (e : PortError) : Refused nodeId kind [⟨.limiterTryAcquire, true⟩,
      ⟨.bulkheadTryAcquire, true⟩, ⟨.getNode nodeId, .error e⟩, ⟨.bulkheadRelease, ()⟩] (.port e)
  | spareUnknown (spare : NodeId) (h : kind = .failover spare) (node : ValidatorNode) :
      Refused nodeId kind [⟨.limiterTryAcquire, true⟩, ⟨.bulkheadTryAcquire, true⟩,
        ⟨.getNode nodeId, .ok (some node)⟩, ⟨.getNode spare, .ok none⟩, ⟨.bulkheadRelease, ()⟩]
        (.notFound spare.raw)
  | spareUnread (spare : NodeId) (h : kind = .failover spare) (node : ValidatorNode)
      (e : PortError) : Refused nodeId kind [⟨.limiterTryAcquire, true⟩,
        ⟨.bulkheadTryAcquire, true⟩, ⟨.getNode nodeId, .ok (some node)⟩,
        ⟨.getNode spare, .error e⟩, ⟨.bulkheadRelease, ()⟩] (.port e)

/-- The spare of a kind was looked up: its host, and the events of the look-up. -/
inductive SpareFound : DeploymentKind → Option HostAddr → List EngineSig.Ev → Prop
  | failover (spare : NodeId) (sp : ValidatorNode) :
      SpareFound (.failover spare) (some sp.host) [⟨.getNode spare, .ok (some sp)⟩]
  | other (kind : DeploymentKind) (h : ∀ spare, kind ≠ .failover spare) : SpareFound kind none []

/-- The call passed admission and found its node (and spare). -/
inductive Loaded (nodeId : NodeId) (kind : DeploymentKind) (node : ValidatorNode)
    (spareHost : Option HostAddr) : List EngineSig.Ev → Prop
  | mk {st : List EngineSig.Ev} (h : SpareFound kind spareHost st) :
      Loaded nodeId kind node spareHost (⟨.limiterTryAcquire, true⟩ ::
        ⟨.bulkheadTryAcquire, true⟩ :: ⟨.getNode nodeId, .ok (some node)⟩ :: st)

theorem exec_findNode_bind {β : Type} (id : NodeId) (f : ValidatorNode → Engine β)
    (tr : List EngineSig.Ev) (r : Except CoreError β) :
    (findNode id >>= f).run.Exec tr r ↔
      (∃ e, tr = [⟨.getNode id, .error e⟩] ∧ r = .error (.port e)) ∨
      (tr = [⟨.getNode id, .ok none⟩] ∧ r = .error (.notFound id.raw)) ∨
      (∃ n tr', tr = ⟨.getNode id, .ok (some n)⟩ :: tr' ∧ (f n).run.Exec tr' r) := by
  have hf : findNode id >>= f =
      getNodeOp id >>= fun n => n.elim (throw (.notFound id.raw)) f := by
    unfold findNode
    rw [bind_assoc]
    congr
    funext n
    cases n <;> rfl
  rw [hf, exec_getNodeOp_bind]
  refine or_congr Iff.rfl ⟨?_, ?_⟩
  · intro h
    obtain ⟨n, tr', rfl, h⟩ := h
    cases n with
    | none => obtain ⟨rfl, rfl⟩ := h; exact .inl ⟨rfl, rfl⟩
    | some n => exact .inr ⟨n, tr', rfl, h⟩
  · intro h
    rcases h with ⟨rfl, rfl⟩ | ⟨n, tr', rfl, h⟩
    · exact ⟨none, [], rfl, rfl, rfl⟩
    · exact ⟨some n, tr', rfl, h⟩

theorem findSpare_cases {kind : DeploymentKind} {β : Type} {f : Option HostAddr → Engine β}
    {tr : List EngineSig.Ev} {r : Except CoreError β} (h : (findSpare kind >>= f).run.Exec tr r) :
    (∃ spare, kind = .failover spare ∧
      ((∃ e, tr = [⟨.getNode spare, .error e⟩] ∧ r = .error (.port e)) ∨
        (tr = [⟨.getNode spare, .ok none⟩] ∧ r = .error (.notFound spare.raw)))) ∨
    ∃ host st tr', SpareFound kind host st ∧ tr = st ++ tr' ∧ (f host).run.Exec tr' r := by
  cases kind with
  | failover spare =>
    have hf : findSpare (.failover spare) >>= f =
        findNode spare >>= fun sp => f (some sp.host) := by
      unfold findSpare
      rw [bind_assoc]
      rfl
    rw [hf, exec_findNode_bind] at h
    rcases h with h | h | ⟨sp, tr', rfl, h⟩
    · exact .inl ⟨spare, rfl, .inl h⟩
    · exact .inl ⟨spare, rfl, .inr h⟩
    · exact .inr ⟨some sp.host, _, tr', .failover spare sp, rfl, h⟩
  | provision | upgrade v | decommission =>
    exact .inr ⟨none, [], tr, .other _ (fun _ hs => by cases hs), rfl, h⟩

/-- **A call of `start_deployment`.** Either it is refused before it opens a
run, or it loads its node (and spare) and is `deploy` from there on. -/
theorem startDeployment_cases {nodeId : NodeId} {kind : DeploymentKind} {tr : List EngineSig.Ev}
    {r : Except CoreError DeploymentRun} (h : (startDeployment nodeId kind).run.Exec tr r) :
    (∃ e, Refused nodeId kind tr e ∧ r = .error e) ∨
    ∃ node spareHost lt bt, Loaded nodeId kind node spareHost lt ∧
      tr = lt ++ bt ++ [⟨.bulkheadRelease, ()⟩] ∧
      (deploy node kind spareHost).run.Exec bt r := by
  unfold startDeployment at h
  rw [exec_ask_bind] at h
  obtain ⟨a, t₁, rfl, h⟩ := h
  cases a with
  | false =>
    simp only [Bool.not_false, if_true, exec_throw] at h
    obtain ⟨rfl, rfl⟩ := h
    exact .inl ⟨_, .limited, rfl⟩
  | true =>
    simp only [Bool.not_true, Bool.false_eq_true, if_false] at h
    rw [exec_ask_bind] at h
    obtain ⟨b, t₂, rfl, h⟩ := h
    cases b with
    | false =>
      simp only [Bool.not_false, if_true, exec_throw] at h
      obtain ⟨rfl, rfl⟩ := h
      exact .inl ⟨_, .full, rfl⟩
    | true =>
      simp only [Bool.not_true, Bool.false_eq_true, if_false] at h
      rw [exec_withSlot] at h
      obtain ⟨t₃, rfl, h⟩ := h
      rw [exec_findNode_bind] at h
      rcases h with ⟨e, rfl, rfl⟩ | ⟨rfl, rfl⟩ | ⟨node, t₄, rfl, h⟩
      · exact .inl ⟨_, .unread e, rfl⟩
      · exact .inl ⟨_, .unknown, rfl⟩
      · rcases findSpare_cases h with ⟨spare, hk, ⟨e, rfl, rfl⟩ | ⟨rfl, rfl⟩⟩ |
          ⟨host, st, bt, hst, rfl, hd⟩
        · exact .inl ⟨_, .spareUnread spare hk node e, rfl⟩
        · exact .inl ⟨_, .spareUnknown spare hk node, rfl⟩
        · exact .inr ⟨node, host, _, bt, .mk hst, by simp, hd⟩

/-- A refused call touches nothing and publishes nothing. -/
theorem Refused.untouched {nodeId : NodeId} {kind : DeploymentKind} {tr : List EngineSig.Ev}
    {e : CoreError} (h : Refused nodeId kind tr e) : Untouched tr ∧ events tr = [] := by
  cases h <;> exact ⟨⟨rfl, rfl, rfl⟩, rfl⟩

theorem Loaded.untouched {nodeId : NodeId} {kind : DeploymentKind} {node : ValidatorNode}
    {spareHost : Option HostAddr} {tr : List EngineSig.Ev}
    (h : Loaded nodeId kind node spareHost tr) : Untouched tr ∧ events tr = [] := by
  cases h with
  | mk h => cases h <;> exact ⟨⟨rfl, rfl, rfl⟩, rfl⟩

/-- A refused call did not get past loading. -/
theorem Refused.not_loaded {nodeId : NodeId} {kind : DeploymentKind} {node : ValidatorNode}
    {spareHost : Option HostAddr} {tr lt rest : List EngineSig.Ev} {e : CoreError}
    (h : Refused nodeId kind tr e) (hl : Loaded nodeId kind node spareHost lt) :
    tr ≠ lt ++ rest := by
  intro htr
  cases hl with
  | mk hst =>
    cases hst with
    | failover spare sp => cases h <;> simp at htr
    | other _ hk =>
      cases h with
      | spareUnknown spare hs _ => exact hk spare hs
      | spareUnread spare hs _ _ => exact hk spare hs
      | _ => simp at htr

/-- What a call loaded is determined by its trace. -/
theorem Loaded.unique {nodeId : NodeId} {kind : DeploymentKind} {node node' : ValidatorNode}
    {spareHost spareHost' : Option HostAddr} {lt lt' rest rest' : List EngineSig.Ev}
    (h : Loaded nodeId kind node spareHost lt) (h' : Loaded nodeId kind node' spareHost' lt')
    (htr : lt ++ rest = lt' ++ rest') : node = node' ∧ spareHost = spareHost' ∧ rest = rest' := by
  cases h with
  | mk hst =>
    cases h' with
    | mk hst' =>
      cases hst with
      | failover spare sp =>
        cases hst' with
        | failover _ sp' =>
          simp only [List.cons_append, List.nil_append, List.cons.injEq, true_and] at htr
          obtain ⟨hn, hs, rfl⟩ := htr
          cases hn
          cases hs
          exact ⟨rfl, rfl, rfl⟩
        | other _ hk => exact absurd rfl (hk spare)
      | other _ hk =>
        cases hst' with
        | failover spare _ => exact absurd rfl (hk spare)
        | other _ _ =>
          simp only [List.cons_append, List.nil_append, List.cons.injEq, true_and] at htr
          obtain ⟨hn, rfl⟩ := htr
          cases hn
          exact ⟨rfl, rfl, rfl⟩

/-- A call that loaded its node is `deploy` from there on. -/
theorem startDeployment_loaded {nodeId : NodeId} {kind : DeploymentKind} {node : ValidatorNode}
    {spareHost : Option HostAddr} {lt rest : List EngineSig.Ev} {r : Except CoreError DeploymentRun}
    (h : (startDeployment nodeId kind).run.Exec (lt ++ rest) r)
    (hl : Loaded nodeId kind node spareHost lt) :
    ∃ bt, rest = bt ++ [⟨.bulkheadRelease, ()⟩] ∧ (deploy node kind spareHost).run.Exec bt r := by
  rcases startDeployment_cases h with ⟨e, hr, -⟩ | ⟨node', spareHost', lt', bt, hl', htr, hd⟩
  · exact absurd rfl (hr.not_loaded hl)
  · rw [List.append_assoc] at htr
    obtain ⟨rfl, rfl, rfl⟩ := hl.unique hl' htr
    exact ⟨bt, rfl, hd⟩

/-! ## Opening the run -/

/-- The record a run starts with. -/
def openRun (node : ValidatorNode) (kind : DeploymentKind) (n : UInt64) (t : DateTime) :
    DeploymentRun :=
  DeploymentRun.new (runIdOf n) node.id kind t

theorem beginRun_cases {node : ValidatorNode} {kind : DeploymentKind} {β : Type}
    {f : DeploymentRun → Engine β} {tr : List EngineSig.Ev} {r : Except CoreError β}
    (h : (beginRun node kind >>= f).run.Exec tr r) :
    ∃ n t₀, let run := openRun node kind n t₀
      (∃ e, tr = [⟨.nextRun, n⟩, ⟨.now, t₀⟩, ⟨.saveRun run, .error e⟩] ∧ r = .error (.port e)) ∨
      (∃ t₁ tr', tr = ⟨.nextRun, n⟩ :: ⟨.now, t₀⟩ :: ⟨.saveRun run, .ok ()⟩ :: ⟨.now, t₁⟩ ::
          ⟨.publish (.runStarted run.id node.id kind t₁), ()⟩ :: tr' ∧ (f run).run.Exec tr' r) := by
  unfold beginRun at h
  simp only [bind_assoc, pure_bind] at h
  rw [exec_ask_bind] at h
  obtain ⟨n, t, rfl, h⟩ := h
  rw [exec_ask_bind] at h
  obtain ⟨t₀, t, rfl, h⟩ := h
  refine ⟨n, t₀, ?_⟩
  rw [exec_saveRunOp_bind] at h
  rcases h with ⟨e, rfl, rfl⟩ | ⟨u, t, rfl, h⟩
  · exact .inl ⟨e, rfl, rfl⟩
  · rw [exec_ask_bind] at h
    obtain ⟨t₁, t, rfl, h⟩ := h
    rw [exec_ask_bind] at h
    obtain ⟨_, t, rfl, h⟩ := h
    exact .inr ⟨t₁, t, rfl, h⟩

/-! ## The saga -/

/-- A call of the agent, on the engine's agent port. -/
def agentEv (e : AgentSig.Ev) : EngineSig.Ev := ⟨.agent e.1, e.2⟩

/-- A call of the agent and whether it answered `Ok`. -/
def answer (e : AgentSig.Ev) : AgentCall × Bool := (e.1, e.2.isOk)

/-- The agent call behind a method call of a step. -/
def made : SagaExecutor.Call PlanStep → Option (AgentCall × Bool)
  | .execute s ctx b => (s.executeCall ctx).map (·, b)
  | .compensate s ctx b => (s.compensateCall ctx).map (·, b)

theorem exec_interp_agentPort {α : Type} (p : Prog AgentSig α) (tr : List EngineSig.Ev) (a : α) :
    (p.interp agentPort).Exec tr a ↔ ∃ t, p.Exec t a ∧ tr = t.map agentEv := by
  induction p generalizing tr with
  | ret b =>
    refine ⟨?_, ?_⟩
    · intro h
      obtain ⟨rfl, rfl⟩ := h
      exact ⟨[], ⟨rfl, rfl⟩, rfl⟩
    · intro h
      obtain ⟨t, ⟨rfl, rfl⟩, rfl⟩ := h
      exact ⟨rfl, rfl⟩
  | op c k ih =>
    refine ⟨?_, ?_⟩
    · intro h
      obtain ⟨r, tr', rfl, h⟩ := h
      obtain ⟨t, ht, rfl⟩ := (ih r tr').1 h
      exact ⟨⟨c, r⟩ :: t, ⟨r, t, rfl, ht⟩, rfl⟩
    · intro h
      obtain ⟨_, ⟨r, t, rfl, ht⟩, rfl⟩ := h
      exact ⟨r, t.map agentEv, rfl, (ih r _).2 ⟨t, ht, rfl⟩⟩

/-- What the engine's trace of a saga shows of the executor's trace `ut`. -/
structure SagaTrace (ut : List (SagaSig PlanStep).Ev) (tr : List EngineSig.Ev) : Prop where
  nodes : savedNodes tr = []
  runs : savedRuns tr = []
  events : events tr = SagaExecutor.published ut
  agents : (agentCalls tr).map answer = (SagaExecutor.calls ut).filterMap made

theorem SagaTrace.append {u₁ u₂ : List (SagaSig PlanStep).Ev} {t₁ t₂ : List EngineSig.Ev}
    (h₁ : SagaTrace u₁ t₁) (h₂ : SagaTrace u₂ t₂) : SagaTrace (u₁ ++ u₂) (t₁ ++ t₂) := by
  refine ⟨?_, ?_, ?_, ?_⟩
  · rw [savedNodes_append, h₁.nodes, h₂.nodes, List.append_nil]
  · rw [savedRuns_append, h₁.runs, h₂.runs, List.append_nil]
  · rw [events_append, h₁.events, h₂.events, SagaExecutor.published_append]
  · rw [agentCalls_append, List.map_append, h₁.agents, h₂.agents, SagaExecutor.calls_append,
      List.filterMap_append]

theorem SagaTrace.execute {s : PlanStep} {ctx : SagaContext} {r : Except PortError Unit}
    {tr : List EngineSig.Ev} (h : ((s.execute ctx).interp agentPort).Exec tr r) :
    SagaTrace [⟨.execute s ctx, r⟩] tr := by
  rw [exec_interp_agentPort] at h
  obtain ⟨t, h, rfl⟩ := h
  rcases PlanStep.execute_cases h with ⟨c, reply, hc, rfl, rfl⟩ | ⟨hc, rfl, -⟩
  · refine ⟨rfl, rfl, rfl, ?_⟩
    simp [SagaExecutor.callOf, made, hc, agentEv, agentCallOf, answer]
  · exact ⟨rfl, rfl, rfl, by simp [SagaExecutor.callOf, made, hc]⟩

theorem SagaTrace.compensate {s : PlanStep} {ctx : SagaContext} {r : Except PortError Unit}
    {tr : List EngineSig.Ev} (h : ((s.compensate ctx).interp agentPort).Exec tr r) :
    SagaTrace [⟨.compensate s ctx, r⟩] tr := by
  rw [exec_interp_agentPort] at h
  obtain ⟨t, h, rfl⟩ := h
  rcases PlanStep.compensate_cases h with ⟨c, reply, hc, rfl, rfl⟩ | ⟨hc, rfl⟩
  · refine ⟨rfl, rfl, rfl, ?_⟩
    simp [SagaExecutor.callOf, made, hc, agentEv, agentCallOf, answer]
  · exact ⟨rfl, rfl, rfl, by simp [SagaExecutor.callOf, made, hc]⟩

theorem SagaTrace.event {e : (SagaSig PlanStep).Ev} {tr : List EngineSig.Ev}
    (h : (sagaPort e.1).Exec tr e.2) : SagaTrace [e] tr := by
  obtain ⟨o, r⟩ := e
  cases o with
  | execute s ctx => exact .execute h
  | compensate s ctx => exact .compensate h
  | publish ev =>
    obtain rfl := (exec_perform (S := EngineSig) (.publish ev) tr r).1 h
    exact ⟨rfl, rfl, rfl, rfl⟩
  | now =>
    obtain rfl := (exec_perform (S := EngineSig) .now tr r).1 h
    exact ⟨rfl, rfl, rfl, rfl⟩

theorem SagaTrace.lower {segs : List (Seg (SagaSig PlanStep) EngineSig)}
    (h : Refined sagaPort segs) : SagaTrace (upper segs) (lower segs) := by
  induction segs with
  | nil => exact ⟨rfl, rfl, rfl, rfl⟩
  | cons s l ih =>
    have hs : SagaTrace [s.1] s.2 := .event (h s List.mem_cons_self)
    exact hs.append (ih fun s' hs' => h s' (List.mem_cons_of_mem _ hs'))

/-- One run of the saga, `sh` being how it went. -/
structure SagaRan (node : ValidatorNode) (kind : DeploymentKind) (spareHost : Option HostAddr)
    (run : DeploymentRun) (tr : List EngineSig.Ev) (status : RunStatus) (run' : DeploymentRun)
    (sh : SagaExecutor.Shape PlanStep) (ut : List (SagaSig PlanStep).Ev) : Prop where
  spec : SagaExecutor.RunSpec (ctxFor node kind spareHost) [] (buildPlan kind) run sh ut status run'
  trace : SagaTrace ut tr

theorem sagaRun_spec {node : ValidatorNode} {kind : DeploymentKind} {spareHost : Option HostAddr}
    {run run' : DeploymentRun} {tr : List EngineSig.Ev} {status : RunStatus}
    (h : (sagaRun node kind spareHost run).Exec tr (status, run')) :
    ∃ sh ut, SagaRan node kind spareHost run tr status run' sh ut := by
  obtain ⟨segs, he, hr, rfl⟩ := (exec_interp ..).1 h
  obtain ⟨sh, hs⟩ := SagaExecutor.forward_spec _ _ _ _ _ _ _ he
  exact ⟨sh, upper segs, hs, .lower hr⟩

theorem SpareFound.isSome {kind : DeploymentKind} {spareHost : Option HostAddr}
    {st : List EngineSig.Ev} (h : SpareFound kind spareHost st) (spare : NodeId)
    (hk : kind = .failover spare) : spareHost.isSome = true := by
  cases h with
  | failover _ _ => rfl
  | other _ hn => exact absurd hk (hn spare)

/-- With its spare found, every step of the plan calls the agent. -/
theorem SpareFound.executeCall {kind : DeploymentKind} {spareHost : Option HostAddr}
    {st : List EngineSig.Ev} (h : SpareFound kind spareHost st) (node : ValidatorNode)
    (s : PlanStep) (hs : s ∈ buildPlan kind) :
    ∃ c, s.executeCall (ctxFor node kind spareHost) = some c := by
  cases s with
  | swapIdentityStep =>
    cases kind with
    | failover spare =>
      obtain ⟨host, hh⟩ := Option.isSome_iff_exists.1 (h.isSome spare rfl)
      exact ⟨.swapIdentity node.host host, by simp [PlanStep.executeCall, ctxFor, hh]⟩
    | provision | upgrade v | decommission => simp [buildPlan] at hs
  | _ => exact ⟨_, rfl⟩

namespace SagaRan

variable {node : ValidatorNode} {kind : DeploymentKind} {spareHost : Option HostAddr}
  {run run' : DeploymentRun} {tr : List EngineSig.Ev} {status : RunStatus}
  {sh : SagaExecutor.Shape PlanStep} {ut : List (SagaSig PlanStep).Ev}

theorem isTerminal (h : SagaRan node kind spareHost run tr status run' sh ut) :
    status.isTerminal = true := by
  rw [h.spec.status]
  split
  · split <;> rfl
  · rfl

theorem succeeded_iff_failed (h : SagaRan node kind spareHost run tr status run' sh ut) :
    status = .succeeded ↔ sh.failed = none := by
  rw [h.spec.status]
  cases sh.failed with
  | none => simp
  | some s =>
    simp only [Option.isSome_some, if_true, reduceCtorEq, iff_false]
    split <;> simp

theorem done_prefix (h : SagaRan node kind spareHost run tr status run' sh ut) :
    sh.done <+: buildPlan kind :=
  ⟨sh.failed.toList ++ sh.rest, by rw [h.spec.split, List.append_assoc]⟩

/-- The whole plan was done exactly when the saga succeeded. -/
theorem done_eq_iff (h : SagaRan node kind spareHost run tr status run' sh ut) :
    sh.done = buildPlan kind ↔ status = .succeeded := by
  rw [h.succeeded_iff_failed]
  have hsplit := h.spec.split
  have hstop := h.spec.stops
  cases hf : sh.failed with
  | none =>
    rw [hf, hstop hf] at hsplit
    simpa using hsplit.symm
  | some s =>
    refine ⟨?_, fun hc => by cases hc⟩
    intro hd
    have hl := congrArg List.length hsplit
    rw [← hd, hf] at hl
    simp only [List.length_append, Option.toList_some, List.length_singleton] at hl
    omega

/-- So do the actions recorded. -/
theorem actions_eq_iff (h : SagaRan node kind spareHost run tr status run' sh ut) :
    sh.done.map SagaStep.action = (buildPlan kind).map SagaStep.action ↔ status = .succeeded := by
  refine ⟨?_, ?_⟩
  · intro hd
    refine h.done_eq_iff.1 (h.done_prefix.eq_of_length ?_)
    simpa using congrArg List.length hd
  · intro hs
    rw [h.done_eq_iff.2 hs]

/-- Only steps before the last are ever undone. -/
theorem undone_mem (h : SagaRan node kind spareHost run tr status run' sh ut)
    {u : PlanStep × Bool} (hu : u ∈ sh.undone) : u.1 ∈ (buildPlan kind).dropLast := by
  have hmem : u.1 ∈ sh.undone.map Prod.fst := List.mem_map_of_mem hu
  rw [h.spec.unwound] at hmem
  cases hf : sh.failed with
  | none => simp [hf] at hmem
  | some s =>
    have hdone : u.1 ∈ sh.done := by simpa [hf] using hmem
    have hsplit : buildPlan kind = sh.done ++ s :: sh.rest := by simp [h.spec.split, hf]
    rw [hsplit, List.dropLast_append_of_ne_nil (by simp)]
    exact List.mem_append_left _ hdone

/-- Every agent call is a step of the plan, or undoes one before the last. -/
theorem agentCall_mem (h : SagaRan node kind spareHost run tr status run' sh ut)
    {e : AgentSig.Ev} (he : e ∈ agentCalls tr) :
    (∃ s ∈ buildPlan kind, s.executeCall (ctxFor node kind spareHost) = some e.1) ∨
    ∃ s ∈ (buildPlan kind).dropLast,
      s.compensateCall (ctxFor node kind spareHost) = some e.1 := by
  have hans : answer e ∈ (SagaExecutor.calls ut).filterMap made := by
    rw [← h.trace.agents]
    exact List.mem_map_of_mem he
  obtain ⟨c, hc, hmade⟩ := List.mem_filterMap.1 hans
  have hplan : ∀ s, s ∈ sh.done ∨ s ∈ sh.failed.toList → s ∈ buildPlan kind := by
    intro s hs
    rw [h.spec.split]
    exact List.mem_append_left _ (List.mem_append.2 hs)
  rw [h.spec.made, List.mem_append, List.mem_append, List.mem_map, List.mem_map,
    List.mem_map] at hc
  rcases hc with (⟨s, hs, rfl⟩ | ⟨s, hs, rfl⟩) | ⟨u, hu, rfl⟩
  · obtain ⟨call, hcall, heq⟩ := Option.map_eq_some_iff.1 hmade
    exact .inl ⟨s, hplan s (.inl hs), hcall.trans (congrArg some (congrArg Prod.fst heq))⟩
  · obtain ⟨call, hcall, heq⟩ := Option.map_eq_some_iff.1 hmade
    exact .inl ⟨s, hplan s (.inr hs), hcall.trans (congrArg some (congrArg Prod.fst heq))⟩
  · obtain ⟨call, hcall, heq⟩ := Option.map_eq_some_iff.1 hmade
    exact .inr ⟨u.1, h.undone_mem hu, hcall.trans (congrArg some (congrArg Prod.fst heq))⟩

/-- The saga succeeded exactly when no agent call answered `Err`. -/
theorem succeeded_iff (h : SagaRan node kind spareHost run tr status run' sh ut)
    {st : List EngineSig.Ev} (hst : SpareFound kind spareHost st) :
    status = .succeeded ↔ ∀ e ∈ agentCalls tr, e.2.isOk = true := by
  have hag : (∀ e ∈ agentCalls tr, e.2.isOk = true) ↔
      ∀ p ∈ (SagaExecutor.calls ut).filterMap made, p.2 = true := by
    rw [← h.trace.agents, List.forall_mem_map]
    exact Iff.rfl
  rw [h.succeeded_iff_failed, hag, h.spec.made]
  cases hf : sh.failed with
  | none =>
    have hu : sh.undone = [] := by simpa [hf] using h.spec.unwound
    simp only [hu, true_iff]
    intro p hp
    simp only [Option.toList_none, List.map_nil, List.append_nil, List.filterMap_map,
      List.mem_filterMap, Function.comp, made, Option.map_eq_some_iff] at hp
    obtain ⟨s, -, c, -, rfl⟩ := hp
    rfl
  | some s =>
    have hs : s ∈ buildPlan kind := by rw [h.spec.split, hf]; simp
    obtain ⟨c, hc⟩ := hst.executeCall node s hs
    simp only [reduceCtorEq, false_iff, not_forall]
    refine ⟨(c, false), ?_, by simp⟩
    rw [List.mem_filterMap]
    exact ⟨.execute s (ctxFor node kind spareHost) false, by simp, by simp [made, hc]⟩

end SagaRan

/-! ## Settling the node -/

/-- Every edge along the path is permitted. -/
def legalPath : NodeState → List NodeState → Bool
  | _, [] => true
  | s, t :: path => s.canTransitionTo t && legalPath t path

/-- The events along a path, still lacking their time. -/
def changes (id : NodeId) : NodeState → List NodeState → List (DateTime → OpsEvent)
  | _, [] => []
  | s, t :: path => .nodeStateChanged id s t :: changes id t path

theorem legalPath_reaches {s : NodeState} {path : List NodeState} (h : legalPath s path = true) :
    NodeState.Reaches s (path.getLastD s) := by
  induction path generalizing s with
  | nil => exact .refl
  | cons t path ih =>
    simp only [legalPath, Bool.and_eq_true] at h
    have ht := ih h.2
    rw [List.getLastD_cons]
    exact .head h.1 ht

/-- The transitions of a path were applied to `node`, giving `m`. -/
structure Moved (node : ValidatorNode) (path : List NodeState) (tr : List EngineSig.Ev)
    (m : ValidatorNode) : Prop where
  untouched : Untouched tr
  legal : legalPath node.state path = true
  state : m.state = path.getLastD node.state
  version : m.version = node.version
  record : node.SameRecord m
  events : ∃ ts : List DateTime, ts.length = path.length ∧
    events tr = SagaExecutor.stamp (changes node.id node.state path) ts

/-- The path was refused at an edge; the edges before it were announced. -/
structure Stuck (node : ValidatorNode) (path : List NodeState) (tr : List EngineSig.Ev)
    (e : CoreError) : Prop where
  untouched : Untouched tr
  illegal : legalPath node.state path = false
  error : ∃ from' to', e = .domain (.illegalTransition from' to')
  announced : ∃ pre t rest ts, path = pre ++ t :: rest ∧ legalPath node.state pre = true ∧
    (pre.getLastD node.state).canTransitionTo t = false ∧ ts.length = pre.length ∧
    events tr = SagaExecutor.stamp (changes node.id node.state pre) ts

theorem transitions_cases {β : Type} {f : ValidatorNode → Engine β} {node : ValidatorNode}
    {path : List NodeState} {tr : List EngineSig.Ev} {r : Except CoreError β}
    (h : (transitions node path >>= f).run.Exec tr r) :
    (∃ e, Stuck node path tr e ∧ r = .error e) ∨
    ∃ m t₁ t₂, tr = t₁ ++ t₂ ∧ Moved node path t₁ m ∧ (f m).run.Exec t₂ r := by
  induction path generalizing node tr with
  | nil =>
    refine .inr ⟨node, [], tr, rfl, ?_, h⟩
    exact ⟨⟨rfl, rfl, rfl⟩, rfl, rfl, rfl, .refl node, [], rfl, rfl⟩
  | cons t path ih =>
    unfold transitions at h
    simp only [bind_assoc] at h
    rw [exec_ask_bind] at h
    obtain ⟨t₀, tr₁, rfl, h⟩ := h
    rw [exec_domain_bind] at h
    rcases h with ⟨e, he, rfl, rfl⟩ | ⟨n, hn, h⟩
    · obtain ⟨hc, rfl⟩ := ValidatorNode.transitionTo_eq_error.1 he
      refine .inl ⟨_, ⟨⟨rfl, rfl, rfl⟩, ?_, ⟨_, _, rfl⟩, ?_⟩, rfl⟩
      · simp [legalPath, hc]
      · exact ⟨[], t, path, [], rfl, rfl, hc, rfl, rfl⟩
    · obtain ⟨hc, rfl⟩ := ValidatorNode.transitionTo_eq_ok.1 hn
      rw [exec_ask_bind] at h
      obtain ⟨t₁, tr₂, rfl, h⟩ := h
      rw [exec_ask_bind] at h
      obtain ⟨u, tr₃, rfl, h⟩ := h
      rcases ih h with ⟨e, hs, rfl⟩ | ⟨m, s₁, s₂, rfl, hm, h⟩
      · refine .inl ⟨e, ⟨?_, ?_, hs.error, ?_⟩, rfl⟩
        · exact ⟨hs.untouched.agents, hs.untouched.nodes, hs.untouched.runs⟩
        · simp [legalPath, hs.illegal]
        · obtain ⟨pre, g, rest, ts, rfl, hpre, hbad, hlen, hev⟩ := hs.announced
          refine ⟨t :: pre, g, rest, t₁ :: ts, rfl, ?_, ?_, by simp [hlen], ?_⟩
          · simp only [legalPath, hc, Bool.true_and]
            exact hpre
          · rw [List.getLastD_cons]
            exact hbad
          · simp only [events_cons, eventOf, Option.toList_none, Option.toList_some,
              List.nil_append, List.singleton_append, hev]
            rfl
      · refine .inr ⟨m, ⟨.now, t₀⟩ :: ⟨.now, t₁⟩ ::
          ⟨.publish (.nodeStateChanged node.id node.state t t₁), u⟩ :: s₁, s₂, rfl, ?_, h⟩
        obtain ⟨ts, hl, hev⟩ := hm.events
        have hr : node.SameRecord { node with state := t, updatedAt := t₀ } :=
          ⟨rfl, rfl, rfl, rfl, rfl, rfl⟩
        refine ⟨⟨hm.untouched.agents, hm.untouched.nodes, hm.untouched.runs⟩, ?_, ?_,
          hm.version, hr.trans hm.record, t₁ :: ts, by simp [hl], ?_⟩
        · simp [legalPath, hc, hm.legal]
        · rw [hm.state, List.getLastD_cons]
        · simp only [events_cons, eventOf, Option.toList_none, Option.toList_some,
            List.nil_append, List.singleton_append, hev]
          rfl

theorem legalPath_append (s : NodeState) (p q : List NodeState) :
    legalPath s (p ++ q) = (legalPath s p && legalPath (p.getLastD s) q) := by
  induction p generalizing s with
  | nil => rfl
  | cons t p ih =>
    rw [List.cons_append, List.getLastD_cons]
    simp only [legalPath, ih, Bool.and_assoc]

/-- Only the first edge of a deployment's path can be refused. -/
theorem legalPath_tail_pathFor (kind : DeploymentKind) (status : RunStatus) {t : NodeState}
    {path : List NodeState} (h : pathFor kind status = t :: path) : legalPath t path = true := by
  unfold pathFor at h
  by_cases hs : status = .succeeded
  · rw [if_pos hs] at h
    cases kind <;> cases h <;> rfl
  · rw [if_neg hs] at h
    cases kind with
    | provision => cases h; rfl
    | upgrade _ | failover _ | decommission => cases h

/-- So a deployment that is refused announced no change. -/
theorem Stuck.silent {node : ValidatorNode} {kind : DeploymentKind} {status : RunStatus}
    {tr : List EngineSig.Ev} {e : CoreError} (h : Stuck node (pathFor kind status) tr e) :
    OpsEngine.events tr = [] := by
  obtain ⟨pre, t, rest, ts, hpath, -, hbad, -, hev⟩ := h.announced
  cases pre with
  | nil => rw [hev]; rfl
  | cons g pre =>
    rw [List.cons_append] at hpath
    have htail := legalPath_tail_pathFor kind status hpath
    rw [List.getLastD_cons] at hbad
    rw [legalPath_append, Bool.and_eq_true] at htail
    have hedge := htail.2
    simp only [legalPath, hbad, Bool.false_and, Bool.false_eq_true] at hedge

/-- The node as it is saved: moved along the path, and on a successful upgrade
given its new version. -/
structure Settled (node : ValidatorNode) (kind : DeploymentKind) (status : RunStatus)
    (tr : List EngineSig.Ev) (m : ValidatorNode) : Prop where
  untouched : Untouched tr
  legal : legalPath node.state (pathFor kind status) = true
  state : m.state = (pathFor kind status).getLastD node.state
  version : m.version = if status = .succeeded then versionFor node kind else node.version
  record : node.SameRecord m
  events : ∃ ts : List DateTime, ts.length = (pathFor kind status).length ∧
    events tr = SagaExecutor.stamp (changes node.id node.state (pathFor kind status)) ts

theorem stampVersion_cases {β : Type} {f : ValidatorNode → Engine β} {kind : DeploymentKind}
    {status : RunStatus} {n : ValidatorNode} {tr : List EngineSig.Ev} {r : Except CoreError β}
    (h : (stampVersion kind status n >>= f).run.Exec tr r) :
    ∃ t₁ t₂ m, tr = t₁ ++ t₂ ∧ Untouched t₁ ∧ events t₁ = [] ∧ n.SameRecord m ∧
      m.state = n.state ∧
      m.version = (if status = .succeeded then versionFor n kind else n.version) ∧
      (f m).run.Exec t₂ r := by
  unfold stampVersion at h
  by_cases hs : status = .succeeded
  · rw [if_pos hs] at h
    cases kind with
    | upgrade v =>
      simp only [bind_assoc, pure_bind] at h
      rw [exec_ask_bind] at h
      obtain ⟨t, t₂, rfl, h⟩ := h
      refine ⟨[⟨.now, t⟩], t₂, n.setVersion v t, rfl, ⟨rfl, rfl, rfl⟩, rfl, ?_, rfl, ?_, h⟩
      · exact ⟨rfl, rfl, rfl, rfl, rfl, rfl⟩
      · rw [if_pos hs]; rfl
    | provision | failover _ | decommission =>
      refine ⟨[], tr, n, rfl, ⟨rfl, rfl, rfl⟩, rfl, .refl n, rfl, ?_, h⟩
      rw [if_pos hs]; rfl
  · rw [if_neg hs] at h
    exact ⟨[], tr, n, rfl, ⟨rfl, rfl, rfl⟩, rfl, .refl n, rfl, by rw [if_neg hs], h⟩

theorem settleNode_cases {β : Type} {f : Unit → Engine β} {node : ValidatorNode}
    {kind : DeploymentKind} {status : RunStatus} {tr : List EngineSig.Ev} {r : Except CoreError β}
    (h : (settleNode kind status node >>= f).run.Exec tr r) :
    (∃ e, Stuck node (pathFor kind status) tr e ∧ r = .error e) ∨
    ∃ t₁ m, Settled node kind status t₁ m ∧
      ((∃ e, tr = t₁ ++ [⟨.saveNode m, .error e⟩] ∧ r = .error (.port e)) ∨
        ∃ t₂, tr = t₁ ++ ⟨.saveNode m, .ok ()⟩ :: t₂ ∧ (f ()).run.Exec t₂ r) := by
  unfold settleNode at h
  simp only [bind_assoc] at h
  rcases transitions_cases h with ⟨e, hs, rfl⟩ | ⟨n, t₁, t₂, rfl, hm, h₁⟩
  · exact .inl ⟨e, hs, rfl⟩
  · obtain ⟨v₁, v₂, m, rfl, hu, hev, hr, hst, hv, h₂⟩ := stampVersion_cases h₁
    have hset : Settled node kind status (t₁ ++ v₁) m := by
      obtain ⟨ts, hl, he⟩ := hm.events
      refine ⟨⟨?_, ?_, ?_⟩, hm.legal, hst.trans hm.state, ?_, hm.record.trans hr, ts, hl, ?_⟩
      · rw [agentCalls_append, hm.untouched.agents, hu.agents, List.append_nil]
      · rw [savedNodes_append, hm.untouched.nodes, hu.nodes, List.append_nil]
      · rw [savedRuns_append, hm.untouched.runs, hu.runs, List.append_nil]
      · rw [hv]
        cases kind <;> simp only [versionFor, hm.version]
      · rw [events_append, he, hev, List.append_nil]
    refine .inr ⟨t₁ ++ v₁, m, hset, ?_⟩
    rw [exec_saveNodeOp_bind] at h₂
    rcases h₂ with ⟨e, rfl, rfl⟩ | ⟨u, t₃, rfl, h₃⟩
    · exact .inl ⟨e, by simp, rfl⟩
    · exact .inr ⟨t₃, by simp, h₃⟩

/-! ## Closing the run -/

theorem finishRun_cases {status : RunStatus} {run : DeploymentRun} {tr : List EngineSig.Ev}
    {r : Except CoreError DeploymentRun} (h : (finishRun status run).run.Exec tr r) :
    ∃ t, (∃ e, tr = [⟨.now, t⟩, ⟨.saveRun (run.finish status t), .error e⟩] ∧
        r = .error (.port e)) ∨
      ∃ t', tr = [⟨.now, t⟩, ⟨.saveRun (run.finish status t), .ok ()⟩, ⟨.now, t'⟩,
          ⟨.publish (.runFinished run.id status t'), ()⟩] ∧ r = .ok (run.finish status t) := by
  unfold finishRun at h
  rw [exec_ask_bind] at h
  obtain ⟨t, t₁, rfl, h⟩ := h
  refine ⟨t, ?_⟩
  rw [exec_saveRunOp_bind] at h
  rcases h with ⟨e, rfl, rfl⟩ | ⟨u, t₂, rfl, h⟩
  · exact .inl ⟨e, rfl, rfl⟩
  · rw [exec_ask_bind] at h
    obtain ⟨t', t₃, rfl, h⟩ := h
    rw [exec_ask_bind] at h
    obtain ⟨_, t₄, rfl, h⟩ := h
    rw [exec_tryPure] at h
    obtain ⟨rfl, rfl⟩ := h
    exact .inr ⟨t', rfl, rfl⟩

/-! ## The whole of it -/

/-- The events of opening a run. -/
def opening (node : ValidatorNode) (kind : DeploymentKind) (n : UInt64) (t₀ t₁ : DateTime) :
    List EngineSig.Ev :=
  [⟨.nextRun, n⟩, ⟨.now, t₀⟩, ⟨.saveRun (openRun node kind n t₀), .ok ()⟩, ⟨.now, t₁⟩,
    ⟨.publish (.runStarted (runIdOf n) node.id kind t₁), ()⟩]

/-- How a deployment ends once its saga returned `status` and `run`. -/
inductive Ended (node : ValidatorNode) (kind : DeploymentKind) (status : RunStatus)
    (run : DeploymentRun) : List EngineSig.Ev → Except CoreError DeploymentRun → Prop
  | stuck {tr : List EngineSig.Ev} {e : CoreError} (h : Stuck node (pathFor kind status) tr e) :
      Ended node kind status run tr (.error e)
  | unsaved {tr : List EngineSig.Ev} {m : ValidatorNode} (h : Settled node kind status tr m)
      (e : PortError) :
      Ended node kind status run (tr ++ [⟨.saveNode m, .error e⟩]) (.error (.port e))
  | unclosed {tr : List EngineSig.Ev} {m : ValidatorNode} (h : Settled node kind status tr m)
      (t : DateTime) (e : PortError) :
      Ended node kind status run
        (tr ++ [⟨.saveNode m, .ok ()⟩, ⟨.now, t⟩, ⟨.saveRun (run.finish status t), .error e⟩])
        (.error (.port e))
  | closed {tr : List EngineSig.Ev} {m : ValidatorNode} (h : Settled node kind status tr m)
      (t t' : DateTime) :
      Ended node kind status run
        (tr ++ [⟨.saveNode m, .ok ()⟩, ⟨.now, t⟩, ⟨.saveRun (run.finish status t), .ok ()⟩,
          ⟨.now, t'⟩, ⟨.publish (.runFinished run.id status t'), ()⟩])
        (.ok (run.finish status t))

/-- **A deployment.** Its run cannot be opened, or it is opened, the saga runs
to its end, and the deployment ends in one of four ways. -/
theorem deploy_cases {node : ValidatorNode} {kind : DeploymentKind} {spareHost : Option HostAddr}
    {tr : List EngineSig.Ev} {r : Except CoreError DeploymentRun}
    (h : (deploy node kind spareHost).run.Exec tr r) :
    (∃ n t₀ e, tr = [⟨.nextRun, n⟩, ⟨.now, t₀⟩, ⟨.saveRun (openRun node kind n t₀), .error e⟩] ∧
      r = .error (.port e)) ∨
    ∃ n t₀ t₁ st et status run sh ut, tr = opening node kind n t₀ t₁ ++ st ++ et ∧
      SagaRan node kind spareHost (openRun node kind n t₀) st status run sh ut ∧
      Ended node kind status run et r := by
  unfold deploy at h
  obtain ⟨n, t₀, ⟨e, rfl, rfl⟩ | ⟨t₁, tr₁, rfl, h₁⟩⟩ := beginRun_cases h
  · exact .inl ⟨n, t₀, e, rfl, rfl⟩
  refine .inr ⟨n, t₀, t₁, ?_⟩
  rw [exec_lift_bind] at h₁
  obtain ⟨st, ⟨status, run⟩, et, rfl, hs, h₂⟩ := h₁
  obtain ⟨sh, ut, hsaga⟩ := sagaRun_spec hs
  refine ⟨st, et, status, run, sh, ut, rfl, hsaga, ?_⟩
  rcases settleNode_cases h₂ with ⟨e, hstuck, rfl⟩ | ⟨t, m, hset, ⟨e, rfl, rfl⟩ | ⟨ft, rfl, h₃⟩⟩
  · exact .stuck hstuck
  · exact .unsaved hset e
  · obtain ⟨t₂, ⟨e, rfl, rfl⟩ | ⟨t₃, rfl, rfl⟩⟩ := finishRun_cases h₃
    · exact .unclosed hset t₂ e
    · exact .closed hset t₂ t₃

/-- What a call saves of its node: nothing, or one node, which agrees with the
loaded one and whose state is reached from the loaded one along permitted edges. -/
theorem startDeployment_saves {nodeId : NodeId} {kind : DeploymentKind} {tr : List EngineSig.Ev}
    {r : Except CoreError DeploymentRun} (h : (startDeployment nodeId kind).run.Exec tr r) :
    savedNodes tr = [] ∨
    ∃ node spareHost lt rest m a, Loaded nodeId kind node spareHost lt ∧ tr = lt ++ rest ∧
      savedNodes tr = [(m, a)] ∧ node.SameRecord m ∧ node.state.Reaches m.state := by
  rcases startDeployment_cases h with ⟨e, hr, -⟩ | ⟨node, spareHost, lt, bt, hl, rfl, hd⟩
  · exact .inl hr.untouched.1.nodes
  have hlt := hl.untouched.1.nodes
  rcases deploy_cases hd with ⟨n, t₀, e, rfl, -⟩ | ⟨n, t₀, t₁, st, et, status, run, sh, ut, rfl,
    hsaga, hend⟩
  · exact .inl (by simp [hlt, savedNodeOf])
  have hone : ∀ {ft : List EngineSig.Ev} {m : ValidatorNode}, Settled node kind status ft m →
      node.SameRecord m ∧ node.state.Reaches m.state := by
    intro ft m hs
    refine ⟨hs.record, ?_⟩
    rw [hs.state]
    exact legalPath_reaches hs.legal
  have hst := hsaga.trace.nodes
  cases hend with
  | stuck hs => exact .inl (by simp [hlt, hst, opening, savedNodeOf, hs.untouched.nodes])
  | unsaved hs e =>
    exact .inr ⟨node, spareHost, lt, _, _, .error e, hl, List.append_assoc ..,
      by simp [hlt, hst, opening, savedNodeOf, hs.untouched.nodes], hone hs⟩
  | unclosed hs t e =>
    exact .inr ⟨node, spareHost, lt, _, _, .ok (), hl, List.append_assoc ..,
      by simp [hlt, hst, opening, savedNodeOf, hs.untouched.nodes], hone hs⟩
  | closed hs t t' =>
    exact .inr ⟨node, spareHost, lt, _, _, .ok (), hl, List.append_assoc ..,
      by simp [hlt, hst, opening, savedNodeOf, hs.untouched.nodes], hone hs⟩

end OpsEngine

end ValidatorForge.Core
