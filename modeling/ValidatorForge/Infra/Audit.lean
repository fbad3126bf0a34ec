import ValidatorForge.Infra.Session
import ValidatorForge.Lib.ChangeLog

/-!
# The event stream as an audit log

crates/validatorforge-core/src/event.rs. The engine announces a node's transitions
while it applies them and saves the node afterwards, and `register_node` announces
nothing; so whether the log tells what is stored hangs on the repository and on what
is registered. `audited` is the session of an engine over a repository whose calls
may fail.

* `deployment_changes`: the changes a deployment announces lead from the state it
  loaded to the state it saves.
* `faithful_of_guarded`: if the repository takes what was announced, and what is
  registered is in the state already stored, replaying the log gives the stored
  states. `keepsLog_of_faithful`: nothing less will do.
* `unsaved_provision`: a node announced as active and stored as provisioning.
-/
namespace ValidatorForge.Infra

open Interaction ValidatorForge.Types ValidatorForge.Core ValidatorForge.Core.OpsEngine Prog
  ChangeLog

def audited (cfg : OpsConfig) : LTS EngineState Label where
  init w := w = .new
  step w l w' := l.1.Performs cfg l.2 ∧ failingEnv.Accepts w l.2 w'

/-- The change of node `id` that an event announces. -/
def changeOf (id : NodeId) : OpsEvent → Option (NodeState × NodeState)
  | .nodeStateChanged node from' to' _ => if node = id then some (from', to') else none
  | _ => none

def changesOf (id : NodeId) (evs : List OpsEvent) : List (NodeState × NodeState) :=
  evs.filterMap (changeOf id)

/-- The events published along a run. -/
def log (ls : List Label) : List OpsEvent := ls.flatMap fun l => events l.2

/-- After each call the log tells the stored states: each is where the last change
announced for the node ends (`Provisioning` if there is none), and each change
starts where the one before it ended. -/
structure Faithful (w : EngineState) (evs : List OpsEvent) : Prop where
  stored : ∀ id n, w.getNode id = some n → n.state = final .provisioning (changesOf id evs)
  chained : ∀ id, (changesOf id evs).IsChain fun c d => d.1 = c.2

/-- The stored state of a node; `Provisioning` if it is not stored. -/
def stateOf (w : EngineState) (id : NodeId) : NodeState :=
  ((w.getNode id).map ValidatorNode.state).getD .provisioning

/-- The path a deployment's outcome leads to, the outcome being what the agent
answered. -/
def outcomePath (kind : DeploymentKind) (tr : List EngineSig.Ev) : List NodeState :=
  if ∀ e ∈ agentCalls tr, e.2.isOk = true then successPath kind else failurePath kind

/-- A node that is registered and taken is in the state already stored, and a node
that a deployment gives to the repository is taken, unless its path leads back to
the state already stored. -/
def KeepsLog (w : EngineState) (l : Label) : Prop :=
  match l.1 with
  | .registerNode node => ⟨.saveNode node, .ok ()⟩ ∈ l.2 → node.state = stateOf w node.id
  | .startDeployment nodeId kind => (∀ p ∈ savedNodes l.2, p.2.isOk = true) ∨
      (outcomePath kind l.2).getLastD (stateOf w nodeId) = stateOf w nodeId
  | _ => True

@[simp] theorem changesOf_append (id : NodeId) (l₁ l₂ : List OpsEvent) :
    changesOf id (l₁ ++ l₂) = changesOf id l₁ ++ changesOf id l₂ := List.filterMap_append ..

@[simp] theorem changesOf_cons (id : NodeId) (e : OpsEvent) (l : List OpsEvent) :
    changesOf id (e :: l) = (changeOf id e).toList ++ changesOf id l :=
  SagaExecutor.filterMap_cons_toList ..

@[simp] theorem changesOf_nil (id : NodeId) : changesOf id [] = [] := rfl

theorem stateOf_of_getNode {w : EngineState} {id : NodeId} {n : ValidatorNode}
    (h : w.getNode id = some n) : stateOf w id = n.state := by
  unfold stateOf
  rw [h]; rfl

/-! ## What one call announces -/

theorem replays_of_stateChain {id : NodeId} {s t : NodeState} {evs : List OpsEvent}
    (h : StateChain id s evs t) :
    Replays s (changesOf id evs) t ∧ ∀ i, i ≠ id → changesOf i evs = [] := by
  induction evs generalizing s with
  | nil => exact ⟨h, fun _ _ => rfl⟩
  | cons ev evs ih =>
    cases ev with
    | nodeStateChanged i f g t₀ =>
      obtain ⟨rfl, rfl, -, h⟩ := h
      obtain ⟨hr, hother⟩ := ih h
      refine ⟨?_, fun j hj => ?_⟩
      · rw [changesOf_cons, changeOf, if_pos rfl]
        exact ⟨rfl, hr⟩
      · rw [changesOf_cons, changeOf, if_neg (Ne.symm hj)]
        exact hother j hj
    | _ => exact h.elim

theorem changes_of_saga {node : ValidatorNode} {kind : DeploymentKind}
    {spareHost : Option HostAddr} {run run' : DeploymentRun} {tr : List EngineSig.Ev}
    {status : RunStatus} {sh : SagaExecutor.Shape PlanStep} {ut : List (SagaSig PlanStep).Ev}
    (h : SagaRan node kind spareHost run tr status run' sh ut) (id : NodeId) :
    changesOf id (events tr) = [] := by
  unfold changesOf
  rw [List.filterMap_eq_nil_iff, h.trace.events, h.spec.events.1]
  intro ev hev
  obtain ⟨f, hf, t, rfl⟩ := SagaExecutor.mem_stamp hev
  rw [List.mem_append, List.mem_map, List.mem_map] at hf
  rcases hf with ⟨s, -, rfl⟩ | ⟨u, -, rfl⟩ <;> rfl

/-- What a deployment of `node` announces leads to the state of the one node it
gives to the repository. -/
structure Deployed (node : ValidatorNode) (kind : DeploymentKind) (tr : List EngineSig.Ev)
    (m : ValidatorNode) (a : Except PortError Unit) : Prop where
  saved : savedNodes tr = [(m, a)]
  id : m.id = node.id
  state : m.state = (outcomePath kind tr).getLastD node.state
  changes : Replays node.state (changesOf node.id (events tr)) m.state
  others : ∀ id, id ≠ node.id → changesOf id (events tr) = []

/-- A trace `lt ++ (ot ++ st ++ et) ++ rt` of a call that ran its saga and settled
its node in `ft`, the first part of `et`. -/
theorem deployed_of_settled {nodeId : NodeId} {kind : DeploymentKind} {node m : ValidatorNode}
    {spareHost : Option HostAddr} {run run' : DeploymentRun}
    {lt st ft : List EngineSig.Ev} {status : RunStatus} {sh : SagaExecutor.Shape PlanStep}
    {ut : List (SagaSig PlanStep).Ev} (hl : Loaded nodeId kind node spareHost lt)
    (hsaga : SagaRan node kind spareHost run st status run' sh ut)
    (hset : Settled node kind status ft m) (n : UInt64) (t₀ t₁ : DateTime)
    (a : Except PortError Unit) (rt : List EngineSig.Ev) (hag : agentCalls rt = [])
    (hno : savedNodes rt = []) (hev : ∀ id, changesOf id (events rt) = []) :
    Deployed node kind
      (lt ++ (opening node kind n t₀ t₁ ++ st ++ (ft ++ ⟨.saveNode m, a⟩ :: rt))) m a := by
  obtain ⟨hu, hlev⟩ := hl.untouched
  obtain ⟨sp, hst⟩ : ∃ sp, SpareFound kind spareHost sp := by
    cases hl with
    | mk hst => exact ⟨_, hst⟩
  have hcalls : agentCalls (lt ++ (opening node kind n t₀ t₁ ++ st ++
      (ft ++ ⟨.saveNode m, a⟩ :: rt))) = agentCalls st := by
    simp [hu.agents, opening, hset.untouched.agents, hag, agentCallOf]
  have hpath : outcomePath kind (lt ++ (opening node kind n t₀ t₁ ++ st ++
      (ft ++ ⟨.saveNode m, a⟩ :: rt))) = pathFor kind status := by
    unfold outcomePath pathFor
    rw [hcalls]
    exact if_congr (hsaga.succeeded_iff hst).symm rfl rfl
  have hchanges : ∀ id, changesOf id (events (lt ++ (opening node kind n t₀ t₁ ++ st ++
      (ft ++ ⟨.saveNode m, a⟩ :: rt)))) = changesOf id (events ft) := by
    intro id
    simp [hlev, opening, eventOf, changeOf, changes_of_saga hsaga id, hev id]
  obtain ⟨ts, hlen, hft⟩ := hset.events
  have hchain : StateChain node.id node.state (events ft) m.state := by
    rw [hft, hset.state]
    exact stateChain_changes hset.legal hlen
  obtain ⟨hreplay, hother⟩ := replays_of_stateChain hchain
  refine ⟨?_, hset.record.id, ?_, ?_, fun id hid => ?_⟩
  · simp [hu.nodes, opening, hsaga.trace.nodes, hset.untouched.nodes, hno, savedNodeOf]
  · rw [hpath]
    exact hset.state
  · rw [hchanges]
    exact hreplay
  · rw [hchanges]
    exact hother id hid

/-- **What a deployment announces.** Either no change and no node is given to the
repository, or the changes that lead from the node it loaded to the node it gives. -/
theorem deployment_changes {nodeId : NodeId} {kind : DeploymentKind} {tr : List EngineSig.Ev}
    {r : Except CoreError DeploymentRun} (h : (startDeployment nodeId kind).run.Exec tr r) :
    (savedNodes tr = [] ∧ ∀ id, changesOf id (events tr) = []) ∨
    ∃ node spareHost lt rest m a, Loaded nodeId kind node spareHost lt ∧ tr = lt ++ rest ∧
      Deployed node kind tr m a := by
  rcases startDeployment_cases h with ⟨e, hr, -⟩ | ⟨node, spareHost, lt, bt, hl, rfl, hd⟩
  · obtain ⟨hu, hev⟩ := hr.untouched
    exact .inl ⟨hu.nodes, fun id => by rw [hev]; rfl⟩
  obtain ⟨hu, hlev⟩ := hl.untouched
  rcases deploy_cases hd with ⟨n, t₀, e, rfl, -⟩ | ⟨n, t₀, t₁, st, et, status, run, sh, ut, rfl,
    hsaga, hend⟩
  · exact .inl ⟨by simp [hu.nodes, savedNodeOf], fun id => by simp [hlev, eventOf]⟩
  cases hend with
  | stuck hs =>
    refine .inl ⟨?_, fun id => ?_⟩
    · simp [hu.nodes, opening, hsaga.trace.nodes, hs.untouched.nodes, savedNodeOf]
    · simp [hlev, opening, eventOf, changeOf, changes_of_saga hsaga id, hs.silent]
  | @unsaved ft m hs e =>
    refine .inr ⟨node, spareHost, lt, _, m, .error e, hl, List.append_assoc .., ?_⟩
    have hdep := deployed_of_settled hl hsaga hs n t₀ t₁ (.error e) [⟨.bulkheadRelease, ()⟩]
      rfl rfl fun _ => rfl
    simpa only [List.append_assoc, List.cons_append, List.nil_append] using hdep
  | @unclosed ft m hs t e =>
    refine .inr ⟨node, spareHost, lt, _, m, .ok (), hl, List.append_assoc .., ?_⟩
    have hdep := deployed_of_settled hl hsaga hs n t₀ t₁ (.ok ())
      [⟨.now, t⟩, ⟨.saveRun (run.finish status t), .error e⟩, ⟨.bulkheadRelease, ()⟩]
      rfl rfl fun _ => rfl
    simpa only [List.append_assoc, List.cons_append, List.nil_append] using hdep
  | @closed ft m hs t t' =>
    refine .inr ⟨node, spareHost, lt, _, m, .ok (), hl, List.append_assoc .., ?_⟩
    have hdep := deployed_of_settled hl hsaga hs n t₀ t₁ (.ok ())
      [⟨.now, t⟩, ⟨.saveRun (run.finish status t), .ok ()⟩, ⟨.now, t'⟩,
        ⟨.publish (.runFinished run.id status t'), ()⟩, ⟨.bulkheadRelease, ()⟩]
      rfl rfl fun _ => rfl
    simpa only [List.append_assoc, List.cons_append, List.nil_append] using hdep

/-! ## One request -/

theorem keptFor_of_savedNodes {id : NodeId} {tr : List EngineSig.Ev} {m : ValidatorNode}
    {a : Except PortError Unit} (h : savedNodes tr = [(m, a)]) :
    keptFor id tr = if m.id = id ∧ a.isOk = true then [m] else [] := by
  unfold keptFor
  rw [h]
  by_cases hid : m.id = id ∧ a.isOk = true <;> simp [hid]

theorem keptFor_nil {id : NodeId} {tr : List EngineSig.Ev} (h : savedNodes tr = []) :
    keptFor id tr = [] := by
  unfold keptFor
  rw [h]; rfl

theorem stateOf_after {w w' : EngineState} {tr : List EngineSig.Ev}
    (h : failingEnv.Accepts w tr w') (id : NodeId) :
    stateOf w' id = ((keptFor id tr).getLast?.map ValidatorNode.state).getD (stateOf w id) := by
  unfold stateOf
  rw [failing_getNode h id]
  cases (keptFor id tr).getLast? with
  | none => rfl
  | some n => rfl

/-- Nothing given to the repository: no state changes. -/
theorem stateOf_unsaved {w w' : EngineState} {tr : List EngineSig.Ev}
    (h : failingEnv.Accepts w tr w') (hs : savedNodes tr = []) (id : NodeId) :
    stateOf w' id = stateOf w id := by
  rw [stateOf_after h, keptFor_nil hs]; rfl

/-- One node given to the repository. -/
theorem stateOf_saved {w w' : EngineState} {tr : List EngineSig.Ev} {m : ValidatorNode}
    {a : Except PortError Unit} (h : failingEnv.Accepts w tr w') (hs : savedNodes tr = [(m, a)])
    (id : NodeId) :
    stateOf w' id = if m.id = id ∧ a.isOk = true then m.state else stateOf w id := by
  rw [stateOf_after h, keptFor_of_savedNodes hs]
  by_cases hid : m.id = id ∧ a.isOk = true
  · rw [if_pos hid, if_pos hid]; rfl
  · rw [if_neg hid, if_neg hid]; rfl

/-- The node a deployment loaded is the stored one. -/
theorem stored_of_loaded {nodeId : NodeId} {kind : DeploymentKind} {node : ValidatorNode}
    {spareHost : Option HostAddr} {lt rest : List EngineSig.Ev} {w w' : EngineState}
    (hl : Loaded nodeId kind node spareHost lt) (hw : failingEnv.Accepts w (lt ++ rest) w') :
    w.getNode nodeId = some node ∧ node.id = nodeId ∧ stateOf w nodeId = node.state := by
  have hload : w.getNode nodeId = some node := (failing_loaded hl hw).1
  exact ⟨hload, InMemoryNodeRepository.id_of_getNode hload, stateOf_of_getNode hload⟩

theorem audited_deployment {nodeId : NodeId} {kind : DeploymentKind} {w w' : EngineState}
    {tr : List EngineSig.Ev} {r : Except CoreError DeploymentRun}
    (hx : (startDeployment nodeId kind).run.Exec tr r) (hw : failingEnv.Accepts w tr w')
    (hk : KeepsLog w ⟨.startDeployment nodeId kind, tr⟩) (id : NodeId) :
    Replays (stateOf w id) (changesOf id (events tr)) (stateOf w' id) := by
  rcases deployment_changes hx with ⟨hs, hch⟩ | ⟨node, sp, lt, rest, m, a, hl, htr, hd⟩
  · rw [hch id, stateOf_unsaved hw hs id]
    rfl
  obtain ⟨-, hnode, hold⟩ := stored_of_loaded hl (htr ▸ hw)
  rw [stateOf_saved hw hd.saved id, hd.id, hnode]
  by_cases hid : nodeId = id
  · subst hid
    have hch := hd.changes
    rw [hnode] at hch
    rw [hold]
    by_cases ha : a.isOk = true
    · rw [if_pos ⟨rfl, ha⟩]
      exact hch
    · rw [if_neg fun hc => ha hc.2]
      -- a node that was not taken is in the state already stored
      have hback : m.state = node.state := by
        rw [hd.state]
        rcases hk with hall | hback
        · exact absurd (hall (m, a) (by rw [hd.saved]; exact List.mem_singleton.2 rfl)) ha
        · rw [hold] at hback
          exact hback
      rw [hback] at hch
      exact hch
  · rw [if_neg fun hc => hid hc.1, hd.others id (by rw [hnode]; exact Ne.symm hid)]
    rfl

/-- **One request.** What it announces of a node leads from the state stored before
to the state stored after. -/
theorem audited_step {cfg : OpsConfig} {w w' : EngineState} {l : Label}
    (h : ((audited cfg).Guarded KeepsLog).step w l w') (id : NodeId) :
    Replays (stateOf w id) (changesOf id (events l.2)) (stateOf w' id) := by
  obtain ⟨hk, hp, hw⟩ := h
  obtain ⟨q, tr⟩ := l
  cases q with
  | registerNode node =>
    obtain ⟨r, hx⟩ := hp
    obtain ⟨a, rfl, -⟩ := (exec_saveNodeOp ..).1 hx
    have hstate := stateOf_saved (m := node) (a := a) hw rfl id
    show stateOf w' id = stateOf w id
    rw [hstate]
    by_cases hid : node.id = id ∧ a.isOk = true
    · rw [if_pos hid]
      obtain ⟨rfl, ha⟩ := hid
      cases a with
      | ok _ => exact hk (List.mem_singleton.2 rfl)
      | error _ => cases ha
    · rw [if_neg hid]
  | startDeployment nodeId kind =>
    obtain ⟨r, hx⟩ := hp
    exact audited_deployment hx hw hk id
  | evaluateHealth nodeId snapshot =>
    obtain ⟨r, hx⟩ := hp
    obtain ⟨hs, hev⟩ := evaluateHealth_spec hx
    have hch : changesOf id (events tr) = [] := by
      unfold changesOf
      rw [List.filterMap_eq_nil_iff]
      intro ev hmem
      obtain ⟨s, t, rfl⟩ := hev ev hmem
      rfl
    show Replays _ (changesOf id (events tr)) _
    rw [hch, stateOf_unsaved hw hs id]
    rfl
  | advise nodeId context =>
    obtain ⟨r, hx⟩ := hp
    obtain ⟨hs, hev⟩ := advise_spec hx
    show Replays _ (changesOf id (events tr)) _
    rw [hev, stateOf_unsaved hw hs id]
    rfl

/-! ## A whole run -/

theorem replays_of_run {cfg : OpsConfig} {w w' : EngineState} {ls : List Label}
    (h : ((audited cfg).Guarded KeepsLog).Run w ls w') (id : NodeId) :
    Replays (stateOf w id) (changesOf id (log ls)) (stateOf w' id) := by
  induction h with
  | nil w => rfl
  | @cons w w₁ w₂ l ls hs _ ih =>
    have hlog : log (l :: ls) = events l.2 ++ log ls := rfl
    rw [hlog, changesOf_append]
    exact (audited_step hs id).append ih

theorem stateOf_new {cfg : OpsConfig} {w₀ : EngineState} (h₀ : (audited cfg).init w₀)
    (id : NodeId) : stateOf w₀ id = .provisioning := by
  have hnone : w₀.getNode id = none := by
    rw [h₀]
    exact InMemoryNodeRepository.getNode_new id
  unfold stateOf
  rw [hnone]; rfl

theorem faithful_of_replays {w : EngineState} {evs : List OpsEvent}
    (h : ∀ id, Replays .provisioning (changesOf id evs) (stateOf w id)) : Faithful w evs where
  stored id n hn := by
    have hrep := (h id).final_eq
    rw [stateOf_of_getNode hn] at hrep
    exact hrep
  chained id := (h id).isChain

/-- **The audit log.** In every run of a new engine whose requests all keep the log,
the log tells the stored states: they are what replaying it gives. -/
theorem faithful_of_guarded {cfg : OpsConfig} {w₀ w : EngineState} {ls : List Label}
    (h₀ : (audited cfg).init w₀) (h : ((audited cfg).Guarded KeepsLog).Run w₀ ls w) :
    Faithful w (log ls) := by
  refine faithful_of_replays fun id => ?_
  have hrun := replays_of_run h id
  rw [stateOf_new h₀ id] at hrun
  exact hrun

/-- The first request that does not keep the log leaves it false. -/
theorem keepsLog_of_faithful {cfg : OpsConfig} {w₀ w w' : EngineState} {ls : List Label}
    {l : Label} (h₀ : (audited cfg).init w₀) (h : ((audited cfg).Guarded KeepsLog).Run w₀ ls w)
    (hs : (audited cfg).step w l w') (hf : Faithful w' (log (ls ++ [l]))) : KeepsLog w l := by
  have hfinal : ∀ id, final .provisioning (changesOf id (log (ls ++ [l]))) =
      final (stateOf w id) (changesOf id (events l.2)) := by
    intro id
    have hrun := replays_of_run h id
    rw [stateOf_new h₀ id] at hrun
    have hlog : log (ls ++ [l]) = log ls ++ events l.2 := by simp [log]
    rw [hlog, changesOf_append, final_append, ← hrun.final_eq]
  obtain ⟨hp, hw⟩ := hs
  obtain ⟨q, tr⟩ := l
  cases q with
  | registerNode node =>
    obtain ⟨r, hx⟩ := hp
    obtain ⟨a, rfl, -⟩ := (exec_saveNodeOp ..).1 hx
    intro hmem
    cases List.mem_singleton.1 hmem
    have hget : w'.getNode node.id = some node := by
      rw [failing_getNode hw, keptFor_of_savedNodes (m := node) (a := .ok ()) rfl,
        if_pos ⟨rfl, rfl⟩]
      rfl
    have hst := hf.stored node.id node hget
    rw [hfinal] at hst
    exact hst
  | startDeployment nodeId kind =>
    obtain ⟨r, hx⟩ := hp
    rcases deployment_changes hx with ⟨hno, -⟩ | ⟨node, sp, lt, rest, m, a, hl, htr, hd⟩
    · refine .inl fun p hmem => ?_
      rw [hno] at hmem
      cases hmem
    · obtain ⟨hload, hnode, hold⟩ := stored_of_loaded hl (htr ▸ hw)
      by_cases ha : a.isOk = true
      · refine .inl fun p hmem => ?_
        rw [hd.saved] at hmem
        rw [List.mem_singleton.1 hmem]
        exact ha
      · refine .inr ?_
        have hkept : keptFor nodeId tr = [] := by
          rw [keptFor_of_savedNodes hd.saved, if_neg fun hc => ha hc.2]
        have hget : w'.getNode nodeId = some node := by
          have hg := failing_getNode hw nodeId
          rw [hkept, hload] at hg
          exact hg
        have hst := hf.stored nodeId node hget
        have hch := hd.changes
        rw [hnode] at hch
        rw [hfinal, hold, ← hch.final_eq, hd.state] at hst
        rw [hold]
        exact hst.symm
  | evaluateHealth _ _ | advise _ _ => trivial

/-! ## Runs on fixed inputs -/

/-- The labels of requests over a repository that does not take the nodes that
`rejects`, and the states after them. -/
def auditedRegister (node : ValidatorNode) (w : EngineState) : Label × EngineState :=
  let out := (OpsEngine.registerNode node).run.runWith
    (rejectingPorts (fun _ => false) (fun _ => false) (.rejected "")) w
  (⟨.registerNode node, out.trace⟩, out.world)

def auditedDeploy (nodeId : NodeId) (kind : DeploymentKind) (rejects : ValidatorNode → Bool)
    (fails : AgentCall → Bool) (w : EngineState) : Label × EngineState :=
  let out := (OpsEngine.startDeployment nodeId kind).run.runWith
    (rejectingPorts rejects fails (.rejected "disk full")) w
  (⟨.startDeployment nodeId kind, out.trace⟩, out.world)

theorem step_auditedRegister (cfg : OpsConfig) (node : ValidatorNode) (w : EngineState) :
    (audited cfg).step w (auditedRegister node w).1 (auditedRegister node w).2 :=
  ⟨⟨_, exec_runWith ..⟩, Env.accepts_runWith (failingEnv_rejectingPorts _ _ _) _ _⟩

theorem step_auditedDeploy (cfg : OpsConfig) (nodeId : NodeId) (kind : DeploymentKind)
    (rejects : ValidatorNode → Bool) (fails : AgentCall → Bool) (w : EngineState) :
    (audited cfg).step w (auditedDeploy nodeId kind rejects fails w).1
      (auditedDeploy nodeId kind rejects fails w).2 :=
  ⟨⟨_, exec_runWith ..⟩, Env.accepts_runWith (failingEnv_rejectingPorts _ _ _) _ _⟩

/-- Register, then provision while the repository takes no node: the log says
`Active`, the repository `Provisioning`. -/
theorem unsaved_provision : ∃ ls w, (audited .default).Run .new ls w ∧
    (w.getNode ⟨"eu-val-01"⟩).map ValidatorNode.state = some .provisioning ∧
    final .provisioning (changesOf ⟨"eu-val-01"⟩ (log ls)) = .active ∧ ¬ Faithful w (log ls) := by
  let s₁ := auditedRegister (fleetNode .provisioning) .new
  let s₂ := auditedDeploy ⟨"eu-val-01"⟩ .provision (fun _ => true) (fun _ => false) s₁.2
  have hget : (s₂.2).getNode ⟨"eu-val-01"⟩ = some (fleetNode .provisioning) := by rfl
  have hfin : final .provisioning (changesOf ⟨"eu-val-01"⟩ (log [s₁.1, s₂.1])) = .active := by
    decide +kernel
  refine ⟨[s₁.1, s₂.1], s₂.2, ?_, by rw [hget]; rfl, hfin, fun hf => ?_⟩
  · exact .cons (step_auditedRegister ..) (.cons (step_auditedDeploy ..) (.nil _))
  · have hst := hf.stored _ _ hget
    rw [hfin] at hst
    cases hst

/-- Register, provision, and an upgrade that fails and whose node is not taken:
the log is true all the same. -/
theorem faithful_of_guarded_upgrade :
    let s₁ := auditedRegister (fleetNode .provisioning) .new
    let s₂ := auditedDeploy ⟨"eu-val-01"⟩ .provision (fun _ => false) (fun _ => false) s₁.2
    let s₃ := auditedDeploy ⟨"eu-val-01"⟩ (.upgrade ⟨"2.1.0"⟩) (fun _ => true) (fun _ => true) s₂.2
    Faithful s₃.2 (log [s₁.1, s₂.1, s₃.1]) := by
  intro s₁ s₂ s₃
  have hpath : outcomePath (.upgrade ⟨"2.1.0"⟩) s₃.1.2 = [] := by
    have hcalls : (agentCalls s₃.1.2).map (fun e => e.2.isOk) = [false] := by decide +kernel
    refine if_neg fun hall => ?_
    have hbad : ∀ b ∈ (agentCalls s₃.1.2).map fun e => e.2.isOk, b = true :=
      List.forall_mem_map.2 hall
    rw [hcalls] at hbad
    cases hbad false (List.mem_singleton.2 rfl)
  have hrun : ((audited .default).Guarded KeepsLog).Run .new [s₁.1, s₂.1, s₃.1] s₃.2 := by
    refine .cons ⟨?_, step_auditedRegister ..⟩ (.cons ⟨?_, step_auditedDeploy ..⟩
      (.cons ⟨?_, step_auditedDeploy ..⟩ (.nil _)))
    · exact fun _ => rfl
    · refine .inl fun p hp => ?_
      have hall : (savedNodes s₂.1.2).map (fun p => p.2.isOk) = [true] := by decide +kernel
      have hmem := List.mem_map_of_mem (f := fun p => p.2.isOk) hp
      rw [hall] at hmem
      exact List.mem_singleton.1 hmem
    · refine .inr ?_
      rw [hpath, List.getLastD_nil]
  exact faithful_of_guarded rfl hrun

end ValidatorForge.Infra
