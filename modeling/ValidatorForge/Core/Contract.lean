import ValidatorForge.Core.Deploy

/-!
# The contract of `start_deployment`

Three properties of one call, for every answer of every port.

* `startDeployment_postcondition`: what has been saved and published when a
  call returns `Ok`.
* `runsClosed_iff`: when a call leaves its run closed. Every early return
  between the two `save_run` calls leaves it `Running`.
* `illegal_request_not_refused`: a request whose first transition is not
  permitted is not refused up front. The lifecycle is checked after the saga.
-/
namespace ValidatorForge.Core

open Interaction ValidatorForge.Types Prog

namespace OpsEngine

/-! ## Ports that answer -/

/-- Ports over a repository holding one node, with an agent that answers `e` to
the calls in `fails` and `Ok` to the others. -/
def fixedPorts (node : ValidatorNode) (fails : AgentCall → Bool) (e : PortError) :
    Handler EngineSig Unit
  | .limiterTryAcquire, w | .bulkheadTryAcquire, w => (true, w)
  | .bulkheadRelease, w | .publish _, w => ((), w)
  | .getNode _, w => (.ok (some node), w)
  | .saveNode _, w | .saveRun _, w => (.ok (), w)
  | .listNodes, w => (.ok [node], w)
  | .getRun _, w => (.ok none, w)
  | .listRuns _, w => (.ok [], w)
  | .nextRun, w => (1, w)
  | .now, w => (0, w)
  | .agent c, w => (if fails c then .error e else .ok (c.okReply), w)
  | .advise .., w => ("", w)

/-- A voting node of the test fleet, in state `s`. -/
def fleetNode (s : NodeState) : ValidatorNode :=
  { ValidatorNode.new ⟨"eu-val-01"⟩ ⟨"eu-fiber"⟩ .testnet ⟨"val01.internal"⟩ .voting ⟨"2.0.14"⟩ 0 with
    state := s }

/-! ## The postcondition -/

/-- `evs` is a chain of permitted state changes of node `id` from `s` to `t`. -/
def StateChain (id : NodeId) : NodeState → List OpsEvent → NodeState → Prop
  | s, [], t => t = s
  | s, .nodeStateChanged i f g _ :: evs, t =>
    i = id ∧ f = s ∧ s.canTransitionTo g = true ∧ StateChain id g evs t
  | _, _ :: _, _ => False

/-- `evs` are the events of a saga of the finished run `run`: its steps were
completed in order, then some of them compensated in reverse order, none if it
succeeded and all if it rolled back. -/
def SagaEvents (run : DeploymentRun) (evs : List OpsEvent) : Prop :=
  ∃ (undone : List OpsActionKind) (ts : List DateTime),
    undone.Sublist run.completedSteps.reverse ∧
    (run.status = .succeeded → undone = []) ∧
    (run.status = .rolledBack → undone = run.completedSteps.reverse) ∧
    ts.length = run.completedSteps.length + undone.length ∧
    evs = SagaExecutor.stamp (run.completedSteps.map (OpsEvent.stepCompleted run.id) ++
      undone.map (OpsEvent.stepCompensated run.id)) ts

/-- The state a node is left in. -/
def stateAfter (kind : DeploymentKind) (status : RunStatus) (s : NodeState) : NodeState :=
  if status = .succeeded then (successPath kind).getLastD s
  else if kind = .provision then .failed else s

/-- The version a node is left at. -/
def versionAfter (kind : DeploymentKind) (status : RunStatus) (v : ValidatorVersion) :
    ValidatorVersion :=
  match kind, status with
  | .upgrade targetVersion, .succeeded => targetVersion
  | _, _ => v

/-- What holds when a call returned `Ok run`, having loaded `node` and saved `m`. -/
structure Completed (nodeId : NodeId) (kind : DeploymentKind) (tr : List EngineSig.Ev)
    (run : DeploymentRun) (node m : ValidatorNode) : Prop where
  loaded : ∃ spareHost lt rest, Loaded nodeId kind node spareHost lt ∧ tr = lt ++ rest
  terminal : run.status.isTerminal = true
  finished : run.finishedAt.isSome = true
  steps : run.completedSteps <+: (buildPlan kind).map SagaStep.action
  whole : run.completedSteps = (buildPlan kind).map SagaStep.action ↔ run.status = .succeeded
  lastRun : (savedRuns tr).getLast? = some (run, .ok ())
  nodes : savedNodes tr = [(m, .ok ())]
  record : node.SameRecord m
  version : m.version = versionAfter kind run.status node.version
  state : m.state = stateAfter kind run.status node.state
  events : ∃ t t' saga chain, events tr =
      .runStarted run.id node.id kind t :: (saga ++ chain ++ [.runFinished run.id run.status t']) ∧
    SagaEvents run saga ∧ StateChain node.id node.state chain m.state

theorem pathFor_getLastD (kind : DeploymentKind) (status : RunStatus) (s : NodeState) :
    (pathFor kind status).getLastD s = stateAfter kind status s := by
  unfold pathFor stateAfter
  by_cases hs : status = .succeeded
  · rw [if_pos hs, if_pos hs]
  · rw [if_neg hs, if_neg hs]
    cases kind <;> rfl

theorem versionFor_eq (kind : DeploymentKind) (status : RunStatus) (node : ValidatorNode) :
    (if status = .succeeded then versionFor node kind else node.version) =
      versionAfter kind status node.version := by
  cases status <;> cases kind <;> rfl

theorem stateChain_changes {id : NodeId} {s : NodeState} {path : List NodeState}
    {ts : List DateTime} (h : legalPath s path = true) (hl : ts.length = path.length) :
    StateChain id s (SagaExecutor.stamp (changes id s path) ts) (path.getLastD s) := by
  induction path generalizing s ts with
  | nil => rfl
  | cons t path ih =>
    cases ts with
    | nil => simp at hl
    | cons t₀ ts =>
      simp only [legalPath, Bool.and_eq_true] at h
      simp only [List.length_cons, Nat.add_right_cancel_iff] at hl
      rw [List.getLastD_cons]
      exact ⟨rfl, rfl, h.1, ih h.2 hl⟩

section Saga
variable {node : ValidatorNode} {kind : DeploymentKind} {spareHost : Option HostAddr}
  {run run' : DeploymentRun} {tr : List EngineSig.Ev} {status : RunStatus}
  {sh : SagaExecutor.Shape PlanStep} {ut : List (SagaSig PlanStep).Ev}

theorem SagaRan.events_eq (h : SagaRan node kind spareHost run tr status run' sh ut)
    (hnew : run.completedSteps = []) (t : DateTime) : SagaEvents (run'.finish status t) (events tr) := by
  have hsteps : (run'.finish status t).completedSteps = sh.done.map SagaStep.action := by
    rw [h.spec.record]; simp [DeploymentRun.finish, hnew]
  have hid : (run'.finish status t).id = run.id := by rw [h.spec.record]; rfl
  have hun := h.spec.unwound
  have hst := h.spec.status
  obtain ⟨hpub, hlen⟩ := h.spec.events
  refine ⟨(sh.undone.filter Prod.snd).map fun u => SagaStep.action u.1,
    SagaExecutor.readings ut, ?_, ?_, ?_, ?_, ?_⟩
  · rw [hsteps, ← List.map_reverse]
    have hsub : ((sh.undone.filter Prod.snd).map Prod.fst).Sublist (sh.undone.map Prod.fst) :=
      List.filter_sublist.map _
    have hall : (sh.undone.map Prod.fst).Sublist sh.done.reverse := by
      rw [hun]
      split
      · rw [List.nil_append]
      · exact List.nil_sublist _
    have hmap := (hsub.trans hall).map SagaStep.action
    rwa [List.map_map] at hmap
  · intro hs
    have hf : sh.failed = none := h.succeeded_iff_failed.1 hs
    rw [hf] at hun
    have hnil : sh.undone = [] := by simpa using hun
    rw [hnil]; rfl
  · intro hs
    have hs' : status = .rolledBack := hs
    subst hs'
    obtain ⟨s, hf, -⟩ := h.spec.calls_of_rolledBack
    simp only [hf, Option.isSome_some, if_true] at hst hun
    have hall : sh.undone.filter Prod.snd = sh.undone := by
      rw [List.filter_eq_self, ← List.all_eq_true]
      by_contra hc
      rw [if_neg hc] at hst
      cases hst
    rw [hall, hsteps, ← List.map_reverse]
    have hmap := congrArg (List.map SagaStep.action) hun
    simpa [Function.comp_def] using hmap
  · rw [hlen, hsteps]; simp
  · rw [h.trace.events, hpub, hsteps, hid, List.map_map, List.map_map]
    rfl

/-- Every plan starts with a call of the agent. -/
theorem SagaRan.agentCalls_ne_nil (h : SagaRan node kind spareHost run tr status run' sh ut)
    {st : List EngineSig.Ev} (hst : SpareFound kind spareHost st) : agentCalls tr ≠ [] := by
  intro hnil
  have hok : status = .succeeded := by
    rw [h.succeeded_iff hst, hnil]
    intro e he
    cases he
  have hdone := h.done_eq_iff.2 hok
  have hag := h.trace.agents
  rw [hnil, h.spec.made, hdone, h.succeeded_iff_failed.1 hok] at hag
  have hu : sh.undone = [] := by simpa [h.succeeded_iff_failed.1 hok] using h.spec.unwound
  rw [hu] at hag
  cases kind <;> simp [buildPlan, made, PlanStep.executeCall] at hag

/-- Events other than the first and the last of a run. -/
def isInner : OpsEvent → Bool
  | .runStarted .. | .runFinished .. => false
  | _ => true

theorem SagaRan.isInner (h : SagaRan node kind spareHost run tr status run' sh ut) {ev : OpsEvent}
    (hev : ev ∈ events tr) : isInner ev = true := by
  rw [h.trace.events, h.spec.events.1] at hev
  obtain ⟨f, hf, t, rfl⟩ := SagaExecutor.mem_stamp hev
  rw [List.mem_append, List.mem_map, List.mem_map] at hf
  rcases hf with ⟨s, -, rfl⟩ | ⟨u, -, rfl⟩ <;> rfl

end Saga

/-- A deployment of a loaded node that returns `Ok` is completed. -/
theorem deploy_completed {nodeId : NodeId} {kind : DeploymentKind} {node : ValidatorNode}
    {spareHost : Option HostAddr} {lt bt : List EngineSig.Ev} {run : DeploymentRun}
    (hl : Loaded nodeId kind node spareHost lt)
    (hd : (deploy node kind spareHost).run.Exec bt (.ok run)) :
    ∃ m, Completed nodeId kind (lt ++ bt ++ [⟨.bulkheadRelease, ()⟩]) run node m := by
  rcases deploy_cases hd with ⟨n, t₀, e, -, he⟩ | ⟨n, t₀, t₁, st, et, status, run₁, sh, ut, rfl,
    hsaga, hend⟩
  · cases he
  cases hend with
  | @closed ft m hset t t' =>
  obtain ⟨hu, hlev⟩ := hl.untouched
  obtain ⟨ts, hlen, hev⟩ := hset.events
  have hsteps : (run₁.finish status t).completedSteps = sh.done.map SagaStep.action := by
    rw [hsaga.spec.record]; rfl
  have hid : run₁.id = runIdOf n := by rw [hsaga.spec.record]; rfl
  refine ⟨m, ⟨spareHost, lt, _, hl, by rw [List.append_assoc]⟩, hsaga.isTerminal, rfl, ?_,
    ?_, ?_, ?_, hset.record, ?_, ?_, ?_⟩
  · rw [hsteps]; exact hsaga.done_prefix.map _
  · rw [hsteps]; exact hsaga.actions_eq_iff
  · simp [hu.runs, hsaga.trace.runs, hset.untouched.runs, opening, savedRunOf]
  · simp [hu.nodes, hsaga.trace.nodes, hset.untouched.nodes, opening, savedNodeOf]
  · rw [hset.version, versionFor_eq]; rfl
  · rw [hset.state, pathFor_getLastD]; rfl
  · refine ⟨t₁, t', events st, events ft, ?_, hsaga.events_eq rfl t, ?_⟩
    · simp [hlev, opening, eventOf, DeploymentRun.finish, hid]
    · rw [hset.state, hev]
      exact stateChain_changes hset.legal hlen

/-- **Postcondition.** Whatever the repository, the agent and the gates
answered: a call that returns `Ok run` saved one node and, last, the run it
returns; node, run and events are those of `Completed`. -/
theorem startDeployment_postcondition {nodeId : NodeId} {kind : DeploymentKind}
    {tr : List EngineSig.Ev} {run : DeploymentRun}
    (h : (startDeployment nodeId kind).run.Exec tr (.ok run)) :
    ∃ node m, Completed nodeId kind tr run node m := by
  rcases startDeployment_cases h with ⟨e, -, he⟩ | ⟨node, spareHost, lt, bt, hl, rfl, hd⟩
  · cases he
  obtain ⟨m, hc⟩ := deploy_completed hl hd
  exact ⟨node, m, hc⟩

/-- An upgrade of an active node over ports that always answer `Ok`. -/
theorem startDeployment_postcondition_upgrade :
    let out := (startDeployment ⟨"eu-val-01"⟩ (.upgrade ⟨"2.1.0"⟩)).run.runWith
      (fixedPorts (fleetNode .active) (fun _ => false) (.rejected "")) ()
    ∃ run node m, out.val = .ok run ∧
      Completed ⟨"eu-val-01"⟩ (.upgrade ⟨"2.1.0"⟩) out.trace run node m := by
  intro out
  have hx := exec_runWith (fixedPorts (fleetNode .active) (fun _ => false) (.rejected ""))
    (startDeployment ⟨"eu-val-01"⟩ (.upgrade ⟨"2.1.0"⟩)).run ()
  obtain ⟨run, hr⟩ : ∃ run, out.val = .ok run := ⟨_, rfl⟩
  obtain ⟨node, m, hc⟩ := startDeployment_postcondition (hr ▸ hx)
  exact ⟨run, node, m, hr, hc⟩

/-! ## Illegal requests -/

/-- The call was refused with `IllegalTransition`, the agent not called and
nothing saved. -/
structure RefusedUntouched (tr : List EngineSig.Ev) (r : Except CoreError DeploymentRun) :
    Prop where
  error : ∃ from' to', r = .error (.domain (.illegalTransition from' to'))
  agents : agentCalls tr = []
  nodes : ∀ p ∈ savedNodes tr, p.2.isOk = false
  runs : ∀ p ∈ savedRuns tr, p.2.isOk = false

/-- A call that loaded its node either could not open its run, or opened it and
called the agent: the lifecycle is not looked at before that. -/
theorem loaded_call_acts {nodeId : NodeId} {kind : DeploymentKind} {node : ValidatorNode}
    {spareHost : Option HostAddr} {lt rest : List EngineSig.Ev} {r : Except CoreError DeploymentRun}
    (h : (startDeployment nodeId kind).run.Exec (lt ++ rest) r)
    (hl : Loaded nodeId kind node spareHost lt) :
    (∃ e, r = .error (.port e)) ∨
      (∃ run, (run, .ok ()) ∈ savedRuns rest) ∧ agentCalls rest ≠ [] := by
  obtain ⟨bt, rfl, hd⟩ := startDeployment_loaded h hl
  rcases deploy_cases hd with ⟨n, t₀, e, -, rfl⟩ | ⟨n, t₀, t₁, st, et, status, run₁, sh, ut, rfl,
    hsaga, -⟩
  · exact .inl ⟨e, rfl⟩
  · cases hl with
    | mk hst =>
      have hne := hsaga.agentCalls_ne_nil hst
      exact .inr ⟨⟨openRun node kind n t₀, by simp [opening, savedRunOf]⟩, by simp [hne]⟩

/-- The first transition of the success path is permitted from `s`. -/
def firstLegal (kind : DeploymentKind) (s : NodeState) : Bool :=
  match successPath kind with
  | [] => true
  | t :: _ => s.canTransitionTo t

/-- No call that loaded its node is refused untouched. -/
theorem Loaded.not_refusedUntouched {nodeId : NodeId} {kind : DeploymentKind} {node : ValidatorNode}
    {spareHost : Option HostAddr} {lt rest : List EngineSig.Ev} {r : Except CoreError DeploymentRun}
    (hl : Loaded nodeId kind node spareHost lt)
    (h : (startDeployment nodeId kind).run.Exec (lt ++ rest) r) :
    ¬ RefusedUntouched (lt ++ rest) r := by
  intro hr
  rcases loaded_call_acts h hl with ⟨e, he⟩ | ⟨⟨run, hrun⟩, -⟩
  · obtain ⟨f, t, hd⟩ := hr.error
    rw [he] at hd
    cases hd
  · have hno := hr.runs (run, .ok ()) (by simp [hrun])
    cases hno

/-- **Illegal requests are not refused.** For a call that loaded its node:
"if the first transition is not permitted, the call is refused untouched" holds
only where the transition is permitted, and so asks nothing. -/
theorem illegal_request_not_refused {nodeId : NodeId} {kind : DeploymentKind} {node : ValidatorNode}
    {spareHost : Option HostAddr} {lt rest : List EngineSig.Ev} {r : Except CoreError DeploymentRun}
    (h : (startDeployment nodeId kind).run.Exec (lt ++ rest) r)
    (hl : Loaded nodeId kind node spareHost lt) :
    (firstLegal kind node.state = false → RefusedUntouched (lt ++ rest) r) ↔
      firstLegal kind node.state = true := by
  cases hf : firstLegal kind node.state with
  | true => simp
  | false => simpa using hl.not_refusedUntouched h

/-- Provisioning a decommissioned node acts on its host, and then fails. -/
theorem decommissioned_host_acted_on :
    let out := (startDeployment ⟨"eu-val-01"⟩ .provision).run.runWith
      (fixedPorts (fleetNode .decommissioned) (fun _ => false) (.rejected "")) ()
    (startDeployment ⟨"eu-val-01"⟩ .provision).run.Exec out.trace out.val ∧
      (∃ lt rest, Loaded ⟨"eu-val-01"⟩ .provision (fleetNode .decommissioned) none lt ∧
        out.trace = lt ++ rest) ∧
      firstLegal .provision .decommissioned = false ∧
      (agentCalls out.trace).map Sigma.fst = [.applyInfra ⟨"val01.internal"⟩,
        .tuneHost ⟨"val01.internal"⟩, .startValidator ⟨"val01.internal"⟩ ⟨"2.0.14"⟩,
        .awaitCatchup ⟨"val01.internal"⟩] ∧
      (savedRuns out.trace).map (fun p => p.1.status) = [.running] ∧
      ¬ RefusedUntouched out.trace out.val := by
  intro out
  refine ⟨exec_runWith _ _ _, ⟨_, _, .mk (.other _ (fun _ h => by cases h)), rfl⟩, rfl, rfl, rfl, ?_⟩
  intro h
  have hno := h.agents
  cases hno

/-- The same call: the condition fails, and so does the property. -/
theorem illegal_request_not_refused_decommissioned :
    let out := (startDeployment ⟨"eu-val-01"⟩ .provision).run.runWith
      (fixedPorts (fleetNode .decommissioned) (fun _ => false) (.rejected "")) ()
    (firstLegal .provision .decommissioned = false → RefusedUntouched out.trace out.val) ↔
      firstLegal .provision .decommissioned = true := by
  intro out
  have hl : Loaded ⟨"eu-val-01"⟩ .provision (fleetNode .decommissioned) none _ :=
    .mk (.other .provision (fun _ h => by cases h))
  have hx := exec_runWith (fixedPorts (fleetNode .decommissioned) (fun _ => false) (.rejected ""))
    (startDeployment ⟨"eu-val-01"⟩ .provision).run ()
  exact illegal_request_not_refused hx hl

/-! ## Closing the run -/

/-- The record of run `id` a call left in the repository. -/
def lastSaved (id : RunId) (tr : List EngineSig.Ev) : Option DeploymentRun :=
  (((savedRuns tr).filter fun p => p.1.id = id).map Prod.fst).getLast?

def isFinish (id : RunId) : OpsEvent → Bool
  | .runFinished i _ _ => i = id
  | _ => false

/-- Every run the call saved is left terminal and finished, and every
`RunStarted` it published is followed by one `RunFinished` of that run. -/
structure RunsClosed (tr : List EngineSig.Ev) : Prop where
  terminal : ∀ id run, lastSaved id tr = some run →
    run.status.isTerminal = true ∧ run.finishedAt.isSome = true
  announced : ∀ pre post id node kind t, events tr = pre ++ .runStarted id node kind t :: post →
    post.countP (isFinish id) = 1

/-- If the call loaded its node: the path its saga's outcome leads to is
permitted from the loaded state, and the repository took the node. The saga's
outcome is what the agent answered. -/
def Settles (nodeId : NodeId) (kind : DeploymentKind) (tr : List EngineSig.Ev) : Prop :=
  ∀ node spareHost lt rest, Loaded nodeId kind node spareHost lt → tr = lt ++ rest →
    legalPath node.state (if ∀ e ∈ agentCalls tr, e.2.isOk = true then successPath kind
      else failurePath kind) = true ∧
    ∀ p ∈ savedNodes tr, p.2.isOk = true

theorem isInner_changes {id : NodeId} {s : NodeState} {path : List NodeState}
    {f : DateTime → OpsEvent} (h : f ∈ changes id s path) (t : DateTime) : isInner (f t) = true := by
  induction path generalizing s with
  | nil => cases h
  | cons g path ih =>
    rcases List.mem_cons.1 h with rfl | h
    · rfl
    · exact ih h

theorem Settled.isInner {node m : ValidatorNode} {kind : DeploymentKind} {status : RunStatus}
    {tr : List EngineSig.Ev} (h : Settled node kind status tr m) {ev : OpsEvent}
    (hev : ev ∈ OpsEngine.events tr) : isInner ev = true := by
  obtain ⟨ts, -, he⟩ := h.events
  rw [he] at hev
  obtain ⟨f, hf, t, rfl⟩ := SagaExecutor.mem_stamp hev
  exact isInner_changes hf t

theorem isFinish_of_isInner {id : RunId} {ev : OpsEvent} (h : isInner ev = true) :
    isFinish id ev = false := by
  cases ev with
  | runFinished i s t => cases h
  | _ => rfl

/-- One `RunStarted`, then inner events, then its `RunFinished`. -/
theorem announced_of_events {l mid : List OpsEvent} {id : RunId} {n : NodeId}
    {k : DeploymentKind} {t t' : DateTime} {s : RunStatus}
    (hl : l = .runStarted id n k t :: (mid ++ [.runFinished id s t']))
    (hmid : ∀ ev ∈ mid, isInner ev = true) {pre post : List OpsEvent} {id' : RunId} {n' : NodeId}
    {k' : DeploymentKind} {t₁ : DateTime} (h : l = pre ++ .runStarted id' n' k' t₁ :: post) :
    post.countP (isFinish id') = 1 := by
  rw [hl] at h
  cases pre with
  | nil =>
    simp only [List.nil_append, List.cons.injEq, OpsEvent.runStarted.injEq] at h
    obtain ⟨⟨rfl, -⟩, rfl⟩ := h
    have h0 : mid.countP (isFinish id) = 0 := by
      rw [List.countP_eq_zero]
      intro ev hev
      rw [isFinish_of_isInner (hmid ev hev)]
      decide
    rw [List.countP_append, h0]
    simp [isFinish]
  | cons e pre =>
    simp only [List.cons_append, List.cons.injEq] at h
    have hmem : OpsEvent.runStarted id' n' k' t₁ ∈ mid ++ [.runFinished id s t'] := by
      rw [h.2]; simp
    rcases List.mem_append.1 hmem with hm | hm
    · have hc := hmid _ hm
      cases hc
    · simp at hm

/-- A call that saved its run once, as it was opened, leaves it running. -/
theorem not_runsClosed {tr : List EngineSig.Ev} {run : DeploymentRun} {a : Except PortError Unit}
    (hs : savedRuns tr = [(run, a)]) (hr : run.status = .running) : ¬ RunsClosed tr := by
  intro h
  have hl : lastSaved run.id tr = some run := by simp [lastSaved, hs]
  have ht := (h.terminal run.id run hl).1
  rw [hr] at ht
  cases ht

/-- A call that saved its run as opened and then as finished, and announced both,
leaves it closed. -/
theorem runsClosed_of {tr : List EngineSig.Ev} {a b : DeploymentRun} {mid : List OpsEvent}
    {n : NodeId} {k : DeploymentKind} {t t' : DateTime} {s : RunStatus}
    (hr : savedRuns tr = [(a, .ok ()), (b, .ok ())]) (hid : a.id = b.id)
    (hb : b.status.isTerminal = true ∧ b.finishedAt.isSome = true)
    (he : events tr = .runStarted b.id n k t :: (mid ++ [.runFinished b.id s t']))
    (hmid : ∀ ev ∈ mid, isInner ev = true) : RunsClosed tr := by
  refine ⟨?_, fun _ _ _ _ _ _ h => announced_of_events he hmid h⟩
  intro id run hlast
  unfold lastSaved at hlast
  rw [hr] at hlast
  by_cases hi : b.id = id
  · have hrun : b = run := by simpa [hid, hi] using hlast
    rw [← hrun]
    exact hb
  · simp [hid, hi] at hlast

theorem Ended.agentCalls {node : ValidatorNode} {kind : DeploymentKind} {status : RunStatus}
    {run : DeploymentRun} {tr : List EngineSig.Ev} {r : Except CoreError DeploymentRun}
    (h : Ended node kind status run tr r) : agentCalls tr = [] := by
  cases h with
  | stuck h => exact h.untouched.agents
  | unsaved h e => rw [agentCalls_append, h.untouched.agents]; rfl
  | unclosed h t e => rw [agentCalls_append, h.untouched.agents]; rfl
  | closed h t t' => rw [agentCalls_append, h.untouched.agents]; rfl

/-- `Settles` for a call that ran its saga. -/
theorem settles_iff {nodeId : NodeId} {kind : DeploymentKind} {node : ValidatorNode}
    {spareHost : Option HostAddr} {run run' : DeploymentRun} {lt ot st et : List EngineSig.Ev}
    {status : RunStatus} {sh : SagaExecutor.Shape PlanStep} {ut : List (SagaSig PlanStep).Ev}
    {r : Except CoreError DeploymentRun} (hl : Loaded nodeId kind node spareHost lt)
    (hot : agentCalls ot = [] ∧ savedNodes ot = [])
    (hsaga : SagaRan node kind spareHost run st status run' sh ut)
    (hend : Ended node kind status run' et r) :
    Settles nodeId kind (lt ++ (ot ++ st ++ et) ++ [⟨.bulkheadRelease, ()⟩]) ↔
      legalPath node.state (pathFor kind status) = true ∧ ∀ p ∈ savedNodes et, p.2.isOk = true := by
  obtain ⟨hu, -⟩ := hl.untouched
  obtain ⟨sp, hst⟩ : ∃ sp, SpareFound kind spareHost sp := by
    cases hl with
    | mk hst => exact ⟨_, hst⟩
  have hag : agentCalls (lt ++ (ot ++ st ++ et) ++ [⟨.bulkheadRelease, ()⟩]) = agentCalls st := by
    simp [hu.agents, hot.1, hend.agentCalls, agentCallOf]
  have hno : savedNodes (lt ++ (ot ++ st ++ et) ++ [⟨.bulkheadRelease, ()⟩]) = savedNodes et := by
    simp [hu.nodes, hot.2, hsaga.trace.nodes, savedNodeOf]
  have hpath : (if ∀ e ∈ agentCalls st, e.2.isOk = true then successPath kind
      else failurePath kind) = pathFor kind status := by
    unfold pathFor
    exact if_congr (hsaga.succeeded_iff hst).symm rfl rfl
  unfold Settles
  rw [hag, hno, hpath]
  refine ⟨fun h => h node spareHost lt _ hl (List.append_assoc ..), ?_⟩
  intro h node' spareHost' lt' rest hl' htr
  rw [List.append_assoc] at htr
  obtain ⟨rfl, -, -⟩ := hl.unique hl' htr
  exact h

/-- **When a call leaves its run closed.** Of a call whose `save_run`s
succeeded, exactly those that settle their node. -/
theorem runsClosed_iff {nodeId : NodeId} {kind : DeploymentKind} {tr : List EngineSig.Ev}
    {r : Except CoreError DeploymentRun} (h : (startDeployment nodeId kind).run.Exec tr r)
    (hsave : ∀ p ∈ savedRuns tr, p.2 = .ok ()) : RunsClosed tr ↔ Settles nodeId kind tr := by
  rcases startDeployment_cases h with ⟨e, hr, -⟩ | ⟨node, spareHost, lt, bt, hl, rfl, hd⟩
  · obtain ⟨hu, hev⟩ := hr.untouched
    refine ⟨fun _ => ?_, fun _ => ⟨?_, ?_⟩⟩
    · intro node spareHost lt rest hl htr
      exact absurd htr (hr.not_loaded hl)
    · intro id run hlast
      simp [lastSaved, hu.runs] at hlast
    · intro pre post id node kind t he
      rw [hev] at he
      simp at he
  obtain ⟨hu, hlev⟩ := hl.untouched
  rcases deploy_cases hd with ⟨n, t₀, e, rfl, -⟩ | ⟨n, t₀, t₁, st, et, status, run, sh, ut, rfl,
    hsaga, hend⟩
  · have hbad := hsave (openRun node kind n t₀, .error e) (by simp [savedRunOf])
    cases hbad
  rw [settles_iff hl ⟨rfl, rfl⟩ hsaga hend]
  have hruns : savedRuns (lt ++ (opening node kind n t₀ t₁ ++ st ++ et) ++
      [⟨.bulkheadRelease, ()⟩]) = (openRun node kind n t₀, .ok ()) :: savedRuns et := by
    simp [hu.runs, opening, hsaga.trace.runs, savedRunOf]
  rw [hruns] at hsave
  cases hend with
  | stuck hs =>
    rw [hs.untouched.runs] at hruns
    refine ⟨fun hc => absurd hc (not_runsClosed hruns rfl), ?_⟩
    intro hset
    rw [hs.illegal] at hset
    cases hset.1
  | @unsaved ft m hs e =>
    have hft : savedRuns (ft ++ [⟨.saveNode m, .error e⟩]) = [] := by
      rw [savedRuns_append, hs.untouched.runs]; rfl
    rw [hft] at hruns
    refine ⟨fun hc => absurd hc (not_runsClosed hruns rfl), ?_⟩
    intro hset
    have hbad := hset.2 (m, .error e) (by simp [savedNodeOf])
    cases hbad
  | @unclosed ft m hs t e =>
    have hbad := hsave (run.finish status t, .error e) (by simp [savedRunOf])
    cases hbad
  | @closed ft m hs t t' =>
    have hid : run.id = runIdOf n := by rw [hsaga.spec.record]; rfl
    refine ⟨fun _ => ⟨hs.legal, ?_⟩, fun _ => ?_⟩
    · intro p hp
      rw [savedNodes_append, hs.untouched.nodes] at hp
      have hpm : p = (m, .ok ()) := by simpa [savedNodeOf] using hp
      rw [hpm]; rfl
    have hft : savedRuns (ft ++ [⟨.saveNode m, .ok ()⟩, ⟨.now, t⟩,
        ⟨.saveRun (run.finish status t), .ok ()⟩, ⟨.now, t'⟩,
        ⟨.publish (.runFinished run.id status t'), ()⟩]) = [(run.finish status t, .ok ())] := by
      rw [savedRuns_append, hs.untouched.runs]; rfl
    rw [hft] at hruns
    have hevs : events (lt ++ (opening node kind n t₀ t₁ ++ st ++ (ft ++ [⟨.saveNode m, .ok ()⟩,
        ⟨.now, t⟩, ⟨.saveRun (run.finish status t), .ok ()⟩, ⟨.now, t'⟩,
        ⟨.publish (.runFinished run.id status t'), ()⟩])) ++ [⟨.bulkheadRelease, ()⟩]) =
        .runStarted run.id node.id kind t₁ ::
          ((events st ++ events ft) ++ [.runFinished run.id status t']) := by
      simp [hlev, opening, eventOf, hid]
    refine runsClosed_of hruns hid.symm ⟨hsaga.isTerminal, rfl⟩ hevs ?_
    intro ev hev
    rcases List.mem_append.1 hev with hev | hev
    · exact hsaga.isInner hev
    · exact hs.isInner hev

/-- Over ports that all answer `Ok`, provisioning a decommissioned node leaves
its run running: the call returns at the transition. -/
theorem decommissioned_run_left_running :
    let out := (startDeployment ⟨"eu-val-01"⟩ .provision).run.runWith
      (fixedPorts (fleetNode .decommissioned) (fun _ => false) (.rejected "")) ()
    (startDeployment ⟨"eu-val-01"⟩ .provision).run.Exec out.trace out.val ∧
      (∀ p ∈ savedRuns out.trace, p.2 = .ok ()) ∧
      out.val = .error (.domain (.illegalTransition "decommissioned" "bootstrapping")) ∧
      ¬ RunsClosed out.trace := by
  intro out
  refine ⟨exec_runWith _ _ _, ?_, rfl, ?_⟩
  · intro p hp
    have hr : (savedRuns out.trace).map Prod.snd = [.ok ()] := rfl
    have hm := List.mem_map_of_mem (f := Prod.snd) hp
    rw [hr] at hm
    exact List.mem_singleton.1 hm
  · intro h
    have ht := (h.terminal (runIdOf 1) _ rfl).1
    cases ht

/-- An upgrade of an active node whose agent fails at the last step settles its
node, and leaves its run closed. -/
theorem runsClosed_iff_failed_upgrade :
    let out := (startDeployment ⟨"eu-val-01"⟩ (.upgrade ⟨"2.1.0"⟩)).run.runWith
      (fixedPorts (fleetNode .active) (· = .awaitCatchup ⟨"val01.internal"⟩) (.rejected "")) ()
    RunsClosed out.trace ↔ Settles ⟨"eu-val-01"⟩ (.upgrade ⟨"2.1.0"⟩) out.trace := by
  intro out
  have hx := exec_runWith
    (fixedPorts (fleetNode .active) (· = .awaitCatchup ⟨"val01.internal"⟩) (.rejected ""))
    (startDeployment ⟨"eu-val-01"⟩ (.upgrade ⟨"2.1.0"⟩)).run ()
  refine runsClosed_iff hx ?_
  intro p hp
  have hr : (savedRuns out.trace).map Prod.snd = [.ok (), .ok ()] := rfl
  have hm := List.mem_map_of_mem (f := Prod.snd) hp
  rw [hr] at hm
  simpa using hm

end OpsEngine

end ValidatorForge.Core
