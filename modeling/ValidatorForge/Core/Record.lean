import ValidatorForge.Core.Deploy

/-!
# The run record of a call

A call of `start_deployment` takes one run id, when it opens its run
(`startDeployment_ids`), and every record it saves is of that run
(`records_of_after`, `Record`). Both hold of a call stopped anywhere, and so of
calls that are interleaved.
-/
namespace ValidatorForge.Core

open Interaction ValidatorForge.Types Prog

/-- A step that never performs `nextRun`. -/
def NoId (o : EngineOp) : Prop := o ≠ .nextRun

section Rules
variable {α β : Type}

theorem only_ask {o : EngineOp} (h : NoId o) : (ask o).run.Only NoId := by
  have hask : (ask o).run = perform (S := EngineSig) o >>= fun a => .ret (.ok a) := rfl
  rw [hask]
  exact Only.bind ((only_perform (S := EngineSig) o).2 h) fun _ => trivial

theorem only_port {p : Prog EngineSig (Except PortError α)} (h : p.Only NoId) :
    (port p).run.Only NoId := by
  have hport : (port p).run = p >>= fun a => .ret (a.mapError .port) := rfl
  rw [hport]
  exact h.bind fun _ => trivial

theorem only_lift {p : Prog EngineSig α} (h : p.Only NoId) :
    (liftM p : Engine α).run.Only NoId := by
  have hlift : (liftM p : Engine α).run = p >>= fun a => .ret (.ok a) := rfl
  rw [hlift]
  exact h.bind fun _ => trivial

end Rules

namespace OpsEngine

theorem only_agentPort {α : Type} (p : Prog AgentSig α) : (p.interp agentPort).Only NoId := by
  refine Only.interp (fun c => ?_) p
  exact (only_perform (S := EngineSig) (.agent c)).2 (by simp [NoId])

theorem only_sagaRun (node : ValidatorNode) (kind : DeploymentKind) (spareHost : Option HostAddr)
    (run : DeploymentRun) : (sagaRun node kind spareHost run).Only NoId := by
  refine Only.interp (fun o => ?_) _
  cases o with
  | execute s ctx => exact only_agentPort _
  | compensate s ctx => exact only_agentPort _
  | publish e => exact (only_perform (S := EngineSig) (.publish e)).2 (by simp [NoId])
  | now => exact (only_perform (S := EngineSig) .now).2 (by simp [NoId])

theorem only_transitions (node : ValidatorNode) (path : List NodeState) :
    (transitions node path).run.Only NoId := by
  induction path generalizing node with
  | nil => exact trivial
  | cons t path ih =>
    refine Only.tryBind (only_ask (by simp [NoId])) fun t₀ => ?_
    refine Only.tryBind ?_ fun n => ?_
    · exact trivial
    · refine Only.tryBind (only_ask (by simp [NoId])) fun t₁ => ?_
      exact Only.tryBind (only_ask (by simp [NoId])) fun _ => ih n

theorem only_settleNode (kind : DeploymentKind) (status : RunStatus) (node : ValidatorNode) :
    (settleNode kind status node).run.Only NoId := by
  refine Only.tryBind (only_transitions node _) fun n => ?_
  refine Only.tryBind ?_ fun m => ?_
  · unfold stampVersion
    by_cases hs : status = .succeeded
    · rw [if_pos hs]
      cases kind with
      | upgrade v => exact Only.tryBind (only_ask (by simp [NoId])) fun _ => trivial
      | provision | failover _ | decommission => exact trivial
    · rw [if_neg hs]
      exact trivial
  · exact only_port ((only_perform (S := EngineSig) (.saveNode m)).2 (by simp [NoId]))

theorem only_finishRun (status : RunStatus) (run : DeploymentRun) :
    (finishRun status run).run.Only NoId := by
  refine Only.tryBind (only_ask (by simp [NoId])) fun t => ?_
  refine Only.tryBind ?_ fun _ => ?_
  · exact only_port ((only_perform (S := EngineSig) (.saveRun (run.finish status t))).2
      (by simp [NoId]))
  · refine Only.tryBind (only_ask (by simp [NoId])) fun t' => ?_
    exact Only.tryBind (only_ask (by simp [NoId])) fun _ => trivial

/-! ## The id -/

def idOf : EngineSig.Ev → Option UInt64
  | ⟨.nextRun, n⟩ => some n
  | _ => none

/-- The run ids taken. -/
def ids (tr : List EngineSig.Ev) : List UInt64 := tr.filterMap idOf

@[simp] theorem ids_nil : ids [] = [] := rfl

@[simp] theorem ids_cons (e : EngineSig.Ev) (tr : List EngineSig.Ev) :
    ids (e :: tr) = (idOf e).toList ++ ids tr := SagaExecutor.filterMap_cons_toList ..

@[simp] theorem ids_append (t₁ t₂ : List EngineSig.Ev) : ids (t₁ ++ t₂) = ids t₁ ++ ids t₂ :=
  List.filterMap_append ..

theorem idOf_of_noId {e : EngineSig.Ev} (h : NoId e.1) : idOf e = none := by
  obtain ⟨o, r⟩ := e
  cases o with
  | nextRun => exact absurd rfl h
  | _ => rfl

theorem ids_of_noId {tr : List EngineSig.Ev} (h : ∀ e ∈ tr, NoId e.1) : ids tr = [] := by
  unfold ids
  rw [List.filterMap_eq_nil_iff]
  exact fun e he => idOf_of_noId (h e he)

/-- A deployment takes its id first, and no other. -/
theorem deploy_ids {node : ValidatorNode} {kind : DeploymentKind} {spareHost : Option HostAddr}
    {tr : List EngineSig.Ev} {r : Except CoreError DeploymentRun}
    (h : (deploy node kind spareHost).run.Exec tr r) :
    ∃ n rest, tr = ⟨.nextRun, n⟩ :: rest ∧ ids rest = [] := by
  unfold deploy at h
  obtain ⟨n, t₀, ⟨e, rfl, rfl⟩ | ⟨t₁, tr₁, rfl, h₁⟩⟩ := beginRun_cases h
  · exact ⟨n, _, rfl, rfl⟩
  · refine ⟨n, _, rfl, ?_⟩
    have honly : ids tr₁ = [] := by
      refine ids_of_noId (Only.exec ?_ h₁)
      refine Only.tryBind (only_lift (only_sagaRun ..)) fun out => ?_
      exact Only.tryBind (only_settleNode ..) fun _ => only_finishRun ..
    simpa [idOf] using honly

/-! ## The records -/

/-- `run` is, open or closed, the record of the run `n` that deploys `node`. -/
structure Record (node : ValidatorNode) (k : DeploymentKind) (n : UInt64) (t₀ : DateTime)
    (run : DeploymentRun) : Prop where
  id : run.id = runIdOf n
  target : run.target = node.id
  kind : run.kind = k
  startedAt : run.startedAt = t₀
  running : run.finishedAt = none ↔ run.status = .running
  steps : run.completedSteps <+: (buildPlan k).map SagaStep.action
  whole : run.completedSteps = (buildPlan k).map SagaStep.action ↔ run.status = .succeeded

theorem record_openRun (node : ValidatorNode) (kind : DeploymentKind) (n : UInt64)
    (t₀ : DateTime) : Record node kind n t₀ (openRun node kind n t₀) where
  id := rfl
  target := rfl
  kind := rfl
  startedAt := rfl
  running := ⟨fun _ => rfl, fun _ => rfl⟩
  steps := List.nil_prefix
  whole := by
    refine ⟨fun h => ?_, fun h => (by cases h)⟩
    cases kind <;> cases h

theorem record_finish {node : ValidatorNode} {kind : DeploymentKind} {spareHost : Option HostAddr}
    {n : UInt64} {t₀ : DateTime} {tr : List EngineSig.Ev} {status : RunStatus}
    {run : DeploymentRun} {sh : SagaExecutor.Shape PlanStep} {ut : List (SagaSig PlanStep).Ev}
    (h : SagaRan node kind spareHost (openRun node kind n t₀) tr status run sh ut) (t : DateTime) :
    Record node kind n t₀ (run.finish status t) := by
  obtain rfl := h.spec.record
  refine ⟨rfl, rfl, rfl, rfl, ⟨fun hno => (by cases hno), fun hst => ?_⟩, ?_, h.actions_eq_iff⟩
  · have hterm := h.isTerminal
    have hrun : status = .running := hst
    rw [hrun] at hterm
    cases hterm
  · exact h.done_prefix.map _

/-- Of the end of a deployment only the closing of its run is saved. -/
theorem Ended.saved {node : ValidatorNode} {kind : DeploymentKind} {status : RunStatus}
    {run : DeploymentRun} {et : List EngineSig.Ev} {r : Except CoreError DeploymentRun}
    (h : Ended node kind status run et r) {p : DeploymentRun × Except PortError Unit}
    (hp : p ∈ savedRuns et) : ∃ t, p.1 = run.finish status t := by
  cases h with
  | stuck hs => simp [hs.untouched.runs] at hp
  | unsaved hs e => simp [savedRunOf, hs.untouched.runs] at hp
  | unclosed hs t e =>
    have hpe : p = (run.finish status t, .error e) := by
      simpa [savedRunOf, hs.untouched.runs] using hp
    exact ⟨t, by rw [hpe]⟩
  | closed hs t t' =>
    have hpe : p = (run.finish status t, .ok ()) := by
      simpa [savedRunOf, hs.untouched.runs] using hp
    exact ⟨t, by rw [hpe]⟩

theorem deploy_records {node : ValidatorNode} {kind : DeploymentKind}
    {spareHost : Option HostAddr} {tr : List EngineSig.Ev} {r : Except CoreError DeploymentRun}
    (h : (deploy node kind spareHost).run.Exec tr r) :
    ∃ n rest t₀, tr = ⟨.nextRun, n⟩ :: rest ∧ ids rest = [] ∧
      ∀ p ∈ savedRuns rest, Record node kind n t₀ p.1 := by
  obtain ⟨n, rest, rfl, hids⟩ := deploy_ids h
  rcases deploy_cases h with ⟨n', t₀, e, htr, -⟩ | ⟨n', t₀, t₁, st, et, status, run, sh, ut, htr,
    hsaga, hend⟩
  · cases htr
    refine ⟨n, _, t₀, rfl, hids, fun p hp => ?_⟩
    have hpe : p = (openRun node kind n t₀, .error e) := by simpa [savedRunOf] using hp
    rw [hpe]
    exact record_openRun node kind n t₀
  · unfold opening at htr
    simp only [List.cons_append, List.nil_append, List.cons.injEq, Sigma.mk.injEq] at htr
    obtain ⟨⟨-, hn⟩, rfl⟩ := htr
    cases hn
    refine ⟨n, _, t₀, rfl, hids, fun p hp => ?_⟩
    have hpe : p = (openRun node kind n t₀, .ok ()) ∨ p ∈ savedRuns et := by
      simpa [savedRunOf, hsaga.trace.runs] using hp
    rcases hpe with rfl | hp
    · exact record_openRun node kind n t₀
    · obtain ⟨t, hrun⟩ := hend.saved hp
      rw [hrun]
      exact record_finish hsaga t

/-- **The records of a call.** It takes no id and saves no record, or it loads its
node, takes one id and saves records of that run. -/
theorem startDeployment_records {nodeId : NodeId} {kind : DeploymentKind} {tr : List EngineSig.Ev}
    {r : Except CoreError DeploymentRun} (h : (startDeployment nodeId kind).run.Exec tr r) :
    (ids tr = [] ∧ savedRuns tr = []) ∨
    ∃ node spareHost lt n rest t₀, Loaded nodeId kind node spareHost lt ∧
      tr = lt ++ ⟨.nextRun, n⟩ :: rest ∧ ids lt = [] ∧ ids rest = [] ∧
      ∀ p ∈ savedRuns rest, Record node kind n t₀ p.1 := by
  rcases startDeployment_cases h with ⟨e, hr, -⟩ | ⟨node, spareHost, lt, bt, hl, rfl, hd⟩
  · refine .inl ⟨?_, hr.untouched.1.runs⟩
    cases hr <;> rfl
  · obtain ⟨n, rest, t₀, rfl, hids, hrec⟩ := deploy_records hd
    refine .inr ⟨node, spareHost, lt, n, rest ++ [⟨.bulkheadRelease, ()⟩], t₀, hl, by simp, ?_, ?_, ?_⟩
    · cases hl with
      | mk hst => cases hst <;> rfl
    · simp [hids, idOf]
    · intro p hp
      exact hrec p (by simpa [savedRunOf] using hp)

/-- Any way of carrying on. -/
theorem exists_exec {α : Type} (q : Prog EngineSig α) : ∃ tr r, q.Exec tr r := by
  refine ⟨_, _, exec_runWith (W := Unit) (fun o w => (?_, w)) q ()⟩
  cases o with
  | agent c => exact .error (.rejected "")
  | bulkheadRelease | publish _ => exact ()
  | limiterTryAcquire | bulkheadTryAcquire => exact true
  | nextRun => exact (1 : UInt64)
  | now => exact (0 : Int)
  | advise _ _ => exact ""
  | getNode _ | saveNode _ | listNodes | saveRun _ | getRun _ | listRuns _ =>
    exact .error (.rejected "")

/-- Of a call stopped anywhere: it has saved no record, or its node is read, its id
taken, and its records are of that run. -/
theorem records_of_after {x : NodeId} {kind : DeploymentKind} {tr : List EngineSig.Ev}
    {q : Prog EngineSig (Except CoreError DeploymentRun)}
    (h : (startDeployment x kind).run.After tr q) : savedRuns tr = [] ∨
    ∃ node n t₀, (⟨.getNode x, .ok (some node)⟩ : EngineSig.Ev) ∈ tr ∧ ids tr = [n] ∧
      ∀ p ∈ savedRuns tr, Record node kind n t₀ p.1 := by
  obtain ⟨tr', r, hq⟩ := exists_exec q
  rcases startDeployment_records (h.exec hq) with ⟨-, hno⟩ | ⟨node, sp, lt, n, rest, t₀, hl, htr,
    hlt, hrest, hrec⟩
  · rw [savedRuns_append, List.append_eq_nil_iff] at hno
    exact .inl hno.1
  have hruns := hl.untouched.1.runs
  rcases List.append_eq_append_iff.1 htr with ⟨a, rfl, -⟩ | ⟨c, rfl, hc⟩
  · rw [savedRuns_append, List.append_eq_nil_iff] at hruns
    exact .inl hruns.1
  · cases c with
    | nil =>
      rw [List.append_nil]
      exact .inl hruns
    | cons e c =>
      simp only [List.cons_append, List.cons.injEq] at hc
      obtain ⟨rfl, rfl⟩ := hc
      rw [ids_append, List.append_eq_nil_iff] at hrest
      refine .inr ⟨node, n, t₀, ?_, ?_, ?_⟩
      · refine List.mem_append_left _ ?_
        cases hl with
        | mk _ => simp
      · simp [hlt, hrest.1, idOf]
      · intro p hp
        refine hrec p ?_
        rw [savedRuns_append, savedRuns_cons] at hp
        rw [savedRuns_append]
        exact List.mem_append_left _ (by simpa [hruns, savedRunOf] using hp)

/-- A call about to take its id has taken none. -/
theorem ids_of_after {x : NodeId} {kind : DeploymentKind} {tr : List EngineSig.Ev}
    {k : UInt64 → Prog EngineSig (Except CoreError DeploymentRun)}
    (h : (startDeployment x kind).run.After tr (.op .nextRun k)) : ids tr = [] := by
  obtain ⟨tr', r, hq⟩ := exists_exec (k 1)
  have hop : (Prog.op (S := EngineSig) .nextRun k).Exec (⟨.nextRun, (1 : UInt64)⟩ :: tr') r :=
    ⟨1, tr', rfl, hq⟩
  rcases startDeployment_records (h.exec hop) with ⟨hno, -⟩ | ⟨node, sp, lt, n, rest, t₀, hl, htr,
    hlt, hrest, -⟩
  · simp [idOf] at hno
  · have hlen := congrArg (fun t => (ids t).length) htr
    simp only [ids_append, ids_cons, idOf, Option.toList_some, List.length_append,
      List.length_cons, List.length_nil, hlt, hrest] at hlen
    exact List.length_eq_zero_iff.1 (by omega)

end OpsEngine

end ValidatorForge.Core
