import ValidatorForge.Core.Contract
import ValidatorForge.Infra.Repo

/-!
# Where a failover moves the identity

`start_deployment` looks the spare of a failover up, and uses nothing of its record
but the host: it moves the identity from the stored host of the node to the stored
host of the spare, whatever node that is (`failover_calls`). Its role, its state and
whether it is another node on another host are never looked at, so the call is right
only if the spare is usable or the call ends before it opens its run
(`spareChecked_iff`, `swapped_onto_unusable`).
-/
namespace ValidatorForge.Infra

open Interaction ValidatorForge.Types ValidatorForge.Core ValidatorForge.Core.OpsEngine Prog

/-- A spare that could take the identity of `target` over. -/
structure Usable (target sp : ValidatorNode) : Prop where
  node : sp.id ≠ target.id
  host : sp.host ≠ target.host
  role : sp.role = .hotSpare
  decommissioned : sp.state ≠ .decommissioned
  failed : sp.state ≠ .failed

def UsableStored (w : EngineState) (nodeId spare : NodeId) : Prop :=
  ∃ target sp, w.getNode nodeId = some target ∧ w.getNode spare = some sp ∧ Usable target sp

/-- The identity is only moved when a usable spare is stored; otherwise the call
fails and leaves the agent alone. -/
structure SpareChecked (w : EngineState) (nodeId spare : NodeId) (tr : List EngineSig.Ev)
    (r : Except CoreError DeploymentRun) : Prop where
  moves : ∀ e ∈ agentCalls tr, ∀ from' to', e.1 = .swapIdentity from' to' →
    UsableStored w nodeId spare
  otherwise : ¬ UsableStored w nodeId spare → (∃ e, r = .error e) ∧ agentCalls tr = []

/-- The agent call of a failover's saga. -/
theorem failover_agentCall {node : ValidatorNode} {spare : NodeId} {host : HostAddr}
    {run run' : DeploymentRun} {tr : List EngineSig.Ev} {status : RunStatus}
    {sh : SagaExecutor.Shape PlanStep} {ut : List (SagaSig PlanStep).Ev}
    (h : SagaRan node (.failover spare) (some host) run tr status run' sh ut) {e : AgentSig.Ev}
    (he : e ∈ agentCalls tr) : e.1 = .drain node.host ∨ e.1 = .swapIdentity node.host host := by
  rcases h.agentCall_mem he with ⟨s, hs, hcall⟩ | ⟨s, hs, hcall⟩
  · rcases List.mem_pair.1 hs with rfl | rfl
    · exact .inl (Option.some.inj hcall).symm
    · exact .inr (Option.some.inj hcall).symm
  · -- only the drain is undone, by nothing
    obtain rfl := List.mem_singleton.1 hs
    cases hcall

/-- **Where the identity goes.** Whatever is stored and whatever the agent answers, a
failover calls the agent only to drain the stored host of its node and to move the
identity from there to the stored host of its spare; if one of the two is not stored
it fails and leaves the agent alone. -/
theorem failover_calls {w w' : EngineState} {nodeId spare : NodeId} {tr : List EngineSig.Ev}
    {r : Except CoreError DeploymentRun}
    (h : (startDeployment nodeId (.failover spare)).run.Exec tr r)
    (hw : failingEnv.Accepts w tr w') :
    (∀ e ∈ agentCalls tr, ∃ target sp, w.getNode nodeId = some target ∧
      w.getNode spare = some sp ∧
      (e.1 = .drain target.host ∨ e.1 = .swapIdentity target.host sp.host)) ∧
    (w.getNode nodeId = none ∨ w.getNode spare = none →
      (∃ e, r = .error e) ∧ agentCalls tr = []) := by
  rcases startDeployment_cases h with ⟨e, hr, rfl⟩ | ⟨node, spareHost, lt, bt, hl, rfl, hd⟩
  · have hnone := hr.untouched.1.agents
    rw [hnone]
    refine ⟨fun e he => ?_, fun _ => ⟨⟨e, rfl⟩, rfl⟩⟩
    cases he
  rw [List.append_assoc] at hw
  obtain ⟨hnode, hspare⟩ := failing_loaded hl hw
  obtain ⟨sp, hsp, rfl⟩ := hspare spare rfl
  have hu := hl.untouched.1.agents
  refine ⟨fun e he => ⟨node, sp, hnode, hsp, ?_⟩, fun hno => ?_⟩
  · rcases deploy_cases hd with ⟨n, t₀, err, rfl, -⟩ | ⟨n, t₀, t₁, st, et, status, run, sh, ut,
      rfl, hsaga, hend⟩
    · simp [hu, agentCallOf] at he
    · have hst : e ∈ agentCalls st := by
        simpa [hu, hend.agentCalls, opening, agentCallOf] using he
      exact failover_agentCall hsaga hst
  · rcases hno with hno | hno
    · rw [hnode] at hno
      cases hno
    · rw [hsp] at hno
      cases hno

/-- **When the spare is as it should be.** A failover moves the identity only to a
usable spare, and otherwise fails and leaves the agent alone, exactly when a usable
spare is stored or the repository takes no run of the call. -/
theorem spareChecked_iff {w w' : EngineState} {nodeId spare : NodeId} {tr : List EngineSig.Ev}
    {r : Except CoreError DeploymentRun}
    (h : (startDeployment nodeId (.failover spare)).run.Exec tr r)
    (hw : failingEnv.Accepts w tr w') :
    SpareChecked w nodeId spare tr r ↔
      UsableStored w nodeId spare ∨ ∀ p ∈ savedRuns tr, p.2.isOk = false := by
  by_cases hus : UsableStored w nodeId spare
  · exact ⟨fun _ => .inl hus, fun _ => ⟨fun _ _ _ _ _ => hus, fun hno => absurd hus hno⟩⟩
  -- nothing usable is stored: the call should leave the agent alone
  have hreduce : SpareChecked w nodeId spare tr r ↔ (∃ e, r = .error e) ∧ agentCalls tr = [] := by
    refine ⟨fun hc => hc.otherwise hus, fun hc => ⟨fun e he => ?_, fun _ => hc⟩⟩
    rw [hc.2] at he
    cases he
  rw [hreduce, or_iff_right hus]
  rcases startDeployment_cases h with ⟨e, hr, rfl⟩ | ⟨node, spareHost, lt, bt, hl, rfl, hd⟩
  · obtain ⟨hu, -⟩ := hr.untouched
    rw [hu.agents, hu.runs]
    refine ⟨fun _ p hp => ?_, fun _ => ⟨⟨e, rfl⟩, rfl⟩⟩
    cases hp
  obtain ⟨hu, -⟩ := hl.untouched
  rcases deploy_cases hd with ⟨n, t₀, e, rfl, rfl⟩ | ⟨n, t₀, t₁, st, et, status, run, sh, ut, rfl,
    hsaga, -⟩
  · refine ⟨fun _ p hp => ?_, fun _ => ⟨⟨_, rfl⟩, by simp [hu.agents, agentCallOf]⟩⟩
    have hpe : p = (openRun node (.failover spare) n t₀, .error e) := by
      simpa [hu.runs, savedRunOf] using hp
    rw [hpe]; rfl
  · have hacts : agentCalls st ≠ [] := by
      cases hl with
      | mk hst => exact hsaga.agentCalls_ne_nil hst
    refine ⟨fun hc => ?_, fun hc => ?_⟩
    · have hnone := hc.2
      simp only [agentCalls_append, List.append_eq_nil_iff] at hnone
      exact absurd hnone.1.2.1.2 hacts
    · have hopen := hc (openRun node (.failover spare) n t₀, .ok ())
        (by simp [hu.runs, opening, savedRunOf])
      cases hopen

/-! ## Spares nobody should use -/

/-- A hot spare in state `s`. -/
def hotSpare (id host : String) (s : NodeState) : ValidatorNode :=
  { ValidatorNode.new ⟨id⟩ ⟨"eu-fiber"⟩ .testnet ⟨host⟩ .hotSpare ⟨"2.0.14"⟩ 0 with state := s }

/-- A repository that holds the active node and `sp`. -/
def withSpare (sp : ValidatorNode) : EngineState :=
  { repo := (InMemoryNodeRepository.new.saveNode (fleetNode .active)).saveNode sp, nextRun := 1 }

/-- The active node failed over to `sp`, everything answering `Ok`. -/
def failoverTo (sp : ValidatorNode) : Outcome EngineSig EngineState
    (Except CoreError DeploymentRun) :=
  (startDeployment ⟨"eu-val-01"⟩ (.failover sp.id)).run.runWith
    (memoryPorts (fun _ => false) (.rejected "")) (withSpare sp)

/-- The call moved the identity onto `sp`, and should not have. -/
structure MovedOnto (sp : ValidatorNode) : Prop where
  exec : (startDeployment ⟨"eu-val-01"⟩ (.failover sp.id)).run.Exec (failoverTo sp).trace
    (failoverTo sp).val
  accepts : failingEnv.Accepts (withSpare sp) (failoverTo sp).trace (failoverTo sp).world
  calls : (agentCalls (failoverTo sp).trace).map Sigma.fst =
    [.drain ⟨"val01.internal"⟩, .swapIdentity ⟨"val01.internal"⟩ sp.host]
  unchecked : ¬ SpareChecked (withSpare sp) ⟨"eu-val-01"⟩ sp.id (failoverTo sp).trace
    (failoverTo sp).val

theorem movedOnto (target : ValidatorNode) {sp : ValidatorNode} (hbad : ¬ Usable target sp)
    (hnode : (withSpare sp).getNode ⟨"eu-val-01"⟩ = some target)
    (hsp : (withSpare sp).getNode sp.id = some sp)
    (hcalls : (agentCalls (failoverTo sp).trace).map Sigma.fst =
      [.drain ⟨"val01.internal"⟩, .swapIdentity ⟨"val01.internal"⟩ sp.host]) :
    MovedOnto sp where
  exec := exec_runWith ..
  accepts := Env.accepts_runWith (fun o w => .inl (memoryEnv_memoryPorts _ _ o w)) _ _
  calls := hcalls
  unchecked h := by
    have hnone := (h.otherwise ?_).2
    · rw [hnone] at hcalls
      cases hcalls
    · intro hex
      obtain ⟨t, s, ht, hs, hu⟩ := hex
      rw [hnode] at ht
      rw [hsp] at hs
      cases ht
      cases hs
      exact hbad hu

/-- The identity is moved onto the node itself, onto a spare on its host, onto a
voting node, and onto spares that are decommissioned or failed. -/
theorem swapped_onto_unusable : List.Forall MovedOnto
    [hotSpare "eu-val-01" "val01.internal" .active,
      hotSpare "spare-01" "val01.internal" .active,
      { hotSpare "spare-01" "spare01.internal" .active with role := .voting },
      hotSpare "spare-01" "spare01.internal" .decommissioned,
      hotSpare "spare-01" "spare01.internal" .failed] := by
  refine ⟨?_, ?_, ?_, ?_, ?_⟩
  · exact movedOnto (hotSpare "eu-val-01" "val01.internal" .active) (fun h => h.node rfl) rfl rfl rfl
  · exact movedOnto (fleetNode .active) (fun h => h.host rfl) rfl rfl rfl
  · exact movedOnto (fleetNode .active) (fun h => by cases h.role) rfl rfl rfl
  · exact movedOnto (fleetNode .active) (fun h => h.decommissioned rfl) rfl rfl rfl
  · exact movedOnto (fleetNode .active) (fun h => h.failed rfl) rfl rfl rfl

/-- A failover to a spare that is usable. -/
theorem spareChecked_iff_usable :
    let sp := hotSpare "spare-01" "spare01.internal" .active
    SpareChecked (withSpare sp) ⟨"eu-val-01"⟩ sp.id (failoverTo sp).trace (failoverTo sp).val ↔
      UsableStored (withSpare sp) ⟨"eu-val-01"⟩ sp.id ∨
        ∀ p ∈ savedRuns (failoverTo sp).trace, p.2.isOk = false := by
  intro sp
  have hw : failingEnv.Accepts (withSpare sp) (failoverTo sp).trace (failoverTo sp).world :=
    Env.accepts_runWith (fun o w => .inl (memoryEnv_memoryPorts _ _ o w)) _ _
  exact spareChecked_iff (exec_runWith ..) hw

end ValidatorForge.Infra
