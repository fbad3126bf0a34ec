import ValidatorForge.Core.Contract
import ValidatorForge.Core.Record

/-!
# Stopping half way

A call of `start_deployment` whose future is dropped, or whose process stops,
leaves the trace of a program stopped anywhere (`After`). What is stored of its
run is the last record the repository accepted (`storedRun`).

`tracksProgress_iff`: once the run is opened, the stored record lists the steps
announced as completed exactly if none has been announced or the closing save
has been accepted. In between the steps are recorded in memory only.
-/
namespace ValidatorForge.Core

open Interaction ValidatorForge.Types Prog

namespace OpsEngine

/-- The records the repository accepted. -/
def acceptedRuns (tr : List EngineSig.Ev) : List DeploymentRun :=
  (savedRuns tr).filterMap fun p => if p.2.isOk then some p.1 else none

/-- The record the repository holds of the run. -/
def storedRun (tr : List EngineSig.Ev) : Option DeploymentRun := (acceptedRuns tr).getLast?

def completedOf : OpsEvent → Option OpsActionKind
  | .stepCompleted _ action _ => some action
  | _ => none

/-- The steps whose completion has been announced. -/
def completions (tr : List EngineSig.Ev) : List OpsActionKind := (events tr).filterMap completedOf

/-- The stored record lists every step that was announced as completed. -/
def TracksProgress (tr : List EngineSig.Ev) : Prop :=
  ∀ run, storedRun tr = some run → ∀ action ∈ completions tr, action ∈ run.completedSteps

/-- The closing record has been accepted. -/
def ClosingSaved (tr : List EngineSig.Ev) : Prop :=
  ∃ run, storedRun tr = some run ∧ run.status.isTerminal = true

@[simp] theorem acceptedRuns_append (t₁ t₂ : List EngineSig.Ev) :
    acceptedRuns (t₁ ++ t₂) = acceptedRuns t₁ ++ acceptedRuns t₂ := by
  unfold acceptedRuns
  rw [savedRuns_append, List.filterMap_append]

theorem acceptedRuns_of_savedRuns {tr : List EngineSig.Ev} (h : savedRuns tr = []) :
    acceptedRuns tr = [] := by
  unfold acceptedRuns
  rw [h]
  rfl

/-- Giving the slot back saves nothing. -/
theorem acceptedRuns_released (tr : List EngineSig.Ev) :
    acceptedRuns (tr ++ [⟨.bulkheadRelease, ()⟩]) = acceptedRuns tr := by
  rw [acceptedRuns_append]
  exact List.append_nil _

/-- A run opened after a part that saves none, and then its saga, which saves none. -/
theorem acceptedRuns_opened {node : ValidatorNode} {kind : DeploymentKind} {n : UInt64}
    {t₀ t₁ : DateTime} {lt st et : List EngineSig.Ev} (hlt : savedRuns lt = [])
    (hst : savedRuns st = []) :
    acceptedRuns (lt ++ (opening node kind n t₀ t₁ ++ st ++ et)) =
      openRun node kind n t₀ :: acceptedRuns et := by
  rw [acceptedRuns_append, acceptedRuns_append, acceptedRuns_append,
    acceptedRuns_of_savedRuns hlt, acceptedRuns_of_savedRuns hst]
  rfl

@[simp] theorem completions_append (t₁ t₂ : List EngineSig.Ev) :
    completions (t₁ ++ t₂) = completions t₁ ++ completions t₂ := by
  unfold completions
  rw [events_append, List.filterMap_append]

theorem mem_completions {tr : List EngineSig.Ev} {a : OpsActionKind} :
    a ∈ completions tr ↔ ∃ id t, OpsEvent.stepCompleted id a t ∈ events tr := by
  unfold completions
  rw [List.mem_filterMap]
  constructor
  · rintro ⟨ev, hev, ha⟩
    cases ev with
    | stepCompleted id action t =>
      cases ha
      exact ⟨id, t, hev⟩
    | _ => cases ha
  · rintro ⟨id, t, hev⟩
    exact ⟨_, hev, rfl⟩

/-- A chain of state changes announces no step. -/
theorem StateChain.no_step {id : NodeId} {s t : NodeState} {evs : List OpsEvent}
    (h : StateChain id s evs t) {run : RunId} {a : OpsActionKind} {t' : DateTime} :
    OpsEvent.stepCompleted run a t' ∉ evs := by
  induction evs generalizing s with
  | nil => simp
  | cons ev evs ih =>
    cases ev with
    | nodeStateChanged i f g t₀ =>
      obtain ⟨-, -, -, h⟩ := h
      simpa using ih h
    | _ => exact h.elim

/-- A saga announces the steps its run records. -/
theorem SagaEvents.mem {run : DeploymentRun} {evs : List OpsEvent} (h : SagaEvents run evs)
    {id : RunId} {a : OpsActionKind} {t : DateTime} (hev : OpsEvent.stepCompleted id a t ∈ evs) :
    a ∈ run.completedSteps := by
  obtain ⟨undone, ts, -, -, -, -, rfl⟩ := h
  obtain ⟨f, hf, t', hft⟩ := SagaExecutor.mem_stamp hev
  rw [List.mem_append, List.mem_map, List.mem_map] at hf
  rcases hf with ⟨s, hs, rfl⟩ | ⟨s, -, rfl⟩
  · cases hft
    exact hs
  · cases hft

theorem Completed.tracks {nodeId : NodeId} {kind : DeploymentKind} {tr : List EngineSig.Ev}
    {run : DeploymentRun} {node m : ValidatorNode} (h : Completed nodeId kind tr run node m)
    {a : OpsActionKind} (ha : a ∈ completions tr) : a ∈ run.completedSteps := by
  obtain ⟨id, t, hev⟩ := mem_completions.1 ha
  obtain ⟨t₁, t₂, saga, chain, hevs, hsaga, hchain⟩ := h.events
  rw [hevs] at hev
  simp only [List.mem_cons, List.mem_append, reduceCtorEq, false_or, List.not_mem_nil, or_false] at hev
  exact hsaga.mem (hev.resolve_right hchain.no_step)

/-- **What a whole call stores**: nothing, the record as opened, or that and the
closing record, which lists every step announced. -/
theorem startDeployment_accepted {nodeId : NodeId} {kind : DeploymentKind}
    {tr : List EngineSig.Ev} {r : Except CoreError DeploymentRun}
    (h : (startDeployment nodeId kind).run.Exec tr r) :
    acceptedRuns tr = [] ∨
    ∃ run₀, run₀.completedSteps = [] ∧ run₀.status = .running ∧
      (acceptedRuns tr = [run₀] ∨ ∃ run, acceptedRuns tr = [run₀, run] ∧
        run.status.isTerminal = true ∧ ∀ a ∈ completions tr, a ∈ run.completedSteps) := by
  rcases startDeployment_cases h with ⟨e, hr, -⟩ | ⟨node, spareHost, lt, bt, hl, rfl, hd⟩
  · exact .inl (acceptedRuns_of_savedRuns hr.untouched.1.runs)
  have hlt := hl.untouched.1.runs
  rw [acceptedRuns_released]
  rcases deploy_cases hd with ⟨n, t₀, e, rfl, -⟩ | ⟨n, t₀, t₁, st, et, status, run, sh, ut, rfl,
    hsaga, hend⟩
  · refine .inl ?_
    rw [acceptedRuns_append, acceptedRuns_of_savedRuns hlt]
    rfl
  refine .inr ⟨openRun node kind n t₀, rfl, rfl, ?_⟩
  rw [acceptedRuns_opened hlt hsaga.trace.runs]
  cases hend with
  | stuck hs => exact .inl (by rw [acceptedRuns_of_savedRuns hs.untouched.runs])
  | unsaved hs e =>
    refine .inl ?_
    rw [acceptedRuns_append, acceptedRuns_of_savedRuns hs.untouched.runs]
    rfl
  | unclosed hs t e =>
    refine .inl ?_
    rw [acceptedRuns_append, acceptedRuns_of_savedRuns hs.untouched.runs]
    rfl
  | closed hs t t' =>
    obtain ⟨m, hc⟩ := deploy_completed hl hd
    refine .inr ⟨run.finish status t, ?_, hc.terminal, fun a ha => hc.tracks ha⟩
    rw [acceptedRuns_append, acceptedRuns_of_savedRuns hs.untouched.runs]
    rfl

/-- The same for a call stopped anywhere once its record is opened. -/
theorem after_accepted {nodeId : NodeId} {kind : DeploymentKind} {tr : List EngineSig.Ev}
    {q : Prog EngineSig (Except CoreError DeploymentRun)}
    (h : (startDeployment nodeId kind).run.After tr q) (hopen : acceptedRuns tr ≠ []) :
    ∃ run₀, run₀.completedSteps = [] ∧ run₀.status = .running ∧
      (acceptedRuns tr = [run₀] ∨ ∃ run, acceptedRuns tr = [run₀, run] ∧
        run.status.isTerminal = true ∧ ∀ a ∈ completions tr, a ∈ run.completedSteps) := by
  obtain ⟨tr', r, hq⟩ := exists_exec q
  rcases startDeployment_accepted (h.exec hq) with hno | ⟨run₀, hnew, hrunning, hacc⟩
  · rw [acceptedRuns_append, List.append_eq_nil_iff] at hno
    exact absurd hno.1 hopen
  refine ⟨run₀, hnew, hrunning, ?_⟩
  obtain ⟨first, more, hmore⟩ := List.exists_cons_of_ne_nil hopen
  rw [acceptedRuns_append, hmore, List.cons_append] at hacc
  rcases hacc with hacc | ⟨run, hacc, hterm, hall⟩
  · obtain ⟨rfl, hnil⟩ := List.cons.inj hacc
    rw [(List.append_eq_nil_iff.1 hnil).1] at hmore
    exact .inl hmore
  · obtain ⟨rfl, hone⟩ := List.cons.inj hacc
    cases more with
    | nil => exact .inl hmore
    | cons second more =>
      obtain ⟨rfl, hnil⟩ := List.cons.inj hone
      rw [(List.append_eq_nil_iff.1 hnil).1] at hmore
      refine .inr ⟨second, hmore, hterm, fun a ha => hall a ?_⟩
      rw [completions_append]
      exact List.mem_append_left _ ha

/-- **Progress in the stored record.** Stop a call anywhere after the repository
accepted its opening record: what is stored lists the steps announced as
completed exactly if there are none yet or the closing record is stored. -/
theorem tracksProgress_iff {nodeId : NodeId} {kind : DeploymentKind} {tr : List EngineSig.Ev}
    {q : Prog EngineSig (Except CoreError DeploymentRun)}
    (h : (startDeployment nodeId kind).run.After tr q) (hopen : acceptedRuns tr ≠ []) :
    TracksProgress tr ↔ completions tr = [] ∨ ClosingSaved tr := by
  unfold TracksProgress ClosingSaved storedRun
  obtain ⟨run₀, hnew, hrunning, hacc | ⟨run, hacc, hterm, hall⟩⟩ := after_accepted h hopen
  · -- Only the opening record is stored, and it lists nothing.
    simp [hacc, hnew, hrunning, RunStatus.isTerminal, List.eq_nil_iff_forall_not_mem]
  · simpa [hacc, hterm] using hall

/-- An upgrade whose ports all answer `Ok`, stopped after some operations. -/
def stoppedUpgrade (n : Nat) : Partial EngineSig Unit (Except CoreError DeploymentRun) :=
  (startDeployment ⟨"eu-val-01"⟩ (.upgrade ⟨"2.1.0"⟩)).run.runFor
    (fixedPorts (fleetNode .active) (fun _ => false) (.rejected "")) n ()

/-- Stopped after its first step was announced: the stored record lists no step. -/
theorem not_tracksProgress :
    ¬ ∀ (nodeId : NodeId) (kind : DeploymentKind) (tr : List EngineSig.Ev)
      (q : Prog EngineSig (Except CoreError DeploymentRun)),
      (startDeployment nodeId kind).run.After tr q → acceptedRuns tr ≠ [] → TracksProgress tr := by
  intro h
  have htracks := h _ _ (stoppedUpgrade 11).trace _ (after_runFor _ _ _ _) (by decide +kernel)
  have hstored : ((storedRun (stoppedUpgrade 11).trace).map (·.completedSteps)) = some [] := by
    decide +kernel
  obtain ⟨run, hrun, hsteps⟩ := Option.map_eq_some_iff.1 hstored
  have hmem := htracks run hrun .drain (by decide +kernel)
  rw [hsteps] at hmem
  cases hmem

/-- Stopped after the closing record is stored, it lists them all. -/
theorem tracksProgress_iff_closed : TracksProgress (stoppedUpgrade 30).trace :=
  (tracksProgress_iff (after_runFor (fixedPorts (fleetNode .active) (fun _ => false) (.rejected ""))
    30 (startDeployment ⟨"eu-val-01"⟩ (.upgrade ⟨"2.1.0"⟩)).run ()) (by decide +kernel)).2
    (.inr ⟨_, rfl, by decide +kernel⟩)

end OpsEngine

end ValidatorForge.Core
