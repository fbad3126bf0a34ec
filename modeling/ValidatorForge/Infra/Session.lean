import Mathlib.Data.List.Chain
import ValidatorForge.Lib.LTS
import ValidatorForge.Core.Contract
import ValidatorForge.Infra.Repo

/-!
# One engine over the in-memory repository, request after request

A request is an engine operation with its arguments; `session` performs
requests one after another, each to its end, and labels every step with the
request and the trace it left. `storedStates` reads off the labels the states
saved under an id.

* `session_step`: what one request does to the node stored under an id:
  nothing, or one save, which for a deployment follows permitted edges.
* `legalHistory_of_guarded`: if no `register_node` overwrites a stored node
  with a state its lifecycle does not lead to, and none files a new node in a
  state other than `Provisioning`, every id's history is legal.
* `reregistered_failed_node`: without that condition it need not be.
-/
namespace ValidatorForge.Infra

open Interaction ValidatorForge.Types ValidatorForge.Core ValidatorForge.Core.OpsEngine Prog

inductive Request where
  | registerNode (node : ValidatorNode)
  | startDeployment (nodeId : NodeId) (kind : DeploymentKind)
  | evaluateHealth (nodeId : NodeId) (snapshot : HealthSnapshot)
  | advise (nodeId : NodeId) (context : String)

/-- Performing the request leaves the trace `tr`. -/
def Request.Performs (cfg : OpsConfig) (tr : List EngineSig.Ev) : Request → Prop
  | registerNode node => ∃ r, (OpsEngine.registerNode node).run.Exec tr r
  | startDeployment nodeId kind => ∃ r, (OpsEngine.startDeployment nodeId kind).run.Exec tr r
  | evaluateHealth nodeId snapshot =>
    ∃ r, (OpsEngine.evaluateHealth cfg nodeId snapshot).run.Exec tr r
  | advise nodeId context => ∃ r, (OpsEngine.advise nodeId context).run.Exec tr r

abbrev Label : Type := Request × List EngineSig.Ev

def session (cfg : OpsConfig) : LTS EngineState Label where
  init w := w = .new
  step w l w' := l.1.Performs cfg l.2 ∧ memoryEnv.Accepts w l.2 w'

/-- The states stored under `id` along a run, in order. -/
def storedStates (id : NodeId) (ls : List Label) : List NodeState :=
  ls.flatMap fun l => (savedFor id l.2).map ValidatorNode.state

/-- First stored in `Provisioning`, then only moved along permitted edges;
hence never out of a terminal state, nor from `Active` to `Provisioning`. -/
structure LegalHistory (l : List NodeState) : Prop where
  first : ∀ s, l.head? = some s → s = .provisioning
  edges : l.IsChain NodeState.Reaches
  terminal : l.Pairwise fun s t => s.isTerminal = true → t = s
  active : l.Pairwise fun s t => s = .active → t ≠ .provisioning

/-- What may be stored where `stored` is. -/
def MayFollow (stored : Option ValidatorNode) (s : NodeState) : Prop :=
  match stored with
  | none => s = .provisioning
  | some n => n.state.Reaches s

/-- A request that registers a node registers one that may follow what is
stored under its id. -/
def RegistersLegally (w : EngineState) (l : Label) : Prop :=
  match l.1 with
  | .registerNode node => MayFollow (w.getNode node.id) node.state
  | _ => True

/-! ## One request -/

theorem evaluateHealth_spec {cfg : OpsConfig} {nodeId : NodeId} {snapshot : HealthSnapshot}
    {tr : List EngineSig.Ev} {r : Except CoreError HealthStatus}
    (h : (OpsEngine.evaluateHealth cfg nodeId snapshot).run.Exec tr r) :
    savedNodes tr = [] ∧ ∀ ev ∈ events tr, ∃ s t, ev = .healthEvaluated nodeId s t := by
  unfold OpsEngine.evaluateHealth at h
  rw [exec_findNode_bind] at h
  rcases h with ⟨e, rfl, -⟩ | ⟨rfl, -⟩ | ⟨n, t₁, rfl, h⟩
  · exact ⟨rfl, by simp [eventOf]⟩
  · exact ⟨rfl, by simp [eventOf]⟩
  · rw [exec_ask_bind] at h
    obtain ⟨t, t₂, rfl, h⟩ := h
    rw [exec_ask_bind] at h
    obtain ⟨t', t₃, rfl, h⟩ := h
    rw [exec_ask_bind] at h
    obtain ⟨_, t₄, rfl, h⟩ := h
    rw [exec_tryPure] at h
    obtain ⟨rfl, -⟩ := h
    exact ⟨rfl, by simp [eventOf]⟩

theorem advise_spec {nodeId : NodeId} {context : String} {tr : List EngineSig.Ev}
    {r : Except CoreError String} (h : (OpsEngine.advise nodeId context).run.Exec tr r) :
    savedNodes tr = [] ∧ events tr = [] := by
  unfold OpsEngine.advise at h
  rw [exec_findNode_bind] at h
  rcases h with ⟨e, rfl, -⟩ | ⟨rfl, -⟩ | ⟨n, t₁, rfl, h⟩
  · exact ⟨rfl, rfl⟩
  · exact ⟨rfl, rfl⟩
  · obtain ⟨a, rfl, -⟩ := (exec_ask ..).1 h
    exact ⟨rfl, rfl⟩

theorem savedFor_of_savedNodes {id : NodeId} {tr : List EngineSig.Ev} {m : ValidatorNode}
    {a : Except PortError Unit} (h : savedNodes tr = [(m, a)]) :
    savedFor id tr = if m.id = id then [m] else [] := by
  unfold savedFor
  rw [h]
  by_cases hid : m.id = id <;> simp [hid]

/-- **One request.** It saves nothing under `id`, or one node whose state may
follow the stored one. -/
theorem session_step {cfg : OpsConfig} {w w' : EngineState} {l : Label}
    (h : ((session cfg).Guarded RegistersLegally).step w l w') (id : NodeId) :
    savedFor id l.2 = [] ∨
      ∃ m, savedFor id l.2 = [m] ∧ MayFollow (w.getNode id) m.state := by
  obtain ⟨hg, hp, hw⟩ := h
  obtain ⟨q, tr⟩ := l
  cases q with
  | registerNode node =>
    obtain ⟨r, hx⟩ := hp
    obtain ⟨a, rfl, -⟩ := (exec_saveNodeOp ..).1 hx
    rw [savedFor_of_savedNodes (m := node) (a := a) rfl]
    by_cases hid : node.id = id
    · rw [if_pos hid]
      subst hid
      exact .inr ⟨node, rfl, hg⟩
    · rw [if_neg hid]
      exact .inl rfl
  | startDeployment nodeId kind =>
    obtain ⟨r, hx⟩ := hp
    rcases startDeployment_saves hx with hs | ⟨node, sp, lt, rest, m, a, hl, htr, hs, hrec, hreach⟩
    · refine .inl ?_
      unfold savedFor
      rw [hs]; rfl
    · rw [savedFor_of_savedNodes hs]
      by_cases hid : m.id = id
      · rw [if_pos hid]
        rw [htr] at hw
        have hn := getNode_of_loaded hl hw
        have hnode : node.id = nodeId := InMemoryNodeRepository.id_of_getNode hn
        refine .inr ⟨m, rfl, ?_⟩
        rw [← hid, hrec.id, hnode, hn]
        exact hreach
      · rw [if_neg hid]
        exact .inl rfl
  | evaluateHealth nodeId snapshot =>
    obtain ⟨r, hx⟩ := hp
    refine .inl ?_
    unfold savedFor
    rw [(evaluateHealth_spec hx).1]; rfl
  | advise nodeId context =>
    obtain ⟨r, hx⟩ := hp
    refine .inl ?_
    unfold savedFor
    rw [(advise_spec hx).1]; rfl

/-! ## A whole run -/

/-- The history from a state on: its first entry may follow what is stored, and
it moves along permitted edges. -/
theorem history_of_run {cfg : OpsConfig} {w w' : EngineState} {ls : List Label}
    (h : ((session cfg).Guarded RegistersLegally).Run w ls w') (id : NodeId) :
    (∀ s, (storedStates id ls).head? = some s → MayFollow (w.getNode id) s) ∧
      (storedStates id ls).IsChain NodeState.Reaches := by
  induction h with
  | nil w =>
    refine ⟨?_, .nil⟩
    intro s hs
    cases hs
  | @cons w w₁ w₂ l ls hs _ ih =>
    have hst := accepts_getNode hs.2.2 id
    have hcons : storedStates id (l :: ls) =
        (savedFor id l.2).map ValidatorNode.state ++ storedStates id ls := rfl
    rcases session_step hs id with hnil | ⟨m, hm, hfol⟩
    · rw [hnil] at hst hcons
      simp only [List.getLast?_nil, Option.none_or] at hst
      rw [hst] at ih
      rw [hcons]
      exact ih
    · rw [hm] at hst hcons
      simp only [List.getLast?_singleton, Option.some_or] at hst
      rw [hst] at ih
      rw [hcons]
      refine ⟨?_, ?_⟩
      · intro s hs
        cases hs
        exact hfol
      · exact List.isChain_cons.2 ⟨ih.1, ih.2⟩

theorem legalHistory_of_isChain {l : List NodeState} (h : l.IsChain NodeState.Reaches)
    (hfirst : ∀ s, l.head? = some s → s = .provisioning) : LegalHistory l := by
  have hp : l.Pairwise NodeState.Reaches :=
    (List.isChain_iff_pairwise (R := NodeState.Reaches)).1 h
  refine ⟨hfirst, h, hp.imp fun hr ht => hr.eq_of_isTerminal ht, hp.imp ?_⟩
  intro s t hr hs ht
  subst hs ht
  cases hr.eq_of_provisioning

/-- **The stored lifecycle.** In every run of a new engine whose registrations
are legal, the states stored under any id have a legal history. -/
theorem legalHistory_of_guarded {cfg : OpsConfig} {w₀ w : EngineState} {ls : List Label}
    (h₀ : (session cfg).init w₀) (h : ((session cfg).Guarded RegistersLegally).Run w₀ ls w)
    (id : NodeId) : LegalHistory (storedStates id ls) := by
  obtain ⟨hfirst, hchain⟩ := history_of_run h id
  refine legalHistory_of_isChain hchain ?_
  intro s hs
  have hf := hfirst s hs
  have hnone : w₀.getNode id = none := by
    rw [h₀]
    exact InMemoryNodeRepository.getNode_new id
  rw [hnone] at hf
  exact hf

/-! ## Runs on fixed inputs -/

/-- The label of a request answered by `memoryPorts`, and the state after it. -/
def registered (node : ValidatorNode) (w : EngineState) : Label × EngineState :=
  let out := (OpsEngine.registerNode node).run.runWith (memoryPorts (fun _ => false) (.rejected "")) w
  (⟨.registerNode node, out.trace⟩, out.world)

def deployed (nodeId : NodeId) (kind : DeploymentKind) (fails : AgentCall → Bool)
    (w : EngineState) : Label × EngineState :=
  let out := (OpsEngine.startDeployment nodeId kind).run.runWith
    (memoryPorts fails (.rejected "no capacity")) w
  (⟨.startDeployment nodeId kind, out.trace⟩, out.world)

theorem step_registered (cfg : OpsConfig) (node : ValidatorNode) (w : EngineState) :
    (session cfg).step w (registered node w).1 (registered node w).2 :=
  ⟨⟨_, exec_runWith ..⟩, Env.accepts_runWith (memoryEnv_memoryPorts _ _) _ _⟩

theorem step_deployed (cfg : OpsConfig) (nodeId : NodeId) (kind : DeploymentKind)
    (fails : AgentCall → Bool) (w : EngineState) :
    (session cfg).step w (deployed nodeId kind fails w).1 (deployed nodeId kind fails w).2 :=
  ⟨⟨_, exec_runWith ..⟩, Env.accepts_runWith (memoryEnv_memoryPorts _ _) _ _⟩

/-- Register, provision with an agent that rejects everything, register again:
the failed node is back in `Provisioning`. -/
theorem reregistered_failed_node : ∃ ls w, (session .default).Run .new ls w ∧
    storedStates ⟨"eu-val-01"⟩ ls = [.provisioning, .failed, .provisioning] ∧
    ¬ LegalHistory (storedStates ⟨"eu-val-01"⟩ ls) := by
  let s₁ := registered (fleetNode .provisioning) .new
  let s₂ := deployed ⟨"eu-val-01"⟩ .provision (fun _ => true) s₁.2
  let s₃ := registered (fleetNode .provisioning) s₂.2
  have hst : storedStates ⟨"eu-val-01"⟩ [s₁.1, s₂.1, s₃.1] =
      [.provisioning, .failed, .provisioning] := by decide +kernel
  refine ⟨[s₁.1, s₂.1, s₃.1], s₃.2, ?_, hst, ?_⟩
  · exact .cons (step_registered ..) (.cons (step_deployed ..) (.cons (step_registered ..) (.nil _)))
  · intro h
    have ht := h.terminal
    rw [hst] at ht
    simp [NodeState.isTerminal] at ht

/-- Register and provision once: a legal history. -/
theorem legalHistory_of_guarded_provision :
    let s₁ := registered (fleetNode .provisioning) .new
    let s₂ := deployed ⟨"eu-val-01"⟩ .provision (fun _ => false) s₁.2
    LegalHistory (storedStates ⟨"eu-val-01"⟩ [s₁.1, s₂.1]) := by
  intro s₁ s₂
  have hrun : ((session .default).Guarded RegistersLegally).Run .new [s₁.1, s₂.1] s₂.2 := by
    refine .cons ⟨?_, step_registered ..⟩ (.cons ⟨trivial, step_deployed ..⟩ (.nil _))
    show MayFollow (EngineState.new.getNode (fleetNode .provisioning).id) (fleetNode .provisioning).state
    have hnone : EngineState.new.getNode (fleetNode .provisioning).id = none :=
      InMemoryNodeRepository.getNode_new _
    rw [hnone]
    rfl
  exact legalHistory_of_guarded rfl hrun ⟨"eu-val-01"⟩

end ValidatorForge.Infra
