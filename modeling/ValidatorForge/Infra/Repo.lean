import Mathlib.Data.List.AList
import ValidatorForge.Core.Deploy
import ValidatorForge.Lib.Table

/-!
# The in-memory repository

crates/validatorforge-infra/src/repo.rs. The map is filed under the node's id
and the run records have distinct ids: the only writers are `saveNode` and
`saveRun`, so the type carries both facts. `memoryEnv` is what the engine's
ports may answer over it, whatever the agent, the gates, the clock and the
advisor do; `memoryPorts` is one way of answering. In `failingEnv` any call of the
repository may fail as well, and then changes nothing.
-/
namespace ValidatorForge.Infra

open Interaction ValidatorForge.Types ValidatorForge.Core

/-- `runs.iter_mut().find(..)` and replace, or push.
mirrors crates/validatorforge-infra/src/repo.rs:47-55 -/
def upsertRun (run : DeploymentRun) : List DeploymentRun → List DeploymentRun
  | [] => [run]
  | r :: rs => if r.id = run.id then run :: rs else r :: upsertRun run rs

theorem upsertRun_eq (run : DeploymentRun) (rs : List DeploymentRun) :
    upsertRun run rs = Table.upsert DeploymentRun.id (fun _ new => new) run rs := by
  induction rs with
  | nil => rfl
  | cons r rs ih => simp only [upsertRun, Table.upsert, ih]

theorem nodup_upsertRun {run : DeploymentRun} {rs : List DeploymentRun}
    (h : (rs.map DeploymentRun.id).Nodup) : ((upsertRun run rs).map DeploymentRun.id).Nodup := by
  rw [upsertRun_eq]
  exact Table.nodup_upsert (fun _ _ => rfl) h

/-- mirrors crates/validatorforge-infra/src/repo.rs:12-17 -/
structure InMemoryNodeRepository where
  nodes : AList fun _ : NodeId => ValidatorNode
  runs : List DeploymentRun
  keyed : ∀ id n, nodes.lookup id = some n → n.id = id
  nodup : (runs.map DeploymentRun.id).Nodup

namespace InMemoryNodeRepository

/-- mirrors crates/validatorforge-infra/src/repo.rs:19-24 -/
def new : InMemoryNodeRepository :=
  { nodes := ∅, runs := [], keyed := fun _ _ h => by simp at h, nodup := by simp }

/-- mirrors crates/validatorforge-infra/src/repo.rs:34-37 -/
def saveNode (s : InMemoryNodeRepository) (node : ValidatorNode) : InMemoryNodeRepository :=
  { s with
    nodes := s.nodes.insert node.id node
    keyed := fun id n h => by
      by_cases hid : id = node.id
      · subst hid
        rw [AList.lookup_insert] at h
        cases h
        rfl
      · rw [AList.lookup_insert_ne hid] at h
        exact s.keyed id n h }

/-- mirrors crates/validatorforge-infra/src/repo.rs:39-41 -/
def getNode (s : InMemoryNodeRepository) (id : NodeId) : Option ValidatorNode := s.nodes.lookup id

/-- The values of the map; their order is not specified.
mirrors crates/validatorforge-infra/src/repo.rs:43-45 -/
def listNodes (s : InMemoryNodeRepository) : List ValidatorNode := s.nodes.entries.map (·.2)

/-- mirrors crates/validatorforge-infra/src/repo.rs:47-55 -/
def saveRun (s : InMemoryNodeRepository) (run : DeploymentRun) : InMemoryNodeRepository :=
  { s with runs := upsertRun run s.runs, nodup := nodup_upsertRun s.nodup }

/-- mirrors crates/validatorforge-infra/src/repo.rs:57-59 -/
def getRun (s : InMemoryNodeRepository) (id : RunId) : Option DeploymentRun :=
  s.runs.find? fun r => r.id = id

/-- A stable sort, newest first.
mirrors crates/validatorforge-infra/src/repo.rs:61-67 -/
def listRuns (s : InMemoryNodeRepository) (limit : Nat) : List DeploymentRun :=
  (s.runs.mergeSort fun a b => decide (b.startedAt ≤ a.startedAt)).take limit

@[simp] theorem getNode_new (id : NodeId) : new.getNode id = none := by
  simp [new, getNode]

@[simp] theorem getNode_saveNode (s : InMemoryNodeRepository) (node : ValidatorNode) :
    (s.saveNode node).getNode node.id = some node := AList.lookup_insert _

theorem getNode_saveNode_ne (s : InMemoryNodeRepository) (node : ValidatorNode) {id : NodeId}
    (h : id ≠ node.id) : (s.saveNode node).getNode id = s.getNode id := AList.lookup_insert_ne h

@[simp] theorem getNode_saveRun (s : InMemoryNodeRepository) (run : DeploymentRun) (id : NodeId) :
    (s.saveRun run).getNode id = s.getNode id := rfl

theorem id_of_getNode {s : InMemoryNodeRepository} {id : NodeId} {n : ValidatorNode}
    (h : s.getNode id = some n) : n.id = id := s.keyed id n h

theorem mem_listNodes {s : InMemoryNodeRepository} {n : ValidatorNode} :
    n ∈ s.listNodes ↔ s.getNode n.id = some n := by
  constructor
  · intro h
    obtain ⟨⟨id, m⟩, hmem, rfl⟩ := List.mem_map.1 h
    have hget : s.getNode id = some m := AList.mem_lookup_iff.2 hmem
    have hid : m.id = id := id_of_getNode hget
    rw [hid]
    exact hget
  · intro h
    exact List.mem_map.2 ⟨⟨n.id, n⟩, AList.mem_lookup_iff.1 h, rfl⟩

theorem nodup_listNodes (s : InMemoryNodeRepository) :
    (s.listNodes.map ValidatorNode.id).Nodup := by
  have hkeys : s.listNodes.map ValidatorNode.id = s.nodes.keys := by
    unfold listNodes AList.keys List.keys
    rw [List.map_map]
    exact List.map_congr_left fun e he => s.keyed e.1 e.2 (AList.mem_lookup_iff.2 he)
  rw [hkeys]
  exact s.nodes.keys_nodup

end InMemoryNodeRepository

/-- The state behind an engine: its repository and its run counter. -/
structure EngineState where
  repo : InMemoryNodeRepository
  nextRun : UInt64

namespace EngineState

/-- mirrors crates/validatorforge-core/src/engine.rs:60 -/
def new : EngineState := ⟨.new, 1⟩

def getNode (w : EngineState) (id : NodeId) : Option ValidatorNode := w.repo.getNode id

end EngineState

/-- What the ports may answer: the repository never fails and answers what it
holds, the run counter counts (wrapping), everything else answers anything. -/
def memoryEnv : Env EngineSig EngineState
  | .getNode id, w, r, w' => r = .ok (w.repo.getNode id) ∧ w' = w
  | .saveNode node, w, r, w' => r = .ok () ∧ w' = { w with repo := w.repo.saveNode node }
  | .listNodes, w, r, w' => (∃ l, r = .ok l ∧ l.Perm w.repo.listNodes) ∧ w' = w
  | .getRun id, w, r, w' => r = .ok (w.repo.getRun id) ∧ w' = w
  | .saveRun run, w, r, w' => r = .ok () ∧ w' = { w with repo := w.repo.saveRun run }
  | .listRuns limit, w, r, w' => r = .ok (w.repo.listRuns limit) ∧ w' = w
  | .nextRun, w, r, w' => r = w.nextRun ∧ w' = { w with nextRun := w.nextRun + 1 }
  | .limiterTryAcquire, w, _, w' | .bulkheadTryAcquire, w, _, w' | .bulkheadRelease, w, _, w'
  | .now, w, _, w' | .publish _, w, _, w' | .agent _, w, _, w' | .advise .., w, _, w' => w' = w

/-- Gates that admit, a stopped clock, and an agent that answers `e` to the
calls in `fails` and `Ok` to the others. -/
def memoryPorts (fails : AgentCall → Bool) (e : PortError) : Prog.Handler EngineSig EngineState
  | .getNode id, w => (.ok (w.repo.getNode id), w)
  | .saveNode node, w => (.ok (), { w with repo := w.repo.saveNode node })
  | .listNodes, w => (.ok w.repo.listNodes, w)
  | .getRun id, w => (.ok (w.repo.getRun id), w)
  | .saveRun run, w => (.ok (), { w with repo := w.repo.saveRun run })
  | .listRuns limit, w => (.ok (w.repo.listRuns limit), w)
  | .nextRun, w => (w.nextRun, { w with nextRun := w.nextRun + 1 })
  | .limiterTryAcquire, w | .bulkheadTryAcquire, w => (true, w)
  | .bulkheadRelease, w | .publish _, w => ((), w)
  | .now, w => (0, w)
  | .agent c, w => (if fails c then .error e else .ok (c.okReply), w)
  | .advise .., w => ("", w)

theorem memoryEnv_memoryPorts (fails : AgentCall → Bool) (e : PortError) (o : EngineOp)
    (w : EngineState) :
    memoryEnv o w (memoryPorts fails e o w).1 (memoryPorts fails e o w).2 := by
  cases o with
  | listNodes => exact ⟨⟨_, rfl, .refl _⟩, rfl⟩
  | getNode _ | saveNode _ | getRun _ | saveRun _ | listRuns _ | nextRun => exact ⟨rfl, rfl⟩
  | _ => rfl

/-! ## What a trace does to the stored nodes -/

/-- The nodes saved under `id`, in order. -/
def savedFor (id : NodeId) (tr : List EngineSig.Ev) : List ValidatorNode :=
  ((OpsEngine.savedNodes tr).filter fun p => p.1.id = id).map Prod.fst

@[simp] theorem savedFor_append (id : NodeId) (t₁ t₂ : List EngineSig.Ev) :
    savedFor id (t₁ ++ t₂) = savedFor id t₁ ++ savedFor id t₂ := by
  simp [savedFor]

/-- One step: the stored node is the one it saved, if it saved one. -/
theorem memoryEnv_getNode {o : EngineOp} {w w' : EngineState} {r : o.Resp}
    (h : memoryEnv o w r w') (id : NodeId) :
    w'.getNode id = (savedFor id [⟨o, r⟩]).getLast?.or (w.getNode id) := by
  cases o with
  | saveNode node =>
    obtain ⟨-, rfl⟩ := h
    by_cases hid : node.id = id
    · subst hid
      simp [savedFor, OpsEngine.savedNodeOf, EngineState.getNode]
    · have hne := w.repo.getNode_saveNode_ne node (Ne.symm hid)
      simpa [savedFor, OpsEngine.savedNodeOf, hid, EngineState.getNode] using hne
  | getNode _ | listNodes | getRun _ | saveRun _ | listRuns _ | nextRun =>
    obtain ⟨-, rfl⟩ := h
    rfl
  | _ => cases h; rfl

/-- **Stored nodes.** After a trace the node stored under an id is the last one
the trace saved under it, and the one stored before if there is none. -/
theorem accepts_getNode {w w' : EngineState} {tr : List EngineSig.Ev}
    (h : memoryEnv.Accepts w tr w') (id : NodeId) :
    w'.getNode id = (savedFor id tr).getLast?.or (w.getNode id) := by
  induction tr generalizing w with
  | nil => cases h; rfl
  | cons e tr ih =>
    obtain ⟨w₁, he, ht⟩ := h
    have hcons : savedFor id (e :: tr) = savedFor id [e] ++ savedFor id tr :=
      savedFor_append id [e] tr
    rw [ih ht, memoryEnv_getNode he id, hcons, List.getLast?_append, Option.or_assoc]

/-- The node a call loaded is the one stored when it began. -/
theorem getNode_of_loaded {nodeId : NodeId} {kind : DeploymentKind} {node : ValidatorNode}
    {spareHost : Option HostAddr} {lt rest : List EngineSig.Ev} {w w' : EngineState}
    (hl : OpsEngine.Loaded nodeId kind node spareHost lt) (hw : memoryEnv.Accepts w (lt ++ rest) w') :
    w.getNode nodeId = some node := by
  cases hl with
  | mk hst =>
    obtain ⟨w₁, h₁, w₂, h₂, w₃, ⟨hr, h₃⟩, -⟩ := hw
    cases h₁
    cases h₂
    exact (Except.ok.inj hr).symm

/-- What a trace that saves nothing reads is what is stored. -/
theorem read_of_accepts {w w' : EngineState} {tr : List EngineSig.Ev} {id : NodeId}
    {a : Except PortError (Option ValidatorNode)} (h : memoryEnv.Accepts w tr w')
    (hs : OpsEngine.savedNodes tr = []) (hmem : (⟨.getNode id, a⟩ : EngineSig.Ev) ∈ tr) :
    a = .ok (w.getNode id) := by
  induction tr generalizing w with
  | nil => cases hmem
  | cons e tr ih =>
    obtain ⟨w₁, he, ht⟩ := h
    rw [OpsEngine.savedNodes_cons, List.append_eq_nil_iff] at hs
    rcases List.mem_cons.1 hmem with hmem | hmem
    · subst hmem
      exact he.1
    · have hget : w₁.getNode id = w.getNode id := by
        have hg := memoryEnv_getNode he id
        have hnil : savedFor id [⟨e.1, e.2⟩] = [] := by
          unfold savedFor
          rw [OpsEngine.savedNodes_cons, hs.1]; rfl
        rw [hg, hnil]; rfl
      rw [ih ht hs.2 hmem, hget]

/-! ## A repository that fails -/

/-- An error from the repository. -/
def RepoErr : (o : EngineOp) → o.Resp → Prop
  | .saveNode _, r | .saveRun _, r => ∃ e, r = .error e
  | .getNode _, r => ∃ e, r = .error e
  | .listNodes, r => ∃ e, r = .error e
  | .getRun _, r => ∃ e, r = .error e
  | .listRuns _, r => ∃ e, r = .error e
  | _, _ => False

/-- What the ports may answer over a repository whose calls may fail. -/
def failingEnv : Env EngineSig EngineState := fun o w r w' =>
  memoryEnv o w r w' ∨ RepoErr o r ∧ w' = w

/-- `memoryPorts`, but nodes that `rejects` are not saved. -/
def rejectingPorts (rejects : ValidatorNode → Bool) (fails : AgentCall → Bool) (e : PortError) :
    Prog.Handler EngineSig EngineState
  | .saveNode node, w =>
    if rejects node then (.error e, w) else (.ok (), { w with repo := w.repo.saveNode node })
  | o, w => memoryPorts fails e o w

theorem failingEnv_rejectingPorts (rejects : ValidatorNode → Bool) (fails : AgentCall → Bool)
    (e : PortError) (o : EngineOp) (w : EngineState) :
    failingEnv o w (rejectingPorts rejects fails e o w).1 (rejectingPorts rejects fails e o w).2 := by
  cases o with
  | saveNode node =>
    by_cases hr : rejects node = true
    · simp only [rejectingPorts, if_pos hr]
      exact .inr ⟨⟨e, rfl⟩, rfl⟩
    · simp only [rejectingPorts, if_neg hr]
      exact .inl ⟨rfl, rfl⟩
  | _ => exact .inl (memoryEnv_memoryPorts fails e _ w)

/-- The nodes the repository took under `id`, in order. -/
def keptFor (id : NodeId) (tr : List EngineSig.Ev) : List ValidatorNode :=
  ((OpsEngine.savedNodes tr).filter fun p => p.1.id = id ∧ p.2.isOk).map Prod.fst

@[simp] theorem keptFor_append (id : NodeId) (t₁ t₂ : List EngineSig.Ev) :
    keptFor id (t₁ ++ t₂) = keptFor id t₁ ++ keptFor id t₂ := by
  simp [keptFor]

theorem failingEnv_getNode {o : EngineOp} {w w' : EngineState} {r : o.Resp}
    (h : failingEnv o w r w') (id : NodeId) :
    w'.getNode id = (keptFor id [⟨o, r⟩]).getLast?.or (w.getNode id) := by
  rcases h with h | ⟨he, rfl⟩
  · rw [memoryEnv_getNode h id]
    cases o with
    | saveNode node =>
      obtain ⟨rfl, -⟩ := h
      simp [savedFor, keptFor, OpsEngine.savedNodeOf, Except.isOk, Except.toBool]
    | _ => rfl
  · cases o with
    | saveNode node =>
      obtain ⟨e, rfl⟩ := he
      simp [keptFor, OpsEngine.savedNodeOf, Except.isOk, Except.toBool]
    | _ => rfl

/-- After a trace the node stored under an id is the last one taken under it. -/
theorem failing_getNode {w w' : EngineState} {tr : List EngineSig.Ev}
    (h : failingEnv.Accepts w tr w') (id : NodeId) :
    w'.getNode id = (keptFor id tr).getLast?.or (w.getNode id) := by
  induction tr generalizing w with
  | nil => cases h; rfl
  | cons e tr ih =>
    obtain ⟨w₁, he, ht⟩ := h
    have hcons : keptFor id (e :: tr) = keptFor id [e] ++ keptFor id tr :=
      keptFor_append id [e] tr
    rw [ih ht, failingEnv_getNode he id, hcons, List.getLast?_append, Option.or_assoc]

/-- A read that succeeds answers what is stored. -/
theorem failingEnv_read {id : NodeId} {w w' : EngineState} {n : Option ValidatorNode}
    (h : failingEnv (.getNode id) w (.ok n) w') : w.getNode id = n ∧ w' = w := by
  rcases h with ⟨hr, rfl⟩ | ⟨⟨e, he⟩, -⟩
  · exact ⟨(Except.ok.inj hr).symm, rfl⟩
  · cases he

/-- What a call loaded is stored when it begins, the spare too. -/
theorem failing_loaded {nodeId : NodeId} {kind : DeploymentKind} {node : ValidatorNode}
    {spareHost : Option HostAddr} {lt rest : List EngineSig.Ev} {w w' : EngineState}
    (hl : OpsEngine.Loaded nodeId kind node spareHost lt)
    (hw : failingEnv.Accepts w (lt ++ rest) w') :
    w.getNode nodeId = some node ∧
      ∀ spare, kind = .failover spare →
        ∃ sp, w.getNode spare = some sp ∧ spareHost = some sp.host := by
  cases hl with
  | mk hst =>
    obtain ⟨w₁, h₁, w₂, h₂, w₃, h₃, hrest⟩ := hw
    have hw₁ : w₁ = w := h₁.elim (fun h => h) fun h => h.2
    have hw₂ : w₂ = w₁ := h₂.elim (fun h => h) fun h => h.2
    subst hw₁ hw₂
    obtain ⟨hn, rfl⟩ := failingEnv_read h₃
    refine ⟨hn, ?_⟩
    intro spare hk
    cases hst with
    | failover spare' sp =>
      cases hk
      obtain ⟨w₄, h₄, -⟩ := hrest
      exact ⟨sp, (failingEnv_read h₄).1, rfl⟩
    | other _ hno => exact absurd hk (hno spare)

end ValidatorForge.Infra
