import Mathlib.Data.Option.Basic
import ValidatorForge.Lib.Pool
import ValidatorForge.Core.Contract
import ValidatorForge.Infra.Replay

/-!
# Concurrent deployments of one node

Any number of `start_deployment` calls on one node, interleaved operation by
operation over the in-memory repository (`deployments`). A call reads the node
when it begins and writes it when its saga is over.

* `serializable_of_fresh`: in a run in which no call overwrites a node whose
  state or version changed since that call read it (`Fresh`), the calls that
  returned `Ok` can be made one after another, with the same agent answers and
  outcomes, leaving the same state and version; and the stored state has only
  moved along permitted edges.
* `decommissioned_node_active_again`: without that condition a stale write
  brings a decommissioned node back to `Active`.
-/
namespace ValidatorForge.Infra

open Interaction ValidatorForge.Types ValidatorForge.Core ValidatorForge.Core.OpsEngine Prog

/-- The node a call on `x` loaded: the answer to its third operation. -/
def loadedBy (x : NodeId) : List EngineSig.Ev → Option ValidatorNode
  | _ :: _ :: ⟨.getNode id, .ok n⟩ :: _ => if id = x then n else none
  | _ => none

section System
variable {ι : Type} [DecidableEq ι]

abbrev Calls (ι : Type) : Type := PoolState EngineSig ι EngineState (Except CoreError DeploymentRun)

/-- The calls `start_deployment(x, kind i)`, from any stored state. -/
def deployments (x : NodeId) (kind : ι → DeploymentKind) : LTS (Calls ι) (ι × EngineSig.Ev) :=
  pool memoryEnv (fun i => (startDeployment x (kind i)).run) fun _ => True

/-- A call saves its node only while the stored node has the state and version
the call loaded. -/
def Fresh (x : NodeId) (s : Calls ι) (l : ι × EngineSig.Ev) : Prop :=
  ∀ m n cur, l.2.1 = .saveNode m → loadedBy x (s.thread l.1).trace = some n →
    s.world.getNode x = some cur → cur.state = n.state ∧ cur.version = n.version

/-- The calls of `order`, made one after another from `w` to `w'`: each returns
`Ok` with the outcome it had in `s`, the agent answering as it did there. -/
def SerialRun (x : NodeId) (kind : ι → DeploymentKind) (s : Calls ι) :
    List ι → EngineState → EngineState → Prop
  | [], w, w' => w' = w
  | i :: order, w, w' => ∃ tr run run' w₁, (s.thread i).rest = .ret (.ok run) ∧
      (startDeployment x (kind i)).run.Exec tr (.ok run') ∧ memoryEnv.Accepts w tr w₁ ∧
      agentCalls tr = agentCalls (s.thread i).trace ∧ SameOutcome run run' ∧
      SerialRun x kind s order w₁ w'

/-- State and version of the node stored under `x`. -/
def stored (x : NodeId) (w : EngineState) : Option (NodeState × ValidatorVersion) :=
  (w.getNode x).map fun n => (n.state, n.version)

/-- Some serial order of the calls that returned `Ok` leaves the same node. -/
def Serializable (x : NodeId) (kind : ι → DeploymentKind) (w₀ : EngineState) (s : Calls ι) : Prop :=
  ∃ order w, order.Nodup ∧ (∀ i, i ∈ order ↔ ∃ run, (s.thread i).rest = .ret (.ok run)) ∧
    SerialRun x kind s order w₀ w ∧ stored x w = stored x s.world

end System

/-! ## One call -/

theorem loadedBy_append {x : NodeId} {tr : List EngineSig.Ev} {n : ValidatorNode}
    (h : loadedBy x tr = some n) (rest : List EngineSig.Ev) :
    loadedBy x (tr ++ rest) = some n := by
  unfold loadedBy at h
  split at h
  · exact h
  · cases h

theorem mem_of_loadedBy {x : NodeId} {tr : List EngineSig.Ev} {n : ValidatorNode}
    (h : loadedBy x tr = some n) : (⟨.getNode x, .ok (some n)⟩ : EngineSig.Ev) ∈ tr := by
  unfold loadedBy at h
  split at h
  · rename_i id a b _
    split at h
    · rename_i hid
      subst hid h
      simp
    · cases h
  · cases h

theorem loadedBy_of_loaded {x : NodeId} {kind : DeploymentKind} {node : ValidatorNode}
    {spareHost : Option HostAddr} {lt : List EngineSig.Ev} (h : Loaded x kind node spareHost lt)
    (rest : List EngineSig.Ev) : loadedBy x (lt ++ rest) = some node := by
  cases h with
  | mk _ => simp [loadedBy]

/-- A call about to save a node has saved none, has loaded one, and saves a
state reached from the loaded one. -/
theorem save_of_after {x : NodeId} {kind : DeploymentKind} {tr : List EngineSig.Ev}
    {m : ValidatorNode} {k : Except PortError Unit → Prog EngineSig (Except CoreError DeploymentRun)}
    (h : (startDeployment x kind).run.After tr (.op (.saveNode m) k)) :
    savedNodes tr = [] ∧ ∃ n, loadedBy x tr = some n ∧ n.SameRecord m ∧ n.state.Reaches m.state := by
  have hrest := exec_runWith (memoryPorts (fun _ => false) (.rejected "")) (k (.ok ())) .new
  have hx : (Prog.op (S := EngineSig) (.saveNode m) k).Exec (⟨.saveNode m, .ok ()⟩ :: _) _ :=
    ⟨.ok (), _, rfl, hrest⟩
  rcases startDeployment_saves (h.exec hx) with hs | ⟨n, sp, lt, rest, m', a, hl, htr, hs, hr, hre⟩
  · simp [savedNodeOf] at hs
  · rw [savedNodes_append, savedNodes_cons] at hs
    simp only [savedNodeOf, Option.toList_some, List.singleton_append] at hs
    have hnil : savedNodes tr = [] := by
      have hlen := congrArg List.length hs
      simp only [List.length_append, List.length_cons, List.length_nil] at hlen
      exact List.length_eq_zero_iff.1 (by omega)
    rw [hnil, List.nil_append, List.cons.injEq, Prod.mk.injEq] at hs
    obtain ⟨⟨rfl, -⟩, -⟩ := hs
    refine ⟨hnil, n, ?_, hr, hre⟩
    -- the save comes after the load, so the load is in `tr`
    cases hl with
    | mk hst =>
      rcases tr with _ | ⟨a, _ | ⟨b, _ | ⟨c, tr⟩⟩⟩
      · simp at htr
      · simp at htr
      · simp at htr
      · simp only [List.cons_append, List.cons.injEq] at htr
        obtain ⟨rfl, rfl, rfl, -⟩ := htr
        simp [loadedBy]

/-- A call the repository always answered `Ok` returned `Ok` if it saved its node. -/
theorem ok_of_saved {x : NodeId} {kind : DeploymentKind} {tr : List EngineSig.Ev}
    {r : Except CoreError DeploymentRun} (h : (startDeployment x kind).run.Exec tr r)
    (hgood : ∀ e ∈ tr, Good e) (hs : savedNodes tr ≠ []) : ∃ run, r = .ok run := by
  rcases startDeployment_cases h with ⟨e, hr, -⟩ | ⟨node, spareHost, lt, bt, hl, rfl, hd⟩
  · exact absurd hr.untouched.1.nodes hs
  have hlt := hl.untouched.1.nodes
  rcases deploy_cases hd with ⟨n, t₀, e, rfl, -⟩ | ⟨n, t₀, t₁, st, et, status, run, sh, ut, rfl,
    hsaga, hend⟩
  · exact absurd (by simp [hlt, savedNodeOf]) hs
  have hst := hsaga.trace.nodes
  cases hend with
  | stuck hk => exact absurd (by simp [hlt, hst, opening, savedNodeOf, hk.untouched.nodes]) hs
  | @unsaved ft m hk e =>
    have hbad := hgood ⟨.saveNode m, .error e⟩ (by simp)
    cases hbad
  | @unclosed ft m hk t e =>
    have hbad := hgood ⟨.saveRun (run.finish status t), .error e⟩ (by simp)
    cases hbad
  | closed hk t t' => exact ⟨_, rfl⟩

/-! ## The invariant -/

/-- The same ids are stored, with the same records. -/
def Agree (w w' : EngineState) : Prop :=
  ∀ id, Option.Rel ValidatorNode.SameRecord (w.getNode id) (w'.getNode id)

theorem Agree.refl (w : EngineState) : Agree w w := by
  intro id
  cases w.getNode id with
  | none => exact .none
  | some n => exact .some (.refl n)

theorem Agree.of_some {w w' : EngineState} (h : Agree w w') {id : NodeId} {n : ValidatorNode}
    (hn : w'.getNode id = some n) : ∃ n₀, w.getNode id = some n₀ ∧ n₀.SameRecord n := by
  have hr := h id
  rw [hn] at hr
  cases hw : w.getNode id with
  | none => rw [hw] at hr; cases hr
  | some n₀ =>
    rw [hw] at hr
    cases hr with
    | some hr => exact ⟨n₀, rfl, hr⟩

theorem Agree.some_of {w w' : EngineState} (h : Agree w w') {id : NodeId} {n₀ : ValidatorNode}
    (hn : w.getNode id = some n₀) : ∃ n, w'.getNode id = some n ∧ n₀.SameRecord n := by
  have hr := h id
  rw [hn] at hr
  cases hw : w'.getNode id with
  | none => rw [hw] at hr; cases hr
  | some n =>
    rw [hw] at hr
    cases hr with
    | some hr => exact ⟨n, rfl, hr⟩

/-- Agreement survives storing, under its own id, a node with the stored record. -/
theorem Agree.store {w₀ w w' : EngineState} (h : Agree w₀ w) {x : NodeId} {m : ValidatorNode}
    (hm : Option.Rel ValidatorNode.SameRecord (w₀.getNode x) (some m))
    (hget : ∀ id, w'.getNode id = if id = x then some m else w.getNode id) : Agree w₀ w' := by
  intro id
  rw [hget id]
  by_cases hid : id = x
  · rw [if_pos hid, hid]
    exact hm
  · rw [if_neg hid]
    exact h id

/-- What a trace that saved one node leaves stored. -/
theorem accepts_one_save {w w' : EngineState} {tr : List EngineSig.Ev} {m : ValidatorNode}
    {a : Except PortError Unit} (h : memoryEnv.Accepts w tr w') (hs : savedNodes tr = [(m, a)])
    (id : NodeId) : w'.getNode id = if id = m.id then some m else w.getNode id := by
  have hget := accepts_getNode h id
  unfold savedFor at hget
  rw [hs] at hget
  by_cases hid : id = m.id
  · subst hid
    simpa using hget
  · rw [if_neg hid]
    simpa [Ne.symm hid] using hget

variable {ι : Type}

/-- The saves so far, in order: the call, the node it loaded, the node it saved.
Each call loaded what the one before it saved, up to `updatedAt`. -/
def SaveChain : ValidatorNode → List (ι × ValidatorNode × ValidatorNode) → ValidatorNode → Prop
  | cur, [], last => last = cur
  | cur, (_, n, m) :: log, last => Like cur n ∧ SaveChain m log last

theorem SaveChain.snoc {cur last n m : ValidatorNode} {log : List (ι × ValidatorNode × ValidatorNode)}
    {i : ι} (h : SaveChain cur log last) (hn : Like last n) : SaveChain cur (log ++ [(i, n, m)]) m := by
  induction log generalizing cur with
  | nil => cases h; exact ⟨hn, rfl⟩
  | cons e log ih => exact ⟨h.1, ih h.2⟩

structure Inv (x : NodeId) (kind : ι → DeploymentKind) (w₀ : EngineState)
    (log : List (ι × ValidatorNode × ValidatorNode)) (s : Calls ι) : Prop where
  threads : Threads (fun i => (startDeployment x (kind i)).run) s
  good : ∀ i, ∀ e ∈ (s.thread i).trace, Good e
  reads : ∀ i id a, (⟨.getNode id, a⟩ : EngineSig.Ev) ∈ (s.thread i).trace →
    ∃ o, a = .ok o ∧ Option.Rel ValidatorNode.SameRecord (w₀.getNode id) o
  agree : Agree w₀ s.world
  nodup : (log.map Prod.fst).Nodup
  logged : ∀ i n m, (i, n, m) ∈ log →
    loadedBy x (s.thread i).trace = some n ∧ savedNodes (s.thread i).trace = [(m, .ok ())]
  unlogged : ∀ i, i ∉ log.map Prod.fst → savedNodes (s.thread i).trace = []
  chain : ∀ n₀, w₀.getNode x = some n₀ →
    ∃ last, s.world.getNode x = some last ∧ SaveChain n₀ log last

section Steps
variable [DecidableEq ι] {x : NodeId} {kind : ι → DeploymentKind} {w₀ : EngineState}
  {log : List (ι × ValidatorNode × ValidatorNode)} {s s' : Calls ι} {l : ι × EngineSig.Ev}

theorem inv_init (h : (deployments x kind).init s) : Inv x kind s.world [] s where
  threads := threads_init h
  good := by intro i e he; rw [h.2 i] at he; cases he
  reads := by intro i id a he; rw [h.2 i] at he; cases he
  agree := .refl _
  nodup := .nil
  logged := by intro i n m he; cases he
  unlogged := by intro i _; rw [h.2 i]; rfl
  chain := fun n₀ hn => ⟨n₀, hn, rfl⟩

/-- What any step keeps, whether or not it saves the node. -/
theorem inv_frame (h : Inv x kind w₀ log s) (hs : (deployments x kind).step s l s') :
    Threads (fun i => (startDeployment x (kind i)).run) s' ∧
    (∀ i, ∀ e ∈ (s'.thread i).trace, Good e) ∧
    ∀ i id a, (⟨.getNode id, a⟩ : EngineSig.Ev) ∈ (s'.thread i).trace →
      ∃ o, a = .ok o ∧ Option.Rel ValidatorNode.SameRecord (w₀.getNode id) o := by
  refine ⟨threads_step h.threads hs, ?_, ?_⟩
  · obtain ⟨k, w', -, he, rfl⟩ := hs
    intro i e hmem
    by_cases hi : i = l.1
    · subst hi
      rw [PoolState.advance_self] at hmem
      rcases List.mem_append.1 hmem with hmem | hmem
      · exact h.good _ e hmem
      · obtain rfl := List.mem_singleton.1 hmem
        exact good_of_memoryEnv he
    · rw [PoolState.advance_of_ne s hi] at hmem
      exact h.good i e hmem
  · obtain ⟨k, w', -, he, rfl⟩ := hs
    intro i id a hmem
    by_cases hi : i = l.1
    · subst hi
      rw [PoolState.advance_self] at hmem
      rcases List.mem_append.1 hmem with hmem | hmem
      · exact h.reads _ id a hmem
      · rw [List.mem_singleton] at hmem
        rw [← hmem] at he
        exact ⟨_, he.1, h.agree id⟩
    · rw [PoolState.advance_of_ne s hi] at hmem
      exact h.reads i id a hmem

/-- A step that saves no node leaves the log as it is. -/
theorem inv_other (h : Inv x kind w₀ log s) (hs : (deployments x kind).step s l s')
    (ho : ∀ m, l.2.1 ≠ .saveNode m) : Inv x kind w₀ log s' := by
  obtain ⟨hth, hgood, hreads⟩ := inv_frame h hs
  obtain ⟨k, w', -, he, rfl⟩ := hs
  have hsaved : savedNodeOf l.2 = none := by
    obtain ⟨i, o, r⟩ := l
    cases o with
    | saveNode m => exact absurd rfl (ho m)
    | _ => rfl
  have hget : ∀ id, w'.getNode id = s.world.getNode id := by
    intro id
    have hg := memoryEnv_getNode he id
    have hnil : savedFor id [⟨l.2.1, l.2.2⟩] = [] := by
      unfold savedFor
      rw [savedNodes_cons, hsaved]; rfl
    rw [hg, hnil]; rfl
  have htr : ∀ i, savedNodes ((s.advance l.1 [l.2] (k l.2.2) w').thread i).trace =
      savedNodes (s.thread i).trace := by
    intro i
    by_cases hi : i = l.1
    · subst hi
      simp [hsaved]
    · rw [PoolState.advance_of_ne s hi]
  refine ⟨hth, hgood, hreads, ?_, h.nodup, ?_, ?_, ?_⟩
  · intro id
    rw [PoolState.advance_world, hget id]
    exact h.agree id
  · intro i n m hmem
    obtain ⟨hl, hsv⟩ := h.logged i n m hmem
    refine ⟨?_, (htr i).trans hsv⟩
    by_cases hi : i = l.1
    · subst hi
      rw [PoolState.advance_self]
      exact loadedBy_append hl _
    · rw [PoolState.advance_of_ne s hi]
      exact hl
  · intro i hi
    rw [htr i]
    exact h.unlogged i hi
  · intro n₀ hn
    rw [PoolState.advance_world, hget x]
    exact h.chain n₀ hn

omit [DecidableEq ι] in
/-- What a call about to save its node knows: the node it loaded has the stored
record, and the node it saves is filed under `x`. -/
theorem save_known (h : Inv x kind w₀ log s) {i : ι} {m : ValidatorNode}
    {k : Except PortError Unit → Prog EngineSig (Except CoreError DeploymentRun)}
    (hk : (s.thread i).rest = .op (.saveNode m) k) :
    savedNodes (s.thread i).trace = [] ∧ ∃ n n₀ cur, loadedBy x (s.thread i).trace = some n ∧
      n.SameRecord m ∧ n.state.Reaches m.state ∧ m.id = x ∧ w₀.getNode x = some n₀ ∧
      n₀.SameRecord n ∧ s.world.getNode x = some cur ∧ n₀.SameRecord cur := by
  have hth := h.threads i
  rw [hk] at hth
  obtain ⟨hnil, n, hload, hrec, hreach⟩ := save_of_after hth
  obtain ⟨o, ho, hrel⟩ := h.reads i x _ (mem_of_loadedBy hload)
  cases ho
  obtain ⟨n₀, hn₀, hrec₀⟩ : ∃ n₀, w₀.getNode x = some n₀ ∧ n₀.SameRecord n := by
    cases hw : w₀.getNode x with
    | none => rw [hw] at hrel; cases hrel
    | some n₀ =>
      rw [hw] at hrel
      cases hrel with
      | some hr => exact ⟨n₀, rfl, hr⟩
  obtain ⟨cur, hcur, hreccur⟩ := h.agree.some_of hn₀
  have hid : m.id = x := by
    rw [hrec.id, hrec₀.id]
    exact InMemoryNodeRepository.id_of_getNode hn₀
  exact ⟨hnil, n, n₀, cur, hload, hrec, hreach, hid, hn₀, hrec₀, hcur, hreccur⟩

theorem getNode_saveNode (w : EngineState) (m : ValidatorNode) (id : NodeId) :
    ({ w with repo := w.repo.saveNode m } : EngineState).getNode id =
      if id = m.id then some m else w.getNode id := by
  by_cases hid : id = m.id
  · rw [if_pos hid, hid]
    exact InMemoryNodeRepository.getNode_saveNode ..
  · rw [if_neg hid]
    exact InMemoryNodeRepository.getNode_saveNode_ne _ _ hid

/-- A fresh save is appended to the log. -/
theorem inv_save (h : Inv x kind w₀ log s) (hs : (deployments x kind).step s l s')
    (hf : Fresh x s l) {m : ValidatorNode} (ho : l.2.1 = .saveNode m) :
    ∃ n, Inv x kind w₀ (log ++ [(l.1, n, m)]) s' := by
  obtain ⟨hth, hgood, hreads⟩ := inv_frame h hs
  obtain ⟨i, o, r⟩ := l
  cases ho
  obtain ⟨k, w', hk, ⟨hr, rfl⟩, rfl⟩ := hs
  obtain ⟨hnil, n, n₀, cur, hload, hrec, -, hid, hn₀, hrec₀, hcur, hreccur⟩ := save_known h hk
  obtain ⟨hstate, hversion⟩ := hf m n cur rfl hload hcur
  have hnot : i ∉ log.map Prod.fst := by
    intro hmem
    obtain ⟨⟨i', n', m'⟩, he, rfl⟩ := List.mem_map.1 hmem
    have hsv := (h.logged _ _ _ he).2
    rw [hnil] at hsv
    cases hsv
  have hget : ∀ id, ({ s.world with repo := s.world.repo.saveNode m } : EngineState).getNode id =
      if id = x then some m else s.world.getNode id := by
    intro id
    rw [getNode_saveNode, hid]
  refine ⟨n, hth, hgood, hreads, ?_, ?_, ?_, ?_, ?_⟩
  · refine h.agree.store (x := x) (m := m) ?_ hget
    rw [hn₀]
    exact .some (hrec₀.trans hrec)
  · rw [List.map_append, List.nodup_append]
    refine ⟨h.nodup, List.nodup_singleton _, ?_⟩
    intro a ha b hb hab
    obtain rfl := List.mem_singleton.1 hb
    exact hnot (hab ▸ ha)
  · intro j n' m' hmem
    rcases List.mem_append.1 hmem with hmem | hmem
    · obtain ⟨hl, hsv⟩ := h.logged j n' m' hmem
      have hj : j ≠ i := by
        intro hj
        exact hnot (hj ▸ List.mem_map_of_mem hmem)
      rw [PoolState.advance_of_ne s hj]
      exact ⟨hl, hsv⟩
    · cases List.mem_singleton.1 hmem
      rw [PoolState.advance_self]
      refine ⟨loadedBy_append hload _, ?_⟩
      rw [savedNodes_append, hnil]
      have hr : r = .ok () := hr
      rw [hr]; rfl
  · intro j hj
    have hji : j ≠ i := by
      intro hji
      exact hj (by simp [hji])
    have hjl : j ∉ log.map Prod.fst := by
      intro hmem
      exact hj (by rw [List.map_append]; exact List.mem_append_left _ hmem)
    rw [PoolState.advance_of_ne s hji]
    exact h.unlogged j hjl
  · intro n₁ hn₁
    obtain ⟨last, hlast, hchain⟩ := h.chain n₁ hn₁
    rw [hcur] at hlast
    cases hlast
    refine ⟨m, ?_, hchain.snoc ⟨hreccur.symm.trans hrec₀, hstate.symm, hversion.symm⟩⟩
    rw [PoolState.advance_world, hget x, if_pos rfl]

/-- One step of a fresh run: the invariant is kept, and the stored state moves
along permitted edges. -/
theorem inv_step (h : Inv x kind w₀ log s) (hs : ((deployments x kind).Guarded (Fresh x)).step s l s') :
    (∃ log', Inv x kind w₀ log' s') ∧ ∀ n n', s.world.getNode x = some n →
      s'.world.getNode x = some n' → n.state.Reaches n'.state := by
  obtain ⟨hf, hs⟩ := hs
  by_cases ho : ∃ m, l.2.1 = .saveNode m
  · obtain ⟨m, ho⟩ := ho
    obtain ⟨n, hinv⟩ := inv_save h hs hf ho
    refine ⟨⟨_, hinv⟩, ?_⟩
    intro a b ha hb
    obtain ⟨i, o, r⟩ := l
    cases ho
    obtain ⟨k, w', hk, ⟨-, rfl⟩, rfl⟩ := hs
    obtain ⟨-, n', -, -, hload, -, hreach, hid, -⟩ := save_known h hk
    rw [PoolState.advance_world, getNode_saveNode, if_pos hid.symm] at hb
    cases hb
    rw [(hf m n' a rfl hload ha).1]
    exact hreach
  · have ho' : ∀ m, l.2.1 ≠ .saveNode m := fun m hm => ho ⟨m, hm⟩
    refine ⟨⟨log, inv_other h hs ho'⟩, ?_⟩
    intro a b ha hb
    obtain ⟨k, w', -, he, rfl⟩ := hs
    have hg := memoryEnv_getNode he x
    have hnil : savedFor x [⟨l.2.1, l.2.2⟩] = [] := by
      obtain ⟨i, o, r⟩ := l
      cases o with
      | saveNode m => exact absurd rfl (ho' m)
      | _ => rfl
    rw [PoolState.advance_world, hg, hnil] at hb
    rw [ha] at hb
    cases hb
    exact .refl

theorem inv_run {ls : List (ι × EngineSig.Ev)} (h : Inv x kind w₀ log s)
    (hr : ((deployments x kind).Guarded (Fresh x)).Run s ls s') :
    (∃ log', Inv x kind w₀ log' s') ∧ ∀ n n', s.world.getNode x = some n →
      s'.world.getNode x = some n' → n.state.Reaches n'.state := by
  induction hr generalizing log with
  | nil s =>
    refine ⟨⟨log, h⟩, ?_⟩
    intro n n' hn hn'
    rw [hn] at hn'
    cases hn'
    exact .refl
  | @cons s s₁ s₂ l ls hs _ ih =>
    obtain ⟨⟨log₁, h₁⟩, hreach₁⟩ := inv_step h hs
    obtain ⟨hinv, hreach₂⟩ := ih h₁
    refine ⟨hinv, ?_⟩
    intro n n' hn hn'
    obtain ⟨n₀, hn₀, -⟩ := h.agree.of_some hn
    obtain ⟨n₁, hn₁, -⟩ := h₁.agree.some_of hn₀
    exact (hreach₁ n n₁ hn hn₁).trans (hreach₂ n₁ n' hn₁ hn')

/-! ## The serial run -/

omit [DecidableEq ι] in
/-- The look-ups of a call succeed again, with the same spare host, wherever the
same records are stored. -/
theorem loaded_again {kind : DeploymentKind} {node node' : ValidatorNode}
    {spareHost : Option HostAddr} {lt : List EngineSig.Ev} {w : EngineState}
    (hl : Loaded x kind node spareHost lt)
    (hreads : ∀ id a, (⟨.getNode id, a⟩ : EngineSig.Ev) ∈ lt →
      ∃ o, a = .ok o ∧ Option.Rel ValidatorNode.SameRecord (w₀.getNode id) o)
    (hagree : Agree w₀ w) (hcur : w.getNode x = some node') :
    ∃ lt', Loaded x kind node' spareHost lt' ∧ memoryEnv.Accepts w lt' w := by
  have hx : w.repo.getNode x = some node' := hcur
  cases hl with
  | mk hst =>
    cases hst with
    | failover spare sp =>
      obtain ⟨o, ho, hrel⟩ := hreads spare (.ok (some sp)) (by simp)
      cases ho
      cases hw : w₀.getNode spare with
      | none => rw [hw] at hrel; cases hrel
      | some sp₀ =>
        rw [hw] at hrel
        cases hrel with
        | some hr =>
          obtain ⟨sp', hsp', hr'⟩ := hagree.some_of hw
          have hhost : sp'.host = sp.host := hr'.host.trans hr.host.symm
          have hsp : w.repo.getNode spare = some sp' := hsp'
          rw [← hhost]
          exact ⟨_, .mk (.failover spare sp'),
            ⟨w, rfl, w, rfl, w, ⟨by rw [hx], rfl⟩, w, ⟨by rw [hsp], rfl⟩, rfl⟩⟩
    | other _ hk =>
      exact ⟨_, .mk (.other kind hk), ⟨w, rfl, w, rfl, w, ⟨by rw [hx], rfl⟩, rfl⟩⟩

omit [DecidableEq ι] in
/-- A logged call that is over returned `Ok`. -/
theorem Inv.ok_of_logged (h : Inv x kind w₀ log s) {i : ι} {n m : ValidatorNode}
    (he : (i, n, m) ∈ log) {r : Except CoreError DeploymentRun} (hr : (s.thread i).rest = .ret r) :
    ∃ run, r = .ok run ∧ (startDeployment x (kind i)).run.Exec (s.thread i).trace (.ok run) := by
  have hx := h.threads i
  rw [hr, ← exec_iff_after] at hx
  obtain ⟨run, rfl⟩ := ok_of_saved hx (h.good i) (by rw [(h.logged i n m he).2]; simp)
  exact ⟨run, rfl, hx⟩

omit [DecidableEq ι] in
theorem Inv.mem_log_iff (h : Inv x kind w₀ log s) (hdone : ∀ i, ∃ r, (s.thread i).rest = .ret r)
    (i : ι) : i ∈ log.map Prod.fst ↔ ∃ run, (s.thread i).rest = .ret (.ok run) := by
  refine ⟨?_, ?_⟩
  · intro hi
    obtain ⟨⟨i', n, m⟩, he, rfl⟩ := List.mem_map.1 hi
    obtain ⟨r, hr⟩ := hdone i'
    obtain ⟨run, rfl, -⟩ := h.ok_of_logged he hr
    exact ⟨run, hr⟩
  · intro hi
    obtain ⟨run, hr⟩ := hi
    have hx := h.threads i
    rw [hr, ← exec_iff_after] at hx
    by_contra hni
    rcases startDeployment_cases hx with ⟨e, -, he⟩ | ⟨node, sp, lt, bt, hl, htr, hd⟩
    · cases he
    obtain ⟨m, hc⟩ := deploy_completed hl hd
    have hnil := h.unlogged i hni
    rw [htr, hc.nodes] at hnil
    cases hnil

omit [DecidableEq ι] in
/-- Only a stored node can be overwritten. -/
theorem Inv.log_eq_nil (h : Inv x kind w₀ log s) (hn₀ : w₀.getNode x = none) : log = [] := by
  by_contra hne
  obtain ⟨⟨i, n, m⟩, he⟩ := List.exists_mem_of_ne_nil log hne
  obtain ⟨o, ho, hrel⟩ := h.reads i x _ (mem_of_loadedBy (h.logged i n m he).1)
  cases ho
  rw [hn₀] at hrel
  cases hrel

omit [DecidableEq ι] in
/-- The logged calls, made one after another. -/
theorem serial_of_log (h : Inv x kind w₀ log s) (hdone : ∀ i, ∃ r, (s.thread i).rest = .ret r)
    {rest : List (ι × ValidatorNode × ValidatorNode)} (hsub : ∀ e ∈ rest, e ∈ log)
    {cur cur' last : ValidatorNode} {w : EngineState} (hchain : SaveChain cur rest last)
    (hcur : w.getNode x = some cur') (hlike : Like cur cur') (hagree : Agree w₀ w) :
    ∃ w' last', SerialRun x kind s (rest.map Prod.fst) w w' ∧ w'.getNode x = some last' ∧
      Like last last' := by
  induction rest generalizing cur cur' w with
  | nil =>
    cases hchain
    exact ⟨w, cur', rfl, hcur, hlike⟩
  | cons e rest ih =>
    obtain ⟨i, n, m⟩ := e
    obtain ⟨hn, hchain⟩ := hchain
    obtain ⟨hload, hsaved⟩ := h.logged i n m (hsub _ List.mem_cons_self)
    obtain ⟨r, hr⟩ := hdone i
    obtain ⟨run, rfl, hx⟩ := h.ok_of_logged (hsub _ List.mem_cons_self) hr
    rcases startDeployment_cases hx with ⟨e, -, he⟩ | ⟨node, spareHost, lt, bt, hl, htr, -⟩
    · cases he
    rw [List.append_assoc] at htr
    have hnode : node = n := by
      have hb := loadedBy_of_loaded hl (bt ++ [⟨.bulkheadRelease, ()⟩])
      rw [← htr, hload] at hb
      exact (Option.some.inj hb).symm
    subst hnode
    have hrec : node.SameRecord m := by
      rcases startDeployment_saves hx with hnil | ⟨node', sp, lt', rest', m', a, hl', htr', hs, hr, -⟩
      · rw [hsaved] at hnil; cases hnil
      · rw [htr] at htr'
        obtain ⟨rfl, -, -⟩ := hl.unique hl' htr'
        rw [hsaved] at hs
        cases hs
        exact hr
    obtain ⟨lt', hl', hacc'⟩ := loaded_again hl (fun id a ha =>
      h.reads i id a (by rw [htr]; exact List.mem_append_left _ ha)) hagree hcur
    have hgood := h.good i
    rw [htr] at hx hgood
    obtain ⟨tr', run', w₁, hx', hacc, hag, hout, hall⟩ := replay_deployment hx
      (fun e he => hgood e (List.mem_append_right _ he)) hl hl' (hn.symm.trans hlike) hacc'
    rw [← htr, hsaved] at hall
    obtain ⟨m', a, hm', hs'⟩ : ∃ m' a, Like m m' ∧ savedNodes tr' = [(m', a)] := by
      obtain ⟨⟨m', a⟩, l, hb, hnil, hs'⟩ := List.forall₂_cons_left_iff.1 hall
      rw [List.forall₂_nil_left_iff.1 hnil] at hs'
      exact ⟨m', a, hb, hs'⟩
    obtain ⟨n₀, hn₀, hrec₀⟩ := hagree.of_some hcur
    have hrec' : n₀.SameRecord m' :=
      hrec₀.trans (((hn.symm.trans hlike).record.symm.trans hrec).trans hm'.record)
    have hid : m'.id = x := by
      rw [hrec'.id]
      exact InMemoryNodeRepository.id_of_getNode hn₀
    have hget : ∀ id, w₁.getNode id = if id = x then some m' else w.getNode id := by
      intro id
      rw [accepts_one_save hacc hs' id, hid]
    have hagree₁ : Agree w₀ w₁ := by
      refine hagree.store (x := x) (m := m') ?_ hget
      rw [hn₀]
      exact .some hrec'
    have hcur₁ : w₁.getNode x = some m' := by rw [hget x, if_pos rfl]
    obtain ⟨w', last', hser, hlast, hll⟩ := ih (fun e he => hsub e (List.mem_cons_of_mem _ he))
      hchain hcur₁ hm' hagree₁
    refine ⟨w', last', ?_, hlast, hll⟩
    rw [← htr] at hag
    exact ⟨tr', run, run', w₁, hr, hx', hacc, hag, hout, hser⟩

/-- **Fresh runs are serializable.** -/
theorem serializable_of_fresh {s₀ s₁ s : Calls ι} {l₁ l₂ : List (ι × EngineSig.Ev)}
    (h₀ : (deployments x kind).init s₀)
    (hr₁ : ((deployments x kind).Guarded (Fresh x)).Run s₀ l₁ s₁)
    (hr₂ : ((deployments x kind).Guarded (Fresh x)).Run s₁ l₂ s)
    (hdone : ∀ i, ∃ r, (s.thread i).rest = .ret r) :
    Serializable x kind s₀.world s ∧ ∀ n n', s₁.world.getNode x = some n →
      s.world.getNode x = some n' → n.state.Reaches n'.state := by
  obtain ⟨⟨log₁, h₁⟩, -⟩ := inv_run (inv_init h₀) hr₁
  obtain ⟨⟨log, h⟩, hreach⟩ := inv_run h₁ hr₂
  refine ⟨?_, hreach⟩
  have hmem := h.mem_log_iff hdone
  cases hn₀ : s₀.world.getNode x with
  | none =>
    obtain rfl := h.log_eq_nil hn₀
    refine ⟨[], s₀.world, .nil, hmem, rfl, ?_⟩
    have ha := h.agree x
    rw [hn₀] at ha
    unfold stored
    rw [hn₀]
    cases hs : s.world.getNode x with
    | none => rfl
    | some n => rw [hs] at ha; cases ha
  | some n₀ =>
    obtain ⟨last, hlast, hchain⟩ := h.chain n₀ hn₀
    obtain ⟨w', last', hser, hlast', hlike⟩ := serial_of_log h hdone (fun e he => he) hchain hn₀
      ⟨.refl n₀, rfl, rfl⟩ (.refl _)
    refine ⟨log.map Prod.fst, w', h.nodup, hmem, hser, ?_⟩
    unfold stored
    rw [hlast, hlast']
    simp [hlike.state, hlike.version]

/-- A call made while the others stand still is fresh. -/
theorem fresh_of_alone {i : ι} {tr : List EngineSig.Ev} {r : Except CoreError DeploymentRun}
    {w' : EngineState} (hi : s.thread i = ⟨[], (startDeployment x (kind i)).run⟩)
    (hx : (startDeployment x (kind i)).run.Exec tr r) (hw : memoryEnv.Accepts s.world tr w')
    (hne : tr ≠ []) :
    ((deployments x kind).Guarded (Fresh x)).Run s (tr.map (Prod.mk i)) (s.advance i tr (.ret r) w') := by
  refine run_guarded (by rw [hi]; exact (exec_iff_after ..).1 hx) hw hne ?_
  intro pre e post q₁ w₁ htr hacc m n cur ho hload hcur
  rw [PoolState.advance_self, hi] at hload
  rw [PoolState.advance_world] at hcur
  obtain ⟨o, a⟩ := e
  cases ho
  rw [htr] at hx
  obtain ⟨q, hq, hx₁⟩ := exec_append hx
  cases q with
  | ret b => cases hx₁.1
  | op o k =>
    obtain ⟨a', tr', he, -⟩ := hx₁
    simp only [List.cons.injEq, Sigma.mk.injEq] at he
    obtain ⟨⟨rfl, -⟩, -⟩ := he
    have hnil := (save_of_after hq).1
    have hread := read_of_accepts hacc hnil (mem_of_loadedBy hload)
    have hget := accepts_getNode hacc x
    have hsf : savedFor x pre = [] := by
      unfold savedFor
      rw [hnil]; rfl
    rw [hsf, List.getLast?_nil, Option.none_or, hcur] at hget
    rw [← hget] at hread
    cases hread
    exact ⟨rfl, rfl⟩

end Steps

/-! ## Two calls on one active node -/

/-- An active node of the test fleet is stored. -/
def activeFleet : EngineState :=
  { EngineState.new with repo := InMemoryNodeRepository.new.saveNode (fleetNode .active) }

/-- Call `false` upgrades the node, call `true` decommissions it. -/
def upgradeAndDecommission : Bool → DeploymentKind
  | false => .upgrade ⟨"2.1.0"⟩
  | true => .decommission

def fleetId : NodeId := ⟨"eu-val-01"⟩

abbrev callOf (b : Bool) : Prog EngineSig (Except CoreError DeploymentRun) :=
  (startDeployment fleetId (upgradeAndDecommission b)).run

def bothStarting : Calls Bool := ⟨activeFleet, fun b => ⟨[], callOf b⟩⟩

abbrev okPorts : Handler EngineSig EngineState := memoryPorts (fun _ => false) (.rejected "")

theorem okPorts_allowed (o : EngineOp) (w : EngineState) :
    memoryEnv o w (okPorts o w).1 (okPorts o w).2 := memoryEnv_memoryPorts _ _ o w

/-- The upgrade loads the node (its first three operations), the decommissioning
runs to its end, the upgrade goes on. -/
def loadFirst : Partial EngineSig EngineState (Except CoreError DeploymentRun) :=
  (callOf false).runFor okPorts 3 activeFleet

def decommissionThen : Outcome EngineSig EngineState (Except CoreError DeploymentRun) :=
  (callOf true).runWith okPorts loadFirst.world

def upgradeLast : Outcome EngineSig EngineState (Except CoreError DeploymentRun) :=
  loadFirst.rest.runWith okPorts decommissionThen.world

def bothDecommissioned : Calls Bool :=
  (bothStarting.advance false loadFirst.trace loadFirst.rest loadFirst.world).advance true
    decommissionThen.trace (.ret decommissionThen.val) decommissionThen.world

def bothUpgraded : Calls Bool :=
  bothDecommissioned.advance false upgradeLast.trace (.ret upgradeLast.val) upgradeLast.world

theorem run_bothDecommissioned : ∃ ls,
    (deployments fleetId upgradeAndDecommission).Run bothStarting ls bothDecommissioned := by
  have h₁ : (deployments fleetId upgradeAndDecommission).Run bothStarting _
      (bothStarting.advance false loadFirst.trace loadFirst.rest loadFirst.world) :=
    run_after (after_runFor okPorts 3 (callOf false) activeFleet)
      (Env.accepts_runFor okPorts_allowed 3 (callOf false) activeFleet) (by decide)
  have h₂ : (deployments fleetId upgradeAndDecommission).Run
      (bothStarting.advance false loadFirst.trace loadFirst.rest loadFirst.world)
      (decommissionThen.trace.map (Prod.mk true)) bothDecommissioned := by
    refine run_after ?_ (Env.accepts_runWith okPorts_allowed _ _) (by decide)
    rw [PoolState.advance_of_ne _ (by decide)]
    exact (exec_iff_after ..).1 (exec_runWith ..)
  exact ⟨_, h₁.append h₂⟩

theorem run_bothUpgraded : ∃ ls,
    (deployments fleetId upgradeAndDecommission).Run bothDecommissioned ls bothUpgraded := by
  refine ⟨_, run_after ?_ (Env.accepts_runWith okPorts_allowed _ _) (by decide)⟩
  have hrest : (bothDecommissioned.thread false).rest = loadFirst.rest := by
    unfold bothDecommissioned
    rw [PoolState.advance_of_ne _ (by decide), PoolState.advance_self]
  rw [hrest]
  exact (exec_iff_after ..).1 (exec_runWith ..)

/-- One call of a serial run: it moves the stored state to the one its outcome
leads to, along permitted edges. -/
theorem serial_call {x : NodeId} {kind : DeploymentKind} {tr : List EngineSig.Ev}
    {run : DeploymentRun} {w w' : EngineState}
    (hx : (startDeployment x kind).run.Exec tr (.ok run)) (hw : memoryEnv.Accepts w tr w') :
    ∃ n m, w.getNode x = some n ∧ w'.getNode x = some m ∧ n.state.Reaches m.state ∧
      m.state = stateAfter kind run.status n.state := by
  rcases startDeployment_cases hx with ⟨e, -, he⟩ | ⟨node, sp, lt, bt, hl, rfl, hd⟩
  · cases he
  obtain ⟨m, hc⟩ := deploy_completed hl hd
  have hn : w.getNode x = some node := by
    rw [List.append_assoc] at hw
    exact getNode_of_loaded hl hw
  have hid : m.id = x := by
    rw [hc.record.id]
    exact InMemoryNodeRepository.id_of_getNode hn
  refine ⟨node, m, hn, ?_, ?_, hc.state⟩
  · rw [accepts_one_save hw hc.nodes x, if_pos hid.symm]
  · rcases startDeployment_saves hx with hs | ⟨n', sp', lt', rest', m', a, hl', htr', hs, -, hr⟩
    · rw [hc.nodes] at hs; cases hs
    · rw [List.append_assoc] at htr'
      obtain ⟨rfl, -, -⟩ := hl.unique hl' htr'
      rw [hc.nodes] at hs
      cases hs
      exact hr

/-- Both calls succeeded; no serial order of them leaves the node active. -/
theorem not_serializable_bothUpgraded :
    ¬ Serializable fleetId upgradeAndDecommission activeFleet bothUpgraded := by
  intro h
  obtain ⟨order, w, hnodup, hmem, hser, hst⟩ := h
  have hfinal : stored fleetId bothUpgraded.world = some (.active, ⟨"2.1.0"⟩) := by rfl
  rw [hfinal] at hst
  have hrest : ∀ b, ∃ run, (bothUpgraded.thread b).rest = .ret (.ok run) ∧
      run.status = .succeeded := by
    intro b
    cases b with
    | false => exact ⟨_, rfl, rfl⟩
    | true => exact ⟨_, rfl, rfl⟩
  have hin : ∀ b, b ∈ order := by
    intro b
    obtain ⟨run, hr, -⟩ := hrest b
    exact (hmem b).2 ⟨run, hr⟩
  have hstatus : ∀ b run run', (bothUpgraded.thread b).rest = .ret (.ok run) →
      SameOutcome run run' → run'.status = .succeeded := by
    intro b run run' hr hout
    obtain ⟨run₀, hr₀, hs⟩ := hrest b
    rw [hr] at hr₀
    cases hr₀
    rw [hout.status, hs]
  match order, hnodup, hin, hser with
  | [], _, hin, _ => cases hin true
  | [a], _, hin, _ =>
    have h₁ := List.mem_singleton.1 (hin true)
    have h₂ := List.mem_singleton.1 (hin false)
    rw [← h₁] at h₂
    cases h₂
  | a :: b :: c :: l, hnodup, _, _ =>
    exfalso
    cases a <;> cases b <;> cases c <;> simp at hnodup
  | [a, b], hnodup, _, hser =>
    obtain ⟨t₁, r₁, r₁', w₁, hr₁, hx₁, hw₁, -, ho₁, t₂, r₂, r₂', w₂, hr₂, hx₂, hw₂, -, ho₂, rfl⟩ := hser
    obtain ⟨n₁, m₁, hn₁, hm₁, hre₁, hs₁⟩ := serial_call hx₁ hw₁
    obtain ⟨n₂, m₂, hn₂, hm₂, hre₂, hs₂⟩ := serial_call hx₂ hw₂
    rw [hstatus a r₁ r₁' hr₁ ho₁] at hs₁
    rw [hstatus b r₂ r₂' hr₂ ho₂] at hs₂
    unfold stored at hst
    rw [hm₂] at hst
    have hact : m₂.state = .active := congrArg Prod.fst (Option.some.inj hst)
    cases b with
    | true =>
      -- the decommissioning is last, and leaves `Decommissioned`
      rw [hs₂] at hact
      cases hact
    | false =>
      cases a with
      | false => simp at hnodup
      | true =>
        -- the upgrade comes after it, and nothing leads out of `Decommissioned`
        have hmn : m₁ = n₂ := by
          rw [hm₁] at hn₂
          exact Option.some.inj hn₂
        have hdec : m₁.state = .decommissioned := hs₁
        rw [← hmn, hdec] at hre₂
        have heq := hre₂.eq_of_isTerminal rfl
        rw [heq] at hact
        cases hact

/-- **A stale write brings a decommissioned node back.** In this run both calls
return `Ok`; the node is stored as `Decommissioned` on the way and as `Active`
at the end, and no serial order of the calls explains it. -/
theorem decommissioned_node_active_again : ∃ (s₀ s₁ s : Calls Bool)
    (l₁ l₂ : List (Bool × EngineSig.Ev)),
    (deployments fleetId upgradeAndDecommission).init s₀ ∧
    (deployments fleetId upgradeAndDecommission).Run s₀ l₁ s₁ ∧
    (deployments fleetId upgradeAndDecommission).Run s₁ l₂ s ∧
    (∀ b, ∃ run, (s.thread b).rest = .ret (.ok run)) ∧
    stored fleetId s₁.world = some (.decommissioned, ⟨"2.0.14"⟩) ∧
    stored fleetId s.world = some (.active, ⟨"2.1.0"⟩) ∧
    ¬ Serializable fleetId upgradeAndDecommission s₀.world s := by
  obtain ⟨l₁, h₁⟩ := run_bothDecommissioned
  obtain ⟨l₂, h₂⟩ := run_bothUpgraded
  refine ⟨bothStarting, bothDecommissioned, bothUpgraded, l₁, l₂, ⟨trivial, fun _ => rfl⟩, h₁, h₂, ?_,
    rfl, rfl, not_serializable_bothUpgraded⟩
  intro b
  cases b with
  | false => exact ⟨_, rfl⟩
  | true => exact ⟨_, rfl⟩

/-- The same two calls one after the other: a fresh run. -/
def upgradeAlone : Outcome EngineSig EngineState (Except CoreError DeploymentRun) :=
  (callOf false).runWith okPorts activeFleet

def decommissionAfter : Outcome EngineSig EngineState (Except CoreError DeploymentRun) :=
  (callOf true).runWith okPorts upgradeAlone.world

theorem serializable_of_fresh_upgrade_decommission : ∃ s : Calls Bool,
    (∀ b, ∃ run, (s.thread b).rest = .ret (.ok run)) ∧
    Serializable fleetId upgradeAndDecommission activeFleet s := by
  let s₁ := bothStarting.advance false upgradeAlone.trace (.ret upgradeAlone.val) upgradeAlone.world
  let s₂ := s₁.advance true decommissionAfter.trace (.ret decommissionAfter.val)
    decommissionAfter.world
  have h₁ : ((deployments fleetId upgradeAndDecommission).Guarded (Fresh fleetId)).Run bothStarting
      (upgradeAlone.trace.map (Prod.mk false)) s₁ :=
    fresh_of_alone rfl (exec_runWith okPorts (callOf false) activeFleet)
      (Env.accepts_runWith okPorts_allowed _ _) (by decide)
  have h₂ : ((deployments fleetId upgradeAndDecommission).Guarded (Fresh fleetId)).Run s₁
      (decommissionAfter.trace.map (Prod.mk true)) s₂ :=
    fresh_of_alone (PoolState.advance_of_ne _ (by decide) ..)
      (exec_runWith okPorts (callOf true) upgradeAlone.world)
      (Env.accepts_runWith okPorts_allowed _ _) (by decide)
  have hok : ∀ b, ∃ run, (s₂.thread b).rest = .ret (.ok run) := by
    intro b
    cases b with
    | false => exact ⟨_, rfl⟩
    | true => exact ⟨_, rfl⟩
  have hdone : ∀ b, ∃ r, (s₂.thread b).rest = .ret r := by
    intro b
    obtain ⟨run, h⟩ := hok b
    exact ⟨.ok run, h⟩
  exact ⟨s₂, hok, (serializable_of_fresh ⟨trivial, fun _ => rfl⟩ h₁ h₂ hdone).1⟩

end ValidatorForge.Infra
