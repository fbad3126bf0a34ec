import ValidatorForge.Infra.Pg

/-!
# The two repositories answer alike

Both repositories hold, after any calls, the last node and the last run saved
under each id (`MemHolds`, `PgHolds`): the vector keeps one record an id, the
table one row for each id and start time, and these agree while runs saved under
one id start at the same time (`Lifetime`). What each call may answer follows
from that (`SameAnswer`), and with it `repositories_equivalent`.
-/
namespace ValidatorForge.Infra

open Interaction ValidatorForge.Types ValidatorForge.Core ValidatorForge.Resilience Table

namespace RepoOp

def savedNode : RepoOp → Option ValidatorNode
  | .saveNode node => some node
  | _ => none

def savedRun : RepoOp → Option DeploymentRun
  | .saveRun run => some run
  | _ => none

end RepoOp

/-- The nodes that the calls `h` save, in order. -/
def nodesSaved (h : List RepoOp) : List ValidatorNode := h.filterMap RepoOp.savedNode

/-- The runs that the calls `h` save, in order. -/
def runsSaved (h : List RepoOp) : List DeploymentRun := h.filterMap RepoOp.savedRun

/-- The node last saved under an id. -/
def nodeOf (h : List RepoOp) (id : NodeId) : Option ValidatorNode :=
  last ValidatorNode.id (nodesSaved h) id

/-- The run last saved under an id. -/
def runOf (h : List RepoOp) (id : RunId) : Option DeploymentRun :=
  last DeploymentRun.id (runsSaved h) id

/-- The number of distinct ids under which runs are saved. -/
def runCount (h : List RepoOp) : Nat := ((runsSaved h).map DeploymentRun.id).dedup.length

@[simp] theorem nodesSaved_append (h₁ h₂ : List RepoOp) :
    nodesSaved (h₁ ++ h₂) = nodesSaved h₁ ++ nodesSaved h₂ := List.filterMap_append ..

@[simp] theorem runsSaved_append (h₁ h₂ : List RepoOp) :
    runsSaved (h₁ ++ h₂) = runsSaved h₁ ++ runsSaved h₂ := List.filterMap_append ..

/-- What one engine lifetime guarantees of the runs it saves, and the sizes for
which the tables are made. -/
structure Lifetime (h : List RepoOp) : Prop where
  started : ∀ r ∈ runsSaved h, ∀ r' ∈ runsSaved h, r.id = r'.id → r.startedAt = r'.startedAt
  fits : ∀ r ∈ runsSaved h, r.id.value.toNat ≤ U64_MAX
  few : runCount h ≤ I64_MAX

/-! ## What the answers are -/

/-- A listing of the newest `limit` runs. -/
structure Listed (h : List RepoOp) (limit : Nat) (l : List DeploymentRun) : Prop where
  length : l.length = min limit (runCount h)
  stored : ∀ r ∈ l, runOf h r.id = some r
  distinct : (l.map DeploymentRun.id).Nodup
  sorted : l.Pairwise fun a b => b.startedAt ≤ a.startedAt
  newest : ∀ r, runOf h r.id = some r → r ∉ l → ∀ x ∈ l, r.startedAt ≤ x.startedAt

/-- Two listings that differ only among runs that started together: in their
order, and at the cut in which of them are listed. -/
structure UpToTies (h : List RepoOp) (limit : Nat) (l l' : List DeploymentRun) : Prop where
  times : l.map DeploymentRun.startedAt = l'.map DeploymentRun.startedAt
  above : ∀ r x, x ∈ l → x.startedAt < r.startedAt → (r ∈ l ↔ r ∈ l')
  uncut : runCount h ≤ limit → l.Perm l'

/-- After the calls `h`: `a` and `b` are the same answer to `o`. -/
def SameAnswer (h : List RepoOp) : (o : RepoOp) → RepoSig.Resp o → RepoSig.Resp o → Prop
  | .saveNode _, a, b | .saveRun _, a, b => a = .ok () ∧ b = .ok ()
  | .getNode id, a, b => a = .ok (nodeOf h id) ∧ b = .ok (nodeOf h id)
  | .getRun id, a, b => a = .ok (runOf h id) ∧ b = .ok (runOf h id)
  | .listNodes, a, b => ∃ l l', a = .ok l ∧ b = .ok l' ∧ l.Perm l'
  | .listRuns limit, a, b => ∃ l l', a = .ok l ∧ b = .ok l' ∧
      Listed h limit l ∧ Listed h limit l' ∧ UpToTies h limit l l'

/-- Calls with the answers of both repositories. -/
abbrev Joint : Type := List ((o : RepoOp) × RepoSig.Resp o × RepoSig.Resp o)

def Joint.ops (j : Joint) : List RepoOp := j.map fun e => e.1

def Joint.mem (j : Joint) : List RepoSig.Ev := j.map fun e => ⟨e.1, e.2.1⟩

def Joint.pg (j : Joint) : List RepoSig.Ev := j.map fun e => ⟨e.1, e.2.2⟩

/-! ## What each repository holds -/

structure MemHolds (h : List RepoOp) (s : InMemoryNodeRepository) : Prop where
  nodes : Holds ValidatorNode.id (nodesSaved h) s.listNodes
  runs : Holds DeploymentRun.id (runsSaved h) s.runs

structure PgHolds (h : List RepoOp) (s : PgNodeRepository) : Prop where
  nodes : Holds ValidatorNode.id (nodesSaved h) (s.nodes.map NodeRow.payload)
  runs : Holds DeploymentRun.id (runsSaved h) (s.deploymentRuns.map RunRow.payload)

/-! ## The vector and the map -/

theorem memHolds_new : MemHolds [] .new where
  nodes := holds_nil
  runs := holds_nil

theorem MemHolds.saveNode {h : List RepoOp} {s : InMemoryNodeRepository} (hs : MemHolds h s)
    (node : ValidatorNode) : MemHolds (h ++ [.saveNode node]) (s.saveNode node) where
  nodes := by
    refine ⟨InMemoryNodeRepository.nodup_listNodes _, fun n => ?_⟩
    rw [InMemoryNodeRepository.mem_listNodes, nodesSaved_append]
    show _ ↔ last _ (_ ++ [node]) _ = _
    rw [last_append]
    by_cases hid : node.id = n.id
    · rw [if_pos hid, ← hid, InMemoryNodeRepository.getNode_saveNode]
    · rw [if_neg hid, InMemoryNodeRepository.getNode_saveNode_ne s node (Ne.symm hid),
        ← InMemoryNodeRepository.mem_listNodes]
      exact hs.nodes.mem n
  runs := by
    rw [runsSaved_append]
    show Holds _ (_ ++ []) s.runs
    rw [List.append_nil]
    exact hs.runs

/-- A record is its own value. -/
theorem MemHolds.vals {h : List RepoOp} {s : InMemoryNodeRepository} (hs : MemHolds h s) :
    Holds DeploymentRun.id (runsSaved h) (s.runs.map fun r => r) := by
  rw [List.map_id']
  exact hs.runs

theorem MemHolds.saveRun {h : List RepoOp} {s : InMemoryNodeRepository} (hs : MemHolds h s)
    (run : DeploymentRun) : MemHolds (h ++ [.saveRun run]) (s.saveRun run) where
  nodes := by
    rw [nodesSaved_append]
    show Holds _ (_ ++ []) s.listNodes
    rw [List.append_nil]
    exact hs.nodes
  runs := by
    rw [runsSaved_append]
    show Holds _ (_ ++ [run]) (upsertRun run s.runs)
    rw [upsertRun_eq]
    exact hs.runs.replace run

theorem MemHolds.getNode {h : List RepoOp} {s : InMemoryNodeRepository} (hs : MemHolds h s)
    (id : NodeId) : s.getNode id = nodeOf h id := by
  unfold nodeOf
  cases hget : s.getNode id with
  | some n =>
    have hid := InMemoryNodeRepository.id_of_getNode hget
    have hlast := (hs.nodes.mem n).1 (InMemoryNodeRepository.mem_listNodes.2 (by rw [hid]; exact hget))
    rw [← hid]
    exact hlast.symm
  | none =>
    cases hlast : last ValidatorNode.id (nodesSaved h) id with
    | none => rfl
    | some n =>
      have hid := key_of_last hlast
      have hmem := InMemoryNodeRepository.mem_listNodes.1
        ((hs.nodes.mem n).2 (by rw [hid]; exact hlast))
      rw [hid, hget] at hmem
      cases hmem

theorem MemHolds.getRun {h : List RepoOp} {s : InMemoryNodeRepository} (hs : MemHolds h s)
    (id : RunId) : s.getRun id = runOf h id := by
  have hfetch := hs.vals.fetch (fun _ _ => Iff.rfl) (fetch_find? (fun r => r.id = id) s.runs)
  rw [Option.map_id'] at hfetch
  exact hfetch

/-! ## The tables -/

theorem pgHolds_empty : PgHolds [] .empty where
  nodes := holds_nil
  runs := holds_nil

theorem PgHolds.saveNode {h : List RepoOp} {s : PgNodeRepository} (hs : PgHolds h s)
    (node : ValidatorNode) : PgHolds (h ++ [.saveNode node]) (s.saveNode node) where
  nodes := by
    have hup : Holds ValidatorNode.id (nodesSaved h ++ [(NodeRow.ofNode node).payload])
        ((upsert NodeRow.id NodeRow.update (.ofNode node) s.nodes).map NodeRow.payload) := by
      refine hs.nodes.upsert (fun row hrow => ?_) fun _ => rfl
      rw [s.nodeRows row hrow]
      show row.payload.id.raw = node.id.raw ↔ row.payload.id = node.id
      exact ⟨fun heq => congrArg NodeId.mk heq, fun heq => congrArg NodeId.raw heq⟩
    rw [nodesSaved_append]
    exact hup
  runs := by
    rw [runsSaved_append]
    show Holds _ (_ ++ []) _
    rw [List.append_nil]
    exact hs.runs

theorem PgHolds.saveRun {h : List RepoOp} {s : PgNodeRepository} (hs : PgHolds h s)
    {run : DeploymentRun}
    (hstart : ∀ r ∈ runsSaved h, r.id = run.id → r.startedAt = run.startedAt) :
    PgHolds (h ++ [.saveRun run]) (s.saveRun run) where
  nodes := by
    rw [nodesSaved_append]
    show Holds _ (_ ++ []) _
    rw [List.append_nil]
    exact hs.nodes
  runs := by
    have hup : Holds DeploymentRun.id (runsSaved h ++ [(RunRow.ofRun run).payload])
        ((upsert RunRow.key RunRow.update (.ofRun run) s.deploymentRuns).map RunRow.payload) := by
      refine hs.runs.upsert (fun row hrow => ?_) fun _ => rfl
      have hsaved : row.payload ∈ runsSaved h :=
        mem_of_last ((hs.runs.mem _).1 (List.mem_map_of_mem hrow))
      exact RunRow.key_iff (s.runRows row hrow) (hstart _ hsaved)
    rw [runsSaved_append]
    exact hup

theorem PgHolds.getNode {h : List RepoOp} {s : PgNodeRepository} (hs : PgHolds h s) {id : NodeId}
    {a : Option NodeRow} (ha : Fetch (fun row => row.id = id.raw) s.nodes a) :
    a.map NodeRow.payload = nodeOf h id := by
  refine hs.nodes.fetch (fun row hrow => ?_) ha
  rw [s.nodeRows row hrow]
  exact ⟨fun heq => congrArg NodeId.mk heq, fun heq => congrArg NodeId.raw heq⟩

theorem PgHolds.getRun {h : List RepoOp} {s : PgNodeRepository} (hs : PgHolds h s) {id : RunId}
    {a : Option RunRow} (ha : Fetch (fun row => row.id = id.fmt) s.deploymentRuns a) :
    a.map RunRow.payload = runOf h id := by
  refine hs.runs.fetch (fun row hrow => ?_) ha
  have hid : row.id = row.payload.id.fmt := congrArg Prod.fst (s.runRows row hrow)
  rw [hid]
  exact ⟨fun heq => RunId.fmt_injective heq, fun heq => congrArg RunId.fmt heq⟩

/-! ## The listings -/

/-- The newest rows of a table that holds the saved runs. -/
theorem listed_of_top {h : List RepoOp} {s l : List DeploymentRun} {limit : Nat}
    (hs : Holds DeploymentRun.id (runsSaved h) s) (ht : Top DeploymentRun.startedAt limit s l) :
    Listed h limit l where
  length := by rw [ht.length, hs.length]; rfl
  stored r hr := (hs.mem r).1 (ht.subset r hr)
  distinct := by
    obtain ⟨rest, hperm, -⟩ := ht.cut
    have hnd := ((hperm.map DeploymentRun.id).nodup_iff).2 hs.nodup
    rw [List.map_append, List.nodup_append] at hnd
    exact hnd.1
  sorted := ht.sorted
  newest r hr hrl x hx := ht.le_of_not_mem ((hs.mem r).2 hr) hrl hx

theorem upToTies_of_top {h : List RepoOp} {s l l' : List DeploymentRun} {limit : Nat}
    (hs : Holds DeploymentRun.id (runsSaved h) s) (ht : Top DeploymentRun.startedAt limit s l)
    (ht' : Top DeploymentRun.startedAt limit s l') : UpToTies h limit l l' where
  times := ht.keys_eq ht'
  above r x hx hlt := by
    -- the oldest run of `l'` is no newer than `x`
    have hx' : ∃ y ∈ l', y.startedAt = x.startedAt := by
      have hmem : x.startedAt ∈ l'.map DeploymentRun.startedAt := by
        rw [← ht.keys_eq ht']
        exact List.mem_map_of_mem hx
      obtain ⟨y, hy, heq⟩ := List.mem_map.1 hmem
      exact ⟨y, hy, heq⟩
    obtain ⟨y, hy, hyx⟩ := hx'
    refine ⟨?_, ?_⟩
    · intro hr
      exact ht'.mem_of_lt (ht.subset r hr) hy (by rw [hyx]; exact hlt)
    · intro hr
      exact ht.mem_of_lt (ht'.subset r hr) hx hlt
  uncut hle := by
    have hlen : s.length ≤ limit := by rw [hs.length]; exact hle
    exact (ht.perm_of_le hlen).trans (ht'.perm_of_le hlen).symm

theorem top_listRuns (s : InMemoryNodeRepository) (limit : Nat) :
    Top DeploymentRun.startedAt limit s.runs (s.listRuns limit) :=
  top_take (List.mergeSort_perm _ _) (pairwise_largestFirst DeploymentRun.startedAt s.runs)

theorem PgHolds.listRuns {h : List RepoOp} {s : PgNodeRepository} (hs : PgHolds h s)
    (hfew : runCount h ≤ I64_MAX) (limit : Nat) {rows : List RunRow}
    (hperm : rows.Perm s.deploymentRuns) (hnew : PgNodeRepository.Newest rows) :
    Top DeploymentRun.startedAt limit (s.deploymentRuns.map RunRow.payload)
      ((rows.take (min limit I64_MAX)).map RunRow.payload) := by
  have hstart : ∀ row ∈ rows, row.startedAt = row.payload.startedAt := fun row hrow =>
    congrArg Prod.snd (s.runRows row (hperm.subset hrow))
  have hsorted : (rows.map RunRow.payload).Pairwise fun a b => b.startedAt ≤ a.startedAt := by
    rw [List.pairwise_map]
    refine hnew.imp_of_mem fun ha hb hle => ?_
    rw [← hstart _ ha, ← hstart _ hb]
    exact hle
  have htop : Top DeploymentRun.startedAt (min limit I64_MAX)
      (s.deploymentRuns.map RunRow.payload)
      ((rows.map RunRow.payload).take (min limit I64_MAX)) :=
    top_take (hperm.map RunRow.payload) hsorted
  rw [List.map_take]
  refine htop.limit_irrel ?_
  have hlen := hs.runs.length
  unfold runCount at hfew
  omega

/-! ## Every call -/

theorem Lifetime.left {h₁ h₂ : List RepoOp} (h : Lifetime (h₁ ++ h₂)) : Lifetime h₁ where
  started r hr r' hr' := by
    have hsub := fun {x} (hx : x ∈ runsSaved h₁) =>
      runsSaved_append h₁ h₂ ▸ List.mem_append_left (runsSaved h₂) hx
    exact h.started r (hsub hr) r' (hsub hr')
  fits r hr := h.fits r (by rw [runsSaved_append]; exact List.mem_append_left _ hr)
  few := by
    refine le_trans ?_ h.few
    unfold runCount
    rw [runsSaved_append, List.map_append]
    refine (List.subperm_of_subset (List.nodup_dedup _) fun id hid => ?_).length_le
    rw [List.mem_dedup] at hid ⊢
    exact List.mem_append_left _ hid

/-- The saved run is among those the calls save. -/
theorem mem_runsSaved (h : List RepoOp) (run : DeploymentRun) :
    run ∈ runsSaved (h ++ [.saveRun run]) := by
  rw [runsSaved_append]
  exact List.mem_append_right _ (List.mem_singleton.2 rfl)

/-- A call that saves nothing. -/
theorem MemHolds.read {h : List RepoOp} {s : InMemoryNodeRepository} (hs : MemHolds h s)
    {o : RepoOp} (hn : o.savedNode = none) (hr : o.savedRun = none) : MemHolds (h ++ [o]) s where
  nodes := by simpa [nodesSaved, hn] using hs.nodes
  runs := by simpa [runsSaved, hr] using hs.runs

theorem PgHolds.read {h : List RepoOp} {s : PgNodeRepository} (hs : PgHolds h s)
    {o : RepoOp} (hn : o.savedNode = none) (hr : o.savedRun = none) : PgHolds (h ++ [o]) s where
  nodes := by simpa [nodesSaved, hn] using hs.nodes
  runs := by simpa [runsSaved, hr] using hs.runs

theorem MemHolds.step {h : List RepoOp} {s s' : InMemoryNodeRepository} (hs : MemHolds h s)
    {o : RepoOp} {r : RepoSig.Resp o} (hst : memRepo o s r s') : MemHolds (h ++ [o]) s' := by
  cases o with
  | saveNode node =>
    obtain ⟨-, rfl⟩ := hst
    exact hs.saveNode node
  | saveRun run =>
    obtain ⟨-, rfl⟩ := hst
    exact hs.saveRun run
  | getNode _ | listNodes | getRun _ | listRuns _ =>
    obtain ⟨-, rfl⟩ := hst
    exact hs.read rfl rfl

theorem PgHolds.step {h : List RepoOp} {s s' : PgNodeRepository} (hs : PgHolds h s)
    {o : RepoOp} (hl : Lifetime (h ++ [o])) {r : RepoSig.Resp o} (hst : pgRepo o s r s') :
    PgHolds (h ++ [o]) s' := by
  cases o with
  | saveNode node =>
    obtain ⟨-, rfl⟩ := hst
    exact hs.saveNode node
  | saveRun run =>
    have hmem := mem_runsSaved h run
    obtain ⟨-, rfl⟩ := (pgRepo_saveRun (hl.fits run hmem)).1 hst
    refine hs.saveRun fun r hr hid => hl.started r ?_ run hmem hid
    rw [runsSaved_append]
    exact List.mem_append_left _ hr
  | getNode _ | listNodes | getRun _ | listRuns _ =>
    obtain ⟨-, rfl⟩ := hst
    exact hs.read rfl rfl

theorem MemHolds.run {tr : List RepoSig.Ev} {h : List RepoOp} {s s' : InMemoryNodeRepository}
    (hs : MemHolds h s) (hrun : memRepo.Accepts s tr s') :
    MemHolds (h ++ tr.map Sigma.fst) s' := by
  induction tr generalizing h s with
  | nil =>
    cases hrun
    simpa using hs
  | cons e tr ih =>
    obtain ⟨s₁, he, ht⟩ := hrun
    simpa using ih (hs.step he) ht

theorem PgHolds.run {tr : List RepoSig.Ev} {h : List RepoOp} {s s' : PgNodeRepository}
    (hs : PgHolds h s) (hl : Lifetime (h ++ tr.map Sigma.fst)) (hrun : pgRepo.Accepts s tr s') :
    PgHolds (h ++ tr.map Sigma.fst) s' := by
  induction tr generalizing h s with
  | nil =>
    cases hrun
    simpa using hs
  | cons e tr ih =>
    obtain ⟨s₁, he, ht⟩ := hrun
    rw [List.map_cons, List.append_cons] at hl ⊢
    exact ih (hs.step hl.left he) hl ht

/-- One call, answered by both. -/
theorem sameAnswer {h : List RepoOp} {s s' : InMemoryNodeRepository} {t t' : PgNodeRepository}
    (hm : MemHolds h s) (hp : PgHolds h t) {o : RepoOp} (hl : Lifetime (h ++ [o]))
    {a b : RepoSig.Resp o} (ha : memRepo o s a s') (hb : pgRepo o t b t') :
    SameAnswer h o a b := by
  cases o with
  | saveNode node => exact ⟨ha.1, hb.1⟩
  | saveRun run =>
    have hfit := hl.fits run (mem_runsSaved h run)
    exact ⟨ha.1, ((pgRepo_saveRun hfit).1 hb).1⟩
  | getNode id =>
    obtain ⟨⟨row, hrow, rfl⟩, -⟩ := hb
    obtain ⟨rfl, -⟩ := ha
    exact ⟨congrArg Except.ok (hm.getNode id), congrArg Except.ok (hp.getNode hrow)⟩
  | getRun id =>
    obtain ⟨⟨row, hrow, rfl⟩, -⟩ := hb
    obtain ⟨rfl, -⟩ := ha
    exact ⟨congrArg Except.ok (hm.getRun id), congrArg Except.ok (hp.getRun hrow)⟩
  | listNodes =>
    obtain ⟨⟨l, rfl, hl'⟩, -⟩ := ha
    obtain ⟨⟨rows, hrows, rfl⟩, -⟩ := hb
    have hsame := (hl'.trans (hm.nodes.perm hp.nodes)).trans
      (hrows.map NodeRow.payload).symm
    exact ⟨l, _, rfl, rfl, hsame⟩
  | listRuns limit =>
    obtain ⟨rfl, -⟩ := ha
    obtain ⟨⟨rows, hrows, hnew, rfl⟩, -⟩ := hb
    have htop := top_listRuns s limit
    have htop' := hp.listRuns hl.left.few limit hrows hnew
    have htop'' := htop'.perm (hp.runs.perm hm.runs)
    exact ⟨_, _, rfl, rfl, listed_of_top hm.runs htop, listed_of_top hp.runs htop',
      upToTies_of_top hm.runs htop htop''⟩

/-! ## Both always answer -/

theorem memRepo_answers (o : RepoOp) (s : InMemoryNodeRepository) :
    ∃ r s', memRepo o s r s' := by
  cases o with
  | listNodes => exact ⟨_, _, ⟨_, rfl, .refl _⟩, rfl⟩
  | saveNode _ | saveRun _ | getNode _ | getRun _ | listRuns _ => exact ⟨_, _, rfl, rfl⟩

theorem pgRepo_answers (o : RepoOp) (s : PgNodeRepository) : ∃ r s', pgRepo o s r s' := by
  cases o with
  | saveNode node => exact ⟨_, _, rfl, rfl⟩
  | saveRun run =>
    by_cases hfit : run.id.value.toNat ≤ U64_MAX
    · exact ⟨_, _, (pgRepo_saveRun hfit).2 ⟨rfl, rfl⟩⟩
    · refine ⟨.error (.internal ("encode: " ++ "")), s, ?_⟩
      simp only [pgRepo, if_neg hfit]
      exact ⟨⟨_, rfl⟩, trivial⟩
  | getNode id =>
    obtain ⟨a, ha⟩ := exists_fetch (fun row => row.id = id.raw) s.nodes
    exact ⟨_, _, ⟨a, ha, rfl⟩, rfl⟩
  | getRun id =>
    obtain ⟨a, ha⟩ := exists_fetch (fun row => row.id = id.fmt) s.deploymentRuns
    exact ⟨_, _, ⟨a, ha, rfl⟩, rfl⟩
  | listNodes => exact ⟨_, _, ⟨_, .refl _, rfl⟩, rfl⟩
  | listRuns limit =>
    exact ⟨_, _, ⟨_, List.mergeSort_perm _ (largestFirst RunRow.startedAt),
      pairwise_largestFirst RunRow.startedAt s.deploymentRuns, rfl⟩, rfl⟩

theorem exists_joint (ops : List RepoOp) (s : InMemoryNodeRepository) (t : PgNodeRepository) :
    ∃ (j : Joint) (s' : InMemoryNodeRepository) (t' : PgNodeRepository),
      j.ops = ops ∧ memRepo.Accepts s j.mem s' ∧ pgRepo.Accepts t j.pg t' := by
  induction ops generalizing s t with
  | nil => exact ⟨[], s, t, rfl, rfl, rfl⟩
  | cons o ops ih =>
    obtain ⟨a, s₁, ha⟩ := memRepo_answers o s
    obtain ⟨b, t₁, hb⟩ := pgRepo_answers o t
    obtain ⟨j, s', t', rfl, hs, ht⟩ := ih s₁ t₁
    exact ⟨⟨o, a, b⟩ :: j, s', t', rfl, ⟨s₁, ha, hs⟩, ⟨t₁, hb, ht⟩⟩

/-- **Interchangeable repositories.** Both repositories answer every sequence of
calls that keeps to `Lifetime`, and whatever they answer, every answer of one is
the answer of the other: the listing of nodes up to order, the listing of runs up
to ties, each the newest `limit` of the runs last saved. -/
theorem repositories_equivalent (ops : List RepoOp) (h : Lifetime ops) :
    (∃ (j : Joint) (s : InMemoryNodeRepository) (t : PgNodeRepository),
      j.ops = ops ∧ memRepo.Accepts .new j.mem s ∧ pgRepo.Accepts .empty j.pg t) ∧
    ∀ (j : Joint) (s : InMemoryNodeRepository) (t : PgNodeRepository), j.ops = ops →
      memRepo.Accepts .new j.mem s → pgRepo.Accepts .empty j.pg t →
      ∀ (pre post : Joint) o a b, j = pre ++ ⟨o, a, b⟩ :: post → SameAnswer pre.ops o a b := by
  refine ⟨exists_joint ops .new .empty, ?_⟩
  intro j s t hops hs ht pre post o a b hj
  subst hj
  have hlife : Lifetime (pre.ops ++ [o]) := by
    rw [← hops, Joint.ops, List.map_append, List.map_cons, List.append_cons] at h
    exact h.left
  rw [Joint.mem, List.map_append, Env.accepts_append] at hs
  rw [Joint.pg, List.map_append, Env.accepts_append] at ht
  obtain ⟨s₁, hs₁, s₂, hs₂, -⟩ := hs
  obtain ⟨t₁, ht₁, t₂, ht₂, -⟩ := ht
  have hmem : (pre.map fun e => (⟨e.1, e.2.1⟩ : RepoSig.Ev)).map Sigma.fst = pre.ops := by
    rw [List.map_map]
    rfl
  have hpg : (pre.map fun e => (⟨e.1, e.2.2⟩ : RepoSig.Ev)).map Sigma.fst = pre.ops := by
    rw [List.map_map]
    rfl
  have hm := memHolds_new.run hs₁
  rw [hmem] at hm
  have hp := pgHolds_empty.run (by rw [hpg]; exact hlife.left) ht₁
  rw [hpg] at hp
  exact sameAnswer hm hp hlife hs₂ ht₂

/-- A run of a provisioning, opened at time 0. -/
def provisionRun (id : BitVec 128) : DeploymentRun := .new ⟨id⟩ ⟨"eu-val-01"⟩ .provision 0

/-- Two runs opened, the first closed, and then listed and looked up. -/
def provisionCalls : List RepoOp :=
  [.saveRun (provisionRun 1), .saveRun (provisionRun 2),
    .saveRun ((provisionRun 1).finish .succeeded 5), .listRuns 1, .getRun ⟨1⟩]

/-- The two runs started together, so either may be the one listed. -/
theorem repositories_equivalent_provision :
    Lifetime provisionCalls ∧ ∃ (j : Joint) (s : InMemoryNodeRepository) (t : PgNodeRepository),
      j.ops = provisionCalls ∧ memRepo.Accepts .new j.mem s ∧ pgRepo.Accepts .empty j.pg t := by
  have hlife : Lifetime provisionCalls :=
    { started := by decide
      fits := by decide
      few := by decide }
  exact ⟨hlife, (repositories_equivalent provisionCalls hlife).1⟩

end ValidatorForge.Infra
