import ValidatorForge.Infra.Repo
import ValidatorForge.Lib.Table
import ValidatorForge.Resilience.Retry

/-!
# The Postgres repository

crates/validatorforge-infra/src/pg.rs and migrations/0001_init.sql. A table is its
rows, no two with the same primary key; a payload column holds the value it
encodes. Where SQL leaves the answer open (the row an unordered SELECT finds
first, the order among equal sort keys) the environment may give any of them.
`memRepo` and `pgRepo` answer the six calls of the repository port; `memRepo` is
the repository part of `memoryEnv` (`memRepo_iff`), and `engineEnv` is an engine
over either.
-/
namespace ValidatorForge.Infra

open Interaction ValidatorForge.Types ValidatorForge.Core ValidatorForge.Resilience

/-- The calls of the `NodeRepository` trait.
mirrors crates/validatorforge-core/src/ports.rs:46-62 -/
inductive RepoOp where
  | saveNode (node : ValidatorNode)
  | getNode (id : NodeId)
  | listNodes
  | saveRun (run : DeploymentRun)
  | getRun (id : RunId)
  | listRuns (limit : Nat)

/-- The operation of the engine's ports that it is. -/
@[reducible] def RepoOp.engineOp : RepoOp → EngineOp
  | .saveNode node => .saveNode node
  | .getNode id => .getNode id
  | .listNodes => .listNodes
  | .saveRun run => .saveRun run
  | .getRun id => .getRun id
  | .listRuns limit => .listRuns limit

abbrev RepoSig : Sig where
  Op := RepoOp
  Resp o := o.engineOp.Resp

/-- mirrors crates/validatorforge-infra/src/repo.rs:32-68 -/
def memRepo : Env RepoSig InMemoryNodeRepository
  | .saveNode node, s, r, s' => r = .ok () ∧ s' = s.saveNode node
  | .getNode id, s, r, s' => r = .ok (s.getNode id) ∧ s' = s
  | .listNodes, s, r, s' => (∃ l, r = .ok l ∧ l.Perm s.listNodes) ∧ s' = s
  | .saveRun run, s, r, s' => r = .ok () ∧ s' = s.saveRun run
  | .getRun id, s, r, s' => r = .ok (s.getRun id) ∧ s' = s
  | .listRuns limit, s, r, s' => r = .ok (s.listRuns limit) ∧ s' = s

/-- The engine's in-memory environment answers the repository's calls so. -/
theorem memRepo_iff (o : RepoOp) (s s' : InMemoryNodeRepository) (n : UInt64)
    (r : RepoSig.Resp o) : memoryEnv o.engineOp ⟨s, n⟩ r ⟨s', n⟩ ↔ memRepo o s r s' := by
  cases o with
  | saveNode _ | saveRun _ | getNode _ | listNodes | getRun _ | listRuns _ =>
    simp only [memoryEnv, memRepo, EngineState.mk.injEq, and_true]

/-! ## The tables -/

/-- `i64::MAX`. -/
def I64_MAX : Nat := 9223372036854775807

/-- mirrors crates/validatorforge-infra/migrations/0001_init.sql:3-8 -/
structure NodeRow where
  id : String
  payload : ValidatorNode
  updatedAt : DateTime

/-- mirrors crates/validatorforge-infra/migrations/0001_init.sql:12-22 -/
structure RunRow where
  id : String
  target : String
  status : String
  startedAt : DateTime
  payload : DeploymentRun

/-- mirrors crates/validatorforge-infra/src/pg.rs:54-70 -/
def NodeRow.ofNode (node : ValidatorNode) : NodeRow :=
  { id := node.id.raw, payload := node, updatedAt := node.updatedAt }

/-- `DO UPDATE SET payload = EXCLUDED.payload, updated_at = EXCLUDED.updated_at`. -/
def NodeRow.update (old new : NodeRow) : NodeRow :=
  { old with payload := new.payload, updatedAt := new.updatedAt }

/-- mirrors crates/validatorforge-infra/src/pg.rs:99-119 -/
def RunRow.ofRun (run : DeploymentRun) : RunRow :=
  { id := run.id.fmt, target := run.target.raw, status := run.status.asStr,
    startedAt := run.startedAt, payload := run }

/-- `DO UPDATE SET status = EXCLUDED.status, payload = EXCLUDED.payload`. -/
def RunRow.update (old new : RunRow) : RunRow :=
  { old with status := new.status, payload := new.payload }

/-- `PRIMARY KEY (id, started_at)`. -/
def RunRow.key (r : RunRow) : String × DateTime := (r.id, r.startedAt)

@[simp] theorem NodeRow.id_update (old new : NodeRow) : (old.update new).id = old.id := rfl

@[simp] theorem RunRow.key_update (old new : RunRow) : (old.update new).key = old.key := rfl

@[simp] theorem NodeRow.payload_update (old new : NodeRow) :
    (old.update new).payload = new.payload := rfl

@[simp] theorem RunRow.payload_update (old new : RunRow) :
    (old.update new).payload = new.payload := rfl

/-- A row with the id of `run` has its key, if the run it holds started with it. -/
theorem RunRow.key_iff {row : RunRow} {run : DeploymentRun}
    (hrow : row.key = (row.payload.id.fmt, row.payload.startedAt))
    (hstart : row.payload.id = run.id → row.payload.startedAt = run.startedAt) :
    row.key = (RunRow.ofRun run).key ↔ row.payload.id = run.id := by
  rw [hrow]
  show (_, _) = (run.id.fmt, run.startedAt) ↔ _
  rw [Prod.mk.injEq]
  constructor
  · intro heq
    exact RunId.fmt_injective heq.1
  · intro hid
    exact ⟨congrArg RunId.fmt hid, hstart hid⟩

/-- A payload is filed under its own id (and start). -/
structure PgNodeRepository where
  nodes : List NodeRow
  deploymentRuns : List RunRow
  nodesKey : (nodes.map NodeRow.id).Nodup
  runsKey : (deploymentRuns.map RunRow.key).Nodup
  nodeRows : ∀ row ∈ nodes, row.id = row.payload.id.raw
  runRows : ∀ row ∈ deploymentRuns, row.key = (row.payload.id.fmt, row.payload.startedAt)

namespace PgNodeRepository

/-- The migrated, empty database. -/
def empty : PgNodeRepository :=
  { nodes := []
    deploymentRuns := []
    nodesKey := by simp
    runsKey := by simp
    nodeRows := by simp
    runRows := by simp }

/-- mirrors crates/validatorforge-infra/src/pg.rs:56-71 -/
def saveNode (s : PgNodeRepository) (node : ValidatorNode) : PgNodeRepository :=
  { s with
    nodes := Table.upsert NodeRow.id NodeRow.update (.ofNode node) s.nodes
    nodesKey := Table.nodup_upsert (fun old h => (old.id_update _).trans h) s.nodesKey
    nodeRows := by
      intro row hrow
      rcases (Table.mem_upsert s.nodesKey).1 hrow with ⟨hmem, -⟩ | ⟨-, rfl⟩ | ⟨old, -, hkey, rfl⟩
      · exact s.nodeRows row hmem
      · rfl
      · rw [NodeRow.id_update, NodeRow.payload_update]
        exact hkey }

/-- mirrors crates/validatorforge-infra/src/pg.rs:100-119 -/
def saveRun (s : PgNodeRepository) (run : DeploymentRun) : PgNodeRepository :=
  { s with
    deploymentRuns := Table.upsert RunRow.key RunRow.update (.ofRun run) s.deploymentRuns
    runsKey := Table.nodup_upsert (fun old h => (old.key_update _).trans h) s.runsKey
    runRows := by
      intro row hrow
      rcases (Table.mem_upsert s.runsKey).1 hrow with ⟨hmem, -⟩ | ⟨-, rfl⟩ | ⟨old, -, hkey, rfl⟩
      · exact s.runRows row hmem
      · rfl
      · rw [RunRow.key_update, RunRow.payload_update]
        exact hkey }

/-- `ORDER BY started_at DESC`. -/
def Newest (rows : List RunRow) : Prop := rows.Pairwise fun a b => b.startedAt ≤ a.startedAt

end PgNodeRepository

/-- A `u128` above `u64::MAX` does not fit a JSON number, so such a run is not
encoded. `ORDER BY id` sorts by the database's collation.
mirrors crates/validatorforge-infra/src/pg.rs:54-149 -/
def pgRepo : Env RepoSig PgNodeRepository
  | .saveNode node, s, r, s' => r = .ok () ∧ s' = s.saveNode node
  | .getNode id, s, r, s' =>
    (∃ a, Table.Fetch (fun row => row.id = id.raw) s.nodes a ∧
      r = .ok (a.map NodeRow.payload)) ∧ s' = s
  | .listNodes, s, r, s' =>
    (∃ rows : List NodeRow, rows.Perm s.nodes ∧ r = .ok (rows.map NodeRow.payload)) ∧ s' = s
  | .saveRun run, s, r, s' =>
    if run.id.value.toNat ≤ U64_MAX then r = .ok () ∧ s' = s.saveRun run
    else (∃ e, r = .error (.internal ("encode: " ++ e))) ∧ s' = s
  | .getRun id, s, r, s' =>
    (∃ a, Table.Fetch (fun row => row.id = id.fmt) s.deploymentRuns a ∧
      r = .ok (a.map RunRow.payload)) ∧ s' = s
  | .listRuns limit, s, r, s' =>
    (∃ rows : List RunRow, rows.Perm s.deploymentRuns ∧ PgNodeRepository.Newest rows ∧
      r = .ok ((rows.take (min limit I64_MAX)).map RunRow.payload)) ∧ s' = s

theorem pgRepo_saveRun {run : DeploymentRun} (h : run.id.value.toNat ≤ U64_MAX)
    {s s' : PgNodeRepository} {r : RepoSig.Resp (.saveRun run)} :
    pgRepo (.saveRun run) s r s' ↔ r = .ok () ∧ s' = s.saveRun run := by
  simp only [pgRepo, if_pos h]

/-- An engine over the repository `R`: its calls go there, the run counter
counts (wrapping), everything else answers anything. -/
def engineEnv {W : Type} (R : Env RepoSig W) : Env EngineSig (W × UInt64)
  | .saveNode node, w, r, w' => R (.saveNode node) w.1 r w'.1 ∧ w'.2 = w.2
  | .getNode id, w, r, w' => R (.getNode id) w.1 r w'.1 ∧ w'.2 = w.2
  | .listNodes, w, r, w' => R .listNodes w.1 r w'.1 ∧ w'.2 = w.2
  | .saveRun run, w, r, w' => R (.saveRun run) w.1 r w'.1 ∧ w'.2 = w.2
  | .getRun id, w, r, w' => R (.getRun id) w.1 r w'.1 ∧ w'.2 = w.2
  | .listRuns limit, w, r, w' => R (.listRuns limit) w.1 r w'.1 ∧ w'.2 = w.2
  | .nextRun, w, r, w' => r = w.2 ∧ w'.1 = w.1 ∧ w'.2 = w.2 + 1
  | .limiterTryAcquire, w, _, w' | .bulkheadTryAcquire, w, _, w' | .bulkheadRelease, w, _, w'
  | .now, w, _, w' | .publish _, w, _, w' | .agent _, w, _, w' | .advise .., w, _, w' => w' = w

end ValidatorForge.Infra
