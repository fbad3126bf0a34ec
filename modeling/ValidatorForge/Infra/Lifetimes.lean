import ValidatorForge.Infra.Concurrent
import ValidatorForge.Infra.Records

/-!
# The history of runs

What the run records say of the calls that made them.

* `records_survive`: if all run ids are taken in one lifetime of the engine, every
  call's record is kept under an id of its own, and found by it, in both
  repositories and through restarts.
* `id_taken_again`, `record_overwritten`: without that, the first run after a
  restart takes the id of the first run ever, and its record replaces that one's.
* `storedRuns_reachable`: one engine over the in-memory repository, at every moment.
-/
namespace ValidatorForge.Infra

open Interaction ValidatorForge.Types ValidatorForge.Core ValidatorForge.Core.OpsEngine Prog
  ValidatorForge.Resilience

section Survive
variable {W : Type} {E : Env EngineSig W} {ι : Type} [DecidableEq ι]

/-- The history holds what the calls saved: no two calls share an id, every call's
last record is there, and the id a call returned leads to it. -/
structure KeepsRecords (M : RunStore E)
    (s : PoolState EngineSig ι W (Except CoreError DeploymentRun)) : Prop where
  distinct : ∀ i j, i ≠ j → ∀ p ∈ savedRuns (s.thread i).trace,
    ∀ q ∈ savedRuns (s.thread j).trace, p.1.id ≠ q.1.id
  kept : ∀ i run, lastRun (s.thread i).trace = some run → run ∈ M.records s.world
  found : ∀ i run, (s.thread i).rest = .ret (.ok run) →
    ∃ last, lastRun (s.thread i).trace = some last ∧
      ∀ r w', E (.getRun run.id) s.world r w' → r = .ok (some last)

omit [DecidableEq ι] in
/-- A call that returned `Ok run` saved `run` last. -/
theorem lastRun_of_ok {node : ι → NodeId} {kind : ι → DeploymentKind}
    {s : PoolState EngineSig ι W (Except CoreError DeploymentRun)}
    (h : Threads (deployCall node kind) s) {i : ι} {run : DeploymentRun}
    (hi : (s.thread i).rest = .ret (.ok run)) : lastRun (s.thread i).trace = some run := by
  have hx := h i
  rw [hi, ← exec_iff_after] at hx
  rcases startDeployment_cases hx with ⟨e, -, he⟩ | ⟨nd, sp, lt, bt, hl, htr, hd⟩
  · cases he
  obtain ⟨m, hc⟩ := deploy_completed hl hd
  rw [htr]
  exact Option.map_eq_some_iff.2 ⟨_, hc.lastRun, rfl⟩

omit [DecidableEq ι] in
theorem RecordInv.keepsRecords [Fintype ι] {M : RunStore E} {life : ι → Nat} {node : ι → NodeId}
    {kind : ι → DeploymentKind} {log : List ι}
    {s : PoolState EngineSig ι W (Except CoreError DeploymentRun) × Nat}
    (hcard : Fintype.card ι ≤ UInt64.size) (h : RecordInv M life node kind log s) :
    KeepsRecords M s.1 where
  distinct i j hij p hp q hq hid := hij (h.call_of_run hcard hp hq hid)
  kept i run hrun := (h.records run).2 ⟨i, hrun⟩
  found i run hi := by
    have hlast := lastRun_of_ok h.threads hi
    refine ⟨run, hlast, fun r w' he => ?_⟩
    obtain ⟨a, rfl, hsome, hnone⟩ := M.get he
    cases a with
    | none => exact absurd rfl (hnone rfl run ((h.records run).2 ⟨i, hlast⟩))
    | some x =>
      obtain ⟨hx, hid⟩ := hsome x rfl
      obtain ⟨j, hj⟩ := (h.records x).1 hx
      -- a record with the id of `run` is of the same call
      obtain ⟨p, hp, rfl⟩ := mem_of_lastRun hj
      obtain ⟨q, hq, rfl⟩ := mem_of_lastRun hlast
      obtain rfl := h.call_of_run hcard hp hq hid
      rw [← hj, hlast]

/-- The first id taken in a second lifetime is the first id of all. -/
theorem id_taken_again [Fintype ι] {M : RunStore E} {life : ι → Nat} {node : ι → NodeId}
    {kind : ι → DeploymentKind} {i : ι} {n : UInt64}
    {s₀ s s' : PoolState EngineSig ι W (Except CoreError DeploymentRun) × Nat}
    {ls : List (Option (ι × EngineSig.Ev))} (hcard : Fintype.card ι ≤ UInt64.size)
    (h₀ : (lifetimes M life node kind).init s₀)
    (hr : ((lifetimes M life node kind).Guarded (OneLifetime life)).Run s₀ ls s)
    (hs : (lifetimes M life node kind).step s (some (i, ⟨.nextRun, n⟩)) s')
    (hno : ¬ OneLifetime life s (some (i, ⟨.nextRun, n⟩))) :
    ∃ j, j ≠ i ∧ n ∈ ids (s.1.thread j).trace := by
  obtain ⟨log, h⟩ := recordInv_run hcard h₀ hr
  obtain ⟨hcur, ⟨k, w', -, he, -⟩, -⟩ := hs
  obtain ⟨j, hj, hlife⟩ : ∃ j ∈ log, life j ≠ life i := by
    by_contra hall
    refine hno fun e hl _ j hids => ?_
    cases hl
    obtain ⟨m, hm⟩ := List.exists_mem_of_ne_nil _ hids
    obtain ⟨b, hb, -⟩ := (h.taken j m).1 hm
    by_contra hne
    exact hall ⟨j, List.mem_of_getElem? hb, hne⟩
  have hother : ∀ a ∈ log, life a ≠ life i := fun a ha => by
    rw [h.one a ha j hj]
    exact hlife
  have hnone : (log.filter fun a => life a = s.2) = [] := by
    rw [List.filter_eq_nil_iff]
    intro a ha
    have hne : life a ≠ s.2 := fun heq => hother a ha (heq.trans hcur.symm)
    simp [hne]
  have hn : n = UInt64.ofNat (1 + 0) := by
    have hcount := h.counter
    rw [hnone] at hcount
    exact (M.next he).1.trans hcount
  obtain ⟨a, ha⟩ : ∃ a, log[0]? = some a :=
    ⟨_, List.getElem?_eq_getElem (List.length_pos_of_mem hj)⟩
  refine ⟨a, fun heq => hother a (List.mem_of_getElem? ha) (by rw [heq]), ?_⟩
  exact (h.taken a n).2 ⟨0, ha, hn⟩

/-- The calls of one lifetime. -/
theorem run_lifetimes {M : RunStore E} (life : ι → Nat) {node : ι → NodeId}
    {kind : ι → DeploymentKind} {c : Nat}
    {t t' : PoolState EngineSig ι W (Except CoreError DeploymentRun)}
    {ls : List (ι × EngineSig.Ev)} (hlife : ∀ e ∈ ls, life e.1 = c)
    (h : (engineCalls M node kind).Run t ls t') :
    (lifetimes M life node kind).Run (t, c) (ls.map some) (t', c) := by
  induction h with
  | nil => exact .nil _
  | @cons t t₁ t₂ e ls hs _ ih =>
    have hstep : (lifetimes M life node kind).step (t, c) (some e) (t₁, c) :=
      ⟨hlife e (List.mem_cons_self ..), hs, rfl⟩
    exact .cons hstep (ih fun e he => hlife e (List.mem_cons_of_mem _ he))

/-- Calls of one lifetime, and then a restart. -/
theorem run_restarted {M : RunStore E} {node : ι → NodeId} {kind : ι → DeploymentKind}
    {t t' : PoolState EngineSig ι W (Except CoreError DeploymentRun)}
    {ls : List (ι × EngineSig.Ev)} (h : (engineCalls M node kind).Run t ls t') :
    ((lifetimes M (fun _ => 0) node kind).Guarded (OneLifetime fun _ => 0)).Run (t, 0)
      (ls.map some ++ [none]) ({ t' with world := M.restart t'.world }, 1) := by
  have hcalls := run_lifetimes (fun _ => 0) (fun _ _ => rfl) h
  have hstop : (lifetimes M (fun _ => 0) node kind).step (t', 0) none
      ({ t' with world := M.restart t'.world }, 1) := rfl
  exact (hcalls.append (.cons hstop (.nil _))).guard fun _ _ _ _ _ _ _ => rfl

end Survive

/-! ## Two calls on one node -/

/-- The upgrade runs to its end. -/
def upgraded : Calls Bool :=
  bothStarting.advance false upgradeAlone.trace (.ret upgradeAlone.val) upgradeAlone.world

theorem run_upgraded : (engineCalls memoryStore (fun _ => fleetId) upgradeAndDecommission).Run
    bothStarting (upgradeAlone.trace.map (Prod.mk false)) upgraded :=
  run_after ((exec_iff_after ..).1 (exec_runWith okPorts (callOf false) activeFleet))
    (Env.accepts_runWith okPorts_allowed _ _) (by decide)

/-- And then the decommissioning, in the same lifetime. -/
def upgradedThenDecommissioned : Calls Bool :=
  upgraded.advance true decommissionAfter.trace (.ret decommissionAfter.val) decommissionAfter.world

theorem run_upgradedThenDecommissioned :
    (engineCalls memoryStore (fun _ => fleetId) upgradeAndDecommission).Run upgraded
      (decommissionAfter.trace.map (Prod.mk true)) upgradedThenDecommissioned := by
  refine run_after ?_ (Env.accepts_runWith okPorts_allowed _ _) (by decide)
  have hrest : (upgraded.thread true).rest = callOf true := by
    unfold upgraded
    rw [PoolState.advance_of_ne _ (by decide)]
    rfl
  rw [hrest]
  exact (exec_iff_after ..).1 (exec_runWith okPorts (callOf true) upgradeAlone.world)

/-- The engine is restarted after the upgrade. -/
def restarted : Calls Bool := { upgraded with world := memoryStore.restart upgraded.world }

def decommissionRestarted : Outcome EngineSig EngineState (Except CoreError DeploymentRun) :=
  (callOf true).runWith okPorts restarted.world

def restartedThenDecommissioned : Calls Bool :=
  restarted.advance true decommissionRestarted.trace (.ret decommissionRestarted.val)
    decommissionRestarted.world

theorem run_restartedThenDecommissioned :
    (engineCalls memoryStore (fun _ => fleetId) upgradeAndDecommission).Run restarted
      (decommissionRestarted.trace.map (Prod.mk true)) restartedThenDecommissioned := by
  refine run_after ?_ (Env.accepts_runWith okPorts_allowed _ _) (by decide)
  have hrest : (restarted.thread true).rest = callOf true := by
    unfold restarted upgraded
    rw [PoolState.advance_of_ne _ (by decide)]
    rfl
  rw [hrest]
  exact (exec_iff_after ..).1 (exec_runWith okPorts (callOf true) restarted.world)

/-! ## The same two calls over Postgres -/

/-- Open gates, a stopped clock and an agent that does what it is asked, over a database
that answers the rows of a table in the order in which they were inserted. -/
def pgPorts : Handler EngineSig (PgNodeRepository × UInt64)
  | .getNode id, w => (.ok ((w.1.nodes.find? fun row => row.id = id.raw).map NodeRow.payload), w)
  | .saveNode node, w => (.ok (), (w.1.saveNode node, w.2))
  | .listNodes, w => (.ok (w.1.nodes.map NodeRow.payload), w)
  | .getRun id, w =>
    (.ok ((w.1.deploymentRuns.find? fun row => row.id = id.fmt).map RunRow.payload), w)
  | .saveRun run, w =>
    if run.id.value.toNat ≤ U64_MAX then (.ok (), (w.1.saveRun run, w.2))
    else (.error (.internal ("encode: " ++ "number out of range")), w)
  | .listRuns limit, w =>
    let rows := w.1.deploymentRuns.mergeSort (Table.largestFirst RunRow.startedAt)
    (.ok ((rows.take (min limit I64_MAX)).map RunRow.payload), w)
  | .nextRun, w => (w.2, (w.1, w.2 + 1))
  | .limiterTryAcquire, w | .bulkheadTryAcquire, w => (true, w)
  | .bulkheadRelease, w | .publish _, w => ((), w)
  | .now, w => (0, w)
  | .agent c, w => (.ok c.okReply, w)
  | .advise .., w => ("", w)

theorem pgPorts_allowed (o : EngineOp) (w : PgNodeRepository × UInt64) :
    engineEnv pgRepo o w (pgPorts o w).1 (pgPorts o w).2 := by
  cases o with
  | getNode id =>
    exact ⟨⟨⟨_, Table.fetch_find? (fun row => row.id = id.raw) w.1.nodes, rfl⟩, rfl⟩, rfl⟩
  | getRun id =>
    exact ⟨⟨⟨_, Table.fetch_find? (fun row => row.id = id.fmt) w.1.deploymentRuns, rfl⟩, rfl⟩, rfl⟩
  | listNodes => exact ⟨⟨⟨_, .refl _, rfl⟩, rfl⟩, rfl⟩
  | listRuns limit =>
    exact ⟨⟨⟨_, List.mergeSort_perm _ (Table.largestFirst RunRow.startedAt),
      Table.pairwise_largestFirst RunRow.startedAt w.1.deploymentRuns, rfl⟩, rfl⟩, rfl⟩
  | saveRun run =>
    by_cases hfit : run.id.value.toNat ≤ U64_MAX
    · simp only [pgPorts, if_pos hfit]
      exact ⟨(pgRepo_saveRun hfit).2 ⟨rfl, rfl⟩, rfl⟩
    · simp only [pgPorts, if_neg hfit, engineEnv, pgRepo]
      exact ⟨⟨⟨_, rfl⟩, trivial⟩, trivial⟩
  | saveNode _ => exact ⟨⟨rfl, rfl⟩, rfl⟩
  | nextRun => exact ⟨rfl, rfl, rfl⟩
  | _ => rfl

abbrev PgCalls : Type :=
  PoolState EngineSig Bool (PgNodeRepository × UInt64) (Except CoreError DeploymentRun)

/-- An active node of the test fleet is stored. -/
def pgStarting : PgCalls :=
  ⟨(PgNodeRepository.empty.saveNode (fleetNode .active), 1), fun b => ⟨[], callOf b⟩⟩

def pgUpgrade : Outcome EngineSig (PgNodeRepository × UInt64) (Except CoreError DeploymentRun) :=
  (callOf false).runWith pgPorts pgStarting.world

def pgDecommission :
    Outcome EngineSig (PgNodeRepository × UInt64) (Except CoreError DeploymentRun) :=
  (callOf true).runWith pgPorts pgUpgrade.world

/-- One call after the other. -/
def pgDecommissioned : PgCalls :=
  (pgStarting.advance false pgUpgrade.trace (.ret pgUpgrade.val) pgUpgrade.world).advance true
    pgDecommission.trace (.ret pgDecommission.val) pgDecommission.world

theorem run_pgDecommissioned : ∃ ls,
    (engineCalls pgStore (fun _ => fleetId) upgradeAndDecommission).Run pgStarting ls
      pgDecommissioned := by
  have h₁ : (engineCalls pgStore (fun _ => fleetId) upgradeAndDecommission).Run pgStarting _
      (pgStarting.advance false pgUpgrade.trace (.ret pgUpgrade.val) pgUpgrade.world) :=
    run_after ((exec_iff_after ..).1 (exec_runWith pgPorts (callOf false) pgStarting.world))
      (Env.accepts_runWith pgPorts_allowed _ _) (by decide)
  refine ⟨_, h₁.append (run_after ?_ (Env.accepts_runWith pgPorts_allowed _ _) (by decide))⟩
  rw [PoolState.advance_of_ne _ (by decide)]
  exact (exec_iff_after ..).1 (exec_runWith pgPorts (callOf true) pgUpgrade.world)

/-! ## Across restarts -/

/-- **The run history survives restarts**, of either repository, as long as the
run ids are taken in one lifetime of the engine. -/
theorem records_survive {ι : Type} [DecidableEq ι] [Fintype ι]
    (hcard : Fintype.card ι ≤ UInt64.size) (life : ι → Nat) (node : ι → NodeId)
    (kind : ι → DeploymentKind) :
    (∀ s₀ ls s, (lifetimes memoryStore life node kind).init s₀ →
      ((lifetimes memoryStore life node kind).Guarded (OneLifetime life)).Run s₀ ls s →
      KeepsRecords memoryStore s.1) ∧
    ∀ s₀ ls s, (lifetimes pgStore life node kind).init s₀ →
      ((lifetimes pgStore life node kind).Guarded (OneLifetime life)).Run s₀ ls s →
      KeepsRecords pgStore s.1 := by
  refine ⟨?_, ?_⟩
  · intro s₀ ls s h₀ hr
    obtain ⟨log, h⟩ := recordInv_run hcard h₀ hr
    exact h.keepsRecords hcard
  · intro s₀ ls s h₀ hr
    obtain ⟨log, h⟩ := recordInv_run hcard h₀ hr
    exact h.keepsRecords hcard

/-- Two calls in one lifetime, and then a restart: either repository keeps both records. -/
theorem records_survive_restart :
    KeepsRecords memoryStore { upgradedThenDecommissioned with
      world := memoryStore.restart upgradedThenDecommissioned.world } ∧
    KeepsRecords pgStore { pgDecommissioned with
      world := pgStore.restart pgDecommissioned.world } ∧
    upgradedThenDecommissioned.world.repo.runs.length = 2 ∧
    pgDecommissioned.world.1.deploymentRuns.length = 2 := by
  have h := records_survive (ι := Bool) (by rw [Fintype.card_bool]; decide) (fun _ => 0)
    (fun _ => fleetId) upgradeAndDecommission
  obtain ⟨ls, hpg⟩ := run_pgDecommissioned
  refine ⟨?_, ?_, rfl, by decide +kernel⟩
  · exact h.1 (bothStarting, 0) _ _ ⟨⟨⟨rfl, rfl⟩, fun _ => rfl⟩, rfl⟩
      (run_restarted (run_upgraded.append run_upgradedThenDecommissioned))
  · exact h.2 (pgStarting, 0) _ _ ⟨⟨⟨rfl, rfl⟩, fun _ => rfl⟩, rfl⟩ (run_restarted hpg)

/-- **The first run after a restart overwrites the first run.** Both calls return
`Ok` with one id; only the second record is left. -/
theorem record_overwritten : ∃ (s₀ s : Calls Bool × Nat) (ls : List (Option (Bool × EngineSig.Ev)))
    (run run' : DeploymentRun),
    (lifetimes memoryStore Bool.toNat (fun _ => fleetId) upgradeAndDecommission).init s₀ ∧
    (lifetimes memoryStore Bool.toNat (fun _ => fleetId) upgradeAndDecommission).Run s₀ ls s ∧
    (s.1.thread false).rest = .ret (.ok run) ∧ (s.1.thread true).rest = .ret (.ok run') ∧
    run.id = run'.id ∧ run.kind ≠ run'.kind ∧ s.1.world.repo.runs = [run'] ∧
    ¬ KeepsRecords memoryStore s.1 := by
  obtain ⟨run, hr, hid, hkind⟩ : ∃ run, upgradeAlone.val = .ok run ∧ run.id = runIdOf 1 ∧
      run.kind = .upgrade ⟨"2.1.0"⟩ := ⟨_, rfl, rfl, rfl⟩
  obtain ⟨run', hr', hid', hkind', hruns⟩ : ∃ run', decommissionRestarted.val = .ok run' ∧
      run'.id = runIdOf 1 ∧ run'.kind = .decommission ∧
      decommissionRestarted.world.repo.runs = [run'] := ⟨_, rfl, rfl, rfl, rfl⟩
  obtain ⟨p, l, hp, hpid⟩ : ∃ p l, savedRuns upgradeAlone.trace = p :: l ∧ p.1.id = runIdOf 1 :=
    ⟨_, _, rfl, rfl⟩
  obtain ⟨q, l', hq, hqid⟩ : ∃ q l, savedRuns decommissionRestarted.trace = q :: l ∧
      q.1.id = runIdOf 1 := ⟨_, _, rfl, rfl⟩
  have hfalse : restartedThenDecommissioned.thread false =
      ⟨upgradeAlone.trace, .ret upgradeAlone.val⟩ := by
    unfold restartedThenDecommissioned restarted upgraded
    rw [PoolState.advance_of_ne _ (by decide), PoolState.advance_self]
    rfl
  have htrue : restartedThenDecommissioned.thread true =
      ⟨decommissionRestarted.trace, .ret decommissionRestarted.val⟩ := by
    unfold restartedThenDecommissioned restarted upgraded
    rw [PoolState.advance_self, PoolState.advance_of_ne _ (by decide)]
    rfl
  have hstop : (lifetimes memoryStore Bool.toNat (fun _ => fleetId) upgradeAndDecommission).step
      (upgraded, 0) none (restarted, 1) := rfl
  refine ⟨(bothStarting, 0), (restartedThenDecommissioned, 1), _, run, run',
    ⟨⟨⟨rfl, rfl⟩, fun _ => rfl⟩, rfl⟩,
    (run_lifetimes Bool.toNat ?_ run_upgraded).append (.cons hstop
      (run_lifetimes Bool.toNat ?_ run_restartedThenDecommissioned)), ?_, ?_, hid.trans hid'.symm, ?_, hruns, ?_⟩
  · intro e he
    obtain ⟨o, -, rfl⟩ := List.mem_map.1 he
    rfl
  · intro e he
    obtain ⟨o, -, rfl⟩ := List.mem_map.1 he
    rfl
  · rw [hfalse, hr]
  · rw [htrue, hr']
  · rw [hkind, hkind']
    simp
  · intro h
    refine h.distinct false true (by decide) p ?_ q ?_ (hpid.trans hqid.symm)
    · rw [hfalse, hp]
      exact List.mem_cons_self ..
    · rw [htrue, hq]
      exact List.mem_cons_self ..

/-! ## One engine -/

section OneEngine
variable {ι : Type} [DecidableEq ι]

/-- The stored runs: ids differ, the runs are the last records of the calls that
saved one, each of one call only, and each is the record of its call's deployment. -/
structure StoredRuns (node : ι → NodeId) (kind : ι → DeploymentKind) (s : Calls ι) : Prop where
  distinct : (s.world.repo.runs.map DeploymentRun.id).Nodup
  stored : ∀ run, run ∈ s.world.repo.runs ↔ ∃ i, lastRun (s.thread i).trace = some run
  own : ∀ i j run, lastRun (s.thread i).trace = some run → lastRun (s.thread j).trace = some run →
    i = j
  record : ∀ i run, lastRun (s.thread i).trace = some run →
    ∃ nd n t₀, nd.id = node i ∧ Record nd (kind i) n t₀ run

/-- **The stored runs at every moment**, whatever the agent answers and however the
calls are interleaved. -/
theorem storedRuns_reachable [Fintype ι] (hcard : Fintype.card ι < UInt64.size) (node : ι → NodeId)
    (kind : ι → DeploymentKind) {s : Calls ι}
    (h : (engineCalls memoryStore node kind).Reachable s) : StoredRuns node kind s := by
  obtain ⟨s₀, ls, h₀, hr⟩ := id h
  have hlife := run_lifetimes (fun _ => 0) (fun _ _ => rfl) hr
  obtain ⟨log, hI⟩ := recordInv_run hcard.le ⟨h₀, rfl⟩ (hlife.guard fun _ _ _ _ _ _ _ => rfl)
  refine ⟨s.world.repo.nodup, hI.records, fun i j run hi hj => ?_, fun i run hi => ?_⟩
  · obtain ⟨p, hp, hpr⟩ := mem_of_lastRun hi
    obtain ⟨q, hq, hqr⟩ := mem_of_lastRun hj
    exact hI.call_of_run hcard.le hp hq (by rw [hpr, hqr])
  · obtain ⟨p, hp, rfl⟩ := mem_of_lastRun hi
    obtain ⟨nd, n, t₀, hread, -, hrec⟩ := record_of_saved (pool_after h) hp
    obtain ⟨w, w', he, -⟩ := pool_answered h i _ hread
    refine ⟨nd, n, t₀, ?_, hrec p hp⟩
    exact InMemoryNodeRepository.id_of_getNode (Except.ok.inj he).symm

/-- Two calls made: two runs are stored. -/
theorem storedRuns_reachable_two_calls :
    StoredRuns (fun _ => fleetId) upgradeAndDecommission upgradedThenDecommissioned ∧
    upgradedThenDecommissioned.world.repo.runs.length = 2 := by
  refine ⟨storedRuns_reachable (by rw [Fintype.card_bool]; decide) _ _ ?_, rfl⟩
  exact ⟨bothStarting, _, ⟨⟨rfl, rfl⟩, fun _ => rfl⟩,
    run_upgraded.append run_upgradedThenDecommissioned⟩

end OneEngine

end ValidatorForge.Infra
