import Mathlib.Data.Fintype.Card
import ValidatorForge.Core.Record
import ValidatorForge.Infra.Pg
import ValidatorForge.Lib.Pool

/-!
# Run records across engine lifetimes

Any number of `start_deployment` calls over one repository, interleaved operation by
operation, each made in some lifetime of the engine: a restart starts the next
lifetime, whose calls go on where the repository is but count runs from 1 again
(`lifetimes`). A `RunStore` is what a repository has to do with run records;
`memoryStore` and `pgStore` are the two there are.

* `recordInv_run`: as long as all ids are taken in one lifetime, the ids taken are
  numbered in the order of `log`, and the repository holds the last record of every
  call and nothing else.
-/
namespace ValidatorForge.Infra

open Interaction ValidatorForge.Types ValidatorForge.Core ValidatorForge.Core.OpsEngine Prog
  ValidatorForge.Resilience

/-- The run records behind an engine and the counter that numbers runs. -/
structure RunStore {W : Type} (E : Env EngineSig W) where
  counter : W → UInt64
  records : W → List DeploymentRun
  /-- `OpsEngine::new` over the same repository. -/
  restart : W → W
  restart_counter : ∀ w, counter (restart w) = 1
  restart_records : ∀ w, records (restart w) = records w
  next : ∀ {w r w'}, E .nextRun w r w' → r = counter w ∧ counter w' = counter w + 1
  keep_counter : ∀ {o w r w'}, NoId o → E o w r w' → counter w' = counter w
  keep_records : ∀ {o w r w'}, (∀ run, o ≠ .saveRun run) → E o w r w' → records w' = records w
  save : ∀ {run w r w'}, E (.saveRun run) w r w' → run.id.value.toNat ≤ U64_MAX →
    (∀ x ∈ records w, x.id = run.id → x.startedAt = run.startedAt) →
    ∀ x, x ∈ records w' ↔ x = run ∨ x ∈ records w ∧ x.id ≠ run.id
  get : ∀ {id w r w'}, E (.getRun id) w r w' → ∃ a, r = .ok a ∧
    (∀ run, a = some run → run ∈ records w ∧ run.id = id) ∧
    (a = none → ∀ x ∈ records w, x.id ≠ id)

/-- mirrors crates/validatorforge-infra/src/repo.rs:47-59 and
crates/validatorforge-core/src/engine.rs:38-62 -/
def memoryStore : RunStore memoryEnv where
  counter w := w.nextRun
  records w := w.repo.runs
  restart w := { w with nextRun := 1 }
  restart_counter _ := rfl
  restart_records _ := rfl
  next h := by
    obtain ⟨rfl, rfl⟩ := h
    exact ⟨rfl, rfl⟩
  keep_counter {o w r w'} ho h := by
    cases o with
    | nextRun => exact absurd rfl ho
    | getNode _ | saveNode _ | listNodes | getRun _ | saveRun _ | listRuns _ =>
      obtain ⟨-, rfl⟩ := h
      rfl
    | _ => cases h; rfl
  keep_records {o w r w'} ho h := by
    cases o with
    | saveRun run => exact absurd rfl (ho run)
    | getNode _ | saveNode _ | listNodes | getRun _ | nextRun | listRuns _ =>
      obtain ⟨-, rfl⟩ := h
      rfl
    | _ => cases h; rfl
  save {run w r w'} h _ _ x := by
    obtain ⟨-, rfl⟩ := h
    show x ∈ upsertRun run w.repo.runs ↔ _
    rw [upsertRun_eq]
    exact Table.mem_replace w.repo.nodup
  get {id w r w'} h := by
    obtain ⟨rfl, -⟩ := h
    refine ⟨_, rfl, fun run hrun => ?_, fun hnone x hx => ?_⟩
    · exact ⟨List.mem_of_find?_eq_some hrun, by simpa using List.find?_some hrun⟩
    · simpa using List.find?_eq_none.1 hnone x hx

/-- mirrors crates/validatorforge-infra/src/pg.rs:99-133 and
crates/validatorforge-core/src/engine.rs:38-62 -/
def pgStore : RunStore (engineEnv pgRepo) where
  counter w := w.2
  records w := w.1.deploymentRuns.map RunRow.payload
  restart w := (w.1, 1)
  restart_counter _ := rfl
  restart_records _ := rfl
  next h := by
    obtain ⟨rfl, -, h⟩ := h
    exact ⟨rfl, h⟩
  keep_counter {o w r w'} ho h := by
    cases o with
    | nextRun => exact absurd rfl ho
    | getNode _ | saveNode _ | listNodes | getRun _ | saveRun _ | listRuns _ => exact h.2
    | _ => cases h; rfl
  keep_records {o w r w'} ho h := by
    cases o with
    | saveRun run => exact absurd rfl (ho run)
    | nextRun => rw [h.2.1]
    | saveNode node =>
      obtain ⟨⟨-, hw⟩, -⟩ := h
      rw [hw]
      rfl
    | getNode _ | listNodes | getRun _ | listRuns _ =>
      obtain ⟨⟨-, hw⟩, -⟩ := h
      rw [hw]
    | _ => cases h; rfl
  save {run w r w'} h hfit hstart x := by
    obtain ⟨hsave, -⟩ := h
    obtain ⟨-, hw⟩ := (pgRepo_saveRun hfit).1 hsave
    rw [hw]
    refine Table.mem_map_upsert w.1.runsKey (fun row hrow => ?_) fun _ => rfl
    exact RunRow.key_iff (w.1.runRows row hrow) (hstart _ (List.mem_map_of_mem hrow))
  get {id w r w'} h := by
    obtain ⟨⟨⟨a, ha, rfl⟩, -⟩, -⟩ := h
    have hid : ∀ row ∈ w.1.deploymentRuns, row.id = id.fmt ↔ row.payload.id = id := by
      intro row hrow
      have hrid : row.id = row.payload.id.fmt := congrArg Prod.fst (w.1.runRows row hrow)
      rw [hrid]
      exact ⟨fun heq => RunId.fmt_injective heq, fun heq => congrArg RunId.fmt heq⟩
    refine ⟨_, rfl, fun run hrun => ?_, fun hnone x hx => ?_⟩
    · rcases ha with ⟨row, hrow, hp, rfl⟩ | ⟨-, rfl⟩
      · cases hrun
        exact ⟨List.mem_map_of_mem hrow, (hid row hrow).1 hp⟩
      · cases hrun
    · rcases ha with ⟨row, hrow, hp, rfl⟩ | ⟨hno, -⟩
      · cases hnone
      · obtain ⟨row, hrow, rfl⟩ := List.mem_map.1 hx
        exact fun heq => hno row hrow ((hid row hrow).2 heq)

/-! ## Lifetimes -/

/-- The record of a call that was given to the repository last. -/
def lastRun (tr : List EngineSig.Ev) : Option DeploymentRun :=
  (savedRuns tr).getLast?.map Prod.fst

theorem lastRun_append (tr : List EngineSig.Ev) (e : EngineSig.Ev) :
    lastRun (tr ++ [e]) = ((savedRunOf e).map Prod.fst).or (lastRun tr) := by
  unfold lastRun
  rw [savedRuns_append, savedRuns_cons, savedRuns_nil, List.append_nil]
  cases savedRunOf e with
  | none => simp
  | some p => simp

theorem mem_of_lastRun {tr : List EngineSig.Ev} {run : DeploymentRun} (h : lastRun tr = some run) :
    ∃ p ∈ savedRuns tr, p.1 = run := by
  obtain ⟨p, hp, hrun⟩ := Option.map_eq_some_iff.1 h
  exact ⟨p, List.mem_of_getLast? hp, hrun⟩

section System
variable {W : Type} {E : Env EngineSig W} (M : RunStore E) {ι : Type} [DecidableEq ι]
  (life : ι → Nat) (node : ι → NodeId) (kind : ι → DeploymentKind)

/-- `start_deployment(node i, kind i)`. -/
def deployCall (i : ι) : Prog EngineSig (Except CoreError DeploymentRun) :=
  (startDeployment (node i) (kind i)).run

/-- The calls on one engine: its counter is new and no run is recorded. -/
def engineCalls : LTS (PoolState EngineSig ι W (Except CoreError DeploymentRun))
    (ι × EngineSig.Ev) :=
  pool E (deployCall node kind) fun w => M.counter w = 1 ∧ M.records w = []

/-- Call `i` is made in lifetime `life i`; the label `none` is a restart. -/
def lifetimes : LTS (PoolState EngineSig ι W (Except CoreError DeploymentRun) × Nat)
    (Option (ι × EngineSig.Ev)) where
  init s := (engineCalls M node kind).init s.1 ∧ s.2 = 0
  step s l s' := match l with
    | none => s' = ({ s.1 with world := M.restart s.1.world }, s.2 + 1)
    | some e => life e.1 = s.2 ∧ (engineCalls M node kind).step s.1 e s'.1 ∧ s'.2 = s.2

/-- An id is only taken by a call of the lifetime in which all others were taken. -/
def OneLifetime (s : PoolState EngineSig ι W (Except CoreError DeploymentRun) × Nat)
    (l : Option (ι × EngineSig.Ev)) : Prop :=
  ∀ e, l = some e → e.2.1 = .nextRun → ∀ j, ids (s.1.thread j).trace ≠ [] → life j = life e.1

/-! ## The invariant -/

/-- `log` is the calls that took an id, in order. -/
structure RecordInv (log : List ι)
    (s : PoolState EngineSig ι W (Except CoreError DeploymentRun) × Nat) : Prop where
  threads : Threads (deployCall node kind) s.1
  nodup : log.Nodup
  taken : ∀ i n, n ∈ ids (s.1.thread i).trace ↔
    ∃ k : Nat, log[k]? = some i ∧ n = UInt64.ofNat (1 + k)
  past : ∀ i ∈ log, life i ≤ s.2
  one : ∀ i ∈ log, ∀ j ∈ log, life i = life j
  counter : M.counter s.1.world =
    UInt64.ofNat (1 + (log.filter fun i => life i = s.2).length)
  records : ∀ run, run ∈ M.records s.1.world ↔ ∃ i, lastRun (s.1.thread i).trace = some run

end System

theorem runIdOf_injective {n m : UInt64} (h : runIdOf n = runIdOf m) : n = m := by
  have hval := congrArg (fun r => r.value.toNat) h
  have hn := n.toNat_lt
  have hm := m.toNat_lt
  simp only [runIdOf, BitVec.toNat_ofNat] at hval
  refine UInt64.toNat_inj.1 ?_
  omega

theorem runIdOf_le (n : UInt64) : (runIdOf n).value.toNat ≤ U64_MAX := by
  have hn := n.toNat_lt
  simp only [runIdOf, BitVec.toNat_ofNat, U64_MAX]
  omega

/-- Different positions have different ids, as long as there are at most 2^64. -/
theorem ofNat_injective {a b : Nat} (ha : a < UInt64.size) (hb : b < UInt64.size)
    (h : UInt64.ofNat (1 + a) = UInt64.ofNat (1 + b)) : a = b := by
  have hval := congrArg UInt64.toNat h
  simp only [UInt64.toNat_ofNat', UInt64.size] at hval ha hb
  omega

theorem getElem?_snoc {α : Type} {l : List α} {a b : α} {k : Nat} :
    (l ++ [a])[k]? = some b ↔ l[k]? = some b ∨ k = l.length ∧ a = b := by
  rcases Nat.lt_trichotomy k l.length with hk | rfl | hk
  · rw [List.getElem?_append_left hk]
    refine ⟨?_, ?_⟩
    · exact .inl
    · rintro (h | ⟨rfl, -⟩)
      · exact h
      · omega
  · simp
  · have hlen : (l ++ [a]).length ≤ k := by
      rw [List.length_append]
      exact hk
    rw [List.getElem?_eq_none hlen, List.getElem?_eq_none hk.le]
    refine ⟨?_, ?_⟩
    · intro h
      cases h
    · rintro (h | ⟨rfl, -⟩)
      · cases h
      · omega

section Steps
variable {W : Type} {E : Env EngineSig W} {M : RunStore E} {ι : Type} [DecidableEq ι]
  {life : ι → Nat} {node : ι → NodeId} {kind : ι → DeploymentKind} {log : List ι}
  {s s' : PoolState EngineSig ι W (Except CoreError DeploymentRun) × Nat}

theorem recordInv_init (h : (lifetimes M life node kind).init s) :
    RecordInv M life node kind [] s := by
  have hpool : (engineCalls M node kind).init s.1 := h.1
  have hth := threads_init hpool
  obtain ⟨⟨hcount, hrecs⟩, hthreads⟩ := hpool
  refine ⟨hth, .nil, ?_, ?_, ?_, hcount, ?_⟩
  · intro i n
    simp [hthreads i]
  · intro i hi
    cases hi
  · intro i hi
    cases hi
  · intro run
    simp [hrecs, hthreads, lastRun]

omit [DecidableEq ι] in
/-- The records a call saved are of the run whose id it took. -/
theorem record_of_saved {t : PoolState EngineSig ι W (Except CoreError DeploymentRun)}
    (h : Threads (deployCall node kind) t) {i : ι} {p : DeploymentRun × Except PortError Unit}
    (hp : p ∈ savedRuns (t.thread i).trace) :
    ∃ nd n t₀, (⟨.getNode (node i), .ok (some nd)⟩ : EngineSig.Ev) ∈ (t.thread i).trace ∧
      ids (t.thread i).trace = [n] ∧
      ∀ q ∈ savedRuns (t.thread i).trace, Record nd (kind i) n t₀ q.1 := by
  rcases records_of_after (h i) with hno | hrec
  · rw [hno] at hp
    cases hp
  · exact hrec

omit [DecidableEq ι] in
theorem RecordInv.ids_ne_nil (h : RecordInv M life node kind log s) {i : ι} (hi : i ∈ log) :
    ids (s.1.thread i).trace ≠ [] := by
  obtain ⟨k, hk⟩ := List.mem_iff_getElem?.1 hi
  exact List.ne_nil_of_mem ((h.taken i _).2 ⟨k, hk, rfl⟩)

omit [DecidableEq ι] in
/-- An id belongs to one call. -/
theorem RecordInv.call_of_id [Fintype ι] (h : RecordInv M life node kind log s)
    (hcard : Fintype.card ι ≤ UInt64.size) {i j : ι} {n : UInt64}
    (hi : n ∈ ids (s.1.thread i).trace) (hj : n ∈ ids (s.1.thread j).trace) : i = j := by
  obtain ⟨a, ha, hna⟩ := (h.taken i n).1 hi
  obtain ⟨b, hb, hnb⟩ := (h.taken j n).1 hj
  have hlen := h.nodup.length_le_card
  have hla : a < log.length := (List.getElem?_eq_some_iff.1 ha).1
  have hlb : b < log.length := (List.getElem?_eq_some_iff.1 hb).1
  have hab : a = b := ofNat_injective (by omega) (by omega) (hna.symm.trans hnb)
  rw [hab, hb] at ha
  exact (Option.some.inj ha).symm

omit [DecidableEq ι] in
/-- The records of an id are saved by the call that took it. -/
theorem RecordInv.call_of_saved [Fintype ι] (h : RecordInv M life node kind log s)
    (hcard : Fintype.card ι ≤ UInt64.size) {i j : ι} {n : UInt64}
    {p : DeploymentRun × Except PortError Unit} (hi : n ∈ ids (s.1.thread i).trace)
    (hp : p ∈ savedRuns (s.1.thread j).trace) (hid : p.1.id = runIdOf n) : j = i := by
  obtain ⟨nd, m, t₀, -, hm, hrec⟩ := record_of_saved h.threads hp
  rw [(hrec p hp).id] at hid
  refine h.call_of_id hcard ?_ hi
  rw [hm, runIdOf_injective hid]
  exact List.mem_singleton.2 rfl

omit [DecidableEq ι] in
theorem RecordInv.call_of_run [Fintype ι] (h : RecordInv M life node kind log s)
    (hcard : Fintype.card ι ≤ UInt64.size) {i j : ι} {p q : DeploymentRun × Except PortError Unit}
    (hp : p ∈ savedRuns (s.1.thread i).trace) (hq : q ∈ savedRuns (s.1.thread j).trace)
    (hid : p.1.id = q.1.id) : i = j := by
  obtain ⟨nd, n, t₀, -, hn, hrec⟩ := record_of_saved h.threads hq
  refine h.call_of_saved hcard (n := n) ?_ hp (hid.trans (hrec q hq).id)
  rw [hn]
  exact List.mem_singleton.2 rfl

/-- What the step of a call leaves as it is, if it takes no id. -/
theorem recordInv_noId (h : RecordInv M life node kind log s) {e : ι × EngineSig.Ev}
    (hs : (lifetimes M life node kind).step s (some e) s') (hno : NoId e.2.1)
    (hrec : ∀ run, run ∈ M.records s'.1.world ↔ ∃ i, lastRun (s'.1.thread i).trace = some run) :
    RecordInv M life node kind log s' := by
  obtain ⟨t', c⟩ := s'
  obtain ⟨-, hstep, rfl⟩ := hs
  have hth := threads_step h.threads hstep
  obtain ⟨k, w', -, he, rfl⟩ := hstep
  refine ⟨hth, h.nodup, fun i n => ?_, h.past, h.one, ?_, hrec⟩
  · by_cases hi : i = e.1
    · subst hi
      rw [PoolState.advance_self, ids_append, ids_cons, idOf_of_noId hno, ← h.taken]
      simp
    · rw [PoolState.advance_of_ne _ hi]
      exact h.taken i n
  · exact (M.keep_counter hno he).trans h.counter

/-- Which records are last after a step. -/
theorem lastRun_advance (t : PoolState EngineSig ι W (Except CoreError DeploymentRun)) (i j : ι)
    (e : EngineSig.Ev) (q : Prog EngineSig (Except CoreError DeploymentRun)) (w : W) :
    lastRun ((t.advance i [e] q w).thread j).trace =
      if j = i then ((savedRunOf e).map Prod.fst).or (lastRun (t.thread j).trace)
      else lastRun (t.thread j).trace := by
  by_cases hj : j = i
  · subst hj
    rw [if_pos rfl, PoolState.advance_self, lastRun_append]
  · rw [if_neg hj, PoolState.advance_of_ne _ hj]

theorem lastRun_advance_other {e : EngineSig.Ev} (h : ∀ run, e.1 ≠ .saveRun run)
    (t : PoolState EngineSig ι W (Except CoreError DeploymentRun)) (i j : ι)
    (q : Prog EngineSig (Except CoreError DeploymentRun)) (w : W) :
    lastRun ((t.advance i [e] q w).thread j).trace = lastRun (t.thread j).trace := by
  have hnone : savedRunOf e = none := by
    obtain ⟨o, r⟩ := e
    cases o with
    | saveRun run => exact absurd rfl (h run)
    | _ => rfl
  rw [lastRun_advance, hnone]
  exact ite_self _

theorem recordInv_other (h : RecordInv M life node kind log s) {e : ι × EngineSig.Ev}
    (hs : (lifetimes M life node kind).step s (some e) s') (hno : NoId e.2.1)
    (hrun : ∀ run, e.2.1 ≠ .saveRun run) : RecordInv M life node kind log s' := by
  refine recordInv_noId h hs hno fun run => ?_
  obtain ⟨t', c⟩ := s'
  obtain ⟨-, ⟨k, w', -, he, rfl⟩, -⟩ := hs
  show run ∈ M.records w' ↔ _
  rw [M.keep_records hrun he, h.records]
  simp only [lastRun_advance_other hrun]

/-- Saving a record replaces the call's own, and no other. -/
theorem recordInv_saveRun [Fintype ι] (hcard : Fintype.card ι ≤ UInt64.size)
    (h : RecordInv M life node kind log s) {i : ι} {run : DeploymentRun}
    {r : Except PortError Unit}
    (hs : (lifetimes M life node kind).step s (some (i, ⟨.saveRun run, r⟩)) s') :
    RecordInv M life node kind log s' := by
  refine recordInv_noId h hs (by simp [NoId]) ?_
  obtain ⟨t', c⟩ := s'
  obtain ⟨-, hstep, -⟩ := hs
  have hth := threads_step h.threads hstep
  obtain ⟨k, w', -, he, rfl⟩ := hstep
  have hsaved : savedRuns ((s.1.advance i [⟨.saveRun run, r⟩] (k r) w').thread i).trace =
      savedRuns (s.1.thread i).trace ++ [(run, r)] := by
    rw [PoolState.advance_self, savedRuns_append]
    rfl
  obtain ⟨nd, n, t₀, -, hn, hrec⟩ := record_of_saved hth (i := i) (p := (run, r))
    (by rw [hsaved]; simp)
  rw [hsaved] at hrec
  have hown : Record nd (kind i) n t₀ run := hrec (run, r) (by simp)
  have hids : ids (s.1.thread i).trace = [n] := by
    rw [PoolState.advance_self, ids_append] at hn
    simpa [idOf] using hn
  have hbefore : ∀ x, lastRun (s.1.thread i).trace = some x → Record nd (kind i) n t₀ x := by
    intro x hx
    obtain ⟨p, hp, rfl⟩ := mem_of_lastRun hx
    exact hrec p (List.mem_append_left _ hp)
  -- a held record with the id of `run` is the call's own
  have hsame : ∀ j x, lastRun (s.1.thread j).trace = some x → x.id = run.id → j = i := by
    intro j x hx hid
    obtain ⟨p, hp, rfl⟩ := mem_of_lastRun hx
    refine h.call_of_saved hcard ?_ hp (hid.trans hown.id)
    rw [hids]
    exact List.mem_singleton.2 rfl
  have hlast : ∀ j, lastRun ((s.1.advance i [⟨.saveRun run, r⟩] (k r) w').thread j).trace =
      if j = i then some run else lastRun (s.1.thread j).trace := fun j => lastRun_advance ..
  have hfit : run.id.value.toNat ≤ U64_MAX := by
    rw [hown.id]
    exact runIdOf_le n
  intro x
  show x ∈ M.records w' ↔ _
  rw [M.save he hfit (fun y hy hid => ?_) x]
  · simp only [hlast]
    refine ⟨?_, ?_⟩
    · intro hx
      rcases hx with rfl | ⟨hmem, hne⟩
      · exact ⟨i, if_pos rfl⟩
      · obtain ⟨j, hj⟩ := (h.records x).1 hmem
        refine ⟨j, ?_⟩
        rw [if_neg, hj]
        intro hji
        subst hji
        exact hne ((hbefore x hj).id.trans hown.id.symm)
    · intro hx
      obtain ⟨j, hj⟩ := hx
      by_cases hji : j = i
      · rw [if_pos hji] at hj
        exact .inl (Option.some.inj hj).symm
      · rw [if_neg hji] at hj
        exact .inr ⟨(h.records x).2 ⟨j, hj⟩, fun hid => hji (hsame j x hj hid)⟩
  · obtain ⟨j, hj⟩ := (h.records y).1 hy
    rw [hsame j y hj hid] at hj
    exact (hbefore y hj).startedAt.trans hown.startedAt.symm

/-- A call about to take an id has none, and those that have are of its lifetime. -/
theorem RecordInv.taker (h : RecordInv M life node kind log s) {i : ι} {n : UInt64}
    (hg : OneLifetime life s (some (i, ⟨.nextRun, n⟩)))
    (hs : (lifetimes M life node kind).step s (some (i, ⟨.nextRun, n⟩)) s') :
    ids (s.1.thread i).trace = [] ∧ ∀ j ∈ log ++ [i], life j = s.2 := by
  obtain ⟨hcur, ⟨k, w', hrest, -, -⟩, -⟩ := hs
  have hafter := h.threads i
  rw [hrest] at hafter
  refine ⟨ids_of_after hafter, fun j hj => ?_⟩
  rcases List.mem_append.1 hj with hj | hj
  · exact (hg _ rfl rfl j (h.ids_ne_nil hj)).trans hcur
  · rw [List.mem_singleton.1 hj]
    exact hcur

/-- The next id goes to a call that has none, as the last of `log`. -/
theorem recordInv_nextRun (h : RecordInv M life node kind log s) {i : ι} {n : UInt64}
    (hg : OneLifetime life s (some (i, ⟨.nextRun, n⟩)))
    (hs : (lifetimes M life node kind).step s (some (i, ⟨.nextRun, n⟩)) s') :
    RecordInv M life node kind (log ++ [i]) s' := by
  obtain ⟨hnone, hcur⟩ := h.taker hg hs
  obtain ⟨t', c⟩ := s'
  obtain ⟨-, hstep, rfl⟩ := hs
  have hth := threads_step h.threads hstep
  obtain ⟨k, w', -, he, rfl⟩ := hstep
  have hnew : i ∉ log := fun hi => h.ids_ne_nil hi hnone
  have hall : ∀ l, l ⊆ log ++ [i] → (l.filter fun j => life j = s.2) = l := by
    intro l hl
    rw [List.filter_eq_self]
    intro j hj
    simp [hcur j (hl hj)]
  obtain ⟨hn, hcount⟩ := M.next he
  have hpos : M.counter s.1.world = UInt64.ofNat (1 + log.length) := by
    rw [h.counter, hall log (List.subset_append_left ..)]
  refine ⟨hth, ?_, fun j m => ?_, ?_, ?_, ?_, ?_⟩
  · rw [List.nodup_append]
    refine ⟨h.nodup, List.nodup_singleton i, fun a ha b hb => ?_⟩
    rw [List.mem_singleton.1 hb]
    exact fun heq => hnew (heq ▸ ha)
  · by_cases hj : j = i
    · subst hj
      have hids : ids ((s.1.thread j).trace ++ [⟨.nextRun, n⟩]) = [n] := by
        rw [ids_append, hnone]
        rfl
      rw [PoolState.advance_self, hids, List.mem_singleton]
      refine ⟨?_, ?_⟩
      · intro hm
        refine ⟨log.length, by simp, ?_⟩
        rw [hm, ← hpos]
        exact hn
      · intro hm
        obtain ⟨b, hb, rfl⟩ := hm
        rcases getElem?_snoc.1 hb with hb | ⟨rfl, -⟩
        · exact absurd (List.mem_of_getElem? hb) hnew
        · exact (hn.trans hpos).symm
    · rw [PoolState.advance_of_ne _ hj, h.taken]
      refine exists_congr fun b => and_congr_left fun _ => ?_
      rw [getElem?_snoc]
      exact ⟨.inl, fun h => h.resolve_right fun heq => hj heq.2.symm⟩
  · exact fun j hj => (hcur j hj).le
  · exact fun a ha b hb => (hcur a ha).trans (hcur b hb).symm
  · show M.counter w' = UInt64.ofNat (1 + ((log ++ [i]).filter fun j => life j = s.2).length)
    rw [hcount, hpos, hall _ (List.Subset.refl _), List.length_append, ← Nat.add_assoc]
    exact (UInt64.ofNat_add ..).symm
  · intro run
    show run ∈ M.records w' ↔ _
    rw [M.keep_records (by simp) he, h.records]
    simp only [lastRun_advance_other (e := ⟨.nextRun, n⟩) (by simp)]

/-- After a restart the counter is new and the records are the same. -/
theorem recordInv_restart (h : RecordInv M life node kind log s)
    (hs : (lifetimes M life node kind).step s none s') : RecordInv M life node kind log s' := by
  cases hs
  refine ⟨h.threads, h.nodup, h.taken, fun i hi => ?_, h.one, ?_, fun run => ?_⟩
  · have hle := h.past i hi
    show life i ≤ s.2 + 1
    omega
  · have hnone : (log.filter fun i => life i = s.2 + 1) = [] := by
      rw [List.filter_eq_nil_iff]
      intro i hi
      have hle := h.past i hi
      simp only [decide_eq_true_eq]
      omega
    show M.counter (M.restart s.1.world) = UInt64.ofNat (1 + (log.filter fun i => life i = s.2 + 1).length)
    rw [M.restart_counter, hnone]
    rfl
  · show run ∈ M.records (M.restart s.1.world) ↔ _
    rw [M.restart_records]
    exact h.records run

theorem recordInv_step [Fintype ι] (hcard : Fintype.card ι ≤ UInt64.size)
    {l : Option (ι × EngineSig.Ev)} (h : RecordInv M life node kind log s)
    (hs : ((lifetimes M life node kind).Guarded (OneLifetime life)).step s l s') :
    ∃ log', RecordInv M life node kind log' s' := by
  obtain ⟨hg, hs⟩ := hs
  cases l with
  | none => exact ⟨log, recordInv_restart h hs⟩
  | some e =>
    obtain ⟨i, o, r⟩ := e
    cases o with
    | nextRun => exact ⟨log ++ [i], recordInv_nextRun h hg hs⟩
    | saveRun run => exact ⟨log, recordInv_saveRun hcard h hs⟩
    | _ => exact ⟨log, recordInv_other h hs (by simp [NoId]) (by simp)⟩

theorem recordInv_run [Fintype ι] (hcard : Fintype.card ι ≤ UInt64.size)
    {ls : List (Option (ι × EngineSig.Ev))} (h : (lifetimes M life node kind).init s)
    (hr : ((lifetimes M life node kind).Guarded (OneLifetime life)).Run s ls s') :
    ∃ log, RecordInv M life node kind log s' := by
  refine hr.keeps (I := fun t => ∃ log, RecordInv M life node kind log t) ?_ ⟨[], recordInv_init h⟩
  intro t l t' hI hs
  obtain ⟨log, hI⟩ := hI
  exact recordInv_step hcard hI hs

end Steps

end ValidatorForge.Infra
