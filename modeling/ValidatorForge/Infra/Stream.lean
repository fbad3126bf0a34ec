import ValidatorForge.Core.Progress
import ValidatorForge.Infra.Lifetimes

/-!
# The event stream and the run records

Any number of `start_deployment` calls on one engine, interleaved operation by
operation over either repository. Their events go into one stream; the records of
their runs go into the repository. Nothing ties the two together but the order in
which each call saves and publishes.

* `stream_agrees`: at every moment, for every run id, the stream is one that
  `RunView.follow` accepts, and asking the repository for the run answers a record
  that agrees with what the stream shows.
* `notice_holds`: so whatever a subscriber is told, however late and with whatever
  gaps, is true of the record the repository answers from then on.
-/
namespace ValidatorForge.Infra

open Interaction ValidatorForge.Types ValidatorForge.Core ValidatorForge.Core.OpsEngine Prog

section Stream
variable {W : Type} {E : Env EngineSig W} {ι : Type} [DecidableEq ι]

/-- The events of all calls, in the order they were published. -/
def streamOf (ls : List (ι × EngineSig.Ev)) : List OpsEvent := events (ls.map Prod.snd)

/-- What the repository holds of a run is consistent with `v`. -/
structure Consistent (M : RunStore E) (w : W) (id : RunId) (v : RunView) : Prop where
  stored : ∀ run ∈ M.records w, run.id = id → Agrees v (some run)
  missing : (∀ run ∈ M.records w, run.id ≠ id) → Agrees v none

/-- So is every answer to `get_run`, which is a record of the run asked for. -/
theorem Consistent.getRun {M : RunStore E} {w : W} {id : RunId} {v : RunView}
    (h : Consistent M w id v) {r : Except PortError (Option DeploymentRun)} {w' : W}
    (he : E (.getRun id) w r w') :
    ∃ rec, r = .ok rec ∧ (∀ run, rec = some run → run.id = id) ∧ Agrees v rec := by
  obtain ⟨rec, rfl, hsome, hnone⟩ := M.get he
  refine ⟨rec, rfl, fun run hrun => (hsome run hrun).2, ?_⟩
  cases rec with
  | none => exact h.missing (hnone rfl)
  | some run =>
    obtain ⟨hmem, hid⟩ := hsome run rfl
    exact h.stored run hmem hid

/-- Of the run one thread took the id of, the stream shows what that thread published. -/
theorem follow_streamOf {id : RunId} {i : ι} {ls : List (ι × EngineSig.Ev)}
    (h : ∀ l ∈ ls, l.1 ≠ i → ∀ ev, eventOf l.2 = some ev → ev.run? ≠ some id) (v : RunView) :
    v.follow id (streamOf ls) =
      v.follow id (events ((ls.filter fun l => l.1 = i).map Prod.snd)) := by
  rw [RunView.follow_filter, RunView.follow_filter _ _ (events _)]
  congr 1
  induction ls with
  | nil => rfl
  | cons l ls ih =>
    have hrest := ih fun l' hl' => h l' (List.mem_cons_of_mem _ hl')
    unfold streamOf at hrest ⊢
    rw [List.map_cons, events_cons, List.filter_append, hrest]
    by_cases hi : l.1 = i
    · rw [List.filter_cons_of_pos (by simpa using hi), List.map_cons, events_cons,
        List.filter_append]
    · rw [List.filter_cons_of_neg (by simpa using hi)]
      have hno : (eventOf l.2).toList.filter (fun ev => ev.run? = some id) = [] := by
        rw [List.filter_eq_nil_iff]
        intro ev hev
        simpa using h l (List.mem_cons_self ..) hi ev (Option.mem_toList.1 hev)
      rw [hno, List.nil_append]

omit [DecidableEq ι] in
theorem mem_streamOf {ls : List (ι × EngineSig.Ev)} {ev : OpsEvent} (h : ev ∈ streamOf ls) :
    ∃ l ∈ ls, eventOf l.2 = some ev := by
  obtain ⟨e, he, hev⟩ := List.mem_filterMap.1 h
  obtain ⟨l, hl, rfl⟩ := List.mem_map.1 he
  exact ⟨l, hl, hev⟩

/-- A call that only saved records of `id` left the last of them. -/
theorem lastSaved_eq_lastRun {id : RunId} {tr : List EngineSig.Ev}
    (h : ∀ p ∈ savedRuns tr, p.1.id = id) : lastSaved id tr = lastRun tr := by
  unfold lastSaved lastRun
  rw [List.filter_eq_self.2 (by simpa using h), List.getLast?_map]

section Calls
variable [Fintype ι] {M : RunStore E} {node : ι → NodeId} {kind : ι → DeploymentKind}
  {s₀ s : PoolState EngineSig ι W (Except CoreError DeploymentRun)} {ls : List (ι × EngineSig.Ev)}

/-- The records of calls on one engine. -/
theorem recordInv_of_run (hcard : Fintype.card ι ≤ UInt64.size)
    (h₀ : (engineCalls M node kind).init s₀) (hr : (engineCalls M node kind).Run s₀ ls s) :
    ∃ log, RecordInv M (fun _ => 0) node kind log (s, 0) :=
  recordInv_run hcard ⟨h₀, rfl⟩
    ((run_lifetimes (fun _ => 0) (fun _ _ => rfl) hr).guard fun _ _ _ _ _ _ _ => rfl)

omit [Fintype ι] in
theorem trace_of_calls (h₀ : (engineCalls M node kind).init s₀)
    (hr : (engineCalls M node kind).Run s₀ ls s) (i : ι) :
    (s.thread i).trace = (ls.filter fun l => l.1 = i).map Prod.snd := by
  rw [trace_of_run hr i, h₀.2 i, List.nil_append]

omit [Fintype ι] in
/-- An event about a run was published by the call that took its id. -/
theorem taker_of_event (h₀ : (engineCalls M node kind).init s₀)
    (hr : (engineCalls M node kind).Run s₀ ls s) {l : ι × EngineSig.Ev} (hl : l ∈ ls)
    {ev : OpsEvent} (hev : eventOf l.2 = some ev) {id : RunId} (hid : ev.run? = some id) :
    ∃ n ∈ ids (s.thread l.1).trace, id = runIdOf n := by
  have hmem : ev ∈ events (s.thread l.1).trace := by
    refine List.mem_filterMap.2 ⟨l.2, ?_, hev⟩
    rw [trace_of_calls h₀ hr]
    exact List.mem_map_of_mem (List.mem_filter.2 ⟨hl, by simp⟩)
  exact run?_of_after (pool_after ⟨s₀, ls, h₀, hr⟩ l.1) hmem hid

omit [DecidableEq ι] [Fintype ι] in
/-- A record that a call saved has the id the call took. -/
theorem id_of_saved {t : PoolState EngineSig ι W (Except CoreError DeploymentRun)}
    (h : Threads (deployCall node kind) t) {i : ι} {p : DeploymentRun × Except PortError Unit}
    (hp : p ∈ savedRuns (t.thread i).trace) :
    ∃ n, ids (t.thread i).trace = [n] ∧ p.1.id = runIdOf n := by
  obtain ⟨nd, n, t₀, -, hn, hrec⟩ := record_of_saved h hp
  exact ⟨n, hn, (hrec p hp).id⟩

/-- Of every run id the stream is one that may be, and the repository is consistent
with it. -/
theorem stream_consistent (hcard : Fintype.card ι ≤ UInt64.size)
    (h₀ : (engineCalls M node kind).init s₀) (hr : (engineCalls M node kind).Run s₀ ls s)
    (id : RunId) :
    ∃ v, RunView.unseen.follow id (streamOf ls) = some v ∧ Consistent M s.world id v := by
  obtain ⟨log, hI⟩ := recordInv_of_run hcard h₀ hr
  by_cases hid : ∃ i, ∃ n ∈ ids (s.thread i).trace, id = runIdOf n
  · obtain ⟨i, n, hn, rfl⟩ := hid
    obtain ⟨v, hv, ha⟩ := tracks_of_after (hI.threads i) (runIdOf n)
    have hown : ∀ p ∈ savedRuns (s.thread i).trace, p.1.id = runIdOf n := by
      intro p hp
      obtain ⟨m, hm, hpid⟩ := id_of_saved hI.threads hp
      have hnm : n = m := by simpa [hm] using hn
      rw [hnm]
      exact hpid
    rw [lastSaved_eq_lastRun hown] at ha
    refine ⟨v, ?_, ⟨fun run hrun hrid => ?_, fun hno => ?_⟩⟩
    · rw [follow_streamOf (i := i), ← trace_of_calls h₀ hr i]
      · exact hv
      · intro l hl hne ev hev hrun
        obtain ⟨m, hm, heq⟩ := taker_of_event h₀ hr hl hev hrun
        rw [runIdOf_injective heq] at hn
        exact hne (hI.call_of_id hcard hm hn)
    · obtain ⟨j, hj⟩ := (hI.records run).1 hrun
      obtain ⟨p, hp, rfl⟩ := mem_of_lastRun hj
      obtain rfl := hI.call_of_saved hcard hn hp hrid
      rw [← hj]
      exact ha
    · cases hlast : lastRun (s.thread i).trace with
      | none =>
        rw [hlast] at ha
        exact ha
      | some run =>
        obtain ⟨p, hp, rfl⟩ := mem_of_lastRun hlast
        exact absurd (hown p hp) (hno _ ((hI.records _).2 ⟨i, hlast⟩))
  · refine ⟨.unseen, RunView.follow_other (fun ev hev hrun => ?_) _, ⟨fun run hrun hrid => ?_,
      fun _ => trivial⟩⟩
    · obtain ⟨l, hl, hlev⟩ := mem_streamOf hev
      exact hid ⟨l.1, taker_of_event h₀ hr hl hlev hrun⟩
    · obtain ⟨j, hj⟩ := (hI.records run).1 hrun
      obtain ⟨p, hp, rfl⟩ := mem_of_lastRun hj
      obtain ⟨n, hn, hpid⟩ := id_of_saved hI.threads hp
      refine absurd ⟨j, n, ?_, ?_⟩ hid
      · rw [hn]
        exact List.mem_singleton.2 rfl
      · rw [← hrid]
        exact hpid

/-- **The stream and the records.** Whatever the ports answer and however the calls
are interleaved: at every moment and for every run id, the events published so far
are a stream that may be, and what it shows agrees with the record held and with
every answer to `get_run`. -/
theorem stream_agrees (hcard : Fintype.card ι ≤ UInt64.size)
    (h₀ : (engineCalls M node kind).init s₀) (hr : (engineCalls M node kind).Run s₀ ls s)
    (id : RunId) :
    ∃ v, RunView.unseen.follow id (streamOf ls) = some v ∧ Consistent M s.world id v ∧
      ∀ r w', E (.getRun id) s.world r w' → ∃ rec, r = .ok rec ∧ Agrees v rec := by
  obtain ⟨v, hv, hc⟩ := stream_consistent hcard h₀ hr id
  refine ⟨v, hv, hc, fun _ _ he => ?_⟩
  obtain ⟨rec, hr, -, ha⟩ := hc.getRun he
  exact ⟨rec, hr, ha⟩

/-- **What a subscriber is told is so.** From the moment an event about a run is
published on, the repository answers a record of that run, and the event is true of it. -/
theorem notice_holds (hcard : Fintype.card ι ≤ UInt64.size)
    (h₀ : (engineCalls M node kind).init s₀) (hr : (engineCalls M node kind).Run s₀ ls s)
    {ev : OpsEvent} (hev : ev ∈ streamOf ls) {id : RunId} (hid : ev.run? = some id)
    {r : Except PortError (Option DeploymentRun)} {w' : W} (he : E (.getRun id) s.world r w') :
    ∃ run, r = .ok (some run) ∧ run.id = id ∧ TrueOf run ev := by
  obtain ⟨v, hv, hc⟩ := stream_consistent hcard h₀ hr id
  obtain ⟨rec, rfl, hrid, ha⟩ := hc.getRun he
  obtain ⟨run, rfl, ht⟩ := ha.trueOf (RunView.shows_of_follow hv hid (.inr hev))
  exact ⟨run, rfl, hrid run rfl, ht⟩

end Calls

end Stream

/-! ## Two calls -/

/-- An upgrade to its end and then a decommissioning. -/
def twoCalls : List (Bool × EngineSig.Ev) :=
  upgradeAlone.trace.map (Prod.mk false) ++ decommissionAfter.trace.map (Prod.mk true)

theorem run_twoCalls : (engineCalls memoryStore (fun _ => fleetId) upgradeAndDecommission).Run
    bothStarting twoCalls upgradedThenDecommissioned :=
  run_upgraded.append run_upgradedThenDecommissioned

/-- What the stream shows of the first. -/
theorem stream_agrees_upgrade :
    ∃ v, RunView.unseen.follow (runIdOf 1) (streamOf twoCalls) = some v ∧
      Consistent memoryStore upgradedThenDecommissioned.world (runIdOf 1) v ∧
      ∀ r w', memoryEnv (.getRun (runIdOf 1)) upgradedThenDecommissioned.world r w' →
        ∃ rec, r = .ok rec ∧ Agrees v rec :=
  stream_agrees (by rw [Fintype.card_bool]; decide) ⟨⟨rfl, rfl⟩, fun _ => rfl⟩ run_twoCalls
    (runIdOf 1)

/-- Its end, announced before the second began, is what is stored after it. -/
theorem notice_holds_upgrade :
    ∃ run, (.ok (upgradedThenDecommissioned.world.repo.getRun (runIdOf 1)) :
        Except PortError (Option DeploymentRun)) = .ok (some run) ∧
      run.id = runIdOf 1 ∧ TrueOf run (.runFinished (runIdOf 1) .succeeded 0) := by
  have hev : (streamOf twoCalls)[7]? = some (.runFinished (runIdOf 1) .succeeded 0) := rfl
  have hget : memoryEnv (.getRun (runIdOf 1)) upgradedThenDecommissioned.world
      (.ok (upgradedThenDecommissioned.world.repo.getRun (runIdOf 1)))
      upgradedThenDecommissioned.world := ⟨rfl, rfl⟩
  exact notice_holds (M := memoryStore) (by rw [Fintype.card_bool]; decide)
    ⟨⟨rfl, rfl⟩, fun _ => rfl⟩ run_twoCalls (List.mem_of_getElem? hev) rfl hget

end ValidatorForge.Infra
