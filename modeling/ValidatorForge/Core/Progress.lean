import ValidatorForge.Core.Contract
import ValidatorForge.Core.Record

/-!
# What the events of a run show of it

A subscriber of the event stream (crates/validatorforge-core/src/event.rs) sees
a run only through its events. `RunView` is what it can know of one run,
`RunView.next` which event may come next and what it adds: the specification of
the stream. The run's status is not taken on trust: `Progress.outcome` is the one
status the steps announced so far allow.

* `tracks_of_exec`: at every moment of a call, for every run id, the events
  published so far are a stream that `RunView.follow` accepts, and what they show
  agrees with the record saved last (`Agrees`).
-/
namespace ValidatorForge.Core

open Interaction ValidatorForge.Types Prog

/-- The actions of a plan. -/
def planned (kind : DeploymentKind) : List OpsActionKind := (buildPlan kind).map SagaStep.action

/-- What has been announced of a run. -/
structure Progress where
  node : NodeId
  kind : DeploymentKind
  completed : List OpsActionKind
  compensated : List OpsActionKind
  deriving DecidableEq, Repr

/-- The status of a run that ends here. -/
def Progress.outcome (p : Progress) : RunStatus :=
  if p.completed = planned p.kind then .succeeded
  else if p.compensated = p.completed.reverse then .rolledBack
  else .failed

/-- The run an event is about. -/
def OpsEvent.run? : OpsEvent → Option RunId
  | .runStarted run .. | .stepCompleted run .. | .stepCompensated run .. | .runFinished run .. =>
    some run
  | .nodeStateChanged .. | .healthEvaluated .. => none

inductive RunView where
  | unseen
  | underway (p : Progress)
  | ended (p : Progress) (status : RunStatus)
  deriving DecidableEq, Repr

namespace RunView

/-- An event of the run, if it may come next: steps complete in the order of the
plan, are then compensated in reverse order (one may be left out), and the run
ends once, with the status its steps allow. -/
def extend : RunView → OpsEvent → Option RunView
  | .unseen, .runStarted _ node kind _ => some (.underway ⟨node, kind, [], []⟩)
  | .underway p, .stepCompleted _ a _ =>
    if p.compensated = [] ∧ p.completed ++ [a] <+: planned p.kind then
      some (.underway { p with completed := p.completed ++ [a] })
    else none
  | .underway p, .stepCompensated _ a _ =>
    if p.completed ≠ planned p.kind ∧ (p.compensated ++ [a]).Sublist p.completed.reverse then
      some (.underway { p with compensated := p.compensated ++ [a] })
    else none
  | .underway p, .runFinished _ status _ =>
    if status = p.outcome then some (.ended p status) else none
  | _, _ => none

/-- The next event, seen from the run `id`: those of other runs say nothing. -/
def next (id : RunId) (v : RunView) (ev : OpsEvent) : Option RunView :=
  if ev.run? = some id then v.extend ev else some v

/-- What a stream of events shows of the run `id`, if it is one that may be. -/
def follow (id : RunId) (v : RunView) (evs : List OpsEvent) : Option RunView :=
  evs.foldlM (next id) v

@[simp] theorem follow_nil (id : RunId) (v : RunView) : v.follow id [] = some v := rfl

@[simp] theorem follow_cons (id : RunId) (v : RunView) (ev : OpsEvent) (evs : List OpsEvent) :
    v.follow id (ev :: evs) = (v.next id ev).bind fun v' => v'.follow id evs := rfl

theorem follow_append (id : RunId) (v : RunView) (l₁ l₂ : List OpsEvent) :
    v.follow id (l₁ ++ l₂) = (v.follow id l₁).bind fun v' => v'.follow id l₂ :=
  List.foldlM_append

theorem next_of_ne {id : RunId} {ev : OpsEvent} (h : ev.run? ≠ some id) (v : RunView) :
    v.next id ev = some v := if_neg h

theorem next_of_eq {id : RunId} {ev : OpsEvent} (h : ev.run? = some id) (v : RunView) :
    v.next id ev = v.extend ev := if_pos h

/-- Only the events of the run itself matter. -/
theorem follow_filter (id : RunId) (v : RunView) (evs : List OpsEvent) :
    v.follow id evs = v.follow id (evs.filter fun ev => ev.run? = some id) := by
  induction evs generalizing v with
  | nil => rfl
  | cons ev evs ih =>
    by_cases h : ev.run? = some id
    · rw [List.filter_cons_of_pos (by simpa using h), follow_cons, follow_cons]
      exact congrArg _ (funext fun v' => ih v')
    · rw [List.filter_cons_of_neg (by simpa using h), follow_cons, next_of_ne h, Option.bind_some]
      exact ih v

theorem follow_other {id : RunId} {evs : List OpsEvent} (h : ∀ ev ∈ evs, ev.run? ≠ some id)
    (v : RunView) : v.follow id evs = some v := by
  have hnil : (evs.filter fun ev => ev.run? = some id) = [] := by
    simpa [List.filter_eq_nil_iff] using h
  rw [follow_filter, hnil, follow_nil]

theorem extend_ne_unseen (v : RunView) (ev : OpsEvent) : v.extend ev ≠ some .unseen := by
  unfold extend
  split
  · simp
  · split <;> simp
  · split <;> simp
  · split <;> simp
  · simp

/-- A run that has been seen stays seen. -/
theorem unseen_of_follow {id : RunId} {v : RunView} {evs : List OpsEvent}
    (h : v.follow id evs = some .unseen) : v = .unseen ∧ ∀ ev ∈ evs, ev.run? ≠ some id := by
  induction evs generalizing v with
  | nil =>
    cases h
    exact ⟨rfl, by simp⟩
  | cons ev evs ih =>
    rw [follow_cons, Option.bind_eq_some_iff] at h
    obtain ⟨v₁, h₁, h⟩ := h
    obtain ⟨rfl, hevs⟩ := ih h
    by_cases hid : ev.run? = some id
    · rw [next_of_eq hid] at h₁
      exact absurd h₁ (extend_ne_unseen v ev)
    · rw [next_of_ne hid] at h₁
      refine ⟨Option.some.inj h₁, ?_⟩
      intro e he
      rcases List.mem_cons.1 he with rfl | he
      · exact hid
      · exact hevs e he

end RunView

/-! ## What a single event tells -/

/-- What `ev` told is part of what is shown. -/
def Progress.Shows (p : Progress) : OpsEvent → Prop
  | .runStarted _ node kind _ => p.node = node ∧ p.kind = kind
  | .stepCompleted _ a _ => a ∈ p.completed
  | .stepCompensated _ a _ =>
    a ∈ p.compensated ∧ a ∈ p.completed ∧ p.completed ≠ planned p.kind
  | _ => True

def RunView.Shows (v : RunView) (ev : OpsEvent) : Prop :=
  match v with
  | .unseen => False
  | .underway p => p.Shows ev ∧ ∀ r s t, ev ≠ .runFinished r s t
  | .ended p status =>
    p.Shows ev ∧ status = p.outcome ∧ ∀ r s t, ev = .runFinished r s t → s = status

namespace RunView

/-- An event that extends the stream is shown. -/
theorem shows_of_extend {v v' : RunView} {ev : OpsEvent} (h : v.extend ev = some v') :
    v'.Shows ev := by
  cases v with
  | unseen =>
    cases ev with
    | runStarted r node kind t =>
      cases h
      exact ⟨⟨rfl, rfl⟩, by simp⟩
    | _ => cases h
  | underway p =>
    cases ev with
    | stepCompleted r a t =>
      obtain ⟨-, h⟩ := Option.ite_none_right_eq_some.1 h
      cases h
      exact ⟨by simp [Progress.Shows], by simp⟩
    | stepCompensated r a t =>
      obtain ⟨⟨hne, hsub⟩, h⟩ := Option.ite_none_right_eq_some.1 h
      cases h
      have hmem : a ∈ p.completed := List.mem_reverse.1 (hsub.subset (by simp))
      exact ⟨⟨by simp, hmem, hne⟩, by simp⟩
    | runFinished r s t =>
      obtain ⟨hs, h⟩ := Option.ite_none_right_eq_some.1 h
      cases h
      refine ⟨trivial, hs, fun _ s' _ heq => ?_⟩
      cases heq
      rfl
    | _ => cases h
  | ended p s => cases h

/-- What was shown stays shown. -/
theorem Shows.extend {v v' : RunView} {ev ev' : OpsEvent} (hv : v.Shows ev)
    (h : v.extend ev' = some v') : v'.Shows ev := by
  cases v with
  | unseen => cases hv
  | ended p s => cases h
  | underway p =>
    obtain ⟨hp, hno⟩ := hv
    cases ev' with
    | stepCompleted r a t =>
      obtain ⟨⟨hc, hpre⟩, h⟩ := Option.ite_none_right_eq_some.1 h
      cases h
      refine ⟨?_, hno⟩
      cases ev with
      | stepCompleted r' b t' => exact List.mem_append_left _ hp
      | stepCompensated r' b t' =>
        -- no step completes once one is compensated
        have hb := hp.1
        rw [hc] at hb
        cases hb
      | _ => exact hp
    | stepCompensated r a t =>
      obtain ⟨-, h⟩ := Option.ite_none_right_eq_some.1 h
      cases h
      refine ⟨?_, hno⟩
      cases ev with
      | stepCompensated r' b t' => exact ⟨List.mem_append_left _ hp.1, hp.2⟩
      | _ => exact hp
    | runFinished r s t =>
      obtain ⟨hs, h⟩ := Option.ite_none_right_eq_some.1 h
      cases h
      exact ⟨hp, hs, fun r' s' t' heq => absurd heq (hno r' s' t')⟩
    | runStarted | nodeStateChanged | healthEvaluated => cases h

/-- Every event of the run is shown in the end. -/
theorem shows_of_follow {id : RunId} {evs : List OpsEvent} {v v' : RunView}
    (h : v.follow id evs = some v') {ev : OpsEvent} (hid : ev.run? = some id) :
    v.Shows ev ∨ ev ∈ evs → v'.Shows ev := by
  induction evs generalizing v with
  | nil =>
    cases h
    simp
  | cons e evs ih =>
    rw [follow_cons, Option.bind_eq_some_iff] at h
    obtain ⟨v₁, h₁, h⟩ := h
    intro hev
    refine ih h ?_
    by_cases he : e.run? = some id
    · rw [next_of_eq he] at h₁
      rcases hev with hv | hev
      · exact .inl (hv.extend h₁)
      · rcases List.mem_cons.1 hev with rfl | hev
        · exact .inl (shows_of_extend h₁)
        · exact .inr hev
    · rw [next_of_ne he] at h₁
      cases h₁
      rcases hev with hv | hev
      · exact .inl hv
      · rcases List.mem_cons.1 hev with rfl | hev
        · exact absurd hid he
        · exact .inr hev

end RunView

/-! ## The steps of a run -/

/-- An event about a step. -/
def OpsEvent.isStep : OpsEvent → Bool
  | .stepCompleted .. | .stepCompensated .. => true
  | _ => false

theorem stamp_cons (f : DateTime → OpsEvent) (fs : List (DateTime → OpsEvent)) (t : DateTime)
    (ts : List DateTime) :
    SagaExecutor.stamp (f :: fs) (t :: ts) = f t :: SagaExecutor.stamp fs ts := rfl

namespace RunView

variable {id : RunId} {p : Progress} {ts : List DateTime}

theorem follow_completed {as : List OpsActionKind} {rest : List (DateTime → OpsEvent)}
    (hc : p.compensated = []) (hp : p.completed ++ as <+: planned p.kind)
    (hl : as.length ≤ ts.length) :
    (underway p).follow id (SagaExecutor.stamp (as.map (OpsEvent.stepCompleted id) ++ rest) ts) =
      (underway { p with completed := p.completed ++ as }).follow id
        (SagaExecutor.stamp rest (ts.drop as.length)) := by
  induction as generalizing p ts with
  | nil => simp
  | cons a as ih =>
    cases ts with
    | nil => simp at hl
    | cons t ts =>
      have hone : p.completed ++ [a] <+: planned p.kind :=
        (List.prefix_append_right_inj _).2 (List.prefix_append [a] as) |>.trans hp
      have hnext : (underway p).next id (.stepCompleted id a t) =
          some (underway { p with completed := p.completed ++ [a] }) := by
        rw [next_of_eq rfl]
        exact if_pos ⟨hc, hone⟩
      simp only [List.map_cons, List.cons_append, stamp_cons, follow_cons, hnext,
        Option.bind_some]
      refine (ih (p := { p with completed := p.completed ++ [a] }) hc ?_ ?_).trans ?_
      · simpa using hp
      · simpa using hl
      · simp

theorem follow_compensated {as : List OpsActionKind} (hne : p.completed ≠ planned p.kind)
    (hs : (p.compensated ++ as).Sublist p.completed.reverse) (hl : as.length ≤ ts.length) :
    (underway p).follow id (SagaExecutor.stamp (as.map (OpsEvent.stepCompensated id)) ts) =
      some (underway { p with compensated := p.compensated ++ as }) := by
  induction as generalizing p ts with
  | nil => simp [SagaExecutor.stamp]
  | cons a as ih =>
    cases ts with
    | nil => simp at hl
    | cons t ts =>
      have hone : (p.compensated ++ [a]).Sublist p.completed.reverse :=
        ((List.Sublist.refl _).append (by simp)).trans hs
      have hnext : (underway p).next id (.stepCompensated id a t) =
          some (underway { p with compensated := p.compensated ++ [a] }) := by
        rw [next_of_eq rfl]
        exact if_pos ⟨hne, hone⟩
      simp only [List.map_cons, stamp_cons, follow_cons, hnext, Option.bind_some]
      refine (ih (p := { p with compensated := p.compensated ++ [a] }) hne ?_ ?_).trans ?_
      · simpa using hs
      · simpa using hl
      · simp

/-- While only steps are announced, the run stays underway. -/
theorem underway_of_follow {evs : List OpsEvent} (hev : ∀ ev ∈ evs, ev.isStep = true) {v : RunView}
    (h : (underway p).follow id evs = some v) :
    ∃ p', v = underway p' ∧ p'.node = p.node ∧ p'.kind = p.kind := by
  induction evs generalizing p with
  | nil =>
    cases h
    exact ⟨p, rfl, rfl, rfl⟩
  | cons ev evs ih =>
    rw [follow_cons, Option.bind_eq_some_iff] at h
    obtain ⟨v₁, h₁, h⟩ := h
    have hstep : ∃ p₁, v₁ = underway p₁ ∧ p₁.node = p.node ∧ p₁.kind = p.kind := by
      by_cases hid : ev.run? = some id
      · rw [next_of_eq hid] at h₁
        have hs := hev ev (List.mem_cons_self ..)
        cases ev with
        | stepCompleted r a t =>
          obtain ⟨-, h₁⟩ := Option.ite_none_right_eq_some.1 h₁
          cases h₁
          exact ⟨_, rfl, rfl, rfl⟩
        | stepCompensated r a t =>
          obtain ⟨-, h₁⟩ := Option.ite_none_right_eq_some.1 h₁
          cases h₁
          exact ⟨_, rfl, rfl, rfl⟩
        | runStarted | nodeStateChanged | healthEvaluated | runFinished => cases hs
      · rw [next_of_ne hid] at h₁
        cases h₁
        exact ⟨p, rfl, rfl, rfl⟩
    obtain ⟨p₁, rfl, hn, hk⟩ := hstep
    obtain ⟨p', hv, hn', hk'⟩ := ih (fun e he => hev e (List.mem_cons_of_mem _ he)) h
    exact ⟨p', hv, hn'.trans hn, hk'.trans hk⟩

end RunView

namespace OpsEngine

/-! ## The record of a run -/

/-- The record of a run before its saga has returned. -/
structure Opened (run : DeploymentRun) : Prop where
  status : run.status = .running
  steps : run.completedSteps = []
  unfinished : run.finishedAt = none

/-- The record of a run that went as `p`. -/
structure ClosedAs (p : Progress) (run : DeploymentRun) : Prop where
  status : run.status = p.outcome
  steps : run.completedSteps = p.completed
  finished : run.finishedAt.isSome = true

/-- What the events show of a run and its record agree: a run that was announced
is recorded, with its node and kind, and what was announced as its end is what
is recorded. A record is saved before it is announced. -/
def Agrees : RunView → Option DeploymentRun → Prop
  | .unseen, none => True
  | .unseen, some run => Opened run
  | .underway p, some run =>
    run.target = p.node ∧ run.kind = p.kind ∧ (Opened run ∨ ClosedAs p run)
  | .ended p status, some run =>
    run.target = p.node ∧ run.kind = p.kind ∧ ClosedAs p run ∧ run.status = status
  | _, none => False

/-- What an event says of a run is true of its record. -/
def TrueOf (run : DeploymentRun) : OpsEvent → Prop
  | .runStarted _ node kind _ => run.target = node ∧ run.kind = kind
  | .stepCompleted _ a _ => run.status.isTerminal = true → a ∈ run.completedSteps
  | .stepCompensated _ a _ =>
    run.status ≠ .succeeded ∧ (run.status.isTerminal = true → a ∈ run.completedSteps)
  | .runFinished _ status _ => run.status = status ∧ status.isTerminal = true
  | .nodeStateChanged .. | .healthEvaluated .. => True

theorem isTerminal_outcome (p : Progress) : p.outcome.isTerminal = true := by
  unfold Progress.outcome
  split
  · rfl
  · split <;> rfl

theorem succeeded_of_outcome {p : Progress} (h : p.outcome = .succeeded) :
    p.completed = planned p.kind := by
  unfold Progress.outcome at h
  by_contra hc
  rw [if_neg hc] at h
  split at h <;> cases h

theorem ClosedAs.trueOf {p : Progress} {run : DeploymentRun} (h : ClosedAs p run)
    (hn : run.target = p.node) (hk : run.kind = p.kind) {ev : OpsEvent} (hs : p.Shows ev)
    (hend : ∀ r s t, ev = .runFinished r s t → s = p.outcome) : TrueOf run ev := by
  cases ev with
  | runStarted r node kind t => exact ⟨hn.trans hs.1, hk.trans hs.2⟩
  | stepCompleted r a t =>
    intro _
    rw [h.steps]
    exact hs
  | stepCompensated r a t =>
    refine ⟨fun hst => hs.2.2 (succeeded_of_outcome (h.status.symm.trans hst)), fun _ => ?_⟩
    rw [h.steps]
    exact hs.2.1
  | runFinished r s t =>
    rw [hend r s t rfl]
    exact ⟨h.status, isTerminal_outcome p⟩
  | nodeStateChanged | healthEvaluated => trivial

/-- What is shown is true of a record that agrees. -/
theorem Agrees.trueOf {v : RunView} {rec : Option DeploymentRun} (h : Agrees v rec) {ev : OpsEvent}
    (hs : v.Shows ev) : ∃ run, rec = some run ∧ TrueOf run ev := by
  cases v with
  | unseen => cases hs
  | underway p =>
    cases rec with
    | none => cases h
    | some run =>
      obtain ⟨hp, hno⟩ := hs
      obtain ⟨hn, hk, hopen | hclosed⟩ := h
      · refine ⟨run, rfl, ?_⟩
        cases ev with
        | runStarted r node kind t => exact ⟨hn.trans hp.1, hk.trans hp.2⟩
        | runFinished r s t => exact absurd rfl (hno r s t)
        | _ => simp [TrueOf, hopen.status, RunStatus.isTerminal]
      · exact ⟨run, rfl, hclosed.trueOf hn hk hp fun r s t heq => absurd heq (hno r s t)⟩
  | ended p status =>
    cases rec with
    | none => cases h
    | some run =>
      obtain ⟨hp, hst, hfin⟩ := hs
      obtain ⟨hn, hk, hclosed, -⟩ := h
      exact ⟨run, rfl, hclosed.trueOf hn hk hp fun r s t heq => (hfin r s t heq).trans hst⟩

/-- At every moment of `tr`, begun when `v` was shown and `r` recorded of the run
`id`, the stream is one that may be and agrees with the record saved last. -/
def Tracks (id : RunId) (v : RunView) (r : Option DeploymentRun) (tr : List EngineSig.Ev) : Prop :=
  ∀ pre, pre <+: tr → ∃ v', v.follow id (events pre) = some v' ∧ Agrees v' ((lastSaved id pre).or r)

@[simp] theorem lastSaved_nil (id : RunId) : lastSaved id [] = none := rfl

theorem lastSaved_append (id : RunId) (t₁ t₂ : List EngineSig.Ev) :
    lastSaved id (t₁ ++ t₂) = (lastSaved id t₂).or (lastSaved id t₁) := by
  unfold lastSaved
  rw [savedRuns_append, List.filter_append, List.map_append, List.getLast?_append]

theorem lastSaved_of_ne {id : RunId} {tr : List EngineSig.Ev}
    (h : ∀ p ∈ savedRuns tr, p.1.id ≠ id) : lastSaved id tr = none := by
  have hnil : ((savedRuns tr).filter fun p => p.1.id = id) = [] := by
    simpa [List.filter_eq_nil_iff] using h
  unfold lastSaved
  rw [hnil]
  rfl

section Tracks
variable {id : RunId} {u v : RunView} {r : Option DeploymentRun} {t₁ t₂ tr : List EngineSig.Ev}

theorem Tracks.append (h₁ : Tracks id v r t₁) (hf : v.follow id (events t₁) = some u)
    (h₂ : Tracks id u ((lastSaved id t₁).or r) t₂) : Tracks id v r (t₁ ++ t₂) := by
  intro pre hpre
  obtain ⟨post, hpost⟩ := hpre
  rcases List.append_eq_append_iff.1 hpost with ⟨a, ha, -⟩ | ⟨c, rfl, hc⟩
  · exact h₁ pre ⟨a, ha.symm⟩
  · obtain ⟨v', hv, ha⟩ := h₂ c ⟨post, hc.symm⟩
    refine ⟨v', ?_, ?_⟩
    · rw [events_append, RunView.follow_append, hf, Option.bind_some, hv]
    · rw [lastSaved_append, Option.or_assoc]
      exact ha

theorem Tracks.cons {e : EngineSig.Ev} (h : Agrees v r)
    (hf : v.follow id (events [e]) = some u)
    (h₂ : Tracks id u ((lastSaved id [e]).or r) tr) : Tracks id v r (e :: tr) := by
  intro pre hpre
  rcases List.prefix_cons_iff.1 hpre with rfl | ⟨t, rfl, ht⟩
  · exact ⟨v, rfl, h⟩
  · obtain ⟨v', hv, ha⟩ := h₂ t ht
    refine ⟨v', ?_, ?_⟩
    · rw [← List.singleton_append, events_append, RunView.follow_append, hf, Option.bind_some, hv]
    · rw [← List.singleton_append, lastSaved_append, Option.or_assoc]
      exact ha

/-- Nothing about the run. -/
theorem tracks_quiet (he : ∀ ev ∈ events tr, ev.run? ≠ some id)
    (hs : ∀ p ∈ savedRuns tr, p.1.id ≠ id) (h : Agrees v r) : Tracks id v r tr := by
  intro pre hpre
  obtain ⟨post, rfl⟩ := hpre
  refine ⟨v, RunView.follow_other (fun ev hev => he ev ?_) v, ?_⟩
  · rw [events_append]
    exact List.mem_append_left _ hev
  · rw [lastSaved_of_ne fun p hp => hs p ?_, Option.none_or]
    · exact h
    · rw [savedRuns_append]
      exact List.mem_append_left _ hp

/-- An operation that neither publishes nor saves a run. -/
theorem Tracks.skip {e : EngineSig.Ev} (he : eventOf e = none) (hs : savedRunOf e = none)
    (h : Tracks id v r tr) (ha : Agrees v r) : Tracks id v r (e :: tr) := by
  have hev : events [e] = [] := by simp [he]
  have hsv : lastSaved id [e] = none := by simp [lastSaved, hs]
  refine .cons ha (u := v) (by rw [hev, RunView.follow_nil]) ?_
  rw [hsv, Option.none_or]
  exact h

end Tracks

/-! ## One call -/

section Saga
variable {node : ValidatorNode} {kind : DeploymentKind} {spareHost : Option HostAddr}
  {run run' : DeploymentRun} {tr : List EngineSig.Ev} {status : RunStatus}
  {sh : SagaExecutor.Shape PlanStep} {ut : List (SagaSig PlanStep).Ev}

/-- What a saga that went as `sh` announces. -/
def announced (node : ValidatorNode) (kind : DeploymentKind) (sh : SagaExecutor.Shape PlanStep) :
    Progress where
  node := node.id
  kind := kind
  completed := sh.done.map SagaStep.action
  compensated := (sh.undone.filter Prod.snd).map fun u => SagaStep.action u.1

/-- The compensations of a saga undo what was done, last first. -/
theorem SagaRan.undone_eq (h : SagaRan node kind spareHost run tr status run' sh ut) {f : PlanStep}
    (hf : sh.failed = some f) : sh.undone.map Prod.fst = sh.done.reverse := by
  simpa [hf] using h.spec.unwound

theorem SagaRan.follow_events (h : SagaRan node kind spareHost run tr status run' sh ut) :
    (RunView.underway ⟨node.id, kind, [], []⟩).follow run.id (events tr) =
      some (.underway (announced node kind sh)) := by
  obtain ⟨hpub, hlen⟩ := h.spec.events
  rw [List.length_append, List.length_map, List.length_map] at hlen
  have hdone : sh.done.map (SagaExecutor.completedEv run.id) =
      (sh.done.map SagaStep.action).map (OpsEvent.stepCompleted run.id) := by
    rw [List.map_map]; rfl
  have hundone : ((sh.undone.filter Prod.snd).map fun u => SagaExecutor.compensatedEv run.id u.1) =
      ((sh.undone.filter Prod.snd).map fun u => SagaStep.action u.1).map
        (OpsEvent.stepCompensated run.id) := by
    rw [List.map_map]; rfl
  rw [h.trace.events, hpub, hdone, hundone]
  rw [RunView.follow_completed rfl (by simpa [planned] using h.done_prefix.map SagaStep.action)
    (by rw [List.length_map]; omega)]
  cases hf : sh.failed with
  | none =>
    have hu : sh.undone = [] := by simpa [hf] using h.spec.unwound
    simp [hu, announced, SagaExecutor.stamp]
  | some f =>
    have hne : sh.done.map SagaStep.action ≠ planned kind := by
      intro hall
      have hs := h.succeeded_iff_failed.1 (h.actions_eq_iff.1 hall)
      rw [hf] at hs
      cases hs
    have hsub : ((sh.undone.filter Prod.snd).map Prod.fst).Sublist sh.done.reverse := by
      rw [← h.undone_eq hf]
      exact List.filter_sublist.map _
    have hmap := hsub.map SagaStep.action
    rw [List.map_map, List.map_reverse] at hmap
    exact RunView.follow_compensated hne hmap (by simp; omega)

/-- The status of a saga is the one its steps allow. -/
theorem SagaRan.outcome_eq (h : SagaRan node kind spareHost run tr status run' sh ut) :
    (announced node kind sh).outcome = status := by
  unfold Progress.outcome
  show (if sh.done.map SagaStep.action = (buildPlan kind).map SagaStep.action then _ else _) = _
  rw [if_congr h.actions_eq_iff rfl rfl]
  cases hf : sh.failed with
  | none => rw [if_pos (h.succeeded_iff_failed.2 hf), h.succeeded_iff_failed.2 hf]
  | some f =>
    have hst := h.spec.status
    have hrev : (announced node kind sh).completed.reverse =
        sh.undone.map fun u => SagaStep.action u.1 := by
      show (sh.done.map SagaStep.action).reverse = _
      rw [← List.map_reverse, ← h.undone_eq hf, List.map_map]
      rfl
    have hall : (announced node kind sh).compensated =
        (announced node kind sh).completed.reverse ↔ sh.undone.all Prod.snd = true := by
      rw [hrev, List.all_eq_true]
      show (sh.undone.filter Prod.snd).map _ = _ ↔ _
      refine ⟨fun heq => ?_, fun heq => by rw [List.filter_eq_self.2 heq]⟩
      have hlen := congrArg List.length heq
      rw [List.length_map, List.length_map] at hlen
      exact List.length_filter_eq_length_iff.1 hlen
    have hns : status ≠ .succeeded := fun hs => by
      rw [h.succeeded_iff_failed, hf] at hs
      cases hs
    rw [if_neg hns, if_congr hall rfl rfl, hst, hf]
    rfl

theorem SagaRan.isStep (h : SagaRan node kind spareHost run tr status run' sh ut) {ev : OpsEvent}
    (hev : ev ∈ events tr) : ev.isStep = true := by
  rw [h.trace.events, h.spec.events.1] at hev
  obtain ⟨f, hf, t, rfl⟩ := SagaExecutor.mem_stamp hev
  rcases List.mem_append.1 hf with hf | hf
  · obtain ⟨s, -, rfl⟩ := List.mem_map.1 hf
    rfl
  · obtain ⟨u, -, rfl⟩ := List.mem_map.1 hf
    rfl

/-- While its saga runs, what a run shows agrees with the record as it was opened. -/
theorem SagaRan.tracks (h : SagaRan node kind spareHost run tr status run' sh ut)
    (hrun : Opened run) (hn : run.target = node.id) (hk : run.kind = kind) :
    Tracks run.id (.underway ⟨node.id, kind, [], []⟩) (some run) tr := by
  intro pre hpre
  obtain ⟨post, rfl⟩ := hpre
  have hf := h.follow_events
  rw [events_append, RunView.follow_append, Option.bind_eq_some_iff] at hf
  obtain ⟨v, hv, -⟩ := hf
  have hsteps : ∀ ev ∈ events pre, ev.isStep = true := fun ev hev => h.isStep (by
    rw [events_append]
    exact List.mem_append_left _ hev)
  obtain ⟨p, rfl, hpn, hpk⟩ := RunView.underway_of_follow hsteps hv
  have hno : savedRuns pre = [] := by
    have hruns := h.trace.runs
    rw [savedRuns_append, List.append_eq_nil_iff] at hruns
    exact hruns.1
  refine ⟨_, hv, ?_⟩
  rw [lastSaved_of_ne (by simp [hno]), Option.none_or]
  exact ⟨hn.trans hpn.symm, hk.trans hpk.symm, .inl hrun⟩

end Saga

/-! ## Opening and closing -/

theorem opened_openRun (node : ValidatorNode) (kind : DeploymentKind) (n : UInt64) (t : DateTime) :
    Opened (openRun node kind n t) := ⟨rfl, rfl, rfl⟩

theorem lastSaved_saveRun (run : DeploymentRun) (a : Except PortError Unit) :
    lastSaved run.id [⟨.saveRun run, a⟩] = some run := by
  simp [lastSaved, savedRunOf]

section Ends
variable {node : ValidatorNode} {kind : DeploymentKind} {n : UInt64} {t₀ t₁ : DateTime}
  {tr : List EngineSig.Ev}

/-- Opening a run: recorded first, announced then. -/
theorem tracks_opening (h : Tracks (runIdOf n) (.underway ⟨node.id, kind, [], []⟩)
    (some (openRun node kind n t₀)) tr) :
    Tracks (runIdOf n) .unseen none (opening node kind n t₀ t₁ ++ tr) := by
  have hopen := opened_openRun node kind n t₀
  refine .skip rfl rfl (.skip rfl rfl (.cons trivial (u := .unseen) rfl ?_) trivial) trivial
  have hsave : lastSaved (runIdOf n) [⟨.saveRun (openRun node kind n t₀), .ok ()⟩] =
      some (openRun node kind n t₀) := lastSaved_saveRun (openRun node kind n t₀) _
  rw [hsave, Option.some_or]
  refine .skip rfl rfl (.cons hopen (u := .underway ⟨node.id, kind, [], []⟩) ?_ h) hopen
  show (RunView.next (runIdOf n) .unseen (.runStarted (runIdOf n) node.id kind t₁)).bind _ = _
  rw [RunView.next_of_eq rfl]
  rfl

/-- Recorded, but never announced: the repository refused the record. -/
theorem tracks_unopened {e : PortError} (post : List EngineSig.Ev)
    (hev : events post = []) (hs : savedRuns post = []) :
    Tracks (runIdOf n) .unseen none ([⟨.nextRun, n⟩, ⟨.now, t₀⟩,
      ⟨.saveRun (openRun node kind n t₀), .error e⟩] ++ post) := by
  have hopen := opened_openRun node kind n t₀
  refine .skip rfl rfl (.skip rfl rfl (.cons trivial (u := .unseen) rfl ?_) trivial) trivial
  have hsave : lastSaved (runIdOf n) [⟨.saveRun (openRun node kind n t₀), .error e⟩] =
      some (openRun node kind n t₀) := lastSaved_saveRun (openRun node kind n t₀) _
  rw [hsave, Option.some_or]
  exact tracks_quiet (by simp [hev]) (by simp [hs]) hopen

theorem changes_run? {id : NodeId} {s : NodeState} {path : List NodeState}
    {f : DateTime → OpsEvent} (h : f ∈ changes id s path) (t : DateTime) : (f t).run? = none := by
  induction path generalizing s with
  | nil => cases h
  | cons g path ih =>
    rcases List.mem_cons.1 h with rfl | h
    · rfl
    · exact ih h

/-- The events of settling a node are about no run. -/
theorem Settled.run?_eq {status : RunStatus} {m : ValidatorNode}
    (h : Settled node kind status tr m) {ev : OpsEvent}
    (hev : ev ∈ OpsEngine.events tr) : ev.run? = none := by
  obtain ⟨ts, -, he⟩ := h.events
  rw [he] at hev
  obtain ⟨f, hf, t, rfl⟩ := SagaExecutor.mem_stamp hev
  exact changes_run? hf t

/-- Closing a run: recorded first, announced then, if it comes to that. -/
theorem tracks_ended {status : RunStatus} {p : Progress} {r₀ run : DeploymentRun}
    {r : Except CoreError DeploymentRun} (h : Ended node kind status run tr r)
    (h₀ : Agrees (.underway p) (some r₀)) (hp : p.outcome = status) (hn : run.target = p.node)
    (hk : run.kind = p.kind) (hsteps : run.completedSteps = p.completed) {post : List EngineSig.Ev}
    (hev : events post = []) (hs : savedRuns post = []) :
    Tracks run.id (.underway p) (some r₀) (tr ++ post) := by
  have hclosed : ∀ t, ClosedAs p (run.finish status t) := fun t => ⟨hp.symm, hsteps, rfl⟩
  have hpost : ∀ v rec, Agrees v rec → Tracks run.id v rec post := fun v rec ha =>
    tracks_quiet (by simp [hev]) (by simp [hs]) ha
  have hsave : ∀ t a, lastSaved run.id [⟨.saveRun (run.finish status t), a⟩] =
      some (run.finish status t) := fun t a => lastSaved_saveRun (run.finish status t) a
  have hsettle : ∀ {ft m rest}, Settled node kind status ft m →
      Tracks run.id (.underway p) (some r₀) rest →
      Tracks run.id (.underway p) (some r₀) (ft ++ rest) := by
    intro ft m rest hset hrest
    have hno : ∀ ev ∈ events ft, ev.run? ≠ some run.id := fun ev hev => by
      rw [hset.run?_eq hev]
      simp
    have hruns : lastSaved run.id ft = none := lastSaved_of_ne (by simp [hset.untouched.runs])
    refine (tracks_quiet hno (by simp [hset.untouched.runs]) h₀).append
      (RunView.follow_other hno _) ?_
    rw [hruns, Option.none_or]
    exact hrest
  cases h with
  | stuck hstuck =>
    refine tracks_quiet ?_ ?_ h₀
    · simp [hstuck.silent, hev]
    · simp [hstuck.untouched.runs, hs]
  | unsaved hset e =>
    rw [List.append_assoc]
    exact hsettle hset (.skip rfl rfl (hpost _ _ h₀) h₀)
  | unclosed hset t e =>
    rw [List.append_assoc]
    refine hsettle hset (.skip rfl rfl (.skip rfl rfl (.cons h₀ (u := .underway p) rfl ?_) h₀) h₀)
    rw [hsave, Option.some_or]
    exact hpost _ _ ⟨hn, hk, .inr (hclosed t)⟩
  | closed hset t t' =>
    rw [List.append_assoc]
    have hdone : Agrees (.underway p) (some (run.finish status t)) := ⟨hn, hk, .inr (hclosed t)⟩
    refine hsettle hset (.skip rfl rfl (.skip rfl rfl (.cons h₀ (u := .underway p) rfl ?_) h₀) h₀)
    rw [hsave, Option.some_or]
    refine .skip rfl rfl (.cons hdone (u := .ended p status) ?_ ?_) hdone
    · show (RunView.next run.id (.underway p) (.runFinished run.id status t')).bind _ = _
      rw [RunView.next_of_eq rfl]
      simp [RunView.extend, hp]
    · exact hpost _ _ ⟨hn, hk, hclosed t, rfl⟩

end Ends

/-! ## The whole call -/

theorem SagaRan.run?_eq {node : ValidatorNode} {kind : DeploymentKind} {spareHost : Option HostAddr}
    {run run' : DeploymentRun} {tr : List EngineSig.Ev} {status : RunStatus}
    {sh : SagaExecutor.Shape PlanStep} {ut : List (SagaSig PlanStep).Ev}
    (h : SagaRan node kind spareHost run tr status run' sh ut) {ev : OpsEvent}
    (hev : ev ∈ events tr) : ev.run? = some run.id := by
  rw [h.trace.events, h.spec.events.1] at hev
  obtain ⟨f, hf, t, rfl⟩ := SagaExecutor.mem_stamp hev
  rcases List.mem_append.1 hf with hf | hf
  · obtain ⟨s, -, rfl⟩ := List.mem_map.1 hf
    rfl
  · obtain ⟨u, -, rfl⟩ := List.mem_map.1 hf
    rfl

theorem Ended.run?_eq {node : ValidatorNode} {kind : DeploymentKind} {status : RunStatus}
    {run : DeploymentRun} {tr : List EngineSig.Ev} {r : Except CoreError DeploymentRun}
    (h : Ended node kind status run tr r) {ev : OpsEvent} (hev : ev ∈ events tr) {id : RunId}
    (hid : ev.run? = some id) : id = run.id := by
  have hno : ∀ {ft m}, Settled node kind status ft m → ev ∉ events ft := by
    intro ft m hset hmem
    rw [hset.run?_eq hmem] at hid
    cases hid
  cases h with
  | stuck hs =>
    rw [hs.silent] at hev
    cases hev
  | unsaved hs e =>
    exact absurd (by simpa [eventOf] using hev) (hno hs)
  | unclosed hs t e =>
    exact absurd (by simpa [eventOf] using hev) (hno hs)
  | @closed ft m hs t t' =>
    have hlast : ev ∈ events ft ∨ ev = .runFinished run.id status t' := by simpa [eventOf] using hev
    rcases hlast with hev | rfl
    · exact absurd hev (hno hs)
    · exact (Option.some.inj hid).symm

/-- A deployment is tracked under the id it takes. -/
theorem deploy_tracks {node : ValidatorNode} {kind : DeploymentKind}
    {spareHost : Option HostAddr} {tr : List EngineSig.Ev} {r : Except CoreError DeploymentRun}
    (h : (deploy node kind spareHost).run.Exec tr r) :
    ∃ n ∈ ids tr, (∀ ev ∈ events tr, ∀ id, ev.run? = some id → id = runIdOf n) ∧
      ∀ post : List EngineSig.Ev, events post = [] → savedRuns post = [] →
        Tracks (runIdOf n) .unseen none (tr ++ post) := by
  rcases deploy_cases h with ⟨n, t₀, e, rfl, -⟩ | ⟨n, t₀, t₁, st, et, status, run, sh, ut, rfl,
    hsaga, hend⟩
  · exact ⟨n, by simp [idOf], by simp [eventOf], fun post => tracks_unopened post⟩
  · have hrun := hsaga.spec.record
    have hid : run.id = runIdOf n := by rw [hrun]; rfl
    refine ⟨n, by simp [opening, idOf], fun ev hev id hr => ?_, fun post hev hs => ?_⟩
    · rw [events_append, events_append, List.mem_append, List.mem_append] at hev
      rcases hev with (hev | hev) | hev
      · have hstart : ev = .runStarted (runIdOf n) node.id kind t₁ := by
          simpa [opening, eventOf] using hev
        rw [hstart] at hr
        exact (Option.some.inj hr).symm
      · exact Option.some.inj (hr.symm.trans (hsaga.run?_eq hev))
      · exact (hend.run?_eq hev hr).trans hid
    · have hopen := opened_openRun node kind n t₀
      rw [List.append_assoc, List.append_assoc]
      refine tracks_opening ((hsaga.tracks hopen rfl rfl).append hsaga.follow_events ?_)
      rw [lastSaved_of_ne (by simp [hsaga.trace.runs]), Option.none_or]
      have hclose := tracks_ended (p := announced node kind sh) hend ⟨rfl, rfl, .inl hopen⟩
        hsaga.outcome_eq (by rw [hrun]; rfl) (by rw [hrun]; rfl) (by rw [hrun]; rfl) hev hs
      rw [hid] at hclose
      exact hclose

/-- **One call, for every run id**, whatever the ports answer. -/
theorem tracks_of_exec {nodeId : NodeId} {kind : DeploymentKind} {tr : List EngineSig.Ev}
    {r : Except CoreError DeploymentRun} (h : (startDeployment nodeId kind).run.Exec tr r) :
    ∀ id, Tracks id .unseen none tr := by
  intro id
  rcases startDeployment_cases h with ⟨e, hr, -⟩ | ⟨node, spareHost, lt, bt, hl, rfl, hd⟩
  · obtain ⟨hu, hev⟩ := hr.untouched
    exact tracks_quiet (by simp [hev]) (by simp [hu.runs]) trivial
  · obtain ⟨hu, hev⟩ := hl.untouched
    obtain ⟨n, hn, hown, htracks⟩ := deploy_tracks hd
    obtain ⟨n', rest, t₀, hbt, hrest, hrec⟩ := deploy_records hd
    have hnn : n = n' := by simpa [hbt, hrest, idOf] using hn
    have hsaved : ∀ p ∈ savedRuns bt, p.1.id = runIdOf n := by
      intro p hp
      rw [hnn]
      exact (hrec p (by simpa [hbt, savedRunOf] using hp)).id
    by_cases hid : id = runIdOf n
    · rw [hid, List.append_assoc]
      have hpre : Tracks (runIdOf n) .unseen none lt :=
        tracks_quiet (by simp [hev]) (by simp [hu.runs]) trivial
      refine hpre.append (u := .unseen) (by rw [hev]; rfl) ?_
      rw [lastSaved_of_ne (by simp [hu.runs]), Option.none_or]
      exact htracks _ rfl rfl
    · refine tracks_quiet (fun ev hmem hrun => hid (hown ev ?_ id hrun))
        (fun p hp heq => hid (heq.symm.trans (hsaved p ?_))) trivial
      · simpa [hev, eventOf] using hmem
      · simpa [hu.runs, savedRunOf] using hp

/-- And of a call stopped anywhere. -/
theorem tracks_of_after {nodeId : NodeId} {kind : DeploymentKind} {tr : List EngineSig.Ev}
    {q : Prog EngineSig (Except CoreError DeploymentRun)}
    (h : (startDeployment nodeId kind).run.After tr q) (id : RunId) :
    ∃ v, RunView.unseen.follow id (events tr) = some v ∧ Agrees v (lastSaved id tr) := by
  obtain ⟨tr', r, hq⟩ := exists_exec q
  obtain ⟨v, hv, ha⟩ := tracks_of_exec (h.exec hq) id tr (List.prefix_append ..)
  rw [Option.or_none] at ha
  exact ⟨v, hv, ha⟩

/-- Its events are about the run whose id it took. -/
theorem run?_of_after {nodeId : NodeId} {kind : DeploymentKind} {tr : List EngineSig.Ev}
    {q : Prog EngineSig (Except CoreError DeploymentRun)}
    (h : (startDeployment nodeId kind).run.After tr q) {ev : OpsEvent} (hev : ev ∈ events tr)
    {id : RunId} (hid : ev.run? = some id) : ∃ n ∈ ids tr, id = runIdOf n := by
  obtain ⟨v, hv, ha⟩ := tracks_of_after h id
  have hseen : v ≠ .unseen := fun heq => by
    rw [heq] at hv
    exact (RunView.unseen_of_follow hv).2 ev hev hid
  obtain ⟨run, hrun⟩ : ∃ run, lastSaved id tr = some run := by
    cases hl : lastSaved id tr with
    | some run => exact ⟨run, rfl⟩
    | none =>
      rw [hl] at ha
      cases v with
      | unseen => exact absurd rfl hseen
      | underway p => cases ha
      | ended p s => cases ha
  obtain ⟨p, hp, rfl⟩ := List.mem_map.1 (List.mem_of_getLast? hrun)
  obtain ⟨hp, hpid⟩ := List.mem_filter.1 hp
  rcases records_of_after h with hno | ⟨nd, n, t₀, -, hn, hrec⟩
  · rw [hno] at hp
    cases hp
  · refine ⟨n, by rw [hn]; exact List.mem_singleton.2 rfl, ?_⟩
    rw [← (hrec p hp).id]
    exact (of_decide_eq_true hpid).symm

end OpsEngine

end ValidatorForge.Core
