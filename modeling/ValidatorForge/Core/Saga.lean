import ValidatorForge.Core.Ports

/-!
# The saga executor

crates/validatorforge-core/src/saga.rs. `SagaStep` is the trait: a type of
steps, each standing for an action; calling `execute` or `compensate` on one is
an operation of `SagaSig`, so the executor is one program for all step types
and all (stateful) step behaviours. The concrete steps (`PlanStep`) and
`buildPlan` follow it; what their two methods do is a program over `AgentSig`.

* `run_trace_law`: the calls made, the status, the run record and the events
  of one run, for every list of steps and every pattern of failures.
* `RunSpec.calls_of_rolledBack`: on `RolledBack` the whole of the executed
  prefix was compensated, in reverse, and every compensation succeeded.
-/
namespace ValidatorForge.Core

open Interaction ValidatorForge.Types Prog

/-- mirrors crates/validatorforge-core/src/saga.rs:19-29 (`agent` is whatever
interprets the steps' programs) -/
structure SagaContext where
  host : HostAddr
  version : ValidatorVersion
  spareHost : Option HostAddr
  deriving DecidableEq, Repr

/-- mirrors crates/validatorforge-core/src/saga.rs:31-45 (`execute` and
`compensate` are the operations of `SagaSig`) -/
class SagaStep (σ : Type) where
  action : σ → OpsActionKind

inductive SagaOp (σ : Type) where
  | execute (step : σ) (ctx : SagaContext)
  | compensate (step : σ) (ctx : SagaContext)
  | publish (event : OpsEvent)
  | now

@[reducible] def SagaOp.Resp {σ : Type} : SagaOp σ → Type
  | .execute .. | .compensate .. => Except PortError Unit
  | .publish _ => Unit
  | .now => DateTime

abbrev SagaSig (σ : Type) : Sig where
  Op := SagaOp σ
  Resp := SagaOp.Resp

namespace SagaExecutor

open SagaStep

variable {σ : Type}

def execute (step : σ) (ctx : SagaContext) : Prog (SagaSig σ) (Except PortError Unit) :=
  perform (S := SagaSig σ) (.execute step ctx)

def compensate (step : σ) (ctx : SagaContext) : Prog (SagaSig σ) (Except PortError Unit) :=
  perform (S := SagaSig σ) (.compensate step ctx)

def publish (e : OpsEvent) : Prog (SagaSig σ) Unit := perform (S := SagaSig σ) (.publish e)

def now : Prog (SagaSig σ) DateTime := perform (S := SagaSig σ) .now

section Executor
variable [SagaStep σ]

/-- The loop over the completed steps, last first; `all` is `all_compensated`.
mirrors crates/validatorforge-core/src/saga.rs:207-219 -/
def unwind (ctx : SagaContext) (run : DeploymentRun) : List σ → Bool → Prog (SagaSig σ) Bool
  | [], all => pure all
  | done :: rest, all => do
    match ← compensate done ctx with
    | .ok () => do
      publish (.stepCompensated run.id (action done) (← now))
      unwind ctx run rest all
    | .error _ => unwind ctx run rest false

/-- The loop over the steps; `completed` is the vector of that name.
mirrors crates/validatorforge-core/src/saga.rs:189-227 -/
def forward (ctx : SagaContext) :
    List σ → List σ → DeploymentRun → Prog (SagaSig σ) (RunStatus × DeploymentRun)
  | [], _, run => pure (.succeeded, run)
  | step :: rest, completed, run => do
    match ← execute step ctx with
    | .ok () => do
      let run := run.recordStep (action step)
      publish (.stepCompleted run.id (action step) (← now))
      forward ctx rest (completed ++ [step]) run
    | .error _ => do
      let all ← unwind ctx run completed.reverse true
      pure (if all then .rolledBack else .failed, run)

/-- mirrors crates/validatorforge-core/src/saga.rs:183-228 -/
def run (steps : List σ) (ctx : SagaContext) (run : DeploymentRun) :
    Prog (SagaSig σ) (RunStatus × DeploymentRun) :=
  forward ctx steps [] run

end Executor

/-! ## What a trace shows -/

/-- A call of one of a step's methods and whether it returned `Ok`. -/
inductive Call (σ : Type) where
  | execute (step : σ) (ctx : SagaContext) (ok : Bool)
  | compensate (step : σ) (ctx : SagaContext) (ok : Bool)
  deriving DecidableEq

def callOf : (SagaSig σ).Ev → Option (Call σ)
  | ⟨.execute s ctx, r⟩ => some (.execute s ctx r.isOk)
  | ⟨.compensate s ctx, r⟩ => some (.compensate s ctx r.isOk)
  | _ => none

def eventOf : (SagaSig σ).Ev → Option OpsEvent
  | ⟨.publish e, _⟩ => some e
  | _ => none

def readingOf : (SagaSig σ).Ev → Option DateTime
  | ⟨.now, t⟩ => some t
  | _ => none

/-- The method calls, the published events and the clock readings of a trace. -/
def calls (tr : List (SagaSig σ).Ev) : List (Call σ) := tr.filterMap callOf

def published (tr : List (SagaSig σ).Ev) : List OpsEvent := tr.filterMap eventOf

def readings (tr : List (SagaSig σ).Ev) : List DateTime := tr.filterMap readingOf

theorem filterMap_cons_toList {α β : Type} (f : α → Option β) (a : α) (l : List α) :
    (a :: l).filterMap f = (f a).toList ++ l.filterMap f := by
  cases h : f a <;> simp [h]

@[simp] theorem calls_nil : calls ([] : List (SagaSig σ).Ev) = [] := rfl
@[simp] theorem published_nil : published ([] : List (SagaSig σ).Ev) = [] := rfl
@[simp] theorem readings_nil : readings ([] : List (SagaSig σ).Ev) = [] := rfl

@[simp] theorem calls_cons (e : (SagaSig σ).Ev) (tr : List (SagaSig σ).Ev) :
    calls (e :: tr) = (callOf e).toList ++ calls tr := filterMap_cons_toList ..

@[simp] theorem published_cons (e : (SagaSig σ).Ev) (tr : List (SagaSig σ).Ev) :
    published (e :: tr) = (eventOf e).toList ++ published tr := filterMap_cons_toList ..

@[simp] theorem readings_cons (e : (SagaSig σ).Ev) (tr : List (SagaSig σ).Ev) :
    readings (e :: tr) = (readingOf e).toList ++ readings tr := filterMap_cons_toList ..

@[simp] theorem calls_append (t₁ t₂ : List (SagaSig σ).Ev) :
    calls (t₁ ++ t₂) = calls t₁ ++ calls t₂ := List.filterMap_append ..

@[simp] theorem published_append (t₁ t₂ : List (SagaSig σ).Ev) :
    published (t₁ ++ t₂) = published t₁ ++ published t₂ := List.filterMap_append ..

@[simp] theorem readings_append (t₁ t₂ : List (SagaSig σ).Ev) :
    readings (t₁ ++ t₂) = readings t₁ ++ readings t₂ := List.filterMap_append ..

/-- Events still lacking their time, stamped with successive clock readings. -/
def stamp (evs : List (DateTime → OpsEvent)) (ts : List DateTime) : List OpsEvent :=
  List.zipWith (fun e t => e t) evs ts

theorem mem_stamp {evs : List (DateTime → OpsEvent)} {ts : List DateTime} {ev : OpsEvent}
    (h : ev ∈ stamp evs ts) : ∃ f ∈ evs, ∃ t, ev = f t := by
  induction evs generalizing ts with
  | nil => simp [stamp] at h
  | cons f evs ih =>
    cases ts with
    | nil => simp [stamp] at h
    | cons t ts =>
      simp only [stamp, List.zipWith_cons_cons, List.mem_cons] at h
      rcases h with rfl | h
      · exact ⟨f, List.mem_cons_self, t, rfl⟩
      · obtain ⟨g, hg, t', ht⟩ := ih h
        exact ⟨g, List.mem_cons_of_mem _ hg, t', ht⟩

/-- The events `evs` were published, each stamped by a clock reading of its own. -/
def Stamped (evs : List (DateTime → OpsEvent)) (tr : List (SagaSig σ).Ev) : Prop :=
  published tr = stamp evs (readings tr) ∧ (readings tr).length = evs.length

theorem Stamped.append {e₁ e₂ : List (DateTime → OpsEvent)} {t₁ t₂ : List (SagaSig σ).Ev}
    (h₁ : Stamped e₁ t₁) (h₂ : Stamped e₂ t₂) : Stamped (e₁ ++ e₂) (t₁ ++ t₂) := by
  obtain ⟨p₁, l₁⟩ := h₁
  obtain ⟨p₂, l₂⟩ := h₂
  refine ⟨?_, by simp [l₁, l₂]⟩
  rw [published_append, readings_append, p₁, p₂]
  unfold stamp
  rw [List.zipWith_append l₁.symm]

/-- Publishing right after reading the clock. -/
theorem Stamped.cons {e : DateTime → OpsEvent} {t : DateTime} {evs : List (DateTime → OpsEvent)}
    {tr : List (SagaSig σ).Ev} (h : Stamped evs tr) :
    Stamped (e :: evs) (⟨.now, t⟩ :: ⟨.publish (e t), ()⟩ :: tr) := by
  have h₁ : Stamped [e] ([⟨.now, t⟩, ⟨.publish (e t), ()⟩] : List (SagaSig σ).Ev) := ⟨rfl, rfl⟩
  exact h₁.append h

/-- A method call publishes nothing and reads no clock. -/
theorem Stamped.call {o : SagaOp σ} {r : o.Resp} {evs : List (DateTime → OpsEvent)}
    {tr : List (SagaSig σ).Ev} (h : Stamped evs tr)
    (ho : ∃ s ctx, o = .execute s ctx ∨ o = .compensate s ctx) : Stamped evs (⟨o, r⟩ :: tr) := by
  obtain ⟨s, ctx, rfl | rfl⟩ := ho <;> exact h

/-! ## The trace law -/

section Law
variable [SagaStep σ]

def completedEv (r : RunId) (s : σ) (t : DateTime) : OpsEvent := .stepCompleted r (action s) t

def compensatedEv (r : RunId) (s : σ) (t : DateTime) : OpsEvent := .stepCompensated r (action s) t

/-- How a run went: `done` is the prefix whose `execute` succeeded, `failed` the
step whose `execute` failed, `rest` the steps never touched, and `undone` the
compensations called, each with whether it returned `Ok`. -/
structure Shape (σ : Type) where
  done : List σ
  failed : Option σ
  rest : List σ
  undone : List (σ × Bool)

/-- What a run of `steps` in `ctx` on the record `r` does when it goes as `sh` says and
`completed` (empty at the start) was done before. -/
structure RunSpec (ctx : SagaContext) (completed steps : List σ) (r : DeploymentRun)
    (sh : Shape σ) (tr : List (SagaSig σ).Ev) (status : RunStatus) (r' : DeploymentRun) : Prop where
  split : steps = sh.done ++ sh.failed.toList ++ sh.rest
  stops : sh.failed = none → sh.rest = []
  unwound : sh.undone.map Prod.fst =
    if sh.failed.isSome then (completed ++ sh.done).reverse else []
  made : calls tr = sh.done.map (Call.execute · ctx true) ++
    sh.failed.toList.map (Call.execute · ctx false) ++
    sh.undone.map fun u => Call.compensate u.1 ctx u.2
  status : status = if sh.failed.isSome then
    (if sh.undone.all Prod.snd then .rolledBack else .failed) else .succeeded
  record : r' = r.recordSteps (sh.done.map action)
  events : Stamped (sh.done.map (completedEv r.id) ++
    (sh.undone.filter Prod.snd).map fun u => compensatedEv r.id u.1) tr

theorem unwind_spec (ctx : SagaContext) (r : DeploymentRun) (l : List σ) (all b : Bool)
    (tr : List (SagaSig σ).Ev) (h : (unwind ctx r l all).Exec tr b) :
    ∃ undone : List (σ × Bool), undone.map Prod.fst = l ∧ b = (all && undone.all Prod.snd) ∧
      calls tr = (undone.map fun u => Call.compensate u.1 ctx u.2) ∧
      Stamped ((undone.filter Prod.snd).map fun u => compensatedEv r.id u.1) tr := by
  induction l generalizing all tr with
  | nil =>
    obtain ⟨rfl, rfl⟩ := h
    exact ⟨[], rfl, by simp, rfl, rfl, rfl⟩
  | cons s l ih =>
    obtain ⟨ans, tr', rfl, h⟩ := h
    cases ans with
    | ok _ =>
      obtain ⟨t, _, rfl, _, tr₂, rfl, h⟩ := h
      obtain ⟨undone, hm, hb, hc, hst⟩ := ih all tr₂ h
      refine ⟨(s, true) :: undone, by simp [hm], by simpa using hb, ?_, ?_⟩
      · simpa [callOf, Except.isOk, Except.toBool] using hc
      · exact hst.cons.call ⟨s, ctx, .inr rfl⟩
    | error e =>
      obtain ⟨undone, hm, hb, hc, hst⟩ := ih false tr' h
      refine ⟨(s, false) :: undone, by simp [hm], by simpa using hb, ?_, ?_⟩
      · simpa [callOf, Except.isOk, Except.toBool] using hc
      · exact hst.call ⟨s, ctx, .inr rfl⟩

theorem forward_spec (ctx : SagaContext) (steps completed : List σ) (r : DeploymentRun)
    (tr : List (SagaSig σ).Ev) (status : RunStatus) (r' : DeploymentRun)
    (h : (forward ctx steps completed r).Exec tr (status, r')) :
    ∃ sh, RunSpec ctx completed steps r sh tr status r' := by
  induction steps generalizing completed r tr with
  | nil =>
    obtain ⟨rfl, hr⟩ := h
    cases hr
    exact ⟨⟨[], none, [], []⟩, rfl, fun _ => rfl, rfl, rfl, rfl, by simp, rfl, rfl⟩
  | cons s steps ih =>
    obtain ⟨ans, tr', rfl, h⟩ := h
    cases ans with
    | ok _ =>
      obtain ⟨t, _, rfl, _, tr₂, rfl, h⟩ := h
      obtain ⟨sh, hs⟩ := ih (completed ++ [s]) (r.recordStep (action s)) tr₂ h
      refine ⟨{ sh with done := s :: sh.done }, ?_, hs.stops, ?_, ?_, hs.status, ?_, ?_⟩
      · simpa using hs.split
      · simpa using hs.unwound
      · simpa [callOf, Except.isOk, Except.toBool] using hs.made
      · rw [hs.record, DeploymentRun.recordSteps_recordStep]; rfl
      · exact hs.events.cons.call ⟨s, ctx, .inl rfl⟩
    | error e =>
      obtain ⟨t₁, all, t₂, rfl, hu, hret⟩ := (exec_bind (unwind ctx r completed.reverse true) ..).1 h
      obtain ⟨rfl, hret⟩ := hret
      obtain ⟨undone, hm, hb, hc, hst⟩ := unwind_spec _ _ _ _ _ _ hu
      simp only [Prod.mk.injEq] at hret
      obtain ⟨rfl, rfl⟩ := hret
      refine ⟨⟨[], some s, steps, undone⟩, rfl, (fun hf => by cases hf), by simpa using hm, ?_,
        ?_, by simp, ?_⟩
      · simpa [callOf, Except.isOk, Except.toBool] using hc
      · rw [hb, Bool.true_and]; rfl
      · simpa using hst.call ⟨s, ctx, .inl rfl⟩

/-- The status read off the calls alone. -/
structure StatusLaw (ctx : SagaContext) (tr : List (SagaSig σ).Ev) (status : RunStatus) : Prop where
  succeeded : status = .succeeded ↔ ∀ s, Call.execute s ctx false ∉ calls tr
  rolledBack : status = .rolledBack ↔
    (∃ s, Call.execute s ctx false ∈ calls tr) ∧ ∀ s, Call.compensate s ctx false ∉ calls tr
  failed : status = .failed ↔
    (∃ s, Call.execute s ctx false ∈ calls tr) ∧ ∃ s, Call.compensate s ctx false ∈ calls tr

section RunSpec
variable {ctx : SagaContext} {completed steps : List σ} {r r' : DeploymentRun} {sh : Shape σ}
  {tr : List (SagaSig σ).Ev} {status : RunStatus}

theorem RunSpec.execute_false_mem (h : RunSpec ctx completed steps r sh tr status r') (s : σ) :
    Call.execute s ctx false ∈ calls tr ↔ sh.failed = some s := by
  rw [h.made]
  cases sh.failed <;> simp [eq_comm]

theorem RunSpec.compensate_mem (h : RunSpec ctx completed steps r sh tr status r') (s : σ)
    (b : Bool) :
    Call.compensate s ctx b ∈ calls tr ↔ (s, b) ∈ sh.undone := by
  rw [h.made]
  cases sh.failed <;> simp

theorem RunSpec.statusLaw (h : RunSpec ctx completed steps r sh tr status r') :
    StatusLaw ctx tr status := by
  have hall : sh.undone.all Prod.snd = true ↔ ∀ s, Call.compensate s ctx false ∉ calls tr := by
    simp only [h.compensate_mem, List.all_eq_true, Prod.forall]
    constructor
    · intro ha s hs
      exact absurd (ha s false hs) (by simp)
    · intro ha s b hs
      cases b with
      | true => rfl
      | false => exact absurd hs (ha s)
  have hst := h.status
  cases hf : sh.failed with
  | none =>
    have hex : ∀ s, Call.execute s ctx false ∉ calls tr := by
      intro s; rw [h.execute_false_mem, hf]; simp
    simp only [hf, Option.isSome_none, Bool.false_eq_true, if_false] at hst
    subst hst
    refine ⟨by simpa using hex, ?_, ?_⟩ <;> simp [hex]
  | some s =>
    have hex : ∃ s, Call.execute s ctx false ∈ calls tr := ⟨s, by rw [h.execute_false_mem, hf]⟩
    simp only [hf, Option.isSome_some, if_true] at hst
    cases hu : sh.undone.all Prod.snd with
    | true =>
      have hn := hall.1 hu
      rw [hu, if_pos rfl] at hst
      subst hst
      exact ⟨by simpa using hex, by simp [hex, hn], by simp [hn]⟩
    | false =>
      have hn : ∃ s, Call.compensate s ctx false ∈ calls tr := by
        by_contra hc
        rw [not_exists] at hc
        rw [hall.2 hc] at hu; cases hu
      rw [hu, if_neg (by simp)] at hst
      subst hst
      exact ⟨by simpa using hex, by simpa [hex] using hn, by simp [hex, hn]⟩

/-- On `RolledBack` the executed prefix was compensated in reverse, every
compensation answering `Ok`. -/
theorem RunSpec.calls_of_rolledBack (h : RunSpec ctx completed steps r sh tr .rolledBack r') :
    ∃ s, sh.failed = some s ∧
      calls tr = sh.done.map (Call.execute · ctx true) ++ [Call.execute s ctx false] ++
        (completed ++ sh.done).reverse.map (Call.compensate · ctx true) := by
  have hst := h.status
  have hu := h.unwound
  cases hf : sh.failed with
  | none => simp [hf] at hst
  | some s =>
    simp only [hf, Option.isSome_some, if_true] at hst hu
    have hall : ∀ u ∈ sh.undone, u.2 = true := by
      by_contra hc
      rw [if_neg (by simpa using hc)] at hst
      cases hst
    refine ⟨s, rfl, ?_⟩
    rw [h.made, hf, ← hu, List.map_map]
    congr 1
    exact List.map_congr_left fun u hm => by rw [hall u hm]; rfl

/-- After a failure each step completed before it is compensated; a compensation
that fails makes the run `Failed`. -/
theorem RunSpec.compensated (h : RunSpec ctx [] steps r sh tr status r') {f s : σ}
    (hf : sh.failed = some f) (hs : s ∈ sh.done) :
    ∃ pre ans post, tr = pre ++ ⟨.compensate s ctx, ans⟩ :: post ∧
      Call.execute f ctx false ∈ calls pre ∧ (ans.isOk = false → status = .failed) := by
  have hu : s ∈ sh.undone.map Prod.fst := by
    rw [h.unwound]
    simpa [hf] using hs
  obtain ⟨⟨_, b⟩, hb, rfl⟩ := List.mem_map.1 hu
  obtain ⟨u₁, u₂, hsplit⟩ := List.append_of_mem hb
  have hmade := h.made
  rw [hsplit, List.map_append, ← List.append_assoc, List.map_cons] at hmade
  obtain ⟨t₁, t₂, rfl, h₁, h₂⟩ := List.filterMap_eq_append_iff.1 hmade
  obtain ⟨t₃, e, t₄, rfl, -, he, -⟩ := List.filterMap_eq_cons_iff.1 h₂
  obtain ⟨o, ans⟩ := e
  cases o with
  | compensate s' ctx' =>
    simp only [callOf, Option.some.injEq, Call.compensate.injEq] at he
    obtain ⟨rfl, rfl, rfl⟩ := he
    refine ⟨t₁ ++ t₃, ans, t₄, by simp, ?_, fun hans => ?_⟩
    · rw [calls_append, List.mem_append]
      refine .inl ?_
      rw [calls, h₁]
      simp [hf]
    · have hall : sh.undone.all Prod.snd = false := by
        rw [hsplit]
        simp [hans]
      rw [h.status, hf, hall]
      rfl
  | _ => cases he

end RunSpec

/-- **Trace law.** Whatever the steps' methods do and whatever state `W` they
share, one run executes the steps in order up to the first failure, then
compensates the executed prefix in reverse, once each and whatever the
compensations answer; the status, the run record and the published events are
those this determines. -/
theorem run_trace_law {W : Type} (methods : Handler (SagaSig σ) W) (w : W) (steps : List σ)
    (ctx : SagaContext) (r : DeploymentRun) :
    let out := (run steps ctx r).runWith methods w
    (∃ sh, RunSpec ctx [] steps r sh out.trace out.val.1 out.val.2) ∧
      StatusLaw ctx out.trace out.val.1 := by
  obtain ⟨sh, hs⟩ := forward_spec ctx steps [] r _ _ _ (exec_runWith methods (run steps ctx r) w)
  exact ⟨⟨sh, hs⟩, hs.statusLaw⟩

end Law

end SagaExecutor

end ValidatorForge.Core
