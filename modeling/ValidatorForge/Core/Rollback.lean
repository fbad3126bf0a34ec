import ValidatorForge.Core.Plan
import ValidatorForge.Lib.Unwind

/-!
# Rollback soundness of the executor

The steps of a saga act on a world `W` (`World`: what `execute` and
`compensate` may answer in a state, and the state after; publishing an event
and reading the clock leave it alone). `path_calls`: a run changes the world
only through the method calls of its trace, so the trace law turns into a
statement about the world: if every step's compensation undoes its effect and a
failed `execute` has none, a run that returns `RolledBack` ends where it
started (`rolledBack_restores`).
-/
namespace ValidatorForge.Core

open Interaction ValidatorForge.Types Prog SagaExecutor Unwind

/-- What the methods of the steps do to a world. -/
structure World (σ W : Type) where
  execute : σ → SagaContext → W → Except PortError Unit → W → Prop
  compensate : σ → SagaContext → W → Except PortError Unit → W → Prop

namespace World

variable {σ W : Type}

def env (A : World σ W) : Env (SagaSig σ) W
  | .execute s ctx, w, r, w' => A.execute s ctx w r w'
  | .compensate s ctx, w, r, w' => A.compensate s ctx w r w'
  | .publish _, w, _, w' => w' = w
  | .now, w, _, w' => w' = w

/-- The effect of one call of a trace. -/
def act (A : World σ W) : Call σ → W → W → Prop
  | .execute s ctx b, w, w' => ∃ r, r.isOk = b ∧ A.execute s ctx w r w'
  | .compensate s ctx b, w, w' => ∃ r, r.isOk = b ∧ A.compensate s ctx w r w'

/-- A trace changes the world by its calls, in order. -/
theorem path_calls (A : World σ W) {tr : List (SagaSig σ).Ev} {w w' : W}
    (h : A.env.Accepts w tr w') : Path A.act (calls tr) w w' := by
  induction tr generalizing w with
  | nil => exact h
  | cons e tr ih =>
    obtain ⟨w₁, he, ht⟩ := h
    obtain ⟨o, r⟩ := e
    cases o with
    | execute s ctx => exact ⟨w₁, ⟨r, rfl, he⟩, ih ht⟩
    | compensate s ctx => exact ⟨w₁, ⟨r, rfl, he⟩, ih ht⟩
    | publish ev => cases he; exact ih ht
    | now => cases he; exact ih ht

variable [SagaStep σ]

/-- **Rollback soundness.** For any world, any steps acting on it and any start
state: if compensating a successful step leads back to the state before it and
a failing step leaves the state alone, a run that returns `RolledBack` leaves
the world as it found it. -/
theorem rolledBack_restores (A : World σ W) (steps : List σ) (ctx : SagaContext)
    (hinv : ∀ s ∈ steps, ∀ a b c, A.execute s ctx a (.ok ()) b →
      A.compensate s ctx b (.ok ()) c → c = a)
    (hfail : ∀ s ∈ steps, ∀ a e b, A.execute s ctx a (.error e) b → b = a)
    (r r' : DeploymentRun) (tr : List (SagaSig σ).Ev) (w w' : W)
    (hrun : (SagaExecutor.run steps ctx r).Exec tr (.rolledBack, r'))
    (hw : A.env.Accepts w tr w') : w' = w := by
  obtain ⟨sh, hs⟩ := forward_spec ctx steps [] r tr _ _ hrun
  obtain ⟨s, hf, hc⟩ := hs.calls_of_rolledBack
  have hp := A.path_calls hw
  rw [hc, List.append_assoc, path_append] at hp
  obtain ⟨a, hdone, hp⟩ := hp
  rw [List.singleton_append] at hp
  obtain ⟨b, ⟨res, hres, hexec⟩, hundo⟩ := hp
  have hsplit := hs.split
  rw [hf] at hsplit
  have hba : b = a := by
    cases res with
    | ok _ => cases hres
    | error e => exact hfail s (by simp [hsplit]) _ _ _ hexec
  subst hba
  rw [List.nil_append, path_map] at hundo
  refine path_unwind ?_ (path_map.1 hdone) hundo
  rintro i hi x y z ⟨r₁, h₁, hx⟩ ⟨r₂, h₂, hy⟩
  cases r₁ <;> cases h₁
  cases r₂ <;> cases h₂
  exact hinv i (by simp [hsplit, hi]) _ _ _ hx hy

/-- Steps that write themselves on a journal, and whose compensation strikes
the last entry out, which must be theirs. -/
def journal : World PlanStep (List PlanStep) where
  execute s _ w r w' := w' = if r.isOk then s :: w else w
  compensate s _ w r w' := w = if r.isOk then s :: w' else w'

/-- A journal on which `AwaitCatchup` cannot be written. -/
def journalHandler : Handler (SagaSig PlanStep) (List PlanStep)
  | .execute s _, w => if s = .awaitCatchupStep then (.error (.internal ""), w) else (.ok (), s :: w)
  | .compensate s _, w =>
    match w with
    | [] => (.error (.internal ""), w)
    | x :: rest => if x = s then (.ok (), rest) else (.error (.internal ""), w)
  | .publish _, w => ((), w)
  | .now, w => (0, w)

theorem journalHandler_allowed (o : SagaOp PlanStep) (w : List PlanStep) :
    journal.env o w (journalHandler o w).1 (journalHandler o w).2 := by
  cases o with
  | execute s ctx =>
    show _ = _
    by_cases h : s = .awaitCatchupStep <;> simp [journalHandler, h, Except.isOk, Except.toBool]
  | compensate s ctx =>
    show _ = _
    cases w with
    | nil => rfl
    | cons x rest =>
      by_cases h : x = s <;> simp [journalHandler, h, Except.isOk, Except.toBool]
  | publish e => rfl
  | now => rfl

/-- An upgrade whose catch-up fails leaves the journal as it was. -/
theorem rolledBack_restores_journal :
    let ctx : SagaContext := ⟨⟨"val01.internal"⟩, ⟨"2.0.14"⟩, none⟩
    let out := (SagaExecutor.run (buildPlan (.upgrade ⟨"2.1.0"⟩)) ctx
      (.new ⟨1⟩ ⟨"eu-val-01"⟩ (.upgrade ⟨"2.1.0"⟩) 0)).runWith journalHandler [.tuneHostStep]
    out.val.1 = .rolledBack ∧ out.world = [.tuneHostStep] := by
  intro ctx out
  have hinv : ∀ s ∈ buildPlan (.upgrade ⟨"2.1.0"⟩), ∀ a b c,
      journal.execute s ctx a (.ok ()) b → journal.compensate s ctx b (.ok ()) c → c = a := by
    intro s _ a b c hx hy
    have hb : b = s :: a := hx
    have hc : b = s :: c := hy
    rw [hb] at hc
    exact (List.cons_eq_cons.1 hc).2.symm
  have hfail : ∀ s ∈ buildPlan (.upgrade ⟨"2.1.0"⟩), ∀ a e b,
      journal.execute s ctx a (.error e) b → b = a := fun s _ a e b hx => hx
  exact ⟨rfl, rolledBack_restores journal _ ctx hinv hfail _ out.val.2 _ _ _
    (exec_runWith journalHandler _ _) (Env.accepts_runWith journalHandler_allowed _ _)⟩

end World

end ValidatorForge.Core
