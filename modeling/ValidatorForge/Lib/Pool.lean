import Mathlib.Logic.Function.Basic
import ValidatorForge.Lib.LTS
import ValidatorForge.Lib.Prog

/-!
# Programs interleaved over one environment

`pool E p w₀`: one thread for each index, thread `i` running the program `p i`;
a step is one operation of one thread, answered by the shared environment. All
interleavings of any number of threads are runs of this system.

* `pool_after`: a thread's program and its trace determine what is left of it.
* `trace_of_run`, `accepts_of_run`: the steps of a run, read thread by thread and
  read as one trace.
* `run_guarded`, `run_after`: a thread that runs undisturbed for a while.
-/
namespace Interaction

open Prog

/-- A thread: what it has done and what is left. -/
structure Thread (S : Sig) (α : Type) where
  trace : List S.Ev
  rest : Prog S α

structure PoolState (S : Sig) (ι W α : Type) where
  world : W
  thread : ι → Thread S α

variable {S : Sig} {ι W α : Type} [DecidableEq ι]

/-- Thread `i` has performed `tr`, `q` is left of it, and the world is `w`. -/
def PoolState.advance (s : PoolState S ι W α) (i : ι) (tr : List S.Ev) (q : Prog S α) (w : W) :
    PoolState S ι W α :=
  ⟨w, Function.update s.thread i ⟨(s.thread i).trace ++ tr, q⟩⟩

def pool (E : Env S W) (p : ι → Prog S α) (w₀ : W → Prop) : LTS (PoolState S ι W α) (ι × S.Ev) where
  init s := w₀ s.world ∧ ∀ i, s.thread i = ⟨[], p i⟩
  step s l s' := ∃ k w', (s.thread l.1).rest = .op l.2.1 k ∧ E l.2.1 s.world l.2.2 w' ∧
    s' = s.advance l.1 [l.2] (k l.2.2) w'

namespace PoolState

@[simp] theorem advance_world (s : PoolState S ι W α) (i : ι) (tr : List S.Ev) (q : Prog S α)
    (w : W) : (s.advance i tr q w).world = w := rfl

@[simp] theorem advance_self (s : PoolState S ι W α) (i : ι) (tr : List S.Ev) (q : Prog S α)
    (w : W) : (s.advance i tr q w).thread i = ⟨(s.thread i).trace ++ tr, q⟩ :=
  Function.update_self ..

theorem advance_of_ne (s : PoolState S ι W α) {i j : ι} (h : j ≠ i) (tr : List S.Ev)
    (q : Prog S α) (w : W) : (s.advance i tr q w).thread j = s.thread j :=
  Function.update_of_ne h ..

theorem advance_nil (s : PoolState S ι W α) (i : ι) :
    s.advance i [] (s.thread i).rest s.world = s := by
  unfold advance
  simp

theorem advance_advance (s : PoolState S ι W α) (i : ι) (t₁ t₂ : List S.Ev) (q₁ q₂ : Prog S α)
    (w₁ w₂ : W) :
    (s.advance i t₁ q₁ w₁).advance i t₂ q₂ w₂ = s.advance i (t₁ ++ t₂) q₂ w₂ := by
  unfold advance
  simp

end PoolState

variable {E : Env S W} {p : ι → Prog S α} {w₀ : W → Prop}

/-- What is left of every thread is its program after its trace. -/
def Threads (p : ι → Prog S α) (s : PoolState S ι W α) : Prop :=
  ∀ i, (p i).After (s.thread i).trace (s.thread i).rest

theorem threads_step {s s' : PoolState S ι W α} {l : ι × S.Ev} (h : Threads p s)
    (hs : (pool E p w₀).step s l s') : Threads p s' := by
  obtain ⟨k, w', hk, -, rfl⟩ := hs
  intro j
  by_cases hj : j = l.1
  · subst hj
    rw [PoolState.advance_self]
    exact (h l.1).append ⟨k, hk, rfl⟩
  · rw [PoolState.advance_of_ne s hj]
    exact h j

theorem threads_init {s : PoolState S ι W α} (h : (pool E p w₀).init s) : Threads p s := by
  intro i
  rw [h.2 i]
  rfl

theorem pool_after {s : PoolState S ι W α} (h : (pool E p w₀).Reachable s) : Threads p s :=
  LTS.Inductive.reachable ⟨fun _ => threads_init, fun _ _ _ => threads_step⟩ s h

/-- What a thread was told, the environment answered. -/
theorem pool_answered {s : PoolState S ι W α} (h : (pool E p w₀).Reachable s) (i : ι) :
    ∀ e ∈ (s.thread i).trace, ∃ w w', E e.1 w e.2 w' := by
  refine LTS.Inductive.reachable (M := pool E p w₀)
    (I := fun s => ∀ e ∈ (s.thread i).trace, ∃ w w', E e.1 w e.2 w') ⟨?_, ?_⟩ s h
  · intro s hs e he
    rw [hs.2 i] at he
    cases he
  · intro s l s' hI hs
    obtain ⟨k, w', -, hE, rfl⟩ := hs
    by_cases hi : i = l.1
    · subst hi
      rw [PoolState.advance_self]
      intro e he
      rcases List.mem_append.1 he with he | he
      · exact hI e he
      · rw [List.mem_singleton.1 he]
        exact ⟨s.world, w', hE⟩
    · rw [PoolState.advance_of_ne s hi]
      exact hI

/-- A thread of one operation: its only step is that one, and it has then returned. -/
theorem pool_step_single {i : ι} {s s' : PoolState S ι W α} {e : S.Ev}
    (h : (pool E p w₀).Reachable s) (hs : (pool E p w₀).step s (i, e) s') {o : S.Op}
    {f : S.Resp o → α} (hp : p i = .op o fun r => .ret (f r)) :
    ∃ r, E o s.world r s'.world ∧ (s'.thread i).rest = .ret (f r) := by
  have hafter := pool_after h i
  rw [hp] at hafter
  obtain ⟨k, w', hk, he, rfl⟩ := hs
  cases htr : (s.thread i).trace with
  | nil =>
    rw [htr] at hafter
    cases hk.symm.trans hafter
    refine ⟨e.2, he, ?_⟩
    rw [PoolState.advance_self]
  | cons d tr =>
    rw [htr] at hafter
    obtain ⟨k', hk', hrest⟩ := hafter
    cases hk'
    have hret := (after_ret.1 hrest).2
    cases hk.symm.trans hret

/-- The steps of a run are, thread by thread, what the threads have done since. -/
theorem trace_of_run {s s' : PoolState S ι W α} {ls : List (ι × S.Ev)}
    (h : (pool E p w₀).Run s ls s') (i : ι) :
    (s'.thread i).trace = (s.thread i).trace ++ (ls.filter fun l => l.1 = i).map Prod.snd := by
  induction h with
  | nil => simp
  | @cons s s₁ s₂ l ls hs _ ih =>
    obtain ⟨k, w', -, -, rfl⟩ := hs
    rw [ih]
    by_cases hi : l.1 = i
    · subst hi
      simp
    · rw [PoolState.advance_of_ne s (Ne.symm hi)]
      simp [hi]

/-- And in their order what the environment answered. -/
theorem accepts_of_run {s s' : PoolState S ι W α} {ls : List (ι × S.Ev)}
    (h : (pool E p w₀).Run s ls s') : E.Accepts s.world (ls.map Prod.snd) s'.world := by
  induction h with
  | nil => rfl
  | cons hs _ ih =>
    obtain ⟨k, w', -, he, rfl⟩ := hs
    exact ⟨w', he, ih⟩

/-- **A thread on its own.** While the environment accepts it, one thread may
perform any part of what is left of it, the others standing still; the guard has
to hold where each operation begins. -/
theorem run_guarded {G : PoolState S ι W α → ι × S.Ev → Prop} {s : PoolState S ι W α} {i : ι}
    {tr : List S.Ev} {q : Prog S α} {w' : W} (h : (s.thread i).rest.After tr q)
    (hw : E.Accepts s.world tr w') (hne : tr ≠ [])
    (hG : ∀ pre e post q₁ w₁, tr = pre ++ e :: post → E.Accepts s.world pre w₁ →
      G (s.advance i pre q₁ w₁) (i, e)) :
    ((pool E p w₀).Guarded G).Run s (tr.map (Prod.mk i)) (s.advance i tr q w') := by
  induction tr generalizing s with
  | nil => exact absurd rfl hne
  | cons e tr ih =>
    obtain ⟨k, hk, h⟩ := h
    obtain ⟨w₁, he, hw⟩ := hw
    have hstep : ((pool E p w₀).Guarded G).step s (i, e) (s.advance i [e] (k e.2) w₁) := by
      refine ⟨?_, k, w₁, hk, he, rfl⟩
      have hg := hG [] e tr (s.thread i).rest s.world rfl rfl
      rw [PoolState.advance_nil] at hg
      exact hg
    cases tr with
    | nil =>
      cases h
      cases hw
      exact .cons hstep (.nil _)
    | cons e' tr =>
      have hrun := @ih (s.advance i [e] (k e.2) w₁) (by rw [PoolState.advance_self]; exact h) hw
        (by simp) (by
          intro pre e₁ post q₁ w₂ htr hacc
          rw [PoolState.advance_advance]
          exact hG (e :: pre) e₁ post q₁ w₂ (by rw [htr]; rfl) ⟨w₁, he, hacc⟩)
      rw [PoolState.advance_advance] at hrun
      exact .cons hstep hrun

theorem run_after {s : PoolState S ι W α} {i : ι} {tr : List S.Ev} {q : Prog S α} {w' : W}
    (h : (s.thread i).rest.After tr q) (hw : E.Accepts s.world tr w') (hne : tr ≠ []) :
    (pool E p w₀).Run s (tr.map (Prod.mk i)) (s.advance i tr q w') :=
  (run_guarded (G := fun _ _ => True) h hw hne fun _ _ _ _ _ _ _ => trivial).of_guarded

end Interaction
