import Mathlib.Logic.Function.Basic
import ValidatorForge.Lib.LTS
import ValidatorForge.Resilience.Breaker

/-!
# Callers that share a breaker

Any number of callers on one breaker: each asks once and, if admitted, reports
one result at some later time; the breaker may also be looked at. The reports
do not say when their call was admitted, so `World` keeps it: a caller is a
probe (`IsProbe`) if it was admitted in HalfOpen and the breaker has not opened
since. `Timely` restricts the runs to those without a late success.
-/
namespace ValidatorForge.Resilience

/-- What a caller has done: nothing, been admitted (in which state, and after
how many openings of the breaker), or reported or been rejected. -/
inductive Caller where
  | idle
  | admitted (state : BreakerState) (opening : Nat)
  | done
  deriving DecidableEq, Repr

/-- `openings` counts the failures that left the breaker open. -/
structure World (ι : Type) where
  now : Nat
  inner : Inner
  openings : Nat
  caller : ι → Caller

inductive Action (ι : Type) where
  | acquire (i : ι)
  | onSuccess (i : ι)
  | onFailure (i : ι)
  | state

namespace World

variable {ι : Type} [DecidableEq ι]

def new : World ι := { now := 0, inner := Inner.new, openings := 0, caller := fun _ => .idle }

/-- One call at time `t`; `none` if the caller is not at that point. -/
def act (b : CircuitBreaker) (t : Nat) (w : World ι) : Action ι → Option (World ι)
  | .acquire i =>
    match w.caller i with
    | .idle =>
      let r := b.acquire t w.inner
      some { w with
        now := t
        inner := r.2
        caller := Function.update w.caller i
          (if r.1 = .error {} then .done else .admitted r.2.state w.openings) }
    | _ => none
  | .onSuccess i =>
    match w.caller i with
    | .admitted _ _ =>
      some { w with
        now := t
        inner := CircuitBreaker.onSuccess w.inner
        caller := Function.update w.caller i .done }
    | _ => none
  | .onFailure i =>
    match w.caller i with
    | .admitted _ _ =>
      let inner := b.onFailure t w.inner
      some { w with
        now := t
        inner
        openings := if inner.state = .open' then w.openings + 1 else w.openings
        caller := Function.update w.caller i .done }
    | _ => none
  | .state => some { w with now := t, inner := (b.state t w.inner).2 }

/-- Admitted in HalfOpen, and the breaker has not opened since. -/
def IsProbe (w : World ι) (i : ι) : Prop := w.caller i = .admitted .halfOpen w.openings

/-- A success is late if the breaker is not closed and its caller is no probe. -/
def Timely (w : World ι) : Nat × Action ι → Prop
  | (_, .onSuccess i) => w.inner.state = .closed ∨ w.IsProbe i
  | _ => True

end World

variable {ι : Type} [DecidableEq ι]

/-- The callers and their breaker, under a clock that never goes back. -/
def callers (ι : Type) [DecidableEq ι] (b : CircuitBreaker) : LTS (World ι) (Nat × Action ι) where
  init w := w = .new
  step w l w' := w.now ≤ l.1 ∧ w.act b l.1 l.2 = some w'

/-- Some probe reports success in the run `ls` from `w`. -/
def ProbeSucceeds (M : LTS (World ι) (Nat × Action ι)) (w : World ι)
    (ls : List (Nat × Action ι)) : Prop :=
  ∃ ls₁ t i ls₂ v, ls = ls₁ ++ (t, .onSuccess i) :: ls₂ ∧ M.Run w ls₁ v ∧ v.IsProbe i

/-- Once open, the breaker closes only through a probe's success, and admits
nobody before its cooldown has elapsed. -/
def OnlyProbesClose (b : CircuitBreaker) (M : LTS (World ι) (Nat × Action ι)) : Prop :=
  ∀ w ls w', M.Reachable w → w.inner.state = .open' → M.Run w ls w' →
    (w'.inner.state = .closed → ProbeSucceeds M w ls) ∧
    ∀ t, w'.now ≤ t → t - w.inner.openedAtMillis < b.cooldownMillis →
      (b.acquire t w'.inner).1 = .error {}

/-! ## What a step does -/

namespace World

/-- What one call does to the world. -/
inductive Acted (b : CircuitBreaker) (t : Nat) (w : World ι) : Action ι → World ι → Prop
  | asked (i : ι) (c : Caller) : w.caller i = .idle →
      (c = .done ∨ (b.refresh t w.inner).state ≠ .open' ∧
        c = .admitted (b.refresh t w.inner).state w.openings) →
      Acted b t w (.acquire i) { w with
        now := t
        inner := b.refresh t w.inner
        caller := Function.update w.caller i c }
  | succeeded (i : ι) : Acted b t w (.onSuccess i) { w with
      now := t
      inner := CircuitBreaker.onSuccess w.inner
      caller := Function.update w.caller i .done }
  | opened (i : ι) : (b.onFailure t w.inner).state = .open' →
      Acted b t w (.onFailure i) {
        now := t
        inner := b.onFailure t w.inner
        openings := w.openings + 1
        caller := Function.update w.caller i .done }
  | counted (i : ι) : (b.onFailure t w.inner).state ≠ .open' →
      Acted b t w (.onFailure i) { w with
        now := t
        inner := b.onFailure t w.inner
        caller := Function.update w.caller i .done }
  | looked : Acted b t w .state { w with now := t, inner := b.refresh t w.inner }

theorem acted_of_act {b : CircuitBreaker} {t : Nat} {w w' : World ι} {a : Action ι}
    (h : w.act b t a = some w') : Acted b t w a w' := by
  cases a with
  | acquire i =>
    simp only [act, CircuitBreaker.acquire_snd] at h
    split at h
    · rename_i hidle
      cases h
      refine .asked i _ hidle ?_
      by_cases he : (b.acquire t w.inner).1 = .error {}
      · exact .inl (if_pos he)
      · refine .inr ⟨fun ho => he ?_, if_neg he⟩
        exact CircuitBreaker.acquire_eq_error.2 (CircuitBreaker.refresh_state_open.1 ho)
    · cases h
  | onSuccess i =>
    simp only [act] at h
    split at h
    · cases h
      exact .succeeded i
    · cases h
  | onFailure i =>
    simp only [act] at h
    split at h
    · cases h
      by_cases ho : (b.onFailure t w.inner).state = .open'
      · rw [if_pos ho]
        exact .opened i ho
      · rw [if_neg ho]
        exact .counted i ho
    · cases h
  | state =>
    cases h
    exact .looked

/-- An open breaker opened in the past, and whoever was admitted was admitted
before that. -/
structure Inv (w : World ι) : Prop where
  openedAt : w.inner.state = .open' → w.inner.openedAtMillis ≤ w.now
  le : ∀ i s k, w.caller i = .admitted s k → k ≤ w.openings
  lt : w.inner.state = .open' → ∀ i s k, w.caller i = .admitted s k → k < w.openings

omit [DecidableEq ι] in
theorem Inv.not_probe {w : World ι} (h : w.Inv) (ho : w.inner.state = .open') (i : ι) :
    ¬ w.IsProbe i := fun hp => Nat.lt_irrefl _ (h.lt ho i _ _ hp)

theorem admitted_update {f : ι → Caller} {i j : ι} {c : Caller} {s : BreakerState} {k : Nat}
    (h : Function.update f i c j = .admitted s k) : c = .admitted s k ∨ f j = .admitted s k := by
  by_cases hj : j = i
  · subst hj
    rw [Function.update_self] at h
    exact .inl h
  · rw [Function.update_of_ne hj] at h
    exact .inr h

omit [DecidableEq ι] in
theorem inv_new : (World.new : World ι).Inv where
  openedAt h := by cases h
  le _ _ _ h := by cases h
  lt h := by cases h

theorem Inv.acted {b : CircuitBreaker} {t : Nat} {w w' : World ι} {a : Action ι} (hw : w.Inv)
    (ht : w.now ≤ t) (h : w.Acted b t a w') : w'.Inv := by
  have hrefresh : (b.refresh t w.inner).state = .open' →
      w.inner.state = .open' ∧ (b.refresh t w.inner).openedAtMillis ≤ t := by
    intro ho
    have hc := CircuitBreaker.refresh_state_open.1 ho
    have := hw.openedAt hc.1
    rw [CircuitBreaker.refresh_of_cooling hc]
    exact ⟨hc.1, by omega⟩
  cases h with
  | asked i c _ hc =>
    refine ⟨fun ho => (hrefresh ho).2, fun j s k hj => ?_, fun ho j s k hj => ?_⟩
    · rcases admitted_update hj with hj | hj
      · rcases hc with rfl | ⟨-, rfl⟩
        · cases hj
        · cases hj
          exact Nat.le_refl _
      · exact hw.le j s k hj
    · rcases admitted_update hj with hj | hj
      · rcases hc with rfl | ⟨hn, rfl⟩
        · cases hj
        · exact absurd ho hn
      · exact hw.lt (hrefresh ho).1 j s k hj
  | succeeded i =>
    refine ⟨fun ho => ?_, fun j s k hj => ?_, fun ho => ?_⟩
    · cases ho
    · rcases admitted_update hj with hj | hj
      · cases hj
      · exact hw.le j s k hj
    · cases ho
  | opened i ho =>
    have hlt : ∀ j s k, Function.update w.caller i .done j = .admitted s k → k < w.openings + 1 := by
      intro j s k hj
      rcases admitted_update hj with hj | hj
      · cases hj
      · have := hw.le j s k hj
        omega
    refine ⟨CircuitBreaker.onFailure_openedAt fun ho => ?_, fun j s k hj => ?_, fun _ => hlt⟩
    · have := hw.openedAt ho
      omega
    · exact Nat.le_of_lt (hlt j s k hj)
  | counted i hn =>
    refine ⟨fun ho => absurd ho hn, fun j s k hj => ?_, fun ho => absurd ho hn⟩
    rcases admitted_update hj with hj | hj
    · cases hj
    · exact hw.le j s k hj
  | looked => exact ⟨fun ho => (hrefresh ho).2, hw.le, fun ho => hw.lt (hrefresh ho).1⟩

/-- Only a reported success closes the breaker. -/
theorem Acted.closes {b : CircuitBreaker} {t : Nat} {w w' : World ι} {a : Action ι}
    (h : w.Acted b t a w') (hw : w.inner.state ≠ .closed) (hw' : w'.inner.state = .closed) :
    ∃ i, a = .onSuccess i := by
  cases h with
  | succeeded i => exact ⟨i, rfl⟩
  | asked | looked => exact absurd (CircuitBreaker.refresh_closed hw') hw
  | opened | counted => exact absurd (CircuitBreaker.onFailure_closed hw') hw

/-- The breaker was opened at `o` or later, unless the cooldown since has elapsed. -/
def Shielded (b : CircuitBreaker) (o : Nat) (w : World ι) : Prop :=
  w.now - o < b.cooldownMillis → w.inner.state = .open' ∧ o ≤ w.inner.openedAtMillis

/-- No caller has become a probe by then, so a timely success cannot come. -/
theorem Shielded.acted {b : CircuitBreaker} {o t : Nat} {w w' : World ι} {a : Action ι}
    (hs : w.Shielded b o) (hw : w.Inv) (ht : w.now ≤ t) (hg : w.Timely (t, a))
    (h : w.Acted b t a w') : w'.Shielded b o := by
  intro hcool
  have hnow : w'.now = t := by cases h <;> rfl
  obtain ⟨ho, hle⟩ := hs (by omega)
  have hcooling : b.Cooling t w.inner := ⟨ho, by omega⟩
  have hpast := hw.openedAt ho
  cases h with
  | asked | looked =>
    show (b.refresh t w.inner).state = _ ∧ o ≤ (b.refresh t w.inner).openedAtMillis
    rw [CircuitBreaker.refresh_of_cooling hcooling]
    exact ⟨ho, hle⟩
  | succeeded i =>
    rcases hg with hc | hp
    · rw [ho] at hc
      cases hc
    · exact absurd hp (hw.not_probe ho i)
  | opened i _ | counted i _ =>
    have hf := CircuitBreaker.onFailure_open (b := b) ho (Nat.le_trans hpast ht)
    exact ⟨hf.1, Nat.le_trans hle hf.2⟩

end World

/-! ## Runs without a late success -/

theorem inductive_inv (b : CircuitBreaker) : (callers ι b).Inductive World.Inv where
  init _ h := h ▸ World.inv_new
  step _ _ _ hw h := hw.acted h.1 (World.acted_of_act h.2)

theorem inv_of_guarded {b : CircuitBreaker} {w : World ι}
    (h : ((callers ι b).Guarded World.Timely).Reachable w) : w.Inv := by
  obtain ⟨w₀, ls, h₀, hrun⟩ := h
  exact hrun.of_guarded.keeps (inductive_inv b).step ((inductive_inv b).init _ h₀)

theorem shielded_of_run {b : CircuitBreaker} {o : Nat} {w w' : World ι}
    {ls : List (Nat × Action ι)} (hr : ((callers ι b).Guarded World.Timely).Run w ls w')
    (hw : w.Inv) (hs : w.Shielded b o) : w'.Shielded b o := by
  have hstep : ∀ v l v', v.Inv ∧ v.Shielded b o →
      ((callers ι b).Guarded World.Timely).step v l v' → v'.Inv ∧ v'.Shielded b o := by
    intro v l v' hv hl
    obtain ⟨hg, ht, hact⟩ := hl
    have hacted := World.acted_of_act hact
    exact ⟨hv.1.acted ht hacted, hv.2.acted hv.1 ht hg hacted⟩
  exact (hr.keeps hstep ⟨hw, hs⟩).2

theorem probe_of_closed {b : CircuitBreaker} {w w' : World ι} {ls : List (Nat × Action ι)}
    (hr : ((callers ι b).Guarded World.Timely).Run w ls w') (hw : w.inner.state ≠ .closed)
    (hw' : w'.inner.state = .closed) :
    ProbeSucceeds ((callers ι b).Guarded World.Timely) w ls := by
  induction hr with
  | nil => exact absurd hw' hw
  | @cons _ v _ l ls hstep hrest ih =>
    by_cases hv : v.inner.state = .closed
    · obtain ⟨i, ha⟩ := (World.acted_of_act hstep.2.2).closes hw hv
      obtain ⟨t, a⟩ := l
      subst ha
      exact ⟨[], t, i, ls, _, rfl, .nil _, hstep.1.resolve_left hw⟩
    · obtain ⟨ls₁, t, i, ls₂, u, hls, hrun, hp⟩ := ih hv hw'
      exact ⟨l :: ls₁, t, i, ls₂, u, by rw [hls]; rfl, .cons hstep hrun, hp⟩

/-- **Without a late success only a probe closes the breaker.** For any number
of callers, in every run in which nobody but a probe reports success while the
breaker is open or half open: an open breaker closes only after a probe's
success, and until its cooldown has elapsed it rejects every caller. -/
theorem onlyProbesClose_of_timely (ι : Type) [DecidableEq ι]
    (failureThreshold cooldownMillis : Nat) :
    OnlyProbesClose (CircuitBreaker.new failureThreshold cooldownMillis)
      ((callers ι (CircuitBreaker.new failureThreshold cooldownMillis)).Guarded World.Timely) := by
  intro w ls w' hreach ho hr
  have hw := inv_of_guarded hreach
  have hopen : w.inner.state ≠ .closed := by simp [ho]
  refine ⟨probe_of_closed hr hopen, fun t ht hcool => ?_⟩
  have hs := shielded_of_run hr hw (fun _ => ⟨ho, Nat.le_refl _⟩)
  obtain ⟨ho', hle⟩ := hs (by omega)
  exact CircuitBreaker.acquire_eq_error.2 ⟨ho', by omega⟩

/-- Caller 0 was admitted at 0 and failed at 1. -/
def tripped : World Nat :=
  { now := 1
    inner := { state := .open', consecutiveFailures := 1, openedAtMillis := 1 }
    openings := 1
    caller := Function.update (Function.update (fun _ => .idle) 0 (.admitted .closed 0)) 0 .done }

/-- Caller 1 is admitted when the cooldown has elapsed and reports success: it was the probe. -/
theorem onlyProbesClose_of_timely_probe :
    ProbeSucceeds ((callers Nat (CircuitBreaker.new 1 1000)).Guarded World.Timely) tripped
      [(1001, .acquire 1), (1002, .onSuccess 1)] := by
  have hreach : ((callers Nat (CircuitBreaker.new 1 1000)).Guarded World.Timely).Reachable
      tripped := by
    refine ⟨.new, [(0, .acquire 0), (1, .onFailure 0)], rfl, ?_⟩
    refine .cons ⟨?_, Nat.le_refl 0, rfl⟩ (.cons ⟨?_, Nat.zero_le 1, rfl⟩ (.nil _)) <;> exact trivial
  refine (onlyProbesClose_of_timely Nat 1 1000 tripped [(1001, .acquire 1), (1002, .onSuccess 1)]
    { now := 1002
      inner := { state := .closed, consecutiveFailures := 0, openedAtMillis := 1 }
      openings := 1
      caller := Function.update (Function.update tripped.caller 1 (.admitted .halfOpen 1)) 1 .done }
    hreach rfl ?_).1 rfl
  refine .cons ⟨?_, by decide, rfl⟩ (.cons ⟨?_, by decide, rfl⟩ (.nil _))
  · exact trivial
  · exact .inr rfl

/-- Two callers are admitted at 0, the first fails at 1 and trips the breaker,
the second succeeds at 2: the breaker is closed, and admits a caller at 3. -/
theorem late_success_closes :
    ¬ OnlyProbesClose (CircuitBreaker.new 1 1000) (callers Nat (CircuitBreaker.new 1 1000)) := by
  intro h
  have hcl := h _ [(2, .onSuccess 1)] _
    ⟨.new, [(0, .acquire 0), (0, .acquire 1), (1, .onFailure 0)], rfl,
      .cons ⟨Nat.le_refl 0, rfl⟩ (.cons ⟨Nat.le_refl 0, rfl⟩ (.cons ⟨Nat.zero_le 1, rfl⟩ (.nil _)))⟩
    rfl (.cons ⟨Nat.le_succ 1, rfl⟩ (.nil _))
  have hrej := hcl.2 3 (by decide) (by decide)
  cases hrej

end ValidatorForge.Resilience
