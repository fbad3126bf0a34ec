import Mathlib.Algebra.Order.Ring.Nat
import ValidatorForge.Lib.Cost
import ValidatorForge.Lib.Prog

/-!
# Bounded retry

crates/validatorforge-resilience/src/retry.rs. A `Duration` is its number of
nanoseconds. `backoffFor` takes the wall clock's nanoseconds as an argument and
is `none` where the source panics. `retry` is generic in the monad its `op` runs
in; the loop carries the number of attempts made, and recurses on how many more
the budget can allow, which never runs out before the budget does
(`retryLoop_left`).
-/
namespace ValidatorForge.Resilience

open Interaction Prog

/-- `u32::MAX` and `u64::MAX`. -/
def U32_MAX : Nat := 4294967295
def U64_MAX : Nat := 18446744073709551615

/-- `Duration::MAX`: `u64::MAX` seconds and 999 999 999 nanoseconds. -/
def DURATION_MAX : Nat := U64_MAX * 1000000000 + 999999999

/-- mirrors crates/validatorforge-resilience/src/retry.rs:10-19 -/
structure RetryPolicy where
  maxAttempts : Nat
  baseDelay : Nat
  maxDelay : Nat
  deriving DecidableEq, Repr

namespace RetryPolicy

/-- mirrors crates/validatorforge-resilience/src/retry.rs:21-29 -/
def default : RetryPolicy :=
  { maxAttempts := 3, baseDelay := 50000000, maxDelay := 5000000000 }

/-- mirrors crates/validatorforge-resilience/src/retry.rs:32-40 -/
def new (maxAttempts baseDelay maxDelay : Nat) : RetryPolicy :=
  { maxAttempts := max maxAttempts 1, baseDelay, maxDelay }

/-- `base * 2^n` capped at `max_delay`; the factor is held in a `u32`.
mirrors crates/validatorforge-resilience/src/retry.rs:48-52 -/
def cappedDelay (p : RetryPolicy) (retryIndex : Nat) : Nat :=
  let factor := if retryIndex < 64 then 1 <<< retryIndex else U64_MAX
  let raw := min (p.baseDelay * if factor ≤ U32_MAX then factor else U32_MAX) DURATION_MAX
  min raw p.maxDelay

/-- Half of `capped`, and of the other half a part the clock chooses.
mirrors crates/validatorforge-resilience/src/retry.rs:53-64 -/
def jittered (nanos capped : Nat) : Option Nat :=
  let half := capped / 2
  let jitterSpan := capped - half
  if jitterSpan = 0 then some half
  else
    -- `as u64` keeps the low 64 bits, and a remainder by zero panics
    let span := max jitterSpan 1 % (U64_MAX + 1)
    if span = 0 then none
    else if half + nanos % span ≤ DURATION_MAX then some (half + nanos % span)
    else none

/-- `nanos` is `subsec_nanos` of the wall clock.
mirrors crates/validatorforge-resilience/src/retry.rs:42-65 -/
def backoffFor (p : RetryPolicy) (nanos retryIndex : Nat) : Option Nat :=
  jittered nanos (p.cappedDelay retryIndex)

/-- The delay is half of `capped`, and below the narrowed span what the clock says. -/
theorem jittered_eq_some {nanos capped d : Nat} :
    jittered nanos capped = some d ↔
      capped - capped / 2 = 0 ∧ d = capped / 2 ∨
      0 < (capped - capped / 2) % (U64_MAX + 1) ∧
        d = capped / 2 + nanos % ((capped - capped / 2) % (U64_MAX + 1)) ∧ d ≤ DURATION_MAX := by
  unfold jittered
  dsimp only
  by_cases hz : capped - capped / 2 = 0
  · simp [hz, eq_comm]
  · have hone : max (capped - capped / 2) 1 = capped - capped / 2 := by omega
    rw [if_neg hz, hone]
    generalize (capped - capped / 2) % (U64_MAX + 1) = span
    by_cases hs : span = 0
    · simp [hs, hz]
    · rw [if_neg hs]
      by_cases hadd : capped / 2 + nanos % span ≤ DURATION_MAX
      · rw [if_pos hadd, Option.some.injEq]
        omega
      · simp only [if_neg hadd, reduceCtorEq, false_iff]
        omega

/-- With a cap that fits a `u64` of nanoseconds the narrowing loses nothing. -/
theorem exists_jittered {capped : Nat} (h : capped ≤ U64_MAX) (nanos : Nat) :
    ∃ d, jittered nanos capped = some d := by
  have hmax : U64_MAX ≤ DURATION_MAX := by decide
  have hspan : (capped - capped / 2) % (U64_MAX + 1) = capped - capped / 2 :=
    Nat.mod_eq_of_lt (by omega)
  simp only [jittered_eq_some, hspan]
  by_cases hz : capped - capped / 2 = 0
  · exact ⟨_, .inl ⟨hz, rfl⟩⟩
  · have hpos := Nat.pos_of_ne_zero hz
    have hlt := Nat.mod_lt nanos hpos
    exact ⟨_, .inr ⟨hpos, rfl, by omega⟩⟩

theorem exists_backoffFor {p : RetryPolicy} (h : p.maxDelay ≤ U64_MAX) (nanos retryIndex : Nat) :
    ∃ d, p.backoffFor nanos retryIndex = some d :=
  exists_jittered (Nat.le_trans (Nat.min_le_right ..) h) nanos

/-- Half of the capped delay is never taken off. -/
theorem half_le_jittered {nanos capped d : Nat} (h : jittered nanos capped = some d) :
    capped / 2 ≤ d := by
  rcases jittered_eq_some.1 h with ⟨-, hd⟩ | ⟨-, hd, -⟩
  · omega
  · omega

/-- Nor is more than the capped delay waited. -/
theorem jittered_le {nanos capped d : Nat} (h : jittered nanos capped = some d) : d ≤ capped := by
  rcases jittered_eq_some.1 h with ⟨-, hd⟩ | ⟨hpos, hd, -⟩
  · omega
  · have hlt := Nat.mod_lt nanos hpos
    have hle := Nat.mod_le (capped - capped / 2) (U64_MAX + 1)
    omega

/-- Where any jitter can be computed none can be, too. -/
theorem jittered_zero {nanos capped d : Nat} (h : jittered nanos capped = some d) :
    jittered 0 capped = some (capped / 2) := by
  rw [jittered_eq_some]
  rcases jittered_eq_some.1 h with ⟨hz, -⟩ | ⟨hpos, hd, hmax⟩
  · exact .inl ⟨hz, rfl⟩
  · exact .inr ⟨hpos, by rw [Nat.zero_mod, Nat.add_zero], by omega⟩

/-- The factor the code multiplies by. -/
theorem factor_eq (n : Nat) :
    (if (if n < 64 then 1 <<< n else U64_MAX) ≤ U32_MAX then
      (if n < 64 then 1 <<< n else U64_MAX) else U32_MAX) = min (2 ^ n) U32_MAX := by
  by_cases hn : n < 64
  · simp only [hn, if_true, Nat.shiftLeft_eq, Nat.one_mul]
    split <;> omega
  · have hpow : 2 ^ 64 ≤ 2 ^ n := Nat.pow_le_pow_right (by decide) (by omega)
    have hmax : ¬ U64_MAX ≤ U32_MAX := by decide
    have hle : U32_MAX ≤ 2 ^ 64 := by decide
    simp only [hn, if_false, hmax]
    omega

theorem cappedDelay_eq_min (p : RetryPolicy) (n : Nat) :
    p.cappedDelay n =
      min (min (p.baseDelay * min (2 ^ n) U32_MAX) DURATION_MAX) p.maxDelay := by
  unfold cappedDelay
  simp only [factor_eq]

theorem cappedDelay_zero_le (p : RetryPolicy) (retryIndex : Nat) :
    p.cappedDelay 0 ≤ p.cappedDelay retryIndex := by
  have hone : 1 ≤ 2 ^ retryIndex := Nat.one_le_two_pow
  have hfactor : min (2 ^ 0) U32_MAX ≤ min (2 ^ retryIndex) U32_MAX := by
    simp only [Nat.pow_zero]
    omega
  have hraw := Nat.mul_le_mul_left p.baseDelay hfactor
  rw [cappedDelay_eq_min, cappedDelay_eq_min]
  omega

/-- The first backoff without jitter is the shortest. -/
theorem backoffFor_zero_le {p : RetryPolicy} {nanos retryIndex d d₀ : Nat}
    (h : p.backoffFor nanos retryIndex = some d) (h₀ : p.backoffFor 0 0 = some d₀) : d₀ ≤ d := by
  have hd := half_le_jittered h
  have hzero : d₀ = p.cappedDelay 0 / 2 := Option.some.inj (h₀.symm.trans (jittered_zero h₀))
  have hcap := p.cappedDelay_zero_le retryIndex
  omega

section Retry
variable {m : Type → Type} [Monad m] {E T : Type}

/-- The loop, `attempt` attempts made.
mirrors crates/validatorforge-resilience/src/retry.rs:79-94 -/
def retryLoop (p : RetryPolicy) (op : m (Except E T)) (isRetryable : E → Bool)
    (backoff : Nat → m Nat) (sleep : Nat → m Unit) : (left attempt : Nat) → m (Except E T)
  | left, attempt => do
    match ← op with
    | .ok v => return .ok v
    | .error e =>
      let attempt := attempt + 1
      if attempt ≥ p.maxAttempts ∨ !isRetryable e then return .error e
      else
        let delay ← backoff (attempt - 1)
        if delay ≠ 0 then sleep delay
        match left with
        | 0 => return .error e
        | left + 1 => retryLoop p op isRetryable backoff sleep left attempt

/-- mirrors crates/validatorforge-resilience/src/retry.rs:67-95 -/
def retry (p : RetryPolicy) (op : m (Except E T)) (isRetryable : E → Bool)
    (backoff : Nat → m Nat) (sleep : Nat → m Unit) : m (Except E T) :=
  retryLoop p op isRetryable backoff sleep p.maxAttempts 0

variable (p : RetryPolicy) (op : m (Except E T)) (isRetryable : E → Bool)
  (backoff : Nat → m Nat) (sleep : Nat → m Unit)

/-- Where the attempts made and those left reach the budget, one more left
changes nothing. -/
theorem retryLoop_left (left attempt : Nat) (h : p.maxAttempts ≤ attempt + left + 1) :
    retryLoop p op isRetryable backoff sleep (left + 1) attempt =
      retryLoop p op isRetryable backoff sleep left attempt := by
  induction left generalizing attempt with
  | zero =>
    have hmax : attempt + 1 ≥ p.maxAttempts := by omega
    unfold retryLoop
    simp only [hmax, true_or, if_true]
  | succ left ih =>
    rw [retryLoop, retryLoop]
    simp only [ih (attempt + 1) (by omega)]

end Retry

/-- A retry makes at least one attempt. -/
theorem exec_retry {S : Sig} {E T : Type} {p : RetryPolicy} {op : Prog S (Except E T)}
    {isRetryable : E → Bool} {backoff : Nat → Prog S Nat} {sleep : Nat → Prog S Unit}
    {tr : List S.Ev} {r : Except E T}
    (h : (p.retry op isRetryable backoff sleep).Exec tr r) :
    ∃ t₁ a t₂, tr = t₁ ++ t₂ ∧ op.Exec t₁ a := by
  unfold retry retryLoop at h
  rw [exec_bind] at h
  obtain ⟨t₁, a, t₂, htr, hop, -⟩ := h
  exact ⟨t₁, a, t₂, htr, hop⟩

/-- One turn of the loop: the attempt is the last one, or it failed, a backoff
follows and the loop goes on with one attempt more made. -/
theorem exec_retryLoop {S : Sig} {E T : Type} {p : RetryPolicy} {op : Prog S (Except E T)}
    {isRetryable : E → Bool} {backoff : Nat → Prog S Nat} {sleep : Nat → Prog S Unit}
    {left attempt : Nat} {tr : List S.Ev} {r : Except E T}
    (h : (p.retryLoop op isRetryable backoff sleep left attempt).Exec tr r) :
    op.Exec tr r ∨
    ∃ e t₁ d t₂ t₃ t₄, tr = t₁ ++ (t₂ ++ (t₃ ++ t₄)) ∧ op.Exec t₁ (.error e) ∧
      attempt + 1 < p.maxAttempts ∧ (backoff attempt).Exec t₂ d ∧
      (d = 0 ∧ t₃ = [] ∨ (sleep d).Exec t₃ ()) ∧
      (t₄ = [] ∨ ∃ left', left = left' + 1 ∧
        (p.retryLoop op isRetryable backoff sleep left' (attempt + 1)).Exec t₄ r) := by
  unfold retryLoop at h
  rw [exec_bind] at h
  obtain ⟨t₁, a, t₂, rfl, hop, h⟩ := h
  cases a with
  | ok v =>
    obtain ⟨rfl, rfl⟩ := h
    exact .inl (by simpa using hop)
  | error e =>
    dsimp only at h
    split at h
    · obtain ⟨rfl, rfl⟩ := h
      exact .inl (by simpa using hop)
    · rename_i hmore
      rw [exec_bind] at h
      obtain ⟨t₂, d, t₃, rfl, hback, h⟩ := h
      refine .inr ⟨e, t₁, d, t₂, ?_⟩
      split at h
      · rw [exec_bind] at h
        obtain ⟨t₃, _, t₄, rfl, hsleep, h⟩ := h
        refine ⟨t₃, t₄, rfl, hop, by omega, hback, .inr hsleep, ?_⟩
        cases left with
        | zero => exact .inl h.1
        | succ left => exact .inr ⟨left, rfl, h⟩
      · rename_i hd
        refine ⟨[], t₃, rfl, hop, by omega, hback, .inl ⟨by omega, rfl⟩, ?_⟩
        cases left with
        | zero => exact .inl h.1
        | succ left => exact .inr ⟨left, rfl, h⟩

/-- The loop ends with this outcome, `attempt` attempts made before it. -/
def Stops {E T : Type} (p : RetryPolicy) (isRetryable : E → Bool) (attempt : Nat) :
    Except E T → Prop
  | .ok _ => True
  | .error e => p.maxAttempts ≤ attempt + 1 ∨ isRetryable e = false

/-- A delay is slept, unless it is zero. -/
def Slept {S : Sig} (sleep : Nat → Prog S Unit) (d : Nat) (tr : List S.Ev) : Prop :=
  if d = 0 then tr = [] else (sleep d).Exec tr ()

theorem exec_slept {S : Sig} {α : Type} {sleep : Nat → Prog S Unit} {d : Nat} {q : Prog S α}
    {tr : List S.Ev} {r : α} :
    (if d ≠ 0 then sleep d >>= fun _ => q else q).Exec tr r ↔
      ∃ t₁ t₂, tr = t₁ ++ t₂ ∧ Slept sleep d t₁ ∧ q.Exec t₂ r := by
  unfold Slept
  by_cases hd : d = 0
  · simp [hd]
  · simp only [ne_eq, hd, not_false_eq_true, if_true, if_false]
    rw [exec_bind]
    constructor
    · rintro ⟨t₁, _, t₂, rfl, h₁, h₂⟩
      exact ⟨t₁, t₂, rfl, h₁, h₂⟩
    · rintro ⟨t₁, t₂, rfl, h₁, h₂⟩
      exact ⟨t₁, (), t₂, rfl, h₁, h₂⟩

/-- **One turn of the loop**, with enough left for the budget: it ends with an
outcome that stops it, or pauses and goes on. -/
theorem exec_retryLoop_iff {S : Sig} {E T : Type} {p : RetryPolicy} {op : Prog S (Except E T)}
    {isRetryable : E → Bool} {backoff : Nat → Prog S Nat} {sleep : Nat → Prog S Unit}
    {left attempt : Nat} (hleft : p.maxAttempts ≤ attempt + left + 1)
    {tr : List S.Ev} {r : Except E T} :
    (p.retryLoop op isRetryable backoff sleep left attempt).Exec tr r ↔
      ∃ t₁ x t₂, tr = t₁ ++ t₂ ∧ op.Exec t₁ x ∧
        ((p.Stops isRetryable attempt x ∧ t₂ = [] ∧ r = x) ∨
        (¬ p.Stops isRetryable attempt x ∧ ∃ t₃ d t₄ t₅, t₂ = t₃ ++ (t₄ ++ t₅) ∧
          (backoff attempt).Exec t₃ d ∧ Slept sleep d t₄ ∧
          (p.retryLoop op isRetryable backoff sleep (left - 1) (attempt + 1)).Exec t₅ r)) := by
  rw [retryLoop, exec_bind]
  refine exists_congr fun t₁ => exists_congr fun x => exists_congr fun t₂ => ?_
  refine and_congr_right fun _ => and_congr_right fun _ => ?_
  cases x with
  | ok v => simp [Stops]
  | error e =>
    dsimp only
    by_cases hstop : p.Stops (T := T) isRetryable attempt (.error e)
    · have hc : attempt + 1 ≥ p.maxAttempts ∨ (!isRetryable e) = true := by
        rcases hstop with h | h
        · exact .inl h
        · exact .inr (by rw [h]; rfl)
      rw [if_pos hc]
      simp [hstop]
    · have hc : ¬ (attempt + 1 ≥ p.maxAttempts ∨ (!isRetryable e) = true) := by
        intro h
        refine hstop ?_
        rcases h with h | h
        · exact .inl h
        · exact .inr (by simpa using h)
      have hleft' : left = left - 1 + 1 := by
        have : ¬ p.maxAttempts ≤ attempt + 1 := fun h => hstop (.inl h)
        omega
      generalize left - 1 = more at hleft'
      subst hleft'
      rw [if_neg hc, exec_bind]
      simp only [hstop, false_and, false_or, not_false_eq_true, true_and]
      constructor
      · rintro ⟨t₃, d, t, rfl, hb, h⟩
        obtain ⟨t₄, t₅, rfl, hs, h⟩ := exec_slept.1 h
        exact ⟨t₃, d, t₄, t₅, rfl, hb, hs, h⟩
      · rintro ⟨t₃, d, t₄, t₅, rfl, hb, hs, h⟩
        exact ⟨t₃, d, _, rfl, hb, exec_slept.2 ⟨t₄, t₅, rfl, hs, h⟩⟩

/-- A loop seen as a whole, `attempt` attempts made before it: its turns, and what it ends with. -/
inductive Retried {S : Sig} {E T : Type} (p : RetryPolicy) (op : Prog S (Except E T))
    (isRetryable : E → Bool) (backoff : Nat → Prog S Nat) (sleep : Nat → Prog S Unit) :
    Nat → List S.Ev → Except E T → Prop
  | last {attempt : Nat} {tr : List S.Ev} {r : Except E T} (hop : op.Exec tr r)
      (hstop : p.Stops isRetryable attempt r) :
      Retried p op isRetryable backoff sleep attempt tr r
  | again {attempt d : Nat} {t₁ t₂ t₃ t₄ : List S.Ev} {e : E} {r : Except E T}
      (hop : op.Exec t₁ (.error e)) (hmore : attempt + 1 < p.maxAttempts)
      (hback : (backoff attempt).Exec t₂ d) (hslept : Slept sleep d t₃)
      (hrest : Retried p op isRetryable backoff sleep (attempt + 1) t₄ r) :
      Retried p op isRetryable backoff sleep attempt (t₁ ++ (t₂ ++ (t₃ ++ t₄))) r

theorem retried_of_exec {S : Sig} {E T : Type} {p : RetryPolicy} {op : Prog S (Except E T)}
    {isRetryable : E → Bool} {backoff : Nat → Prog S Nat} {sleep : Nat → Prog S Unit}
    {left attempt : Nat} (hleft : p.maxAttempts ≤ attempt + left + 1)
    {tr : List S.Ev} {r : Except E T}
    (h : (p.retryLoop op isRetryable backoff sleep left attempt).Exec tr r) :
    Retried p op isRetryable backoff sleep attempt tr r := by
  induction left generalizing attempt tr with
  | zero =>
    obtain ⟨t₁, x, t₂, rfl, hop, ⟨hstop, rfl, rfl⟩ | ⟨hgo, -⟩⟩ := (exec_retryLoop_iff hleft).1 h
    · rw [List.append_nil]
      exact .last hop hstop
    · cases x with
      | ok v => exact absurd trivial hgo
      | error e => exact absurd (.inl hleft) hgo
  | succ left ih =>
    obtain ⟨t₁, x, t₂, rfl, hop,
      ⟨hstop, rfl, rfl⟩ | ⟨hgo, t₃, d, t₄, t₅, rfl, hback, hslept, hrest⟩⟩ :=
      (exec_retryLoop_iff hleft).1 h
    · rw [List.append_nil]
      exact .last hop hstop
    · cases x with
      | ok v => exact absurd trivial hgo
      | error e =>
        have hmore : attempt + 1 < p.maxAttempts := by
          by_contra hle
          exact hgo (.inl (by omega))
        exact .again hop hmore hback hslept (ih (by omega) hrest)

section Cost
variable {S : Sig} {E T : Type} {p : RetryPolicy} {op : Prog S (Except E T)}
  {isRetryable : E → Bool} {backoff : Nat → Prog S Nat} {sleep : Nat → Prog S Unit}
  {G : Answers S} {w : S.Op → Nat} {cost longest pause : Nat}

theorem within_slept {α : Type} {q : Prog S α} {n d : Nat} (hsleep : (sleep d).Within G w pause)
    (hq : q.Within G w n) :
    (if d ≠ 0 then sleep d >>= fun _ => q else q).Within G w (pause + n) := by
  split
  · exact hsleep.andThen fun _ => hq
  · exact hq.mono (by omega)

/-- One turn and what follows it (`q`). -/
theorem within_turn (hop : op.Within G w cost) (hback : ∀ i, (backoff i).Within G w 0)
    (hdelay : ∀ i, (backoff i).Ensures G (fun _ => True) (· ≤ longest))
    (hsleep : ∀ d ≤ longest, (sleep d).Within G w pause) {attempt n : Nat}
    (hn : p.maxAttempts ≤ attempt + n + 1) {q : E → Prog S (Except E T)}
    (hq : ∀ e m, n = m + 1 → (q e).Within G w ((m + 1) * cost + m * pause)) :
    (op >>= fun x => match x with
      | .ok v => pure (.ok v)
      | .error e =>
        if attempt + 1 ≥ p.maxAttempts ∨ !isRetryable e then pure (.error e)
        else backoff attempt >>= fun d => if d ≠ 0 then sleep d >>= fun _ => q e else q e).Within
      G w ((n + 1) * cost + n * pause) := by
  have hsplit : (n + 1) * cost + n * pause = cost + (n * cost + n * pause) := by
    rw [Nat.add_mul]
    omega
  rw [hsplit]
  apply hop.andThen
  intro x
  cases x with
  | ok v => exact within_ret _
  | error e =>
    dsimp only
    split
    · exact within_ret _
    · rename_i hgo
      obtain ⟨m, rfl⟩ : ∃ m, n = m + 1 := ⟨n - 1, by omega⟩
      have hpause := (hback attempt).bind (hdelay attempt) fun d hd =>
        within_slept (hsleep d hd) (hq e m rfl)
      refine hpause.mono ?_
      rw [Nat.add_mul m 1 pause]
      omega

/-- **What the loop costs**: every attempt, and a pause between one and the next. -/
theorem within_retryLoop (hop : op.Within G w cost) (hback : ∀ i, (backoff i).Within G w 0)
    (hdelay : ∀ i, (backoff i).Ensures G (fun _ => True) (· ≤ longest))
    (hsleep : ∀ d ≤ longest, (sleep d).Within G w pause) (left : Nat) {attempt n : Nat}
    (hn : p.maxAttempts ≤ attempt + n + 1) :
    (p.retryLoop op isRetryable backoff sleep left attempt).Within G w
      ((n + 1) * cost + n * pause) := by
  induction left generalizing attempt n with
  | zero =>
    rw [retryLoop]
    exact within_turn (q := fun e => .ret (.error e)) hop hback hdelay hsleep hn
      fun _ _ _ => within_ret _
  | succ left ih =>
    rw [retryLoop]
    refine within_turn (q := fun _ => _) hop hback hdelay hsleep hn ?_
    intro _ m _
    exact ih (by omega)

end Cost

section Intro
variable {S : Sig} {E T : Type} {p : RetryPolicy} {op : Prog S (Except E T)}
  {isRetryable : E → Bool} {backoff : Nat → Prog S Nat} {sleep : Nat → Prog S Unit}
  {left attempt : Nat}

theorem retryLoop_ok {tr : List S.Ev} {v : T} (hop : op.Exec tr (.ok v)) :
    (p.retryLoop op isRetryable backoff sleep left attempt).Exec tr (.ok v) := by
  unfold retryLoop
  rw [exec_bind]
  exact ⟨tr, .ok v, [], by simp, hop, rfl, rfl⟩

theorem retryLoop_stop {tr : List S.Ev} {e : E} (hop : op.Exec tr (.error e))
    (hstop : isRetryable e = false) :
    (p.retryLoop op isRetryable backoff sleep left attempt).Exec tr (.error e) := by
  unfold retryLoop
  rw [exec_bind]
  refine ⟨tr, .error e, [], by simp, hop, ?_⟩
  dsimp only
  rw [if_pos (.inr (by rw [hstop]; rfl))]
  exact ⟨rfl, rfl⟩

theorem retryLoop_again {t₁ t₂ t₃ t₄ : List S.Ev} {e : E} {d : Nat} {r : Except E T}
    (hop : op.Exec t₁ (.error e)) (hretry : isRetryable e = true)
    (hmore : attempt + 1 < p.maxAttempts) (hb : (backoff attempt).Exec t₂ d)
    (hs : d = 0 ∧ t₃ = [] ∨ d ≠ 0 ∧ (sleep d).Exec t₃ ())
    (h : (p.retryLoop op isRetryable backoff sleep left (attempt + 1)).Exec t₄ r) :
    (p.retryLoop op isRetryable backoff sleep (left + 1) attempt).Exec
      (t₁ ++ (t₂ ++ (t₃ ++ t₄))) r := by
  have hgo : ¬ (attempt + 1 ≥ p.maxAttempts ∨ (!isRetryable e) = true) := by
    rw [hretry]
    simp only [Bool.not_true, Bool.false_eq_true, or_false]
    omega
  rw [retryLoop, exec_bind]
  refine ⟨t₁, .error e, _, rfl, hop, ?_⟩
  dsimp only
  rw [if_neg hgo, exec_bind]
  refine ⟨t₂, d, _, rfl, hb, ?_⟩
  rcases hs with ⟨rfl, rfl⟩ | ⟨hd, hs⟩
  · rw [if_neg (by simp)]
    exact h
  · rw [if_pos hd, exec_bind]
    exact ⟨t₃, (), t₄, rfl, hs, h⟩

end Intro

end RetryPolicy

end ValidatorForge.Resilience
