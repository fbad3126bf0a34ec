import ValidatorForge.Resilience.Retry

/-!
# What the backoff computes

`exactBackoff` is the documented `base * 2^n` capped at `max_delay`, in exact
arithmetic. The code holds the factor in a `u32`, so from the index 32 on it
multiplies by `u32::MAX` (`cappedDelay_eq_of_le`), and it takes the span of the
jitter modulo `2^64`, so a span that is a multiple of `2^64` divides by zero
(`jittered_isSome`).

* `backoffFor_isSome`: exactly when the backoff is computed at all.
* `backoffFor_formula`: exactly when it is the documented one.
-/
namespace ValidatorForge.Resilience.RetryPolicy

/-- The documented `backoff = base * 2^n`, capped at `max_delay`, in exact arithmetic.
The text is at crates/validatorforge-resilience/src/retry.rs:44-45. -/
def exactBackoff (p : RetryPolicy) (retryIndex : Nat) : Nat :=
  min (p.baseDelay * 2 ^ retryIndex) p.maxDelay

/-- A cap that is a `Duration` hides the saturation of the product. -/
theorem cappedDelay_eq {p : RetryPolicy} (hmax : p.maxDelay ≤ DURATION_MAX) (n : Nat) :
    p.cappedDelay n = min (p.baseDelay * min (2 ^ n) U32_MAX) p.maxDelay := by
  rw [cappedDelay_eq_min]
  omega

theorem two_pow_le_u32 {n : Nat} (hn : n < 32) : 2 ^ n ≤ U32_MAX := by
  have hpow : 2 ^ n ≤ 2 ^ 31 := Nat.pow_le_pow_right (by decide) (by omega)
  have hle : 2 ^ 31 ≤ U32_MAX := by decide
  omega

theorem u32_lt_two_pow {n : Nat} (hn : 32 ≤ n) : U32_MAX < 2 ^ n := by
  have hpow : 2 ^ 32 ≤ 2 ^ n := Nat.pow_le_pow_right (by decide) hn
  have hlt : U32_MAX < 2 ^ 32 := by decide
  omega

/-- Below the index 32 the capped delay is the documented one. -/
theorem cappedDelay_eq_exact {p : RetryPolicy} (hmax : p.maxDelay ≤ DURATION_MAX) {n : Nat}
    (hn : n < 32) : p.cappedDelay n = p.exactBackoff n := by
  rw [cappedDelay_eq hmax, Nat.min_eq_left (two_pow_le_u32 hn)]
  rfl

/-- From the index 32 on the factor is `u32::MAX`. -/
theorem cappedDelay_eq_of_le {p : RetryPolicy} (hmax : p.maxDelay ≤ DURATION_MAX) {n : Nat}
    (hn : 32 ≤ n) : p.cappedDelay n = min (p.baseDelay * U32_MAX) p.maxDelay := by
  rw [cappedDelay_eq hmax, Nat.min_eq_right (Nat.le_of_lt (u32_lt_two_pow hn))]

/-- The code never backs off for longer than documented. -/
theorem cappedDelay_le_exact {p : RetryPolicy} (hmax : p.maxDelay ≤ DURATION_MAX) (n : Nat) :
    p.cappedDelay n ≤ p.exactBackoff n := by
  rw [cappedDelay_eq hmax]
  have := Nat.mul_le_mul_left p.baseDelay (Nat.min_le_left (2 ^ n) U32_MAX)
  unfold exactBackoff
  omega

/-! ## The jitter -/

/-- The jitter is computed unless the narrowed span is zero: the final addition
never overflows. -/
theorem jittered_isSome {nanos capped : Nat} (hmax : capped ≤ DURATION_MAX) :
    (jittered nanos capped).isSome ↔
      capped - capped / 2 = 0 ∨ (capped - capped / 2) % (U64_MAX + 1) ≠ 0 := by
  rw [Option.isSome_iff_exists]
  constructor
  · intro ⟨d, hd⟩
    rcases jittered_eq_some.1 hd with ⟨hz, -⟩ | ⟨hpos, -, -⟩
    · exact .inl hz
    · exact .inr (by omega)
  · intro h
    simp only [jittered_eq_some]
    rcases h with hz | hs
    · exact ⟨_, .inl ⟨hz, rfl⟩⟩
    · have hpos := Nat.pos_of_ne_zero hs
      have hlt := Nat.mod_lt nanos hpos
      have hle := Nat.mod_le (capped - capped / 2) (U64_MAX + 1)
      exact ⟨_, .inr ⟨hpos, rfl, by omega⟩⟩

/-- The spans that narrow to zero. -/
theorem span_vanishes_iff (capped : Nat) :
    (capped - capped / 2 = 0 ∨ (capped - capped / 2) % (U64_MAX + 1) ≠ 0) ↔
      ∀ k, 0 < k → capped ≠ k * 2 ^ 65 - 1 ∧ capped ≠ k * 2 ^ 65 := by
  simp only [U64_MAX, Nat.reduceAdd, Nat.reducePow]
  constructor
  · intro h k hk
    omega
  · intro h
    have := h ((capped - capped / 2) / 18446744073709551616)
    omega

/-! ## When it completes -/

/-- A `Duration` that is a multiple of `u32::MAX` is none of them: `u32::MAX` is
odd, and twice `2^31` is its successor. -/
theorem u32_multiple_ne {base : Nat} (hmax : base * U32_MAX ≤ DURATION_MAX) {k : Nat}
    (hk : 0 < k) : base * U32_MAX ≠ k * 2 ^ 65 - 1 ∧ base * U32_MAX ≠ k * 2 ^ 65 := by
  have hu : U32_MAX = 4294967295 := rfl
  have hd : DURATION_MAX = 18446744073709551615999999999 := rfl
  rw [hu, hd] at hmax
  rw [hu]
  simp only [Nat.reducePow]
  constructor
  · omega
  · omega

theorem jittered_zero_u32 {base : Nat} (hmax : base * U32_MAX ≤ DURATION_MAX) :
    jittered 0 (base * U32_MAX) = some (base * U32_MAX / 2) := by
  have hsome : (jittered 0 (base * U32_MAX)).isSome := by
    rw [jittered_isSome hmax, span_vanishes_iff]
    intro k hk
    exact u32_multiple_ne hmax hk
  obtain ⟨d, hd⟩ := Option.isSome_iff_exists.1 hsome
  exact jittered_zero hd

/-- **When the backoff completes.** Whatever the base delay, with a cap that is a
`Duration`, for every retry index and every clock reading: `backoff_for` completes
exactly when the capped delay is neither a positive multiple of `2^65`
nanoseconds nor one less. -/
theorem backoffFor_isSome (p : RetryPolicy) (hmax : p.maxDelay ≤ DURATION_MAX)
    (nanos retryIndex : Nat) :
    (p.backoffFor nanos retryIndex).isSome ↔
      ∀ k, 0 < k →
        min (p.baseDelay * min (2 ^ retryIndex) U32_MAX) p.maxDelay ≠ k * 2 ^ 65 - 1 ∧
        min (p.baseDelay * min (2 ^ retryIndex) U32_MAX) p.maxDelay ≠ k * 2 ^ 65 := by
  rw [← span_vanishes_iff, ← cappedDelay_eq hmax]
  apply jittered_isSome
  exact Nat.le_trans (Nat.min_le_right _ _) hmax

/-- The default policy at the tenth retry, whose delay is its cap of five seconds. -/
theorem backoffFor_isSome_default : (RetryPolicy.default.backoffFor 999999999 9).isSome := by
  rw [backoffFor_isSome _ (by decide +kernel)]
  have hcap : min (RetryPolicy.default.baseDelay * min (2 ^ 9) U32_MAX)
      RetryPolicy.default.maxDelay = 5000000000 := by decide
  rw [hcap]
  intro k hk
  omega

/-- **The backoff can panic.** Both delays `2^65` nanoseconds: half of it is
`2^64`, which narrows to a span of zero. -/
theorem backoffFor_panics :
    36893488147419103232 ≤ DURATION_MAX ∧
    (new 3 36893488147419103232 36893488147419103232).backoffFor 0 0 = none := by
  decide +kernel

/-! ## What it returns -/

theorem exactBackoff_half_le {p : RetryPolicy} (hmax : p.maxDelay ≤ DURATION_MAX) {n : Nat}
    (hn : n < 32 ∨ p.baseDelay = 0 ∨ p.maxDelay / 2 ≤ p.baseDelay * U32_MAX / 2) :
    p.exactBackoff n / 2 ≤ p.cappedDelay n / 2 := by
  by_cases hlt : n < 32
  · exact Nat.le_of_eq (by rw [cappedDelay_eq_exact hmax hlt])
  · rw [cappedDelay_eq_of_le hmax (by omega)]
    unfold exactBackoff
    rcases hn with hn | hzero | hcap
    · exact absurd hn hlt
    · simp [hzero]
    · omega

/-- Past the index 31 the saturated factor falls short of `2^n`, and a cap beyond
its reach shows it. -/
theorem exactBackoff_half_lt {p : RetryPolicy} {n : Nat} (hn : 32 ≤ n) (hbase : 0 < p.baseDelay)
    (hcap : p.baseDelay * U32_MAX / 2 < p.maxDelay / 2) :
    p.baseDelay * U32_MAX / 2 < p.exactBackoff n / 2 := by
  have hpow : 2 ^ 32 ≤ 2 ^ n := Nat.pow_le_pow_right (by decide) hn
  have hle := Nat.mul_le_mul_left p.baseDelay hpow
  unfold exactBackoff
  simp only [U32_MAX, Nat.reducePow] at *
  omega

/-- **When the backoff follows the formula.** For every base delay, every cap
that is a `Duration` and every retry index: whatever the clock reads, a result is
between half the documented backoff and all of it exactly when the index is
below 32, the base delay is zero, or the factor `u32::MAX` reaches the cap (up
to the nanosecond that halving drops). -/
theorem backoffFor_formula (p : RetryPolicy) (hmax : p.maxDelay ≤ DURATION_MAX)
    (retryIndex : Nat) :
    (∀ nanos, nanos < 1000000000 → ∀ d, p.backoffFor nanos retryIndex = some d →
      p.exactBackoff retryIndex / 2 ≤ d ∧ d ≤ p.exactBackoff retryIndex ∧ d ≤ p.maxDelay) ↔
    retryIndex < 32 ∨ p.baseDelay = 0 ∨ p.maxDelay / 2 ≤ p.baseDelay * U32_MAX / 2 := by
  constructor
  · intro h
    by_contra hnot
    have hn : 32 ≤ retryIndex := by omega
    have hlt := exactBackoff_half_lt (p := p) hn (by omega) (by omega)
    have hcap : p.cappedDelay retryIndex = p.baseDelay * U32_MAX := by
      rw [cappedDelay_eq_of_le hmax hn]
      omega
    have hle : p.baseDelay * U32_MAX ≤ DURATION_MAX := by omega
    have hback : p.backoffFor 0 retryIndex = some (p.baseDelay * U32_MAX / 2) := by
      unfold backoffFor
      rw [hcap]
      exact jittered_zero_u32 hle
    have := (h 0 (by decide) _ hback).1
    omega
  · intro hcond nanos _ d hd
    have hhalf := exactBackoff_half_le hmax hcond
    have hlow := half_le_jittered hd
    have hhigh := jittered_le hd
    have hcap := cappedDelay_le_exact hmax retryIndex
    have hexact : p.exactBackoff retryIndex ≤ p.maxDelay := Nat.min_le_right _ _
    omega

/-- The default policy, whose factor reaches its cap at every index, answers 3.5
seconds at the index 40 when the clock is about to turn to the next second. -/
theorem backoffFor_formula_default :
    RetryPolicy.default.exactBackoff 40 / 2 ≤ 3499999999 ∧
      3499999999 ≤ RetryPolicy.default.exactBackoff 40 ∧
      3499999999 ≤ RetryPolicy.default.maxDelay := by
  apply (backoffFor_formula RetryPolicy.default (by decide +kernel) 40).2 (by decide +kernel)
    999999999
  · decide
  · decide +kernel

/-- **The backoff can fall short.** A base delay of one nanosecond and a cap of an
hour: at the index 40 the documented backoff is 1099.5 seconds, and the code can
answer 2.1 seconds, where half of the documented one is 549.8. -/
theorem backoffFor_falls_short :
    (new 50 1 3600000000000).backoffFor 0 40 = some 2147483647 ∧
    (new 50 1 3600000000000).exactBackoff 40 / 2 = 549755813888 := by
  decide +kernel

end ValidatorForge.Resilience.RetryPolicy
