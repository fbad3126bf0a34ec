import Mathlib.Algebra.Order.Ring.Rat
import Mathlib.Tactic.Linarith
import ValidatorForge.Types.Health

/-!
# What a health status says

`HealthSnapshot.classify` on a snapshot built by `HealthSnapshot.new`, for every
sample and every thresholds. `FailSafe` is what a monitor relies on: stale is
Unknown, Healthy is within all bounds, and worse samples are not classified as
better. `failSafe_iff`: the two ways in which it fails, an age that is over by
less than a second and a skip rate that is not a number.
-/
namespace ValidatorForge.Types

/-- `x` is no more than `y`; NaN is comparable to itself only. -/
def F64.AtMost (x y : F64) : Prop := x = y ∨ ∃ p q, x = .num p ∧ y = .num q ∧ p ≤ q

/-- A rational brought into [0, 1]. -/
def clampUnit (q : Rat) : Rat := max 0 (min q 1)

theorem clampUnit_mono {p q : Rat} (h : p ≤ q) : clampUnit p ≤ clampUnit q :=
  max_le_max_left 0 (min_le_min_right 1 h)

theorem F64.clamp_eq (q : Rat) : (F64.num q).clamp 0 1 = .num (clampUnit q) := by
  unfold F64.clamp clampUnit
  simp only [F64.num.injEq]
  split
  · rename_i h
    rw [min_eq_left (by linarith), max_eq_left h.le]
  · split
    · rw [min_eq_right (by linarith), max_eq_right (by decide)]
    · rename_i h0 h1
      rw [min_eq_left (not_lt.1 h1), max_eq_right (not_lt.1 h0)]

/-- `Healthy` < `Lagging` < `Delinquent`; `Unknown` stands apart at the end. -/
def HealthStatus.severity : HealthStatus → Nat
  | .healthy => 0
  | .lagging => 1
  | .delinquent => 2
  | .unknown => 3

namespace HealthSnapshot

/-- Nanoseconds in a second. -/
def SECOND : Int := 1000000000

/-- Whole seconds are compared exactly, except within the second after the
bound: there a positive age counts as the bound itself. -/
theorem numSeconds_gt {d k : Int} :
    numSeconds d > k ↔ d > k * SECOND ∧ ¬ (0 ≤ k ∧ d < (k + 1) * SECOND) := by
  unfold numSeconds SECOND
  rcases Int.le_total 0 d with h | h
  · rw [Int.tdiv_eq_ediv_of_nonneg h]
    omega
  · have hneg : d.tdiv 1000000000 = -((-d) / 1000000000) := by
      rw [← Int.tdiv_eq_ediv_of_nonneg (by omega), Int.neg_tdiv, Int.neg_neg]
    rw [hneg]
    omega

/-- The sampled values and the thresholds `classify` compares them with. -/
structure FailSafe (tipSlot nodeSlot : Slot) (skipRate cpuLoad : F64) (observedAt now : DateTime)
    (lagWarn lagCrit : Nat) (skipCrit : Rat) (freshnessSecs : Int) : Prop where
  unknown_iff :
    (new tipSlot nodeSlot skipRate cpuLoad observedAt).classify now lagWarn lagCrit
        (.num skipCrit) freshnessSecs = .unknown ↔
      now - observedAt > freshnessSecs * SECOND
  healthy_only :
    (new tipSlot nodeSlot skipRate cpuLoad observedAt).classify now lagWarn lagCrit
        (.num skipCrit) freshnessSecs = .healthy →
      tipSlot.value - nodeSlot.value < lagWarn ∧ tipSlot.value - nodeSlot.value < lagCrit ∧
        ∃ q, skipRate = .num q ∧ clampUnit q < skipCrit
  monotone : ∀ (tipSlot' nodeSlot' : Slot) (skipRate' cpuLoad' : F64),
    tipSlot.value - nodeSlot.value ≤ tipSlot'.value - nodeSlot'.value →
    skipRate.AtMost skipRate' →
    ((new tipSlot nodeSlot skipRate cpuLoad observedAt).classify now lagWarn lagCrit
        (.num skipCrit) freshnessSecs).severity ≤
      ((new tipSlot' nodeSlot' skipRate' cpuLoad' observedAt).classify now lagWarn lagCrit
        (.num skipCrit) freshnessSecs).severity

section

variable {tipSlot nodeSlot : Slot} {skipRate cpuLoad : F64} {observedAt now : DateTime}
  {lagWarn lagCrit : Nat} {skipCrit : Rat} {freshnessSecs : Int}

theorem classify_new :
    (new tipSlot nodeSlot skipRate cpuLoad observedAt).classify now lagWarn lagCrit
        (.num skipCrit) freshnessSecs =
      if numSeconds (now - observedAt) > freshnessSecs then .unknown
      else if lagCrit ≤ tipSlot.value - nodeSlot.value ∨
          (skipRate.clamp 0 1).ge (.num skipCrit) = true then .delinquent
      else if lagWarn ≤ tipSlot.value - nodeSlot.value then .lagging
      else .healthy := rfl

theorem ge_clamp_mono {x y : F64} (h : x.AtMost y)
    (hx : (x.clamp 0 1).ge (.num skipCrit) = true) : (y.clamp 0 1).ge (.num skipCrit) = true := by
  rcases h with rfl | ⟨p, q, rfl, rfl, hpq⟩
  · exact hx
  · rw [F64.clamp_eq] at hx ⊢
    have hp : skipCrit ≤ clampUnit p := of_decide_eq_true hx
    exact decide_eq_true (hp.trans (clampUnit_mono hpq))

/-- Within bounds: the lag below both thresholds, and the skip rate not known
to be over its own. -/
theorem classify_healthy :
    (new tipSlot nodeSlot skipRate cpuLoad observedAt).classify now lagWarn lagCrit
        (.num skipCrit) freshnessSecs = .healthy ↔
      ¬ numSeconds (now - observedAt) > freshnessSecs ∧
        tipSlot.value - nodeSlot.value < lagWarn ∧ tipSlot.value - nodeSlot.value < lagCrit ∧
          (skipRate.clamp 0 1).ge (.num skipCrit) = false := by
  rw [classify_new]
  split
  · simp [*]
  · split
    · rename_i h
      rcases h with h | h
      · simp [Nat.not_lt.2 h]
      · simp [h]
    · rename_i h
      rw [not_or, Bool.not_eq_true] at h
      split
      · simp; omega
      · simp [*]; omega

theorem classify_unknown :
    (new tipSlot nodeSlot skipRate cpuLoad observedAt).classify now lagWarn lagCrit
        (.num skipCrit) freshnessSecs = .unknown ↔ numSeconds (now - observedAt) > freshnessSecs := by
  rw [classify_new]
  split
  · simp [*]
  · split
    · simp [*]
    · split <;> simp [*]

/-- Worse samples at the same time are not classified as better. -/
theorem severity_mono {tipSlot' nodeSlot' : Slot} {skipRate' cpuLoad' : F64}
    (hlag : tipSlot.value - nodeSlot.value ≤ tipSlot'.value - nodeSlot'.value)
    (hskip : skipRate.AtMost skipRate') :
    ((new tipSlot nodeSlot skipRate cpuLoad observedAt).classify now lagWarn lagCrit
        (.num skipCrit) freshnessSecs).severity ≤
      ((new tipSlot' nodeSlot' skipRate' cpuLoad' observedAt).classify now lagWarn lagCrit
        (.num skipCrit) freshnessSecs).severity := by
  rw [classify_new, classify_new]
  by_cases hold : numSeconds (now - observedAt) > freshnessSecs
  · rw [if_pos hold, if_pos hold]
  · rw [if_neg hold, if_neg hold]
    by_cases hc : lagCrit ≤ tipSlot.value - nodeSlot.value ∨
        (skipRate.clamp 0 1).ge (.num skipCrit) = true
    · rw [if_pos hc, if_pos (hc.imp (fun h => h.trans hlag) (ge_clamp_mono hskip))]
    · rw [if_neg hc]
      by_cases hw : lagWarn ≤ tipSlot.value - nodeSlot.value
      · rw [if_pos hw, if_pos (hw.trans hlag)]
        split <;> simp [HealthStatus.severity]
      · rw [if_neg hw]
        exact Nat.zero_le _

/-- **Fail-safe** exactly if the age is not over the bound by less than a second
and no fresh sample within the lag bounds has NaN for its skip rate. -/
theorem failSafe_iff (tipSlot nodeSlot : Slot) (skipRate cpuLoad : F64) (observedAt now : DateTime)
    (lagWarn lagCrit : Nat) (skipCrit : Rat) (freshnessSecs : Int) :
    FailSafe tipSlot nodeSlot skipRate cpuLoad observedAt now lagWarn lagCrit skipCrit
        freshnessSecs ↔
      ¬ (0 ≤ freshnessSecs ∧ freshnessSecs * SECOND < now - observedAt ∧
          now - observedAt < (freshnessSecs + 1) * SECOND) ∧
      ¬ (skipRate = .nan ∧ now - observedAt ≤ freshnessSecs * SECOND ∧
          tipSlot.value - nodeSlot.value < lagWarn ∧ tipSlot.value - nodeSlot.value < lagCrit) := by
  constructor
  · rintro ⟨hunk, hhealthy, -⟩
    rw [classify_unknown, numSeconds_gt] at hunk
    rw [classify_healthy, numSeconds_gt] at hhealthy
    refine ⟨fun ⟨h0, hlo, hhi⟩ => (hunk.2 hlo).2 ⟨h0, hhi⟩, fun ⟨hnan, hage, hw, hc⟩ => ?_⟩
    subst hnan
    obtain ⟨-, -, q, hq, -⟩ := hhealthy ⟨fun h => not_lt.2 hage h.1, hw, hc, rfl⟩
    cases hq
  · rintro ⟨hsub, hnan⟩
    have hexact : numSeconds (now - observedAt) > freshnessSecs ↔
        now - observedAt > freshnessSecs * SECOND := by
      rw [numSeconds_gt]
      exact ⟨And.left, fun h => ⟨h, fun h' => hsub ⟨h'.1, h, h'.2⟩⟩⟩
    refine ⟨classify_unknown.trans hexact, fun h => ?_, fun _ _ _ _ => severity_mono⟩
    rw [classify_healthy, hexact] at h
    obtain ⟨hage, hw, hc, hskip⟩ := h
    refine ⟨hw, hc, ?_⟩
    cases skipRate with
    | nan => exact absurd ⟨rfl, not_lt.1 hage, hw, hc⟩ hnan
    | num q =>
      rw [F64.clamp_eq] at hskip
      have hge : ¬ skipCrit ≤ clampUnit q := of_decide_eq_false hskip
      exact ⟨q, rfl, not_le.1 hge⟩

/-- A fresh sample within the lag bounds whose skip rate is NaN is Healthy, and
so is one that is half a second too old. -/
theorem classify_not_failSafe :
    (¬ ∀ (tipSlot nodeSlot : Slot) (skipRate cpuLoad : F64) (observedAt now : DateTime)
      (lagWarn lagCrit : Nat) (skipCrit : Rat) (freshnessSecs : Int),
      FailSafe tipSlot nodeSlot skipRate cpuLoad observedAt now lagWarn lagCrit skipCrit
        freshnessSecs) ∧
    (new ⟨1000⟩ ⟨998⟩ .nan (.num 1) 0).classify 0 32 128 (.num (1 / 2)) 60 = .healthy ∧
    (new ⟨1000⟩ ⟨998⟩ (.num 0) (.num 1) 0).classify 60500000000 32 128 (.num (1 / 2)) 60 =
      .healthy := by
  refine ⟨fun h => ?_, by decide +kernel, by decide +kernel⟩
  obtain ⟨-, -, q, hq, -⟩ :=
    (h ⟨1000⟩ ⟨998⟩ .nan (.num 1) 0 0 32 128 (1 / 2) 60).healthy_only (by decide +kernel)
  cases hq

end

end HealthSnapshot

end ValidatorForge.Types
