import Mathlib.Algebra.Order.Ring.Rat
import Mathlib.Tactic.Linarith
import Mathlib.Tactic.Positivity
import Mathlib.Tactic.Ring
import ValidatorForge.Lib.Capped

/-!
# The rate limiter

crates/validatorforge-resilience/src/ratelimit.rs, a token bucket. An `f64` is
a rational here (finite, and without rounding); the mutex-guarded `Bucket` is an
argument and a result of each method, the clock reading (`now_millis`) an
argument, and `saturating_sub` is `-` on naturals.

* `admissions_in_window`: the admission rate over any window.
* `answer_edited`: calls that observe or are refused leave no trace.
* `inRange_iff`: which calls keep the bucket within its range.
-/
namespace ValidatorForge.Resilience

/-- mirrors crates/validatorforge-resilience/src/ratelimit.rs:7-11 -/
structure Bucket where
  tokens : Rat
  lastRefillMillis : Nat
  deriving DecidableEq, Repr

/-- The fixed part; its fields are private, and `new` keeps both nonnegative.
mirrors crates/validatorforge-resilience/src/ratelimit.rs:13-21 -/
structure RateLimiter where
  capacity : Rat
  refillPerSec : Rat
  capacity_nonneg : 0 ≤ capacity
  refill_nonneg : 0 ≤ refillPerSec

namespace Bucket

/-- `n` tokens fewer. -/
def take (b : Bucket) (n : Rat) : Bucket := { b with tokens := b.tokens - n }

@[simp] theorem take_tokens (b : Bucket) (n : Rat) : (b.take n).tokens = b.tokens - n := rfl

@[simp] theorem take_last (b : Bucket) (n : Rat) :
    (b.take n).lastRefillMillis = b.lastRefillMillis := rfl

@[simp] theorem take_zero (b : Bucket) : b.take 0 = b := by simp [take]

end Bucket

namespace RateLimiter

/-- mirrors crates/validatorforge-resilience/src/ratelimit.rs:23-31 -/
def new (capacity refillPerSec : Rat) : RateLimiter :=
  { capacity := max capacity 0, refillPerSec := max refillPerSec 0,
    capacity_nonneg := le_max_right _ _, refill_nonneg := le_max_right _ _ }

/-- The bucket of a new limiter, "pre-filled to `capacity`".
mirrors crates/validatorforge-resilience/src/ratelimit.rs:32-36 -/
def newBucket (L : RateLimiter) (now : Nat) : Bucket :=
  { tokens := L.capacity, lastRefillMillis := now }

/-- mirrors crates/validatorforge-resilience/src/ratelimit.rs:39-47 -/
def refill (L : RateLimiter) (now : Nat) (bucket : Bucket) : Bucket :=
  let elapsedMs := now - bucket.lastRefillMillis
  if elapsedMs > 0 then
    let added := (elapsedMs : Rat) / 1000 * L.refillPerSec
    { tokens := min (bucket.tokens + added) L.capacity, lastRefillMillis := now }
  else bucket

/-- mirrors crates/validatorforge-resilience/src/ratelimit.rs:54-64 -/
def tryAcquireN (L : RateLimiter) (now : Nat) (n : Rat) (bucket : Bucket) : Bool × Bucket :=
  let bucket := L.refill now bucket
  if bucket.tokens ≥ n then (true, { bucket with tokens := bucket.tokens - n })
  else (false, bucket)

/-- mirrors crates/validatorforge-resilience/src/ratelimit.rs:49-52 -/
def tryAcquire (L : RateLimiter) (now : Nat) (bucket : Bucket) : Bool × Bucket :=
  L.tryAcquireN now 1 bucket

/-- mirrors crates/validatorforge-resilience/src/ratelimit.rs:66-71 -/
def available (L : RateLimiter) (now : Nat) (bucket : Bucket) : Rat × Bucket :=
  let bucket := L.refill now bucket
  (bucket.tokens, bucket)

/-! ## Calls -/

inductive Call where
  | tryAcquire
  | tryAcquireN (n : Rat)
  | available
  deriving DecidableEq, Repr

inductive Answer where
  | admitted (ok : Bool)
  | tokens (n : Rat)
  deriving DecidableEq, Repr

/-- One call on the limiter: its answer and the bucket it leaves. -/
def call (L : RateLimiter) (now : Nat) : Call → Bucket → Answer × Bucket
  | .tryAcquire, b => (.admitted (L.tryAcquire now b).1, (L.tryAcquire now b).2)
  | .tryAcquireN n, b => (.admitted (L.tryAcquireN now n b).1, (L.tryAcquireN now n b).2)
  | .available, b => (.tokens (L.available now b).1, (L.available now b).2)

/-- The calls made on one limiter, with the time of each. -/
abbrev History := List (Nat × Call)

/-- The bucket after the calls of `h`. -/
def after (L : RateLimiter) (b : Bucket) (h : History) : Bucket :=
  h.foldl (fun b c => (L.call c.1 c.2 b).2) b

@[simp] theorem after_nil (L : RateLimiter) (b : Bucket) : L.after b [] = b := rfl

theorem after_append (L : RateLimiter) (b : Bucket) (h₁ h₂ : History) :
    L.after b (h₁ ++ h₂) = L.after (L.after b h₁) h₂ := List.foldl_append ..

/-- The bucket of a limiter created at `t₀`, after the calls of `h`. -/
def bucketAfter (L : RateLimiter) (t₀ : Nat) (h : History) : Bucket := L.after (L.newBucket t₀) h

/-- From `t₀` on, the clock never goes back. -/
def MonotoneFrom (t₀ : Nat) (h : History) : Prop := (t₀ :: h.map Prod.fst).Pairwise (· ≤ ·)

instance (t₀ : Nat) (h : History) : Decidable (MonotoneFrom t₀ h) :=
  inferInstanceAs (Decidable ((t₀ :: h.map Prod.fst).Pairwise (· ≤ ·)))

/-- How many tokens the call asks for; `available` asks for none. -/
def Call.wants : Call → Rat
  | .tryAcquire => 1
  | .tryAcquireN n => n
  | .available => 0

/-! ## What a call does -/

/-- What accrues in `ms` milliseconds. -/
def earned (L : RateLimiter) (ms : Nat) : Rat := (ms : Rat) / 1000 * L.refillPerSec

theorem earned_nonneg (L : RateLimiter) (ms : Nat) : 0 ≤ L.earned ms :=
  mul_nonneg (by positivity) L.refill_nonneg

@[simp] theorem earned_zero (L : RateLimiter) : L.earned 0 = 0 := by simp [earned]

theorem earned_mono (L : RateLimiter) {m n : Nat} (h : m ≤ n) : L.earned m ≤ L.earned n := by
  have hc : (m : Rat) ≤ (n : Rat) := Nat.cast_le.2 h
  exact mul_le_mul_of_nonneg_right (by linarith) L.refill_nonneg

theorem earned_add (L : RateLimiter) (m n : Nat) : L.earned (m + n) = L.earned m + L.earned n := by
  simp only [earned, Nat.cast_add]
  ring

theorem refill_of_le (L : RateLimiter) {now : Nat} {b : Bucket} (h : now ≤ b.lastRefillMillis) :
    L.refill now b = b := by
  have h0 : ¬ now - b.lastRefillMillis > 0 := by omega
  simp only [refill, if_neg h0]

theorem refill_of_lt (L : RateLimiter) {now : Nat} {b : Bucket} (h : b.lastRefillMillis < now) :
    L.refill now b =
      ⟨Capped.topUp L.capacity b.tokens (L.earned (now - b.lastRefillMillis)), now⟩ := by
  have h0 : now - b.lastRefillMillis > 0 := by omega
  simp only [refill, if_pos h0]
  rfl

/-- The moment the bucket was last refilled, after a refill at `now`. -/
@[simp] theorem refill_last (L : RateLimiter) (now : Nat) (b : Bucket) :
    (L.refill now b).lastRefillMillis = max b.lastRefillMillis now := by
  rcases Nat.lt_or_ge b.lastRefillMillis now with h | h
  · rw [L.refill_of_lt h]
    show now = _
    omega
  · rw [L.refill_of_le h]
    omega

/-- In a bucket that is not overfull, a refill tops up, however much time passed. -/
theorem refill_tokens (L : RateLimiter) (now : Nat) {b : Bucket} (hb : b.tokens ≤ L.capacity) :
    (L.refill now b).tokens =
      Capped.topUp L.capacity b.tokens (L.earned (now - b.lastRefillMillis)) := by
  rcases Nat.lt_or_ge b.lastRefillMillis now with h | h
  · rw [L.refill_of_lt h]
  · have h0 : now - b.lastRefillMillis = 0 := by omega
    rw [L.refill_of_le h, h0, earned_zero, Capped.topUp_zero hb]

/-- **Refills compose**: two on the way are one at the end. -/
theorem refill_refill (L : RateLimiter) {t₁ t₂ : Nat} {b : Bucket} (h : t₁ ≤ t₂) :
    L.refill t₂ (L.refill t₁ b) = L.refill t₂ b := by
  rcases Nat.lt_or_ge b.lastRefillMillis t₁ with h₁ | h₁
  · rcases Nat.lt_or_ge t₁ t₂ with h₂ | h₂
    · have hsum : t₁ - b.lastRefillMillis + (t₂ - t₁) = t₂ - b.lastRefillMillis := by omega
      have h₃ : b.lastRefillMillis < t₂ := by omega
      rw [L.refill_of_lt h₁, L.refill_of_lt h₃, refill_of_lt L (by exact h₂)]
      simp only
      rw [Capped.topUp_topUp _ _ (L.earned_nonneg _), ← earned_add, hsum]
    · have heq : t₁ = t₂ := by omega
      subst heq
      exact L.refill_of_le (by simp)
  · rw [L.refill_of_le h₁]

theorem tryAcquireN_eq (L : RateLimiter) (t : Nat) (n : Rat) (b : Bucket) :
    L.tryAcquireN t n b =
      (decide (n ≤ (L.refill t b).tokens),
        (L.refill t b).take (if n ≤ (L.refill t b).tokens then n else 0)) := by
  simp only [tryAcquireN, ge_iff_le]
  by_cases h : n ≤ (L.refill t b).tokens
  · rw [if_pos h, if_pos h, decide_eq_true h]
    rfl
  · rw [if_neg h, if_neg h, decide_eq_false h, Bucket.take_zero]

/-- A call refills, then takes what it asks for if that is there. -/
theorem call_snd (L : RateLimiter) (t : Nat) (c : Call) (b : Bucket) :
    (L.call t c b).2 =
      (L.refill t b).take (if c.wants ≤ (L.refill t b).tokens then c.wants else 0) := by
  cases c with
  | available =>
    have h0 : (if Call.available.wants ≤ (L.refill t b).tokens then Call.available.wants else 0)
        = 0 := ite_self _
    rw [h0, Bucket.take_zero]
    rfl
  | tryAcquire => exact congrArg Prod.snd (L.tryAcquireN_eq t 1 b)
  | tryAcquireN n => exact congrArg Prod.snd (L.tryAcquireN_eq t n b)

@[simp] theorem call_last (L : RateLimiter) (t : Nat) (c : Call) (b : Bucket) :
    (L.call t c b).2.lastRefillMillis = max b.lastRefillMillis t := by
  rw [call_snd]
  simp

/-- What a call answers is read off the refilled bucket. -/
theorem call_fst (L : RateLimiter) (t : Nat) (c : Call) (b : Bucket) :
    (L.call t c b).1 = match c with
      | .available => .tokens (L.refill t b).tokens
      | .tryAcquire => .admitted (decide (1 ≤ (L.refill t b).tokens))
      | .tryAcquireN n => .admitted (decide (n ≤ (L.refill t b).tokens)) := by
  cases c with
  | available => rfl
  | tryAcquire => simp only [call, tryAcquire, tryAcquireN_eq]
  | tryAcquireN n => simp only [call, tryAcquireN_eq]

/-- Looking at the clock before a call makes no difference to it. -/
theorem call_refill (L : RateLimiter) (t : Nat) (c : Call) (b : Bucket) :
    L.call t c (L.refill t b) = L.call t c b := by
  have hr : L.refill t (L.refill t b) = L.refill t b := L.refill_refill (Nat.le_refl t)
  ext1
  · rw [call_fst, call_fst, hr]
  · rw [call_snd, call_snd, hr]

theorem tryAcquire_admitted {L : RateLimiter} {t : Nat} {b : Bucket} :
    (L.call t .tryAcquire b).1 = .admitted true ↔ 1 ≤ (L.refill t b).tokens := by
  rw [call_fst]
  simp

/-- A refused call takes nothing. -/
theorem call_refused {L : RateLimiter} {t : Nat} {c : Call} {b : Bucket}
    (h : (L.call t c b).1 = .admitted false) : (L.call t c b).2 = L.refill t b := by
  have hw : ¬ c.wants ≤ (L.refill t b).tokens := by
    rw [call_fst] at h
    cases c with
    | available => cases h
    | tryAcquire | tryAcquireN n => simpa [Call.wants] using h
  rw [call_snd, if_neg hw, Bucket.take_zero]

theorem monotoneFrom_cons {t₀ t : Nat} {c : Call} {h : History} :
    MonotoneFrom t₀ ((t, c) :: h) ↔ t₀ ≤ t ∧ MonotoneFrom t h := by
  simp only [MonotoneFrom, List.map_cons, List.pairwise_cons, List.mem_cons, forall_eq_or_imp]
  constructor
  · rintro ⟨⟨h₀, -⟩, h₁, h₂⟩
    exact ⟨h₀, h₁, h₂⟩
  · rintro ⟨h₀, h₁, h₂⟩
    exact ⟨⟨h₀, fun a ha => Nat.le_trans h₀ (h₁ a ha)⟩, h₁, h₂⟩

theorem MonotoneFrom.mono {t₀ t : Nat} {h : History} (hm : MonotoneFrom t h) (ht : t₀ ≤ t) :
    MonotoneFrom t₀ h := by
  unfold MonotoneFrom at hm ⊢
  rw [List.pairwise_cons] at hm ⊢
  exact ⟨fun a ha => Nat.le_trans ht (hm.1 a ha), hm.2⟩

/-! ## The range of the bucket -/

def InRange (L : RateLimiter) (b : Bucket) : Prop := 0 ≤ b.tokens ∧ b.tokens ≤ L.capacity

/-- What is missing from the bucket at `now`. -/
def missing (L : RateLimiter) (now : Nat) (b : Bucket) : Rat :=
  max 0 (L.capacity - b.tokens - L.earned (now - b.lastRefillMillis))

/-- The call gives back no more than what is missing (it gives back `-n` when
it asks for a negative `n`). -/
def Fits (L : RateLimiter) (c : Nat × Call) (b : Bucket) : Prop :=
  -c.2.wants ≤ L.missing c.1 b

theorem fits_of_nonneg (L : RateLimiter) {c : Nat × Call} (b : Bucket) (h : 0 ≤ c.2.wants) :
    L.Fits c b := by
  have hm : 0 ≤ L.missing c.1 b := le_max_left _ _
  unfold Fits
  linarith

theorem newBucket_inRange (L : RateLimiter) (now : Nat) : L.InRange (L.newBucket now) :=
  ⟨L.capacity_nonneg, le_refl _⟩

theorem refill_inRange {L : RateLimiter} {b : Bucket} (hb : L.InRange b) (now : Nat) :
    L.InRange (L.refill now b) := by
  unfold InRange
  rw [L.refill_tokens now hb.2]
  exact ⟨Capped.topUp_nonneg L.capacity_nonneg hb.1 (L.earned_nonneg _), Capped.topUp_le_cap ..⟩

theorem missing_eq {L : RateLimiter} {b : Bucket} (hb : L.InRange b) (now : Nat) :
    L.missing now b = L.capacity - (L.refill now b).tokens := by
  rw [L.refill_tokens now hb.2, missing, Capped.topUp, ← max_sub_sub_left, sub_self, max_comm,
    sub_sub]

/-- **One call**: within its range the bucket stays there exactly if the call fits. -/
theorem call_inRange {L : RateLimiter} {b : Bucket} (hb : L.InRange b) (c : Nat × Call) :
    L.InRange (L.call c.1 c.2 b).2 ↔ L.Fits c b := by
  obtain ⟨h0, hcap⟩ := refill_inRange hb c.1
  unfold Fits
  rw [missing_eq hb, InRange, call_snd]
  split
  · rename_i hle
    rw [Bucket.take_tokens]
    constructor
    · rintro ⟨-, h⟩
      linarith
    · intro h
      exact ⟨by linarith, by linarith⟩
  · rename_i hgt
    have hgt : (L.refill c.1 b).tokens < c.2.wants := not_le.1 hgt
    rw [Bucket.take_zero]
    exact ⟨fun _ => by linarith, fun _ => ⟨h0, hcap⟩⟩

theorem forall_split_cons {α : Type} {P : List α → α → Prop} {a : α} {l : List α} :
    (∀ pre d post, a :: l = pre ++ d :: post → P pre d) ↔
      P [] a ∧ ∀ pre d post, l = pre ++ d :: post → P (a :: pre) d := by
  constructor
  · intro hp
    exact ⟨hp [] a l rfl, fun pre d post hl => hp (a :: pre) d post (by rw [hl]; rfl)⟩
  · rintro ⟨h0, hp⟩ pre d post hl
    cases pre with
    | nil =>
      obtain ⟨rfl, -⟩ := List.cons.inj hl
      exact h0
    | cons e pre =>
      obtain ⟨rfl, hl'⟩ := List.cons.inj hl
      exact hp pre d post hl'

/-- From a bucket within its range: it stays there through a history exactly if
every call fits the bucket it finds. -/
theorem after_inRange (L : RateLimiter) {b : Bucket} (hb : L.InRange b) (h : History) :
    (∀ pre c post, h = pre ++ c :: post → L.InRange (L.after b (pre ++ [c]))) ↔
      ∀ pre c post, h = pre ++ c :: post → L.Fits c (L.after b pre) := by
  induction h generalizing b with
  | nil => simp
  | cons c h ih =>
    rw [forall_split_cons (P := fun pre d => L.InRange (L.after b (pre ++ [d]))),
      forall_split_cons (P := fun pre d => L.Fits d (L.after b pre))]
    have h₁ : L.InRange (L.after b ([] ++ [c])) ↔ L.Fits c (L.after b []) := call_inRange hb c
    rw [h₁]
    exact and_congr_right fun hf => ih ((call_inRange hb c).2 hf)

/-- **The bucket's range.** After every call of a history, whatever the clock
reads, there are between none and `capacity` tokens in the bucket, exactly if no
call gives back more than what is missing when it comes. -/
theorem inRange_iff (capacity refillPerSec : Rat) (t₀ : Nat) (h : History) :
    (∀ pre c post, h = pre ++ c :: post →
      0 ≤ ((new capacity refillPerSec).bucketAfter t₀ (pre ++ [c])).tokens ∧
      ((new capacity refillPerSec).bucketAfter t₀ (pre ++ [c])).tokens ≤ max capacity 0) ↔
    ∀ pre c post, h = pre ++ c :: post →
      (new capacity refillPerSec).Fits c ((new capacity refillPerSec).bucketAfter t₀ pre) :=
  after_inRange _ (newBucket_inRange _ t₀) h

/-- A full bucket of ten, asked for minus five, holds fifteen. -/
theorem tryAcquireN_overfills :
    ¬ ∀ (capacity refillPerSec : Rat) (t₀ : Nat) (h : History),
      0 ≤ ((new capacity refillPerSec).bucketAfter t₀ h).tokens ∧
      ((new capacity refillPerSec).bucketAfter t₀ h).tokens ≤ max capacity 0 := by
  intro hall
  exact absurd (hall 10 1 0 [(0, .tryAcquireN (-5))]).2 (by decide +kernel)

/-! ## Observing and refusing -/

/-- What is done to a history: a call is kept or deleted, an observation inserted. -/
inductive Edit where
  | keep (t : Nat) (c : Call)
  | delete (t : Nat) (c : Call)
  | insert (t : Nat)
  deriving DecidableEq, Repr

namespace Edit

/-- The history before the edits. -/
def original (es : List Edit) : History :=
  es.filterMap fun
    | .keep t c | .delete t c => some (t, c)
    | .insert _ => none

/-- The history after them. -/
def edited (es : List Edit) : History :=
  es.filterMap fun
    | .keep t c => some (t, c)
    | .delete .. => none
    | .insert t => some (t, .available)

end Edit

/-- From some time on, the two buckets read the same. -/
def InStep (L : RateLimiter) (b b' : Bucket) : Prop :=
  ∀ t, b.lastRefillMillis ≤ t → b'.lastRefillMillis ≤ t →
    (L.refill t b).tokens = (L.refill t b').tokens

namespace InStep

variable {L : RateLimiter} {b b' : Bucket}

theorem answer (h : L.InStep b b') {t : Nat} (ht : b.lastRefillMillis ≤ t)
    (ht' : b'.lastRefillMillis ≤ t) (c : Call) : (L.call t c b).1 = (L.call t c b').1 := by
  rw [call_fst, call_fst, h t ht ht']

/-- A kept call finds the same bucket in both and leaves the same in both. -/
theorem keep (h : L.InStep b b') {t : Nat} (ht : b.lastRefillMillis ≤ t)
    (ht' : b'.lastRefillMillis ≤ t) (c : Call) :
    (L.call t c b).2 = (L.call t c b').2 := by
  have heq : L.refill t b = L.refill t b' := by
    cases hb : L.refill t b with
    | mk x l =>
      cases hb' : L.refill t b' with
      | mk x' l' =>
        have htok := h t ht ht'
        have hl := L.refill_last t b
        have hl' := L.refill_last t b'
        rw [hb] at htok hl
        rw [hb'] at htok hl'
        simp only at htok hl hl'
        rw [htok, show l = l' by omega]
  rw [call_snd, call_snd, heq]

/-- A refill on one side only is not noticed later. -/
theorem refill_left (h : L.InStep b b') {t : Nat} (ht : b.lastRefillMillis ≤ t) :
    L.InStep (L.refill t b) b' := by
  intro t' hl hl'
  rw [refill_last] at hl
  rw [refill_refill L (by omega)]
  exact h t' (by omega) hl'

theorem symm (h : L.InStep b b') : L.InStep b' b := fun t ht ht' => (h t ht' ht).symm

end InStep

/-- At the time of a call, the last refill is past. -/
theorem after_last_le (L : RateLimiter) {b : Bucket} {h q : History} {t : Nat} {c : Call}
    (hm : MonotoneFrom b.lastRefillMillis (h ++ (t, c) :: q)) :
    (L.after b h).lastRefillMillis ≤ t := by
  induction h generalizing b with
  | nil => exact (monotoneFrom_cons.1 hm).1
  | cons d h ih =>
    obtain ⟨hle, hm⟩ := monotoneFrom_cons.1 hm
    refine ih ?_
    rw [call_last, Nat.max_eq_right hle]
    exact hm

theorem last_le (L : RateLimiter) {t₀ : Nat} {h q : History} {t : Nat} {c : Call}
    (hm : MonotoneFrom t₀ (h ++ (t, c) :: q)) : (L.bucketAfter t₀ h).lastRefillMillis ≤ t :=
  L.after_last_le (b := L.newBucket t₀) hm

theorem bucketAfter_append (L : RateLimiter) (t₀ : Nat) (h₁ h₂ : History) :
    L.bucketAfter t₀ (h₁ ++ h₂) = L.after (L.bucketAfter t₀ h₁) h₂ := L.after_append _ h₁ h₂

namespace Edit

@[simp] theorem original_append (es fs : List Edit) :
    original (es ++ fs) = original es ++ original fs := List.filterMap_append

@[simp] theorem edited_append (es fs : List Edit) :
    edited (es ++ fs) = edited es ++ edited fs := List.filterMap_append

end Edit

/-- The run with the edits stays in step with the run without, as long as the
calls deleted were refused. -/
theorem inStep_edited (L : RateLimiter) (t₀ : Nat) {es : List Edit}
    (hm : MonotoneFrom t₀ (Edit.original es)) (hm' : MonotoneFrom t₀ (Edit.edited es))
    (hd : ∀ pre t c post, es = pre ++ .delete t c :: post →
      (L.call t c (L.bucketAfter t₀ (Edit.original pre))).1 = .admitted false)
    (pre post : List Edit) (hes : es = pre ++ post) :
    L.InStep (L.bucketAfter t₀ (Edit.original pre)) (L.bucketAfter t₀ (Edit.edited pre)) := by
  induction pre using List.reverseRecOn generalizing post with
  | nil => exact fun t _ _ => rfl
  | append_singleton pre e ih =>
    have hes' : es = pre ++ e :: post := by rw [hes, List.append_assoc]; rfl
    have hs := ih (e :: post) hes'
    rw [hes', Edit.original_append] at hm
    rw [hes', Edit.edited_append] at hm'
    rw [Edit.original_append, Edit.edited_append, bucketAfter_append, bucketAfter_append]
    cases e with
    | keep t c =>
      intro t' _ _
      show (L.refill t' (L.call t c _).2).tokens = (L.refill t' (L.call t c _).2).tokens
      rw [hs.keep (L.last_le hm) (L.last_le hm') c]
    | delete t c =>
      show L.InStep (L.call t c _).2 _
      rw [call_refused (hd pre t c post hes')]
      exact hs.refill_left (L.last_le hm)
    | insert t => exact (hs.symm.refill_left (L.last_le hm')).symm

theorem refill_steps (L : RateLimiter) (b : Bucket) {ts : List Nat} {t : Nat}
    (h : ∀ x ∈ ts, x ≤ t) :
    L.refill t (ts.foldl (fun b x => L.refill x b) b) = L.refill t b := by
  induction ts generalizing b with
  | nil => rfl
  | cons x ts ih =>
    rw [List.foldl_cons, ih _ fun y hy => h y (List.mem_cons_of_mem _ hy),
      L.refill_refill (h x (List.mem_cons_self ..))]

/-- **Observing or being refused changes nothing.** Insert `available` calls and
delete refused calls anywhere: every call that is kept answers as before.
Likewise a refill in steps is a refill at once. -/
theorem answer_edited (L : RateLimiter) (t₀ : Nat) (es : List Edit)
    (hm : MonotoneFrom t₀ (Edit.original es)) (hm' : MonotoneFrom t₀ (Edit.edited es))
    (hd : ∀ pre t c post, es = pre ++ .delete t c :: post →
      (L.call t c (L.bucketAfter t₀ (Edit.original pre))).1 = .admitted false) :
    (∀ pre t c post, es = pre ++ .keep t c :: post →
      (L.call t c (L.bucketAfter t₀ (Edit.edited pre))).1 =
        (L.call t c (L.bucketAfter t₀ (Edit.original pre))).1) ∧
    ∀ (b : Bucket) (ts : List Nat) (t : Nat), (∀ x ∈ ts, x ≤ t) →
      L.refill t (ts.foldl (fun b x => L.refill x b) b) = L.refill t b := by
  refine ⟨fun pre t c post hes => ?_, fun b ts t h => refill_steps L b h⟩
  have hs := inStep_edited L t₀ hm hm' hd pre _ hes
  rw [hes, Edit.original_append] at hm
  rw [hes, Edit.edited_append] at hm'
  exact (hs.answer (L.last_le hm) (L.last_le hm') c).symm

/-- Two tokens, four calls: deleting the refused third and looking in between. -/
theorem answer_edited_deleted :
    let L := new 2 10
    (L.call 100 .tryAcquire (L.bucketAfter 0 [(0, .tryAcquire), (0, .tryAcquireN 1),
      (50, .available)])).1 =
    (L.call 100 .tryAcquire (L.bucketAfter 0 [(0, .tryAcquire), (0, .tryAcquireN 1),
      (60, .tryAcquire)])).1 :=
  (answer_edited (new 2 10) 0
    [.keep 0 .tryAcquire, .keep 0 (.tryAcquireN 1), .insert 50, .delete 60 .tryAcquire,
      .keep 100 .tryAcquire]
    (by decide) (by decide) (by
      intro pre t c post h
      rcases pre with _ | ⟨e₁, _ | ⟨e₂, _ | ⟨e₃, _ | ⟨e₄, _ | ⟨e₅, pre⟩⟩⟩⟩⟩ <;> simp at h
      obtain ⟨rfl, rfl, rfl, ⟨rfl, rfl⟩, rfl⟩ := h
      decide +kernel)).1
    [.keep 0 .tryAcquire, .keep 0 (.tryAcquireN 1), .insert 50, .delete 60 .tryAcquire] 100
    .tryAcquire [] rfl

/-! ## The rate of admission -/

/-- The times at which `try_acquire` returned true. -/
def admissions (L : RateLimiter) : Bucket → History → List Nat
  | _, [] => []
  | b, (t, c) :: h =>
    (if c = .tryAcquire ∧ (L.call t c b).1 = .admitted true then [t] else []) ++
      L.admissions (L.call t c b).2 h

theorem admissions_ge (L : RateLimiter) {b : Bucket} {h : History} {t₀ : Nat}
    (hm : MonotoneFrom t₀ h) : ∀ a ∈ L.admissions b h, t₀ ≤ a := by
  induction h generalizing b t₀ with
  | nil => simp [admissions]
  | cons d h ih =>
    obtain ⟨t, c⟩ := d
    obtain ⟨hle, hm⟩ := monotoneFrom_cons.1 hm
    intro a ha
    rcases List.mem_append.1 ha with ha | ha
    · split at ha
      · rw [List.mem_singleton] at ha
        omega
      · cases ha
    · exact Nat.le_trans hle (ih hm a ha)

/-- One if the call is a `try_acquire` that is admitted. -/
def counts (L : RateLimiter) (t : Nat) (c : Call) (b : Bucket) : Nat :=
  if c = .tryAcquire ∧ (L.call t c b).1 = .admitted true then 1 else 0

/-- What a call leaves, with what it admitted, is no more than it found. -/
theorem call_budget (L : RateLimiter) (t : Nat) {c : Call} (b : Bucket) (hc : 0 ≤ c.wants) :
    (L.call t c b).2.tokens + (L.counts t c b : Rat) ≤ (L.refill t b).tokens := by
  rw [call_snd, Bucket.take_tokens]
  by_cases hadm : c = .tryAcquire ∧ (L.call t c b).1 = .admitted true
  · obtain ⟨rfl, hadm⟩ := hadm
    have hone : Call.tryAcquire.wants ≤ (L.refill t b).tokens := tryAcquire_admitted.1 hadm
    rw [if_pos hone, counts, if_pos ⟨rfl, hadm⟩]
    simp [Call.wants]
  · rw [counts, if_neg hadm, Nat.cast_zero]
    split <;> linarith

theorem countP_admissions_cons (L : RateLimiter) (b : Bucket) (t : Nat) (c : Call) (h : History)
    (p : Nat → Bool) :
    (L.admissions b ((t, c) :: h)).countP p =
      (if p t then L.counts t c b else 0) + (L.admissions (L.call t c b).2 h).countP p := by
  rw [admissions, List.countP_append, counts]
  congr 1
  split <;> simp [List.countP_cons]

/-- From any bucket, no more is admitted up to `t` than is there and accrues. -/
theorem admissions_until {L : RateLimiter} {b : Bucket} (hb : L.InRange b) {h : History}
    (hm : MonotoneFrom b.lastRefillMillis h) (hn : ∀ d ∈ h, 0 ≤ d.2.wants) (t : Nat) :
    (((L.admissions b h).countP (· ≤ t) : Nat) : Rat) ≤
      b.tokens + L.earned (t - b.lastRefillMillis) := by
  induction h generalizing b with
  | nil =>
    rw [admissions, List.countP_nil, Nat.cast_zero]
    exact add_nonneg hb.1 (L.earned_nonneg _)
  | cons d h ih =>
    obtain ⟨u, c⟩ := d
    have hwants := hn (u, c) (List.mem_cons_self ..)
    obtain ⟨hle, hm'⟩ := monotoneFrom_cons.1 hm
    rcases Nat.lt_or_ge t u with hlt | hut
    · have hz : (L.admissions b ((u, c) :: h)).countP (· ≤ t) = 0 := by
        rw [List.countP_eq_zero]
        intro a ha
        have hau : u ≤ a := L.admissions_ge (monotoneFrom_cons.2 ⟨Nat.le_refl u, hm'⟩) a ha
        simpa using Nat.lt_of_lt_of_le hlt hau
      rw [hz, Nat.cast_zero]
      exact add_nonneg hb.1 (L.earned_nonneg _)
    · have hb' := (call_inRange hb (u, c)).2 (L.fits_of_nonneg b hwants)
      have hlast : (L.call u c b).2.lastRefillMillis = u := by
        rw [call_last, Nat.max_eq_right hle]
      have hrest := ih hb' (by rw [hlast]; exact hm') fun d hd => hn d (List.mem_cons_of_mem _ hd)
      have hbud := L.call_budget u b hwants
      have hfill : (L.refill u b).tokens ≤ b.tokens + L.earned (u - b.lastRefillMillis) := by
        rw [L.refill_tokens u hb.2]
        exact Capped.topUp_le_add ..
      have hsplit : L.earned (t - b.lastRefillMillis) =
          L.earned (u - b.lastRefillMillis) + L.earned (t - u) := by
        rw [← earned_add]
        congr 1
        omega
      rw [hlast] at hrest
      rw [countP_admissions_cons, if_pos (decide_eq_true hut), Nat.cast_add, hsplit]
      linarith

/-- The calls before `s` admit none that counts; the first call from `s` on
finds at most a full bucket. -/
theorem admissions_between {L : RateLimiter} {b : Bucket} (hb : L.InRange b) {h : History}
    (hm : MonotoneFrom b.lastRefillMillis h) (hn : ∀ d ∈ h, 0 ≤ d.2.wants) {s t : Nat}
    (hst : s ≤ t) :
    (((L.admissions b h).countP fun a => s ≤ a ∧ a ≤ t : Nat) : Rat) ≤
      L.capacity + L.earned (t - s) := by
  induction h generalizing b with
  | nil =>
    rw [admissions, List.countP_nil, Nat.cast_zero]
    exact add_nonneg L.capacity_nonneg (L.earned_nonneg _)
  | cons d h ih =>
    obtain ⟨u, c⟩ := d
    obtain ⟨hle, hm'⟩ := monotoneFrom_cons.1 hm
    rcases Nat.lt_or_ge u s with hlt | hsu
    · have hb' := (call_inRange hb (u, c)).2 (L.fits_of_nonneg b (hn _ (List.mem_cons_self ..)))
      have hlast : (L.call u c b).2.lastRefillMillis = u := by
        rw [call_last, Nat.max_eq_right hle]
      have hrest := ih hb' (by rw [hlast]; exact hm') fun d hd => hn d (List.mem_cons_of_mem _ hd)
      have hout : ¬ (s ≤ u ∧ u ≤ t) := by omega
      rw [countP_admissions_cons, if_neg (by simpa using hout), Nat.zero_add]
      exact hrest
    · -- The window opens at `u`, on a bucket that is at most full.
      have hfill := refill_inRange hb u
      have hlast : (L.refill u b).lastRefillMillis = u := by
        rw [refill_last, Nat.max_eq_right hle]
      have heq : L.admissions b ((u, c) :: h) = L.admissions (L.refill u b) ((u, c) :: h) := by
        rw [admissions, admissions, call_refill]
      have huntil := admissions_until hfill (h := (u, c) :: h)
        (by rw [hlast]; exact monotoneFrom_cons.2 ⟨Nat.le_refl u, hm'⟩) hn t
      rw [hlast] at huntil
      have hsub : (L.admissions b ((u, c) :: h)).countP (fun a => s ≤ a ∧ a ≤ t) ≤
          (L.admissions b ((u, c) :: h)).countP (· ≤ t) := by
        refine List.countP_mono_left fun a _ ha => ?_
        simp only [decide_eq_true_eq] at ha ⊢
        exact ha.2
      have hcast : (((L.admissions b ((u, c) :: h)).countP fun a => s ≤ a ∧ a ≤ t : Nat) : Rat) ≤
          ((L.admissions b ((u, c) :: h)).countP (· ≤ t) : Nat) := Nat.cast_le.2 hsub
      have hshort : L.earned (t - u) ≤ L.earned (t - s) := L.earned_mono (by omega)
      have hcap := hfill.2
      rw [heq] at hcast ⊢
      linarith

/-- **The rate of admission.** Between `s` and `t` no more `try_acquire` calls
are admitted than a full bucket holds and the refill adds in that time. -/
theorem admissions_in_window (capacity refillPerSec : Rat) (t₀ : Nat) (h : History)
    (hm : MonotoneFrom t₀ h) (hn : ∀ d ∈ h, 0 ≤ d.2.wants) (s t : Nat) (hst : s ≤ t) :
    ((((new capacity refillPerSec).admissions ((new capacity refillPerSec).newBucket t₀) h).countP
      fun a => s ≤ a ∧ a ≤ t : Nat) : Rat) ≤
        max capacity 0 + max refillPerSec 0 * ((t : Rat) - s) / 1000 := by
  have hbound := admissions_between (newBucket_inRange (new capacity refillPerSec) t₀)
    (h := h) hm hn hst
  have hearned : (new capacity refillPerSec).earned (t - s) =
      max refillPerSec 0 * ((t : Rat) - s) / 1000 := by
    show ((t - s : Nat) : Rat) / 1000 * max refillPerSec 0 = _
    rw [Nat.cast_sub hst]
    ring
  rw [hearned] at hbound
  exact hbound

/-- A burst of two, one more after 100 ms. -/
theorem admissions_in_window_burst :
    (((new 2 10).admissions ((new 2 10).newBucket 0)
      [(0, .tryAcquire), (0, .tryAcquire), (0, .tryAcquire), (100, .available),
        (100, .tryAcquire)]).countP fun a => 0 ≤ a ∧ a ≤ 100 : Nat) = 3 ∧
    ((((new 2 10).admissions ((new 2 10).newBucket 0)
      [(0, .tryAcquire), (0, .tryAcquire), (0, .tryAcquire), (100, .available),
        (100, .tryAcquire)]).countP fun a => 0 ≤ a ∧ a ≤ 100 : Nat) : Rat) ≤
      max 2 0 + max 10 0 * (((100 : Nat) : Rat) - (0 : Nat)) / 1000 :=
  ⟨by decide +kernel, admissions_in_window 2 10 0 _ (by decide) (by decide +kernel) 0 100 (by decide)⟩

end RateLimiter

end ValidatorForge.Resilience
