import ValidatorForge.Resilience.History
import ValidatorForge.Resilience.Retry

/-!
# The breaker's failure counter

`consecutive_failures` is a `u32`. `checkedOnFailure` is `on_failure` with its
`+= 1` checked, `checkedAfter` a run of calls that stops at the first addition
that overflows. `Counted` is the invariant that carries the results: closed
holds less than the threshold, open and half open hold the threshold and the
failures reported late, to a breaker already open (`lateFailures`).
-/
namespace ValidatorForge.Resilience.CircuitBreaker

/-- `none` where `+= 1` overflows the `u32`.
mirrors crates/validatorforge-resilience/src/breaker.rs:113-130 -/
def checkedOnFailure (b : CircuitBreaker) (now : Nat) (inner : Inner) : Option Inner :=
  match inner.state with
  | .halfOpen =>
    some { state := .open', openedAtMillis := now, consecutiveFailures := b.failureThreshold }
  | _ =>
    if inner.consecutiveFailures + 1 ≤ U32_MAX then
      let inner := { inner with consecutiveFailures := inner.consecutiveFailures + 1 }
      if inner.consecutiveFailures ≥ b.failureThreshold then
        some { inner with state := .open', openedAtMillis := now }
      else some inner
    else none

/-- The state one call leaves, `none` where it overflows the counter. -/
def checkedCall (b : CircuitBreaker) (now : Nat) : Call → Inner → Option Inner
  | .acquire, s => some (b.acquire now s).2
  | .state, s => some (b.state now s).2
  | .onSuccess, s => some (onSuccess s)
  | .onFailure, s => b.checkedOnFailure now s

/-- The state of a new breaker after the calls of `h`, `none` if one overflows. -/
def checkedAfter (b : CircuitBreaker) (h : History) : Option Inner :=
  h.foldlM (fun s c => b.checkedCall c.1 c.2 s) Inner.new

/-- `n` failures reported late, and one more call. -/
def lateNext (s : Inner) (n : Nat) : Call → Nat
  | .onFailure => if s.state = .open' then n + 1 else 0
  | .acquire | .state | .onSuccess => n

/-- The failures reported to the open breaker since one last found it not open. -/
def lateFailures (b : CircuitBreaker) (h : History) : Nat :=
  (h.foldl (fun (x : Inner × Nat) c => ((b.call c.1 c.2 x.1).2, lateNext x.1 x.2 c.2))
    (Inner.new, 0)).2

@[simp] theorem lateFailures_nil (b : CircuitBreaker) : b.lateFailures [] = 0 := rfl

@[simp] theorem lateFailures_snoc (b : CircuitBreaker) (h : History) (t : Nat) (c : Call) :
    b.lateFailures (h ++ [(t, c)]) = lateNext (b.after h) (b.lateFailures h) c := by
  have hfst : (h.foldl (fun (x : Inner × Nat) c =>
      ((b.call c.1 c.2 x.1).2, lateNext x.1 x.2 c.2)) (Inner.new, 0)).1 = b.after h :=
    (List.foldl_hom Prod.fst fun _ _ => rfl).symm
  unfold lateFailures
  rw [List.foldl_append, List.foldl_cons, List.foldl_nil, hfst]

theorem lateNext_le (s : Inner) (n : Nat) (c : Call) : lateNext s n c ≤ n + 1 := by
  cases c with
  | acquire | state | onSuccess => exact Nat.le_succ n
  | onFailure =>
    simp only [lateNext]
    split <;> omega

/-- No more than the calls made. -/
theorem lateFailures_le (b : CircuitBreaker) (h : History) : b.lateFailures h ≤ h.length := by
  induction h using List.reverseRecOn with
  | nil => exact Nat.le_refl 0
  | append_singleton h d ih =>
    obtain ⟨t, c⟩ := d
    rw [lateFailures_snoc, List.length_append, List.length_singleton]
    have := lateNext_le (b.after h) (b.lateFailures h) c
    omega

@[simp] theorem checkedAfter_nil (b : CircuitBreaker) : b.checkedAfter [] = some Inner.new := rfl

@[simp] theorem checkedAfter_snoc (b : CircuitBreaker) (h : History) (t : Nat) (c : Call) :
    b.checkedAfter (h ++ [(t, c)]) = (b.checkedAfter h).bind (b.checkedCall t c) := by
  simp [checkedAfter]

/-! ## One call -/

/-- The call adds one to a counter that has no room for it. -/
def Overflows (s : Inner) (c : Call) : Prop :=
  c = .onFailure ∧ s.state ≠ .halfOpen ∧ U32_MAX ≤ s.consecutiveFailures

theorem checkedOnFailure_eq_none {b : CircuitBreaker} {now : Nat} {s : Inner} :
    b.checkedOnFailure now s = none ↔ Overflows s .onFailure := by
  unfold checkedOnFailure Overflows
  cases hs : s.state with
  | halfOpen => simp
  | closed | open' =>
    dsimp only
    split
    · split <;> simp <;> omega
    · simp
      omega

theorem checkedOnFailure_eq {b : CircuitBreaker} {now : Nat} {s s' : Inner}
    (h : b.checkedOnFailure now s = some s') : s' = b.onFailure now s := by
  unfold checkedOnFailure at h
  unfold onFailure
  cases hs : s.state with
  | halfOpen => simpa [hs] using h.symm
  | closed | open' =>
    simp only [hs] at h ⊢
    split at h
    · split at h
      · rename_i ht
        rw [if_pos ht]
        exact (Option.some.inj h).symm
      · rename_i ht
        rw [if_neg ht]
        exact (Option.some.inj h).symm
    · cases h

theorem checkedCall_eq_none {b : CircuitBreaker} {now : Nat} {c : Call} {s : Inner} :
    b.checkedCall now c s = none ↔ Overflows s c := by
  cases c with
  | acquire | state | onSuccess => simp [checkedCall, Overflows]
  | onFailure => exact checkedOnFailure_eq_none

/-- A call that does not overflow is the call on an unbounded counter. -/
theorem checkedCall_eq {b : CircuitBreaker} {now : Nat} {c : Call} {s s' : Inner}
    (h : b.checkedCall now c s = some s') : s' = (b.call now c s).2 := by
  cases c with
  | acquire | state | onSuccess => exact (Option.some.inj h).symm
  | onFailure => exact checkedOnFailure_eq h

/-! ## Runs -/

theorem checkedAfter_eq {b : CircuitBreaker} {h : History} {s : Inner}
    (hs : b.checkedAfter h = some s) : s = b.after h := by
  induction h using List.reverseRecOn generalizing s with
  | nil => exact (Option.some.inj hs).symm
  | append_singleton h d ih =>
    obtain ⟨t, c⟩ := d
    rw [checkedAfter_snoc] at hs
    obtain ⟨s₀, hs₀, hc⟩ := Option.bind_eq_some_iff.1 hs
    have heq := checkedCall_eq hc
    rw [ih hs₀] at heq
    rw [after_snoc]
    exact heq

/-- A run ends early at the first call that overflows, and only there. -/
theorem checkedAfter_isSome_snoc {b : CircuitBreaker} {h : History} {t : Nat} {c : Call} :
    (b.checkedAfter (h ++ [(t, c)])).isSome ↔
      (b.checkedAfter h).isSome ∧ ¬ Overflows (b.after h) c := by
  rw [checkedAfter_snoc]
  cases hs : b.checkedAfter h with
  | none => simp
  | some s =>
    have heq := checkedAfter_eq hs
    subst heq
    have hnone : b.checkedCall t c (b.after h) = none ↔ Overflows (b.after h) c :=
      checkedCall_eq_none
    rw [Option.bind_some, ← hnone]
    cases b.checkedCall t c (b.after h) <;> simp

/-- The counter, `late` failures reported late. -/
def Counted (b : CircuitBreaker) (late : Nat) (s : Inner) : Prop :=
  match s.state with
  | .closed => s.consecutiveFailures < b.failureThreshold
  | .open' | .halfOpen => s.consecutiveFailures = b.failureThreshold + late

theorem Counted.refresh {b : CircuitBreaker} {late now : Nat} {s : Inner}
    (h : b.Counted late s) : b.Counted late (b.refresh now s) := by
  unfold CircuitBreaker.refresh
  split
  · rename_i ho
    split
    · simpa [Counted, ho] using h
    · exact h
  · exact h

theorem Counted.onFailure {b : CircuitBreaker} {late now : Nat} {s : Inner}
    (h : b.Counted late s) :
    b.Counted (lateNext s late .onFailure) (b.onFailure now s) := by
  unfold CircuitBreaker.onFailure lateNext
  cases hs : s.state with
  | halfOpen => simp [Counted]
  | closed =>
    simp only [Counted, hs] at h
    simp only [reduceCtorEq, if_false]
    split
    · simp only [Counted]
      omega
    · simp only [Counted]
      omega
  | open' =>
    simp only [Counted, hs] at h
    have ht : b.failureThreshold ≤ s.consecutiveFailures + 1 := by omega
    simp only [if_true, ge_iff_le, ht]
    simp only [Counted]
    omega

theorem Counted.call {b : CircuitBreaker} {late now : Nat} {s : Inner} (c : Call)
    (h : b.Counted late s) : b.Counted (lateNext s late c) (b.call now c s).2 := by
  cases c with
  | acquire =>
    show b.Counted late (b.acquire now s).2
    rw [acquire_snd]
    exact h.refresh
  | state => exact h.refresh
  | onSuccess => exact b.threshold_pos
  | onFailure => exact h.onFailure

/-- **The counter.** Whatever the calls and the clock, the counter is below the
threshold in a closed breaker, and else the threshold and the late failures. -/
theorem counted_after (b : CircuitBreaker) (h : History) :
    b.Counted (b.lateFailures h) (b.after h) := by
  induction h using List.reverseRecOn with
  | nil => exact b.threshold_pos
  | append_singleton h d ih =>
    obtain ⟨t, c⟩ := d
    rw [after_snoc, lateFailures_snoc]
    exact ih.call c

/-- Only a failure that finds the breaker open can overflow the counter. -/
theorem overflows_after {b : CircuitBreaker} (hb : b.failureThreshold ≤ U32_MAX) (h : History) :
    Overflows (b.after h) .onFailure ↔
      (b.after h).state = .open' ∧ U32_MAX ≤ b.failureThreshold + b.lateFailures h := by
  have hc := b.counted_after h
  unfold Overflows
  cases hs : (b.after h).state with
  | closed =>
    simp only [Counted, hs] at hc
    simp
    omega
  | halfOpen => simp
  | open' =>
    simp only [Counted, hs] at hc
    simp [hc]

/-- Every failure that finds the breaker open leaves room for one more. -/
theorem checkedAfter_isSome {b : CircuitBreaker} (hb : b.failureThreshold ≤ U32_MAX)
    (h : History) :
    (b.checkedAfter h).isSome ↔
      ∀ (pre : History) (t : Nat), pre ++ [(t, .onFailure)] <+: h →
        (b.after pre).state = .open' → b.lateFailures pre < U32_MAX - b.failureThreshold := by
  induction h using List.reverseRecOn with
  | nil => simp
  | append_singleton h d ih =>
    obtain ⟨t, c⟩ := d
    rw [checkedAfter_isSome_snoc, ih]
    constructor
    · intro ⟨hprev, hlast⟩ pre t' hpre ho
      rcases List.prefix_concat_iff.1 hpre with heq | hpre
      · obtain ⟨rfl, hd⟩ := List.append_inj' heq rfl
        cases hd
        rw [overflows_after hb] at hlast
        have := not_and.1 hlast ho
        omega
      · exact hprev pre t' hpre ho
    · intro hall
      refine ⟨fun pre t' hpre => hall pre t' (hpre.trans (List.prefix_append _ _)), ?_⟩
      intro hlast
      obtain rfl := hlast.1
      rw [overflows_after hb] at hlast
      have := hall h t (List.prefix_refl _) hlast.1
      omega

/-- **When the counter overflows.** For every threshold a `u32` can hold, every
cooldown and every sequence of calls at any clock readings: no addition to the
counter overflows exactly when every failure that finds the breaker open comes
while fewer than `u32::MAX - max failure_threshold 1` have been reported to it
since it opened. -/
theorem no_overflow_iff (failureThreshold cooldownMillis : Nat) (hb : failureThreshold ≤ U32_MAX)
    (h : History) :
    ((new failureThreshold cooldownMillis).checkedAfter h).isSome ↔
      ∀ (pre : History) (t : Nat), pre ++ [(t, .onFailure)] <+: h →
        ((new failureThreshold cooldownMillis).after pre).state = .open' →
        (new failureThreshold cooldownMillis).lateFailures pre <
          U32_MAX - max failureThreshold 1 := by
  apply checkedAfter_isSome
  exact Nat.max_le.2 ⟨hb, by decide⟩

/-- Threshold 2: the second failure opens the breaker, and the third one, late,
is the first of the many it has room for. -/
theorem no_overflow_iff_late :
    ((new 2 10).checkedAfter [(0, .onFailure), (1, .onFailure), (2, .onFailure)]).isSome := by
  rw [no_overflow_iff 2 10 (by decide)]
  intro pre t hpre _
  have hlen := hpre.length_le
  rw [List.length_append] at hlen
  have hlate := lateFailures_le (new 2 10) pre
  have hroom : 3 < U32_MAX - max 2 1 := by decide
  simp only [List.length_cons, List.length_nil] at hlen
  omega

/-! ## A run that overflows -/

theorem after_replicate (cooldownMillis n : Nat) :
    (new 1 cooldownMillis).after (List.replicate (n + 1) (0, .onFailure)) =
      { state := .open', consecutiveFailures := n + 1, openedAtMillis := 0 } := by
  induction n with
  | zero => rfl
  | succ n ih =>
    rw [List.replicate_succ', after_snoc, ih]
    simp [call, onFailure, new]

/-- **The counter can overflow.** Threshold 1, and `2^32` failures in a row: the
last of them finds the breaker open and the counter at `u32::MAX`. -/
theorem overflow_of_late_failures :
    (new 1 30000).checkedAfter (List.replicate (U32_MAX + 1) (0, .onFailure)) = none := by
  have hrun := after_replicate 30000 (U32_MAX - 1)
  rw [show U32_MAX - 1 + 1 = U32_MAX from rfl] at hrun
  rw [← Option.not_isSome_iff_eq_none, List.replicate_succ', checkedAfter_isSome_snoc, hrun]
  intro h
  exact h.2 ⟨rfl, by decide, Nat.le_refl _⟩

end ValidatorForge.Resilience.CircuitBreaker
