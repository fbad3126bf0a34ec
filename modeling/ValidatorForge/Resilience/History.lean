import Mathlib.Data.List.Induction
import ValidatorForge.Resilience.Breaker

/-!
# The breaker as a function of its history

A history is the sequence of calls made on one breaker, each with the clock
reading it takes (no call reads the clock twice). What the breaker answers
depends on the reports alone, and of these only on the failures since the last
success (`sinceSuccess`): how many they are (`tripped_iff`) and when the last of
them came (`Shut`). `Tracks` relates the three mutable fields to that list.
-/
namespace ValidatorForge.Resilience

inductive Call where
  | acquire | state | onSuccess | onFailure
  deriving DecidableEq, Repr

/-- `reported` is the unit answer of the two reports. -/
inductive Answer where
  | acquire (r : Except BreakerError Unit)
  | state (s : BreakerState)
  | reported

/-- The calls that record a result. -/
def Call.isReport : Call → Bool
  | .onSuccess | .onFailure => true
  | .acquire | .state => false

def Answer.isAdmitted : Answer → Bool
  | .acquire (.ok _) => true
  | _ => false

/-- The calls made on one breaker, with the time of each. -/
abbrev History := List (Nat × Call)

namespace History

/-- The clock never goes back. -/
def Monotone (h : History) : Prop := (h.map Prod.fst).Pairwise (· ≤ ·)

instance (h : History) : Decidable h.Monotone :=
  inferInstanceAs (Decidable ((h.map Prod.fst).Pairwise (· ≤ ·)))

/-- The calls that record a result, with their times. -/
def reports (h : History) : History := h.filter fun c => c.2.isReport

/-- The times of the failures reported since the last success, newest first. -/
def sinceSuccess (h : History) : List Nat :=
  (h.reverse.takeWhile fun c => c.2 ≠ .onSuccess).filterMap fun c =>
    if c.2 = .onFailure then some c.1 else none

/-- The number of failures since the last success. -/
def failures (h : History) : Nat := h.sinceSuccess.length

/-- The time of the last failure since the last success (0 if there is none). -/
def lastFailure (h : History) : Nat := h.sinceSuccess.headD 0

@[simp] theorem sinceSuccess_nil : sinceSuccess [] = [] := rfl

@[simp] theorem sinceSuccess_onFailure (h : History) (t : Nat) :
    sinceSuccess (h ++ [(t, .onFailure)]) = t :: h.sinceSuccess := by
  simp [sinceSuccess]

@[simp] theorem sinceSuccess_onSuccess (h : History) (t : Nat) :
    sinceSuccess (h ++ [(t, .onSuccess)]) = [] := by
  simp [sinceSuccess]

theorem sinceSuccess_query (h : History) (t : Nat) {c : Call} (hc : c.isReport = false) :
    sinceSuccess (h ++ [(t, c)]) = h.sinceSuccess := by
  cases c with
  | acquire | state => simp [sinceSuccess]
  | onSuccess | onFailure => cases hc

@[simp] theorem reports_append (h₁ h₂ : History) :
    reports (h₁ ++ h₂) = h₁.reports ++ h₂.reports := List.filter_append ..

/-- The questions asked in between do not matter. -/
theorem sinceSuccess_reports (h : History) : sinceSuccess h.reports = h.sinceSuccess := by
  induction h using List.reverseRecOn with
  | nil => rfl
  | append_singleton h c ih =>
    obtain ⟨t, c⟩ := c
    rw [reports_append]
    cases c with
    | onFailure => simpa [reports, Call.isReport] using ih
    | onSuccess => simp [reports, Call.isReport]
    | acquire | state =>
      rw [sinceSuccess_query h t rfl, ← ih]
      simp [reports, Call.isReport]

theorem sinceSuccess_congr {h₁ h₂ : History} (h : h₁.reports = h₂.reports) :
    h₁.sinceSuccess = h₂.sinceSuccess := by
  rw [← sinceSuccess_reports h₁, ← sinceSuccess_reports h₂, h]

theorem Monotone.left {h₁ h₂ : History} (hm : Monotone (h₁ ++ h₂)) : h₁.Monotone := by
  unfold Monotone at hm ⊢
  rw [List.map_append] at hm
  exact (List.pairwise_append.1 hm).1

/-- Everything before the last call came no later. -/
theorem Monotone.le {h : History} {t : Nat} {c : Call} (hm : Monotone (h ++ [(t, c)])) :
    ∀ d ∈ h, d.1 ≤ t := by
  unfold Monotone at hm
  rw [List.map_append] at hm
  intro d hd
  exact (List.pairwise_append.1 hm).2.2 d.1 (List.mem_map_of_mem hd) t (by simp)

theorem exists_now (h : History) : ∃ now, ∀ c ∈ h, c.1 ≤ now := by
  induction h with
  | nil => exact ⟨0, by simp⟩
  | cons c h ih =>
    obtain ⟨now, hnow⟩ := ih
    refine ⟨max c.1 now, fun d hd => ?_⟩
    rcases List.mem_cons.1 hd with rfl | hd
    · exact Nat.le_max_left _ _
    · have := hnow d hd
      omega

/-- The last failure is one of the calls made. -/
theorem lastFailure_mem {h : History} (hf : 0 < h.failures) : (h.lastFailure, .onFailure) ∈ h := by
  induction h using List.reverseRecOn with
  | nil => exact absurd hf (by simp [failures])
  | append_singleton h d ih =>
    obtain ⟨t, c⟩ := d
    unfold failures lastFailure at *
    cases c with
    | onFailure => simp
    | onSuccess => exact absurd hf (by simp)
    | acquire | state =>
      rw [sinceSuccess_query h t rfl] at hf ⊢
      exact List.mem_append_left _ (ih hf)

end History

namespace CircuitBreaker

/-- One call on the breaker: its answer and the state it leaves. -/
def call (b : CircuitBreaker) (now : Nat) : Call → Inner → Answer × Inner
  | .acquire, s => (.acquire (b.acquire now s).1, (b.acquire now s).2)
  | .state, s => (.state (b.state now s).1, (b.state now s).2)
  | .onSuccess, s => (.reported, onSuccess s)
  | .onFailure, s => (.reported, b.onFailure now s)

/-- The state of a new breaker after the calls of `h`. -/
def after (b : CircuitBreaker) (h : History) : Inner :=
  h.foldl (fun s c => (b.call c.1 c.2 s).2) Inner.new

/-- What the calls of a history answer from a given state on. -/
def answers (b : CircuitBreaker) : Inner → History → List Answer
  | _, [] => []
  | s, (t, c) :: h => (b.call t c s).1 :: b.answers (b.call t c s).2 h

@[simp] theorem after_nil (b : CircuitBreaker) : b.after [] = Inner.new := rfl

@[simp] theorem after_snoc (b : CircuitBreaker) (h : History) (t : Nat) (c : Call) :
    b.after (h ++ [(t, c)]) = (b.call t c (b.after h)).2 := by
  unfold after
  rw [List.foldl_append]
  rfl

/-- At least `failure_threshold` failures since the last success, and the
cooldown has not elapsed since the last of them. -/
def Shut (b : CircuitBreaker) (h : History) (now : Nat) : Prop :=
  b.failureThreshold ≤ h.failures ∧ now - h.lastFailure < b.cooldownMillis

instance (b : CircuitBreaker) (h : History) (now : Nat) : Decidable (b.Shut h now) :=
  inferInstanceAs (Decidable (_ ∧ _))

/-! ## The fields and the history -/

/-- What the three fields say about the failures `fs` since the last success
(newest first): closed counts them, open dates the last of them, and half open
means the cooldown had elapsed since by the time `now`. -/
def Tracks (b : CircuitBreaker) (fs : List Nat) (now : Nat) (s : Inner) : Prop :=
  match s.state with
  | .closed => s.consecutiveFailures = fs.length ∧ fs.length < b.failureThreshold
  | .open' => b.failureThreshold ≤ s.consecutiveFailures ∧ b.failureThreshold ≤ fs.length ∧
      fs.headD 0 = s.openedAtMillis
  | .halfOpen => b.failureThreshold ≤ fs.length ∧ fs.headD 0 = s.openedAtMillis ∧
      b.cooldownMillis ≤ now - s.openedAtMillis

theorem tracks_new (b : CircuitBreaker) : b.Tracks [] 0 Inner.new := by
  have := b.threshold_pos
  exact ⟨rfl, this⟩

theorem Tracks.mono {b : CircuitBreaker} {fs : List Nat} {now now' : Nat} {s : Inner}
    (h : b.Tracks fs now s) (hle : now ≤ now') : b.Tracks fs now' s := by
  unfold Tracks at h ⊢
  split at h
  · exact h
  · exact h
  · exact ⟨h.1, h.2.1, by omega⟩

theorem Tracks.refresh {b : CircuitBreaker} {fs : List Nat} {now : Nat} {s : Inner}
    (h : b.Tracks fs now s) : b.Tracks fs now (b.refresh now s) := by
  unfold CircuitBreaker.refresh
  split
  · rename_i ho
    split
    · rename_i hc
      simp only [Tracks, ho] at h ⊢
      exact ⟨h.2.1, h.2.2, hc⟩
    · exact h
  · exact h

theorem tracks_onSuccess (b : CircuitBreaker) (now : Nat) (s : Inner) :
    b.Tracks [] now (onSuccess s) := ⟨rfl, b.threshold_pos⟩

theorem Tracks.onFailure {b : CircuitBreaker} {fs : List Nat} {now : Nat} {s : Inner}
    (h : b.Tracks fs now s) : b.Tracks (now :: fs) now (b.onFailure now s) := by
  unfold CircuitBreaker.onFailure
  cases hs : s.state with
  | halfOpen =>
    simp only [Tracks, hs, List.length_cons, List.headD_cons] at h ⊢
    exact ⟨Nat.le_refl _, by omega, trivial⟩
  | closed =>
    simp only [Tracks, hs] at h
    by_cases ht : b.failureThreshold ≤ s.consecutiveFailures + 1
    · rw [if_pos ht]
      exact ⟨ht, by rw [List.length_cons]; omega, rfl⟩
    · rw [if_neg ht]
      simp only [Tracks, List.length_cons]
      omega
  | open' =>
    simp only [Tracks, hs] at h
    have ht : b.failureThreshold ≤ s.consecutiveFailures + 1 := by omega
    rw [if_pos ht]
    exact ⟨ht, by rw [List.length_cons]; omega, rfl⟩

/-- **The simulation.** After any history the fields say what `Tracks` says of
its failures since the last success. -/
theorem tracks_after (b : CircuitBreaker) {h : History} {now : Nat} (hm : h.Monotone)
    (hle : ∀ c ∈ h, c.1 ≤ now) : b.Tracks h.sinceSuccess now (b.after h) := by
  induction h using List.reverseRecOn generalizing now with
  | nil => exact (tracks_new b).mono (Nat.zero_le now)
  | append_singleton h c ih =>
    obtain ⟨t, c⟩ := c
    have hprev : b.Tracks (History.sinceSuccess h) t (b.after h) := ih hm.left hm.le
    have ht : t ≤ now := hle (t, c) (by simp)
    refine Tracks.mono ?_ ht
    rw [after_snoc]
    cases c with
    | acquire =>
      rw [History.sinceSuccess_query h t rfl]
      show b.Tracks _ t (b.acquire t (b.after h)).2
      rw [acquire_snd]
      exact hprev.refresh
    | state =>
      rw [History.sinceSuccess_query h t rfl]
      exact hprev.refresh
    | onSuccess =>
      rw [History.sinceSuccess_onSuccess]
      exact tracks_onSuccess b t _
    | onFailure =>
      rw [History.sinceSuccess_onFailure]
      exact hprev.onFailure

/-- The state a question at `now` finds. -/
theorem Tracks.state_eq {b : CircuitBreaker} {fs : List Nat} {now : Nat} {s : Inner}
    (h : b.Tracks fs now s) :
    (b.refresh now s).state =
      if fs.length < b.failureThreshold then .closed
      else if now - fs.headD 0 < b.cooldownMillis then .open' else .halfOpen := by
  unfold CircuitBreaker.refresh
  cases hs : s.state with
  | closed =>
    simp only [Tracks, hs] at h
    simp [h.2, hs]
  | open' =>
    simp only [Tracks, hs] at h
    have hn : ¬ fs.length < b.failureThreshold := by omega
    rw [if_neg hn, h.2.2, if_pos rfl]
    by_cases hc : b.cooldownMillis ≤ now - s.openedAtMillis
    · have hlt : ¬ now - s.openedAtMillis < b.cooldownMillis := by omega
      rw [if_pos hc, if_neg hlt]
    · rw [if_neg hc, if_pos (by omega)]
      exact hs
  | halfOpen =>
    simp only [Tracks, hs] at h
    have hn : ¬ fs.length < b.failureThreshold := by omega
    have hc : ¬ now - s.openedAtMillis < b.cooldownMillis := by omega
    rw [if_neg hn, h.2.1, if_neg hc, if_neg (by simp)]
    exact hs

/-- The state a question finds, read off the history. -/
theorem refresh_after (b : CircuitBreaker) {h : History} {t : Nat} {c : Call}
    (hm : History.Monotone (h ++ [(t, c)])) :
    (b.refresh t (b.after h)).state =
      if h.failures < b.failureThreshold then .closed
      else if t - h.lastFailure < b.cooldownMillis then .open' else .halfOpen :=
  (b.tracks_after hm.left hm.le).state_eq

/-- An acquire is rejected exactly while the breaker is shut. -/
theorem acquire_after (b : CircuitBreaker) {h : History} {t : Nat} {c : Call}
    (hm : History.Monotone (h ++ [(t, c)])) :
    (b.acquire t (b.after h)).1 = .error {} ↔ b.Shut h t := by
  rw [acquire_eq_error, ← refresh_state_open, b.refresh_after hm]
  unfold Shut
  constructor
  · intro ho
    split at ho
    · cases ho
    · split at ho
      · exact ⟨by omega, by assumption⟩
      · cases ho
  · intro hs
    rw [if_neg (Nat.not_lt.2 hs.1), if_pos hs.2]

/-- `state` and `acquire` agree. -/
theorem state_after (b : CircuitBreaker) {h : History} {t : Nat} {c : Call}
    (hm : History.Monotone (h ++ [(t, c)])) :
    (b.state t (b.after h)).1 =
      if h.failures < b.failureThreshold then .closed
      else if (b.acquire t (b.after h)).1 = .error {} then .open' else .halfOpen := by
  show (b.refresh t (b.after h)).state = _
  rw [b.refresh_after hm]
  by_cases hf : h.failures < b.failureThreshold
  · rw [if_pos hf, if_pos hf]
  · rw [if_neg hf, if_neg hf]
    by_cases ht : t - h.lastFailure < b.cooldownMillis
    · have hs : b.Shut h t := ⟨Nat.not_lt.1 hf, ht⟩
      rw [if_pos ht, if_pos ((b.acquire_after hm).2 hs)]
    · have hs : ¬ b.Shut h t := fun hs => ht hs.2
      rw [if_neg ht, if_neg (mt (b.acquire_after hm).1 hs)]

/-- Two histories with the same reports answer the next call alike. -/
theorem call_congr (b : CircuitBreaker) {h₁ h₂ : History} {t : Nat} {c : Call}
    (hr : h₁.reports = h₂.reports) (hm₁ : History.Monotone (h₁ ++ [(t, c)]))
    (hm₂ : History.Monotone (h₂ ++ [(t, c)])) :
    (b.call t c (b.after h₁)).1 = (b.call t c (b.after h₂)).1 := by
  have hst : (b.refresh t (b.after h₁)).state = (b.refresh t (b.after h₂)).state := by
    rw [b.refresh_after hm₁, b.refresh_after hm₂]
    unfold History.failures History.lastFailure
    rw [History.sinceSuccess_congr hr]
  cases c with
  | acquire =>
    show Answer.acquire (b.acquire t _).1 = Answer.acquire (b.acquire t _).1
    rw [acquire_fst, acquire_fst, hst]
  | state => exact congrArg Answer.state hst
  | onSuccess | onFailure => rfl

/-- Two histories with the same reports answer all later calls alike. -/
theorem answers_congr (b : CircuitBreaker) (post : History) {h₁ h₂ : History}
    (hr : h₁.reports = h₂.reports) (hm₁ : History.Monotone (h₁ ++ post))
    (hm₂ : History.Monotone (h₂ ++ post)) :
    b.answers (b.after h₁) post = b.answers (b.after h₂) post := by
  induction post generalizing h₁ h₂ with
  | nil => rfl
  | cons d post ih =>
    obtain ⟨t, c⟩ := d
    rw [List.append_cons] at hm₁ hm₂
    have hrest := ih (by rw [History.reports_append, History.reports_append, hr]) hm₁ hm₂
    rw [after_snoc, after_snoc] at hrest
    show _ :: _ = _ :: _
    rw [b.call_congr hr hm₁.left hm₂.left, hrest]

/-- **The breaker is its history.** Whatever the threshold, the cooldown and the
calls made so far: `acquire` is rejected exactly while at least
`max failure_threshold 1` failures have been reported since the last success and
the cooldown has not elapsed since the last of them; `state` reports the same;
and two sequences of calls that differ only in the questions asked give the same
answers from there on. -/
theorem breaker_eq_history (failureThreshold cooldownMillis : Nat) :
    (∀ (h : History) (t : Nat), History.Monotone (h ++ [(t, .acquire)]) →
      (((new failureThreshold cooldownMillis).acquire t
          ((new failureThreshold cooldownMillis).after h)).1 = .error {} ↔
        max failureThreshold 1 ≤ h.failures ∧ t - h.lastFailure < cooldownMillis)) ∧
    (∀ (h : History) (t : Nat), History.Monotone (h ++ [(t, .state)]) →
      ((new failureThreshold cooldownMillis).state t
          ((new failureThreshold cooldownMillis).after h)).1 =
        if h.failures < max failureThreshold 1 then .closed
        else if ((new failureThreshold cooldownMillis).acquire t
          ((new failureThreshold cooldownMillis).after h)).1 = .error {} then .open'
        else .halfOpen) ∧
    (∀ h₁ h₂ post : History, h₁.reports = h₂.reports →
      History.Monotone (h₁ ++ post) → History.Monotone (h₂ ++ post) →
      (new failureThreshold cooldownMillis).answers
          ((new failureThreshold cooldownMillis).after h₁) post =
        (new failureThreshold cooldownMillis).answers
          ((new failureThreshold cooldownMillis).after h₂) post) := by
  refine ⟨?_, ?_, ?_⟩
  · intro h t hm
    exact acquire_after _ hm
  · intro h t hm
    exact state_after _ hm
  · intro h₁ h₂ post hr hm₁ hm₂
    exact answers_congr _ post hr hm₁ hm₂

/-- A breaker with threshold 2 after two failures: rejected at 12, and asking in
between changes nothing. -/
theorem breaker_eq_history_tripped :
    ((new 2 10).acquire 12 ((new 2 10).after [(0, .onFailure), (5, .onFailure)])).1 = .error {} ∧
    ((new 2 10).state 15 ((new 2 10).after [(0, .onFailure), (5, .onFailure)])).1 = .halfOpen ∧
    (new 2 10).answers ((new 2 10).after [(0, .onFailure), (5, .onFailure)]) [(16, .acquire)] =
      (new 2 10).answers ((new 2 10).after [(0, .onFailure), (5, .onFailure), (15, .state)])
        [(16, .acquire)] :=
  ⟨((breaker_eq_history 2 10).1 _ 12 (by decide)).2 (by decide),
    (breaker_eq_history 2 10).2.1 _ 15 (by decide),
    (breaker_eq_history 2 10).2.2 _ _ _ (by decide) (by decide) (by decide)⟩

end CircuitBreaker

end ValidatorForge.Resilience
