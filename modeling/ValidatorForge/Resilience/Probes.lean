import ValidatorForge.Resilience.History

/-!
# Probes

What a tripped breaker lets through. In HalfOpen it admits every caller that
asks (`admitted_eq`): it admits a single probe exactly when a single caller asks
(`singleProbe_iff`).
-/
namespace ValidatorForge.Resilience

namespace History

theorem failures_reports {h₁ h₂ : History} (hr : h₁.reports = h₂.reports) :
    h₁.failures = h₂.failures := congrArg List.length (sinceSuccess_congr hr)

theorem lastFailure_reports {h₁ h₂ : History} (hr : h₁.reports = h₂.reports) :
    h₁.lastFailure = h₂.lastFailure := by
  unfold lastFailure
  rw [sinceSuccess_congr hr]

theorem reports_cons_eq_nil {t : Nat} {c : Call} {q : History} (h : reports ((t, c) :: q) = []) :
    c.isReport = false ∧ q.reports = [] := by
  unfold reports at h ⊢
  rw [List.filter_eq_nil_iff] at h ⊢
  exact ⟨by simpa using h (t, c) (by simp), fun d hd => h d (List.mem_cons_of_mem _ hd)⟩

/-- A history with a failure since the last success ends in that failure and questions. -/
theorem split_lastFailure (h : History) (hf : 0 < h.failures) :
    ∃ p q : History, h = p ++ (h.lastFailure, .onFailure) :: q ∧ q.reports = [] := by
  induction h using List.reverseRecOn with
  | nil => exact absurd hf (by simp [failures])
  | append_singleton h d ih =>
    obtain ⟨t, c⟩ := d
    cases hc : c.isReport with
    | true =>
      cases c with
      | onFailure => exact ⟨h, [], by simp [lastFailure], rfl⟩
      | onSuccess => exact absurd hf (by simp [failures])
      | acquire | state => cases hc
    | false =>
      unfold failures lastFailure at *
      rw [sinceSuccess_query h t hc] at hf ⊢
      obtain ⟨p, q, hsplit, hq⟩ := ih hf
      refine ⟨p, q ++ [(t, c)], ?_, ?_⟩
      · rw [← List.cons_append, ← List.append_assoc, ← hsplit]
      · rw [reports_append, hq]
        simp [reports, hc]

end History

namespace CircuitBreaker

/-- Reading `h` from the calls made: once the breaker is open, at most one
acquire is admitted before the next report. -/
def SingleProbe (b : CircuitBreaker) (h : History) : Prop :=
  ∀ pre stretch post : History, h = pre ++ stretch ++ post → stretch.reports = [] →
    (b.after pre).state = .open' →
    (b.answers (b.after pre) stretch).countP Answer.isAdmitted ≤ 1

/-- The calls of `q` that ask for admission at `t` or later. -/
def asksFrom (t : Nat) (q : History) : Nat :=
  q.countP fun c => c.2 = .acquire ∧ t ≤ c.1

/-- After a failure report that leaves `failure_threshold` failures in a row, at
most one caller asks for admission between the end of the cooldown and the next
report. -/
def LoneCaller (b : CircuitBreaker) (h : History) : Prop :=
  ∀ (pre : History) (t : Nat) (stretch post : History),
    h = pre ++ (t, .onFailure) :: stretch ++ post → stretch.reports = [] →
    b.failureThreshold ≤ History.failures (pre ++ [(t, .onFailure)]) →
    asksFrom (t + b.cooldownMillis) stretch ≤ 1

theorem failures_of_open {b : CircuitBreaker} {h : History} (hm : h.Monotone)
    (ho : (b.after h).state = .open') : b.failureThreshold ≤ h.failures := by
  obtain ⟨now, hle⟩ := h.exists_now
  have htr := b.tracks_after hm hle
  simp only [Tracks, ho] at htr
  exact htr.2.1

/-- A failure report leaves the breaker open exactly if it leaves enough failures in a row. -/
theorem open_after_onFailure {b : CircuitBreaker} {h : History} {t : Nat}
    (hm : History.Monotone (h ++ [(t, .onFailure)]))
    (hf : b.failureThreshold ≤ History.failures (h ++ [(t, .onFailure)])) :
    (b.after (h ++ [(t, .onFailure)])).state = .open' := by
  have htr : b.Tracks h.sinceSuccess t (b.after h) := b.tracks_after hm.left hm.le
  unfold History.failures at hf
  rw [History.sinceSuccess_onFailure, List.length_cons] at hf
  rw [after_snoc]
  show (b.onFailure t (b.after h)).state = _
  unfold CircuitBreaker.onFailure
  cases hs : (b.after h).state with
  | halfOpen => rfl
  | closed =>
    simp only [Tracks, hs] at htr
    rw [if_pos (by show _ ≤ _ + 1; omega)]
  | open' =>
    simp only [Tracks, hs] at htr
    rw [if_pos (by show _ ≤ _ + 1; omega)]

/-- While it is tripped and nothing is reported, the breaker admits whoever asks
once the cooldown has elapsed, and nobody else. -/
theorem admitted_eq (b : CircuitBreaker) (q : History) {pre : History} (hq : q.reports = [])
    (hm : History.Monotone (pre ++ q)) (hf : b.failureThreshold ≤ pre.failures) :
    (b.answers (b.after pre) q).countP Answer.isAdmitted =
      asksFrom (pre.lastFailure + b.cooldownMillis) q := by
  induction q generalizing pre with
  | nil => rfl
  | cons d q ih =>
    obtain ⟨t, c⟩ := d
    obtain ⟨hc, hq⟩ := History.reports_cons_eq_nil hq
    rw [List.append_cons] at hm
    have hr : History.reports (pre ++ [(t, c)]) = pre.reports := by
      rw [History.reports_append]
      simp [History.reports, hc]
    have hrest := ih hq hm (by rw [History.failures_reports hr]; exact hf)
    rw [after_snoc, History.lastFailure_reports hr] at hrest
    have hpos : 0 < pre.failures := Nat.lt_of_lt_of_le b.threshold_pos hf
    have hlt : pre.lastFailure ≤ t := hm.left.le _ (History.lastFailure_mem hpos)
    have hans := b.acquire_after hm.left
    show List.countP _ (_ :: _) = List.countP _ (_ :: _)
    rw [List.countP_cons, List.countP_cons, hrest]
    congr 1
    cases c with
    | onSuccess | onFailure => cases hc
    | state => rfl
    | acquire =>
      show (if Answer.isAdmitted (.acquire (b.acquire t (b.after pre)).1) = true then 1 else 0) = _
      cases hacq : (b.acquire t (b.after pre)).1 with
      | error e =>
        have hs : b.Shut pre t := hans.1 hacq
        have hlate : ¬ pre.lastFailure + b.cooldownMillis ≤ t := by
          have := hs.2
          omega
        simp [Answer.isAdmitted, hlate]
      | ok u =>
        have hs : ¬ b.Shut pre t := fun hs => by
          rw [hans.2 hs] at hacq
          cases hacq
        have hlate : pre.lastFailure + b.cooldownMillis ≤ t := by
          by_contra hcon
          exact hs ⟨hf, by omega⟩
        simp [Answer.isAdmitted, hlate]

/-- **A single probe for a single caller.** Over every history of calls on a
breaker, by any number of callers in any order: it admits at most one acquire
after leaving Open and before the next report exactly when no second caller asks
in that time. -/
theorem singleProbe_iff (failureThreshold cooldownMillis : Nat) (h : History) (hm : h.Monotone) :
    (new failureThreshold cooldownMillis).SingleProbe h ↔
      (new failureThreshold cooldownMillis).LoneCaller h := by
  generalize new failureThreshold cooldownMillis = b
  refine ⟨?_, ?_⟩
  · intro hs pre t stretch post hsplit hq hf
    rw [List.append_cons] at hsplit
    have hm' : History.Monotone ((pre ++ [(t, .onFailure)]) ++ stretch) := (hsplit ▸ hm).left
    have hadm := hs _ stretch post hsplit hq (open_after_onFailure hm'.left hf)
    rw [b.admitted_eq stretch hq hm' hf] at hadm
    simpa [History.lastFailure] using hadm
  · intro hl pre stretch post hsplit hq ho
    have hm' : History.Monotone (pre ++ stretch) := (hsplit ▸ hm).left
    have hf := failures_of_open hm'.left ho
    rw [b.admitted_eq stretch hq hm' hf]
    obtain ⟨p, q, hp, hq'⟩ := pre.split_lastFailure (Nat.lt_of_lt_of_le b.threshold_pos hf)
    have hfail : History.failures (p ++ [(pre.lastFailure, .onFailure)]) = pre.failures := by
      refine History.failures_reports ?_
      have hrep := congrArg History.reports (hp.trans (List.append_cons p _ q))
      rw [History.reports_append _ q, hq', List.append_nil] at hrep
      exact hrep.symm
    have hlong : h = p ++ (pre.lastFailure, .onFailure) :: (q ++ stretch) ++ post := by
      rw [hsplit, ← List.cons_append, ← List.append_assoc p, ← hp]
    have hone := hl p pre.lastFailure (q ++ stretch) post hlong
      (by rw [History.reports_append, hq', hq]; rfl) (by rw [hfail]; exact hf)
    unfold asksFrom at hone ⊢
    rw [List.countP_append] at hone
    omega

/-- Threshold 1, a failure at 0, and three callers that ask when the cooldown ends. -/
def crowd : History := [(0, .onFailure), (1000, .acquire), (1000, .acquire), (1000, .acquire)]

/-- All three are admitted. -/
theorem crowd_admitted :
    crowd.Monotone ∧ ¬ (new 1 1000).SingleProbe crowd := by
  refine ⟨by decide, fun hs => ?_⟩
  have h := hs [(0, .onFailure)] [(1000, .acquire), (1000, .acquire), (1000, .acquire)] [] rfl rfl
    rfl
  exact absurd h (by decide)

/-- One caller asks, the next one waits for its report. -/
theorem singleProbe_iff_serial :
    (new 1 1000).SingleProbe [(0, .onFailure), (1000, .acquire), (1001, .onSuccess)] ↔
      (new 1 1000).LoneCaller [(0, .onFailure), (1000, .acquire), (1001, .onSuccess)] :=
  singleProbe_iff 1 1000 _ (by decide)

end CircuitBreaker

end ValidatorForge.Resilience
