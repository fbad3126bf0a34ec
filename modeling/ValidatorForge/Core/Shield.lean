import ValidatorForge.Core.Compensation

/-!
# What an open breaker keeps from the host

The guard asks the breaker once per operation; its retries report to the breaker
and do not ask it. `Shielded`: no attempt of a trace starts while the breaker is
open and cooling. A guarded operation can break this only by retrying after the
failure that tripped the breaker, so it holds of every run exactly when no retry
comes before the cooldown has elapsed (`shields_iff`).
-/
namespace ValidatorForge.Core

open Interaction ValidatorForge.Types Prog Resilience

/-- If the breaker is open, it was opened in the past. -/
def Clocked.Dated (w : Clocked) : Prop :=
  w.inner.state = .open' → w.inner.openedAtMillis ≤ w.now

namespace ResilientNodeAgent

variable {A : ResilientNodeAgent}

/-- Operations guarded by `A`, one after another. Each may be given up half way,
as a dropped future or a panic does. -/
def Performed (A : ResilientNodeAgent) : List AgentCall → List ResilientSig.Ev → Prop
  | [], tr => tr = []
  | c :: cs, tr => ∃ t q t', tr = t ++ t' ∧ (A.guard c).After t q ∧ A.Performed cs t'

/-- However long things take, no attempt starts while the breaker is open and cooling. -/
def Shielded (A : ResilientNodeAgent) : Clocked → List ResilientSig.Ev → Prop
  | _, [] => True
  | w, e :: tr => ((innerCallOf e).isSome → ¬ A.breaker.Cooling w.now w.inner) ∧
      ∀ w₁, A.breakerEnv e.1 w e.2 w₁ → A.Shielded w₁ tr

/-- No run of operations on a new agent starts an attempt while its breaker is
open and cooling. -/
def ShieldsHost (A : ResilientNodeAgent) : Prop :=
  ∀ start cs tr, A.Performed cs tr → A.Shielded ⟨.new, start⟩ tr

/-- No retry, or none before the cooldown has elapsed: the shortest backoff is
the first one, without jitter. -/
def RetriesLate (A : ResilientNodeAgent) : Prop :=
  A.retry.maxAttempts ≤ 1 ∨
    ∀ d, A.retry.backoffFor 0 0 = some d → A.breaker.cooldownMillis ≤ d / 1000000

/-! ## Traces and what they may start -/

theorem shielded_append {w : Clocked} {t₁ t₂ : List ResilientSig.Ev} :
    A.Shielded w (t₁ ++ t₂) ↔
      A.Shielded w t₁ ∧ ∀ w₁, A.breakerEnv.Accepts w t₁ w₁ → A.Shielded w₁ t₂ := by
  induction t₁ generalizing w with
  | nil => simp [Shielded]
  | cons e t₁ ih =>
    simp only [List.cons_append, Shielded, ih, Env.accepts_cons]
    constructor
    · intro h
      refine ⟨⟨h.1, fun w₁ hw => (h.2 w₁ hw).1⟩, ?_⟩
      intro w₂ hw
      obtain ⟨w₁, h₁, h₂⟩ := hw
      exact (h.2 w₁ h₁).2 w₂ h₂
    · intro h
      exact ⟨h.1.1, fun w₁ h₁ => ⟨h.1.2 w₁ h₁, fun w₂ h₂ => h.2 w₂ ⟨w₁, h₁, h₂⟩⟩⟩

/-- Operations that are no attempts are not restricted. -/
theorem shielded_of_quiet {tr : List ResilientSig.Ev} (h : innerCalls tr = []) (w : Clocked) :
    A.Shielded w tr := by
  induction tr generalizing w with
  | nil => trivial
  | cons e tr ih =>
    unfold innerCalls at h ih
    rw [List.filterMap_eq_nil_iff] at h ih
    have he : innerCallOf e = none := h e List.mem_cons_self
    refine ⟨fun hsome => ?_, fun w₁ _ => ih (fun d hd => h d (List.mem_cons_of_mem _ hd)) w₁⟩
    rw [he] at hsome
    cases hsome

theorem breakerEnv_dated {o : ResilientOp} {w w' : Clocked} {r : o.Resp}
    (h : A.breakerEnv o w r w') (hw : w.Dated) : w'.Dated := by
  cases o with
  | acquire =>
    have hi : A.breaker.refresh w'.now w.inner = w'.inner := by
      rw [← CircuitBreaker.acquire_snd, h.2]
    intro ho
    rw [← hi] at ho ⊢
    have hc := CircuitBreaker.refresh_state_open.1 ho
    have := hw hc.1
    rw [CircuitBreaker.refresh_of_cooling hc]
    exact Nat.le_trans this h.1
  | onSuccess =>
    intro ho
    rw [h.2] at ho
    cases ho
  | onFailure =>
    unfold Clocked.Dated
    rw [h.2]
    exact CircuitBreaker.onFailure_openedAt fun ho => Nat.le_trans (hw ho) h.1
  | backoffFor i =>
    intro ho
    rw [h.2.1] at ho ⊢
    exact Nat.le_trans (hw ho) h.1
  | sleep d =>
    intro ho
    rw [h.2] at ho ⊢
    exact Nat.le_trans (hw ho) (Nat.le_trans (Nat.le_add_right ..) h.1)
  | withTimeout | publish | now =>
    intro ho
    rw [h.2] at ho ⊢
    exact Nat.le_trans (hw ho) h.1

theorem accepts_dated {w w' : Clocked} {tr : List ResilientSig.Ev}
    (h : A.breakerEnv.Accepts w tr w') (hw : w.Dated) : w'.Dated := by
  induction tr generalizing w with
  | nil => exact h ▸ hw
  | cons e tr ih =>
    obtain ⟨w₁, he, ht⟩ := h
    exact ih ht (breakerEnv_dated he hw)

/-- One attempt and its report. -/
theorem exec_attempt {c : AgentCall} {tr : List ResilientSig.Ev} {a : Except PortError c.Reply}
    (h : (A.attempt c).Exec tr a) : ∃ reply,
      tr = [⟨.withTimeout A.opTimeout c, reply⟩, ⟨.onSuccess, ()⟩] ∧ (∃ v, a = .ok v) ∨
      tr = [⟨.withTimeout A.opTimeout c, reply⟩, ⟨.onFailure, ()⟩] ∧ ∃ e, a = .error e := by
  obtain ⟨reply, rest, rfl, h⟩ := h
  refine ⟨reply, ?_⟩
  rcases reply with _ | e | v
  · obtain ⟨_, _, rfl, rfl, rfl⟩ := h
    exact .inr ⟨rfl, _, rfl⟩
  · obtain ⟨_, _, rfl, rfl, rfl⟩ := h
    exact .inr ⟨rfl, _, rfl⟩
  · obtain ⟨_, _, rfl, rfl, rfl⟩ := h
    exact .inl ⟨rfl, _, rfl⟩

theorem shielded_attempt {c : AgentCall} {tr : List ResilientSig.Ev}
    {a : Except PortError c.Reply} (h : (A.attempt c).Exec tr a) {w : Clocked}
    (hw : ¬ A.breaker.Cooling w.now w.inner) : A.Shielded w tr := by
  obtain ⟨reply, ⟨rfl, -⟩ | ⟨rfl, -⟩⟩ := exec_attempt h
  · exact ⟨fun _ => hw, fun w₁ _ => shielded_of_quiet rfl w₁⟩
  · exact ⟨fun _ => hw, fun w₁ _ => shielded_of_quiet rfl w₁⟩

/-- The pause before a retry: the backoff `d`, and the sleep unless it is zero. -/
theorem pause_of_accepts {w w' : Clocked} {k d : Nat} {t : List ResilientSig.Ev}
    (ht : d = 0 ∧ t = [] ∨ t = [⟨.sleep d, ()⟩])
    (h : A.breakerEnv.Accepts w (⟨.backoffFor k, d⟩ :: t) w') :
    w'.inner = w.inner ∧ w.now + d / 1000000 ≤ w'.now ∧
      ∃ nanos, A.retry.backoffFor nanos k = some d := by
  obtain ⟨w₁, ⟨hnow, hinner, hback⟩, h⟩ := h
  rcases ht with ⟨hd, rfl⟩ | rfl
  · cases h
    subst hd
    exact ⟨hinner, hnow, hback⟩
  · obtain ⟨w₂, ⟨hsleep, hsame⟩, h⟩ := h
    cases h
    exact ⟨hsame.trans hinner, by omega, hback⟩

/-- Once a retry comes after the shortest backoff, the cooldown has elapsed. -/
theorem not_cooling_after_pause {w w' : Clocked} {k d d₀ nanos : Nat} (hw : w.Dated)
    (hinner : w'.inner = w.inner) (hnow : w.now + d / 1000000 ≤ w'.now)
    (hd : A.retry.backoffFor nanos k = some d) (hd₀ : A.retry.backoffFor 0 0 = some d₀)
    (hlate : A.breaker.cooldownMillis ≤ d₀ / 1000000) :
    ¬ A.breaker.Cooling w'.now w'.inner := by
  intro hc
  have hopened := hw (hinner ▸ hc.1)
  have hlt := hc.2
  have hle := Nat.div_le_div_right (c := 1000000) (RetryPolicy.backoffFor_zero_le hd hd₀)
  rw [hinner] at hlt
  omega

theorem exec_operation {o : ResilientOp} {tr : List ResilientSig.Ev} {r : o.Resp} :
    (perform o).Exec tr r ↔ tr = [⟨o, r⟩] := Prog.exec_perform (S := ResilientSig) o tr r

/-- A failed attempt, the pause, and what comes after it. -/
theorem shielded_turn {c : AgentCall} (hlate : A.RetriesLate) {k d : Nat} {e : PortError}
    {t₁ t₂ t₃ t₄ : List ResilientSig.Ev} (hop : (A.attempt c).Exec t₁ (.error e))
    (hmore : k + 1 < A.retry.maxAttempts) (hb : (perform (.backoffFor k)).Exec t₂ d)
    (hs : d = 0 ∧ t₃ = [] ∨ (perform (.sleep d)).Exec t₃ ()) {w : Clocked} (hdated : w.Dated)
    (hw : ¬ A.breaker.Cooling w.now w.inner)
    (hk : k = 0 ∨ ∃ d₀, A.retry.backoffFor 0 0 = some d₀)
    (hrest : ∀ w₂ d₀, w₂.Dated → ¬ A.breaker.Cooling w₂.now w₂.inner →
      A.retry.backoffFor 0 0 = some d₀ → A.Shielded w₂ t₄) :
    A.Shielded w (t₁ ++ (t₂ ++ (t₃ ++ t₄))) := by
  have ht₂ : t₂ = [⟨.backoffFor k, d⟩] := exec_operation.1 hb
  have ht₃ : d = 0 ∧ t₃ = [] ∨ t₃ = [⟨.sleep d, ()⟩] := hs.imp_right exec_operation.1
  have hquiet : innerCalls (t₂ ++ t₃) = [] := by
    subst ht₂
    rcases ht₃ with ⟨-, rfl⟩ | rfl <;> rfl
  rw [← List.append_assoc t₂, shielded_append]
  refine ⟨shielded_attempt hop hw, fun w₁ h₁ => ?_⟩
  rw [shielded_append]
  refine ⟨shielded_of_quiet hquiet w₁, fun w₂ h₂ => ?_⟩
  subst ht₂
  obtain ⟨hinner, hnow, nanos, hback⟩ := pause_of_accepts ht₃ h₂
  obtain ⟨d₀, hd₀⟩ : ∃ d₀, A.retry.backoffFor 0 0 = some d₀ := by
    rcases hk with rfl | hk
    · exact ⟨_, RetryPolicy.jittered_zero hback⟩
    · exact hk
  have hcool : A.breaker.cooldownMillis ≤ d₀ / 1000000 := by
    rcases hlate with hmax | hlate
    · omega
    · exact hlate d₀ hd₀
  have hdated₁ := accepts_dated h₁ hdated
  exact hrest w₂ d₀ (accepts_dated h₂ hdated₁)
    (not_cooling_after_pause hdated₁ hinner hnow hback hd₀ hcool) hd₀

/-- The loop, from a state in which the breaker is not cooling: `k` attempts
were made, so the first backoff has been computed unless `k = 0`. -/
theorem shielded_retryLoop {c : AgentCall} (hlate : A.RetriesLate) (left : Nat) {k : Nat}
    {tr : List ResilientSig.Ev} {r : Except PortError c.Reply}
    (h : (A.retry.retryLoop (A.attempt c) PortError.isRetryable (fun i => perform (.backoffFor i))
      (fun d => perform (.sleep d)) left k).Exec tr r)
    {w : Clocked} (hdated : w.Dated) (hw : ¬ A.breaker.Cooling w.now w.inner)
    (hk : k = 0 ∨ ∃ d₀, A.retry.backoffFor 0 0 = some d₀) : A.Shielded w tr := by
  induction left generalizing k tr w with
  | zero =>
    rcases RetryPolicy.exec_retryLoop h with
      h | ⟨e, t₁, d, t₂, t₃, t₄, rfl, hop, hmore, hb, hs, ht₄⟩
    · exact shielded_attempt h hw
    · refine shielded_turn hlate hop hmore hb hs hdated hw hk fun w₂ d₀ _ _ _ => ?_
      rcases ht₄ with rfl | ⟨_, hleft, _⟩
      · trivial
      · cases hleft
  | succ left ih =>
    rcases RetryPolicy.exec_retryLoop h with
      h | ⟨e, t₁, d, t₂, t₃, t₄, rfl, hop, hmore, hb, hs, ht₄⟩
    · exact shielded_attempt h hw
    · refine shielded_turn hlate hop hmore hb hs hdated hw hk fun w₂ d₀ hdated₂ hw₂ hd₀ => ?_
      rcases ht₄ with rfl | ⟨_, hleft, hloop⟩
      · trivial
      · cases hleft
        exact ih hloop hdated₂ hw₂ (.inr ⟨d₀, hd₀⟩)

/-- A guarded operation, in any state of the breaker. -/
theorem shielded_guard {c : AgentCall} (hlate : A.RetriesLate) {tr : List ResilientSig.Ev}
    {r : Except PortError c.Reply} (h : (A.guard c).Exec tr r) {w : Clocked} (hw : w.Dated) :
    A.Shielded w tr := by
  obtain ⟨ans, rest, rfl, h⟩ := h
  cases ans with
  | error e =>
    obtain ⟨rfl, -⟩ := h
    exact shielded_of_quiet rfl w
  | ok _ =>
    refine ⟨fun hsome => (by cases hsome), fun w₁ h₁ => ?_⟩
    have hopen : ¬ A.breaker.Cooling w₁.now w₁.inner := by
      intro hc
      have hinner : (A.breaker.acquire w₁.now w.inner).2 = w₁.inner := by rw [h₁.2]
      rw [CircuitBreaker.acquire_snd] at hinner
      have hold : A.breaker.Cooling w₁.now w.inner :=
        CircuitBreaker.refresh_state_open.1 (by rw [hinner]; exact hc.1)
      have herr := CircuitBreaker.acquire_eq_error (e := {}).2 hold
      rw [h₁.2] at herr
      cases herr
    exact shielded_retryLoop hlate _ h (breakerEnv_dated h₁ hw) hopen (.inl rfl)

/-- A program stopped half way could have gone on. -/
theorem shielded_guard_after {c : AgentCall} (hlate : A.RetriesLate) {tr : List ResilientSig.Ev}
    {q : Prog ResilientSig (Except PortError c.Reply)} (h : (A.guard c).After tr q) {w : Clocked}
    (hw : w.Dated) : A.Shielded w tr := by
  have hfull := h.exec (exec_runWith (downAgent A fun _ => false) q w)
  exact (shielded_append.1 (shielded_guard hlate hfull hw)).1

theorem shielded_performed (hlate : A.RetriesLate) {cs : List AgentCall}
    {tr : List ResilientSig.Ev} (h : A.Performed cs tr) {w : Clocked} (hw : w.Dated) :
    A.Shielded w tr := by
  induction cs generalizing tr w with
  | nil =>
    cases h
    trivial
  | cons c cs ih =>
    obtain ⟨t, q, t', rfl, hafter, hrest⟩ := h
    rw [shielded_append]
    exact ⟨shielded_guard_after hlate hafter hw, fun w₁ h₁ => ih hrest (accepts_dated h₁ hw)⟩

/-! ## A retry that comes too early -/

/-- The host refuses an operation for good: one attempt. -/
def refusedOnce (A : ResilientNodeAgent) (c : AgentCall) : List ResilientSig.Ev :=
  [⟨.acquire, .ok ()⟩, ⟨.withTimeout A.opTimeout c, some (.error (.rejected "bad request"))⟩,
    ⟨.onFailure, ()⟩]

/-- A zero backoff is not slept. -/
def paused (d : Nat) : List ResilientSig.Ev := if d = 0 then [] else [⟨.sleep d, ()⟩]

/-- The host cannot be reached, and the guard pauses. -/
def unreachable (A : ResilientNodeAgent) (c : AgentCall) (d : Nat) : List ResilientSig.Ev :=
  [⟨.acquire, .ok ()⟩, ⟨.withTimeout A.opTimeout c, some (.error (.unavailable "no route"))⟩,
    ⟨.onFailure, ()⟩, ⟨.backoffFor 0, d⟩] ++ paused d

/-- The retry that follows, answered. -/
def retried (A : ResilientNodeAgent) (c : AgentCall) : List ResilientSig.Ev :=
  [⟨.withTimeout A.opTimeout c, some (.ok c.okReply)⟩, ⟨.onSuccess, ()⟩]

/-- `n` refused operations, and one that is retried. -/
def refusedThenRetried (A : ResilientNodeAgent) (c : AgentCall) (d : Nat) :
    Nat → List ResilientSig.Ev
  | 0 => A.unreachable c d ++ A.retried c
  | n + 1 => A.refusedOnce c ++ A.refusedThenRetried c d n

theorem exec_attempt_error (c : AgentCall) (e : PortError) :
    (A.attempt c).Exec [⟨.withTimeout A.opTimeout c, some (.error e)⟩, ⟨.onFailure, ()⟩]
      (.error e) := ⟨_, _, rfl, _, _, rfl, rfl, rfl⟩

theorem exec_refusedOnce (c : AgentCall) :
    (A.guard c).Exec (A.refusedOnce c) (.error (.rejected "bad request")) :=
  ⟨.ok (), _, rfl, RetryPolicy.retryLoop_stop (exec_attempt_error c _) rfl⟩

theorem exec_retried (c : AgentCall) (d : Nat) (hmax : 1 < A.retry.maxAttempts) :
    (A.guard c).Exec (A.unreachable c d ++ A.retried c) (.ok c.okReply) := by
  obtain ⟨n, hn⟩ : ∃ n, A.retry.maxAttempts = n + 1 := ⟨A.retry.maxAttempts - 1, by omega⟩
  have hsleep : d = 0 ∧ paused d = [] ∨ d ≠ 0 ∧ (perform (.sleep d)).Exec (paused d) () := by
    unfold paused
    by_cases hd : d = 0
    · rw [if_pos hd]
      exact .inl ⟨hd, rfl⟩
    · rw [if_neg hd]
      exact .inr ⟨hd, exec_operation.2 rfl⟩
  have hok : (A.attempt c).Exec (A.retried c) (.ok c.okReply) := ⟨_, _, rfl, _, _, rfl, rfl, rfl⟩
  refine ⟨.ok (), _, rfl, ?_⟩
  have hback : (perform (.backoffFor 0)).Exec [⟨.backoffFor 0, d⟩] d := exec_operation.2 rfl
  have hloop : (A.retry.retryLoop (A.attempt c) PortError.isRetryable
      (fun i => perform (.backoffFor i)) (fun d => perform (.sleep d)) (n + 1) 0).Exec _ _ :=
    RetryPolicy.retryLoop_again (exec_attempt_error c (.unavailable "no route")) rfl hmax hback
      hsleep (RetryPolicy.retryLoop_ok hok)
  unfold RetryPolicy.retry
  rw [hn]
  exact hloop

theorem performed_refusedThenRetried (c : AgentCall) (d n : Nat)
    (hmax : 1 < A.retry.maxAttempts) :
    A.Performed (List.replicate (n + 1) c) (A.refusedThenRetried c d n) := by
  induction n with
  | zero =>
    have hafter := (exec_iff_after ..).1 (exec_retried c d hmax)
    exact ⟨_, _, [], (List.append_nil _).symm, hafter, rfl⟩
  | succ n ih =>
    have hafter := (exec_iff_after ..).1 (exec_refusedOnce (A := A) c)
    exact ⟨_, _, _, rfl, hafter, ih⟩

/-- Closed, with `n` failures counted, at time 0. -/
def counting (n : Nat) : Clocked :=
  { inner := { state := .closed, consecutiveFailures := n, openedAtMillis := 0 }, now := 0 }

theorem accepts_refusedOnce (c : AgentCall) {n : Nat} (hn : n + 1 < A.breaker.failureThreshold) :
    A.breakerEnv.Accepts (counting n) (A.refusedOnce c) (counting (n + 1)) := by
  refine ⟨counting n, ⟨Nat.le_refl 0, rfl⟩, counting n, ⟨Nat.le_refl 0, rfl⟩, counting (n + 1),
    ⟨Nat.le_refl 0, ?_⟩, rfl⟩
  show _ = if A.breaker.failureThreshold ≤ n + 1 then _ else _
  rw [if_neg (by omega)]
  rfl

/-- The failure that trips the breaker, and the pause after it. -/
def tripped (A : ResilientNodeAgent) (d : Nat) : Clocked :=
  { inner := { state := .open', consecutiveFailures := A.breaker.failureThreshold,
               openedAtMillis := 0 }
    now := d / 1000000 }

theorem accepts_unreachable (c : AgentCall) {n d : Nat} (hn : n + 1 = A.breaker.failureThreshold)
    (hd : A.retry.backoffFor 0 0 = some d) :
    A.breakerEnv.Accepts (counting n) (A.unreachable c d) (A.tripped d) := by
  have hopen : (A.tripped 0).inner = A.breaker.onFailure 0 (counting n).inner := by
    show _ = if A.breaker.failureThreshold ≤ n + 1 then _ else _
    rw [if_pos (Nat.le_of_eq hn.symm)]
    exact congrArg (fun k => (⟨.open', k, 0⟩ : Inner)) hn.symm
  refine ⟨counting n, ⟨Nat.le_refl 0, rfl⟩, counting n, ⟨Nat.le_refl 0, rfl⟩, A.tripped 0,
    ⟨Nat.le_refl 0, hopen⟩, A.tripped 0, ⟨Nat.le_refl 0, rfl, 0, hd⟩, ?_⟩
  unfold paused
  by_cases h0 : d = 0
  · subst h0
    rfl
  · rw [if_neg h0]
    exact ⟨A.tripped d, ⟨Nat.le_of_eq (Nat.zero_add _), rfl⟩, rfl⟩

/-- Enough refused operations bring the breaker to the brink; the next failure
trips it, and its retry finds it open. -/
theorem not_shielded_refusedThenRetried (c : AgentCall) {d : Nat}
    (hd : A.retry.backoffFor 0 0 = some d) (hcool : d / 1000000 < A.breaker.cooldownMillis)
    (n : Nat) {k : Nat} (hk : k + n + 1 = A.breaker.failureThreshold) :
    ¬ A.Shielded (counting k) (A.refusedThenRetried c d n) := by
  induction n generalizing k with
  | zero =>
    intro h
    have hretry := (shielded_append.1 h).2 _ (accepts_unreachable c hk hd)
    exact hretry.1 rfl ⟨rfl, hcool⟩
  | succ n ih =>
    intro h
    have hrest := (shielded_append.1 h).2 _ (accepts_refusedOnce c (by omega))
    exact ih (by omega) hrest

theorem retriesLate_of_shieldsHost (h : A.ShieldsHost) : A.RetriesLate := by
  by_cases hmax : A.retry.maxAttempts ≤ 1
  · exact .inl hmax
  · refine .inr fun d hd => ?_
    by_contra hcool
    have hpos := A.breaker.threshold_pos
    have hrun := performed_refusedThenRetried (.tuneHost ⟨"val01.internal"⟩) d
      (A.breaker.failureThreshold - 1) (Nat.lt_of_not_le hmax)
    exact not_shielded_refusedThenRetried _ hd (Nat.lt_of_not_le hcool) _ (by omega) (h 0 _ _ hrun)

/-- **The shield.** Whatever the configuration: no run of operations on the
agent starts an attempt while its breaker is open and cooling, exactly when the
policy makes no retry, or none before the cooldown has elapsed. -/
theorem shields_iff (cfg : OpsConfig) : (new cfg).ShieldsHost ↔ (new cfg).RetriesLate := by
  constructor
  · exact retriesLate_of_shieldsHost
  · intro hlate start cs tr h
    exact shielded_performed hlate h fun ho => by cases ho

/-- The default configuration retries after 25 ms, and cools down for 10 s. -/
theorem default_not_shielded : ¬ (new .default).ShieldsHost := by
  intro h
  rcases retriesLate_of_shieldsHost h with hmax | hlate
  · exact absurd hmax (by decide)
  · exact absurd (hlate 25000000 (by decide)) (by decide)

end ResilientNodeAgent

end ValidatorForge.Core
