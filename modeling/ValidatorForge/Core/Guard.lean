import ValidatorForge.Core.Shield

/-!
# What a guarded operation does

`guard`, read against the answers its attempts get. `Outcomes c` is a stream of
them, one for each attempt that may be made (`none`: the attempt times out), and
`Follows` says that the attempts of a trace are answered from the stream.

* `attemptsMade`: how many attempts the policy makes on a stream.
* `exec_loop_iff`: one turn of the retry loop, its budget never the model's own.
* `exec_guard_iff`: the executions of a guarded operation are the refusal and,
  for each choice of backoffs, the attempts made with their reports and pauses.
-/
namespace ValidatorForge.Core

open Interaction ValidatorForge.Types Prog Resilience

/-- What the attempts at `c` are answered, one after another. -/
abbrev Outcomes (c : AgentCall) : Type := Nat → Option (Except PortError c.Reply)

/-- The result of an attempt: a timeout is an error under the call's label. -/
def settle (c : AgentCall) : Option (Except PortError c.Reply) → Except PortError c.Reply
  | some r => r
  | none => .error (.timeout c.label)

/-- The outcome is Ok or an error that is not retried. -/
def isFinal {c : AgentCall} (a : Option (Except PortError c.Reply)) : Bool :=
  match settle c a with
  | .ok _ => true
  | .error e => !e.isRetryable

theorem isFinal_of_ok {c : AgentCall} {a : Option (Except PortError c.Reply)} {v : c.Reply}
    (h : settle c a = .ok v) : isFinal a = true := by
  unfold isFinal
  rw [h]

theorem isFinal_of_error {c : AgentCall} {a : Option (Except PortError c.Reply)} {e : PortError}
    (h : settle c a = .error e) : isFinal a = !e.isRetryable := by
  unfold isFinal
  rw [h]

/-- The index of the first final outcome and one, at most `max_attempts`, which
counts as one when it is zero. -/
def attemptsMade {c : AgentCall} (maxAttempts : Nat) (o : Outcomes c) : Nat :=
  ((List.range (max maxAttempts 1)).find? fun i => isFinal (o i)).elim (max maxAttempts 1) (· + 1)

theorem attemptsMade_eq {c : AgentCall} {maxAttempts n : Nat} {o : Outcomes c}
    (hn : n + 1 ≤ max maxAttempts 1) (hgo : ∀ j < n, isFinal (o j) = false)
    (hstop : isFinal (o n) = true ∨ n + 1 = max maxAttempts 1) :
    attemptsMade maxAttempts o = n + 1 := by
  unfold attemptsMade
  cases hf : isFinal (o n) with
  | true =>
    have hsome : (List.range (max maxAttempts 1)).find? (fun i => isFinal (o i)) = some n := by
      rw [List.find?_range_eq_some]
      exact ⟨hf, List.mem_range.2 (by omega), fun j hj => by simp [hgo j hj]⟩
    rw [hsome]
    rfl
  | false =>
    have hmax : n + 1 = max maxAttempts 1 := hstop.resolve_left (by simp [hf])
    have hnone : (List.range (max maxAttempts 1)).find? (fun i => isFinal (o i)) = none := by
      rw [List.find?_range_eq_none]
      intro j hj
      rcases Nat.lt_or_ge j n with hlt | hge
      · simp [hgo j hlt]
      · have hj : j = n := by omega
        simp [hj, hf]
    rw [hnone, hmax]
    rfl

/-- With a final outcome somewhere: the first one, or the budget, whichever comes first. -/
theorem attemptsMade_of_final {c : AgentCall} {maxAttempts n : Nat} {o : Outcomes c}
    (hgo : ∀ j < n, isFinal (o j) = false) (hf : isFinal (o n) = true) :
    attemptsMade maxAttempts o = min (max maxAttempts 1) (1 + n) := by
  rcases Nat.lt_or_ge n (max maxAttempts 1) with hlt | hge
  · rw [attemptsMade_eq hlt hgo (.inl hf)]
    omega
  · have heq : attemptsMade maxAttempts o = max maxAttempts 1 - 1 + 1 :=
      attemptsMade_eq (by omega) (fun j hj => hgo j (by omega)) (.inr (by omega))
    rw [heq]
    omega

/-- The budget is kept, and every attempt but the last had an outcome to retry. -/
theorem attemptsMade_spec {c : AgentCall} (maxAttempts : Nat) (o : Outcomes c) :
    ∃ n, attemptsMade maxAttempts o = n + 1 ∧ n + 1 ≤ max maxAttempts 1 ∧
      (∀ j < n, isFinal (o j) = false) ∧ (isFinal (o n) = true ∨ n + 1 = max maxAttempts 1) := by
  unfold attemptsMade
  cases hfind : (List.range (max maxAttempts 1)).find? fun i => isFinal (o i) with
  | some n =>
    rw [List.find?_range_eq_some, List.mem_range] at hfind
    obtain ⟨hf, hn, hgo⟩ := hfind
    exact ⟨n, rfl, hn, fun j hj => by simpa using hgo j hj, .inl hf⟩
  | none =>
    rw [List.find?_range_eq_none] at hfind
    refine ⟨max maxAttempts 1 - 1, ?_, by omega, fun j hj => ?_, .inr (by omega)⟩
    · show max maxAttempts 1 = _
      omega
    · simpa using hfind j (by omega)

namespace ResilientNodeAgent

variable {A : ResilientNodeAgent} {c : AgentCall}

/-! ## Traces -/

/-- What is reported to the breaker about an attempt. -/
def report (a : Option (Except PortError c.Reply)) : ResilientSig.Ev :=
  match settle c a with
  | .ok _ => ⟨.onSuccess, ()⟩
  | .error _ => ⟨.onFailure, ()⟩

/-- An attempt with its report. -/
def attempted (A : ResilientNodeAgent) (c : AgentCall) (a : Option (Except PortError c.Reply)) :
    List ResilientSig.Ev := [⟨.withTimeout A.opTimeout c, a⟩, report a]

/-- The pause between two attempts. -/
def pause (i d : Nat) : List ResilientSig.Ev := ⟨.backoffFor i, d⟩ :: paused d

/-- Attempts from the `i`-th on, with these backoffs between them. -/
def turns (A : ResilientNodeAgent) (c : AgentCall) (o : Outcomes c) :
    Nat → List Nat → List ResilientSig.Ev
  | i, [] => A.attempted c (o i)
  | i, d :: ds => A.attempted c (o i) ++ (pause i d ++ A.turns c o (i + 1) ds)

def isReport : ResilientSig.Ev → Bool
  | ⟨.onSuccess, _⟩ | ⟨.onFailure, _⟩ => true
  | _ => false

/-- What the breaker was told. -/
def reports (tr : List ResilientSig.Ev) : List ResilientSig.Ev := tr.filter isReport

/-- The attempts at `c` in the trace, from the `i`-th on, are answered from `o`. -/
def Follows (c : AgentCall) (o : Outcomes c) : Nat → List ResilientSig.Ev → Prop
  | _, [] => True
  | i, ⟨.withTimeout _ c', a⟩ :: tr => (c' = c → HEq a (o i)) ∧ Follows c o (i + 1) tr
  | i, _ :: tr => Follows c o i tr

theorem exec_attempt_iff {tr : List ResilientSig.Ev} {r : Except PortError c.Reply} :
    (A.attempt c).Exec tr r ↔ ∃ a, tr = A.attempted c a ∧ r = settle c a := by
  constructor
  · rintro ⟨a, rest, rfl, h⟩
    refine ⟨a, ?_⟩
    rcases a with _ | e | v
    · obtain ⟨_, _, rfl, rfl, rfl⟩ := h
      exact ⟨rfl, rfl⟩
    · obtain ⟨_, _, rfl, rfl, rfl⟩ := h
      exact ⟨rfl, rfl⟩
    · obtain ⟨_, _, rfl, rfl, rfl⟩ := h
      exact ⟨rfl, rfl⟩
  · rintro ⟨a, rfl, rfl⟩
    rcases a with _ | e | v
    · exact ⟨_, _, rfl, _, _, rfl, rfl, rfl⟩
    · exact ⟨_, _, rfl, _, _, rfl, rfl, rfl⟩
    · exact ⟨_, _, rfl, _, _, rfl, rfl, rfl⟩

/-- The loop of `guard`, `i` attempts made. -/
def loop (A : ResilientNodeAgent) (c : AgentCall) (left i : Nat) :
    Prog ResilientSig (Except PortError c.Reply) :=
  A.retry.retryLoop (A.attempt c) PortError.isRetryable (fun i => perform (.backoffFor i))
    (fun d => perform (.sleep d)) left i

/-- No attempt follows this one. -/
def IsLast (A : ResilientNodeAgent) (i : Nat) (a : Option (Except PortError c.Reply)) : Prop :=
  isFinal a = true ∨ A.retry.maxAttempts ≤ i + 1

theorem stops_iff_isLast {i : Nat} {a : Option (Except PortError c.Reply)} :
    A.retry.Stops PortError.isRetryable i (settle c a) ↔ A.IsLast i a := by
  unfold RetryPolicy.Stops IsLast
  cases hx : settle c a with
  | ok v => simp [isFinal_of_ok hx]
  | error e =>
    rw [isFinal_of_error hx, Bool.not_eq_true']
    exact or_comm

theorem slept_iff {d : Nat} {tr : List ResilientSig.Ev} :
    RetryPolicy.Slept (fun d => perform (.sleep d)) d tr ↔ tr = paused d := by
  unfold RetryPolicy.Slept paused
  split
  · exact Iff.rfl
  · exact exec_operation

/-- **One turn of the loop.** With a budget the model's own bound does not cut
short, the loop ends exactly after a last attempt. -/
theorem exec_loop_iff {left i : Nat} (hleft : A.retry.maxAttempts ≤ i + left + 1)
    {tr : List ResilientSig.Ev} {r : Except PortError c.Reply} :
    (A.loop c left i).Exec tr r ↔ ∃ a,
      (A.IsLast i a ∧ tr = A.attempted c a ∧ r = settle c a) ∨
      (¬ A.IsLast i a ∧ ∃ d t, tr = A.attempted c a ++ (pause i d ++ t) ∧
        (A.loop c (left - 1) (i + 1)).Exec t r) := by
  unfold loop
  rw [RetryPolicy.exec_retryLoop_iff hleft]
  constructor
  · rintro ⟨t₁, _, t₂, rfl, hop, h⟩
    obtain ⟨a, rfl, rfl⟩ := exec_attempt_iff.1 hop
    refine ⟨a, ?_⟩
    rw [stops_iff_isLast] at h
    rcases h with ⟨hlast, rfl, rfl⟩ | ⟨hmore, t₃, d, t₄, t₅, rfl, hb, hs, h⟩
    · exact .inl ⟨hlast, List.append_nil _, rfl⟩
    · refine .inr ⟨hmore, d, t₅, ?_, h⟩
      rw [exec_operation.1 hb, slept_iff.1 hs]
      rfl
  · rintro ⟨a, ⟨hlast, rfl, rfl⟩ | ⟨hmore, d, t, rfl, h⟩⟩
    · exact ⟨_, _, [], (List.append_nil _).symm, exec_attempt_iff.2 ⟨a, rfl, rfl⟩,
        .inl ⟨stops_iff_isLast.2 hlast, rfl, rfl⟩⟩
    · exact ⟨_, _, _, rfl, exec_attempt_iff.2 ⟨a, rfl, rfl⟩,
        .inr ⟨fun h => hmore (stops_iff_isLast.1 h), _, d, _, t, rfl, exec_operation.2 rfl,
          slept_iff.2 rfl, h⟩⟩

@[simp] theorem follows_report (o : Outcomes c) (i : Nat) (a : Option (Except PortError c.Reply))
    (tr : List ResilientSig.Ev) : Follows c o i (report a :: tr) ↔ Follows c o i tr := by
  unfold report
  split <;> rfl

@[simp] theorem follows_attempted (o : Outcomes c) (i : Nat)
    (a : Option (Except PortError c.Reply)) (tr : List ResilientSig.Ev) :
    Follows c o i (A.attempted c a ++ tr) ↔ a = o i ∧ Follows c o (i + 1) tr := by
  show (c = c → HEq a (o i)) ∧ Follows c o (i + 1) (report a :: tr) ↔ _
  rw [follows_report]
  exact and_congr_left fun _ => ⟨fun h => eq_of_heq (h rfl), fun h _ => heq_of_eq h⟩

@[simp] theorem follows_pause (o : Outcomes c) (i k d : Nat) (tr : List ResilientSig.Ev) :
    Follows c o i (pause k d ++ tr) ↔ Follows c o i tr := by
  unfold pause paused
  split <;> rfl

theorem follows_turns (o : Outcomes c) (i : Nat) (ds : List Nat) :
    Follows c o i (A.turns c o i ds) := by
  induction ds generalizing i with
  | nil =>
    have h := (follows_attempted (A := A) o i (o i) []).2 ⟨rfl, trivial⟩
    simpa [turns] using h
  | cons d ds ih =>
    rw [turns, follows_attempted, follows_pause]
    exact ⟨rfl, ih (i + 1)⟩

/-- The first of the attempts from the `i`-th on that is the last one. -/
def EndsAt (A : ResilientNodeAgent) (o : Outcomes c) (i n : Nat) : Prop :=
  (∀ j < n, ¬ A.IsLast (i + j) (o (i + j))) ∧ A.IsLast (i + n) (o (i + n))

theorem endsAt_succ {o : Outcomes c} {i n : Nat} :
    A.EndsAt o i (n + 1) ↔ ¬ A.IsLast i (o i) ∧ A.EndsAt o (i + 1) n := by
  unfold EndsAt
  rw [show i + (n + 1) = i + 1 + n by omega, ← and_assoc]
  refine and_congr_left fun _ => ?_
  constructor
  · intro h
    refine ⟨h 0 (by omega), fun j hj => ?_⟩
    rw [show i + 1 + j = i + (j + 1) by omega]
    exact h (j + 1) (by omega)
  · rintro ⟨h0, h⟩ j hj
    cases j with
    | zero => exact h0
    | succ j =>
      rw [show i + (j + 1) = i + 1 + j by omega]
      exact h j (by omega)

theorem exec_turns {o : Outcomes c} {left i : Nat} (hleft : A.retry.maxAttempts ≤ i + left + 1)
    {ds : List Nat} (hend : A.EndsAt o i ds.length) :
    (A.loop c left i).Exec (A.turns c o i ds) (settle c (o (i + ds.length))) := by
  induction ds generalizing left i with
  | nil => exact (exec_loop_iff hleft).2 ⟨o i, .inl ⟨hend.2, rfl, rfl⟩⟩
  | cons d ds ih =>
    obtain ⟨hmore, hend⟩ := endsAt_succ.1 hend
    have hleft' : A.retry.maxAttempts ≤ i + 1 + (left - 1) + 1 := by
      have : ¬ A.retry.maxAttempts ≤ i + 1 := fun h => hmore (.inr h)
      omega
    rw [show i + (d :: ds).length = i + 1 + ds.length by rw [List.length_cons]; omega]
    exact (exec_loop_iff hleft).2 ⟨o i, .inr ⟨hmore, d, _, rfl, ih hleft' hend⟩⟩

/-- The loop, its attempts answered from the stream: it makes the attempts up to
the last one and returns what that one returned. -/
theorem exec_loop_follows {o : Outcomes c} (left : Nat) {i : Nat}
    (hleft : A.retry.maxAttempts ≤ i + left + 1) {tr : List ResilientSig.Ev}
    {r : Except PortError c.Reply} (h : (A.loop c left i).Exec tr r) (hf : Follows c o i tr) :
    ∃ ds : List Nat, A.EndsAt o i ds.length ∧ tr = A.turns c o i ds ∧
      r = settle c (o (i + ds.length)) := by
  induction left generalizing i tr with
  | zero =>
    obtain ⟨a, ⟨hlast, rfl, rfl⟩ | ⟨hmore, -⟩⟩ := (exec_loop_iff hleft).1 h
    · rw [← List.append_nil (A.attempted c a), follows_attempted] at hf
      obtain ⟨rfl, -⟩ := hf
      exact ⟨[], ⟨by simp, hlast⟩, rfl, rfl⟩
    · exact absurd (.inr hleft) hmore
  | succ left ih =>
    obtain ⟨a, ⟨hlast, rfl, rfl⟩ | ⟨hmore, d, t, rfl, hx⟩⟩ := (exec_loop_iff hleft).1 h
    · rw [← List.append_nil (A.attempted c a), follows_attempted] at hf
      obtain ⟨rfl, -⟩ := hf
      exact ⟨[], ⟨by simp, hlast⟩, rfl, rfl⟩
    · rw [follows_attempted, follows_pause] at hf
      obtain ⟨rfl, hf⟩ := hf
      obtain ⟨ds, hend, rfl, rfl⟩ := ih (i := i + 1) (by omega) hx hf
      refine ⟨d :: ds, endsAt_succ.2 ⟨hmore, hend⟩, rfl, ?_⟩
      rw [show i + (d :: ds).length = i + 1 + ds.length by rw [List.length_cons]; omega]

/-- With the policy of a new agent, the last attempt is the one counted. -/
theorem endsAt_iff {cfg : OpsConfig} {o : Outcomes c} {n : Nat} :
    (new cfg).EndsAt o 0 n ↔ attemptsMade cfg.maxAttempts o = n + 1 := by
  have hmax : (new cfg).retry.maxAttempts = max cfg.maxAttempts 1 := rfl
  unfold EndsAt IsLast
  simp only [Nat.zero_add, hmax, not_or]
  constructor
  · rintro ⟨hgo, hlast⟩
    have hn : n + 1 ≤ max cfg.maxAttempts 1 := by
      cases n with
      | zero => omega
      | succ n =>
        have := (hgo n (by omega)).2
        omega
    refine attemptsMade_eq hn (fun j hj => by simpa using (hgo j hj).1) ?_
    exact hlast.imp_right fun h => by omega
  · intro h
    obtain ⟨m, hm, hle, hgo, hstop⟩ := attemptsMade_spec cfg.maxAttempts o
    have hmn : m = n := by omega
    subst hmn
    exact ⟨fun j hj => ⟨by simp [hgo j hj], by omega⟩, hstop.imp_right fun h => by omega⟩

/-- **A guarded operation**, its attempts answered from the stream: refused, or
carried out up to the attempt that ends it. -/
theorem exec_guard_iff {cfg : OpsConfig} {o : Outcomes c} {tr : List ResilientSig.Ev}
    {r : Except PortError c.Reply} :
    ((new cfg).guard c).Exec tr r ∧ Follows c o 0 tr ↔
      (tr = [⟨.acquire, .error {}⟩] ∧
        r = .error (.unavailable ("circuit open for " ++ c.label))) ∨
      ∃ ds : List Nat, ds.length + 1 = attemptsMade cfg.maxAttempts o ∧
        tr = ⟨.acquire, .ok ()⟩ :: (new cfg).turns c o 0 ds ∧ r = settle c (o ds.length) := by
  have hleft : (new cfg).retry.maxAttempts ≤ 0 + max cfg.maxAttempts 1 + 1 := by
    show max cfg.maxAttempts 1 ≤ _
    omega
  constructor
  · rintro ⟨⟨ans, rest, rfl, h⟩, hf⟩
    cases ans with
    | error e =>
      obtain ⟨rfl, rfl⟩ := h
      exact .inl ⟨rfl, rfl⟩
    | ok u =>
      have hf : Follows c o 0 rest := hf
      obtain ⟨ds, hend, rfl, rfl⟩ := exec_loop_follows _ hleft h hf
      rw [Nat.zero_add]
      exact .inr ⟨ds, (endsAt_iff.1 hend).symm, rfl, rfl⟩
  · rintro (⟨rfl, rfl⟩ | ⟨ds, hds, rfl, rfl⟩)
    · exact ⟨⟨.error {}, [], rfl, rfl, rfl⟩, trivial⟩
    · have hx := exec_turns hleft (endsAt_iff.2 hds.symm)
      rw [Nat.zero_add] at hx
      exact ⟨⟨.ok (), _, rfl, hx⟩, follows_turns o 0 ds⟩

/-! ## What is read off it -/

@[simp] theorem innerCalls_attempted (a : Option (Except PortError c.Reply)) :
    innerCalls (A.attempted c a) = [c] := by
  unfold attempted report
  split <;> rfl

@[simp] theorem reports_attempted (a : Option (Except PortError c.Reply)) :
    reports (A.attempted c a) = [report a] := by
  unfold attempted report
  split <;> rfl

@[simp] theorem innerCalls_pause (i d : Nat) : innerCalls (pause i d) = [] := by
  unfold pause paused
  split <;> rfl

@[simp] theorem reports_pause (i d : Nat) : reports (pause i d) = [] := by
  unfold pause paused
  split <;> rfl

@[simp] theorem innerCalls_append (t₁ t₂ : List ResilientSig.Ev) :
    innerCalls (t₁ ++ t₂) = innerCalls t₁ ++ innerCalls t₂ := List.filterMap_append

@[simp] theorem reports_append (t₁ t₂ : List ResilientSig.Ev) :
    reports (t₁ ++ t₂) = reports t₁ ++ reports t₂ := List.filter_append ..

theorem innerCalls_turns (o : Outcomes c) (i : Nat) (ds : List Nat) :
    innerCalls (A.turns c o i ds) = List.replicate (ds.length + 1) c := by
  induction ds generalizing i with
  | nil => exact innerCalls_attempted (o i)
  | cons d ds ih =>
    rw [turns, innerCalls_append, innerCalls_append, innerCalls_attempted, innerCalls_pause,
      ih (i + 1)]
    rfl

theorem reports_turns (o : Outcomes c) (i : Nat) (ds : List Nat) :
    reports (A.turns c o i ds) = (List.range' i (ds.length + 1)).map fun j => report (o j) := by
  induction ds generalizing i with
  | nil => exact reports_attempted (o i)
  | cons d ds ih =>
    rw [turns, reports_append, reports_append, reports_attempted, reports_pause, ih (i + 1)]
    rfl

/-- The last attempt and its report come last: no pause after it. -/
theorem turns_last (o : Outcomes c) (i : Nat) (ds : List Nat) :
    ∃ front, A.turns c o i ds = front ++ A.attempted c (o (i + ds.length)) := by
  induction ds generalizing i with
  | nil => exact ⟨[], rfl⟩
  | cons d ds ih =>
    obtain ⟨front, hfront⟩ := ih (i + 1)
    refine ⟨A.attempted c (o i) ++ (pause i d ++ front), ?_⟩
    rw [turns, hfront, List.append_assoc, List.append_assoc,
      show i + (d :: ds).length = i + 1 + ds.length by rw [List.length_cons]; omega]

/-- **The law of a guarded operation.** Whatever the breaker answers and whatever
the attempts are answered: a refused operation does nothing else; an admitted
one makes `attemptsMade` attempts, reports each of them once, in order, returns
the outcome of the last and does not pause after it. The number of attempts is
the position of the first final outcome, within a budget that fits the counter. -/
theorem guard_law (cfg : OpsConfig) (c : AgentCall) (o : Outcomes c) :
    (∀ tr r, (((new cfg).guard c).Exec tr r ∧ Follows c o 0 tr) ↔
      (tr = [⟨.acquire, .error {}⟩] ∧
        r = .error (.unavailable ("circuit open for " ++ c.label))) ∨
      ∃ ds : List Nat, ds.length + 1 = attemptsMade cfg.maxAttempts o ∧
        tr = ⟨.acquire, .ok ()⟩ :: (new cfg).turns c o 0 ds ∧
        r = settle c (o (attemptsMade cfg.maxAttempts o - 1))) ∧
    (∀ ds : List Nat, ds.length + 1 = attemptsMade cfg.maxAttempts o →
      innerCalls ((new cfg).turns c o 0 ds) =
        List.replicate (attemptsMade cfg.maxAttempts o) c ∧
      reports ((new cfg).turns c o 0 ds) =
        (List.range (attemptsMade cfg.maxAttempts o)).map (fun i => report (o i)) ∧
      ∃ front, (new cfg).turns c o 0 ds =
        front ++ (new cfg).attempted c (o (attemptsMade cfg.maxAttempts o - 1))) ∧
    (∀ n, (∀ j < n, isFinal (o j) = false) → isFinal (o n) = true →
      attemptsMade cfg.maxAttempts o = min (max cfg.maxAttempts 1) (1 + n)) ∧
    ((∀ j, isFinal (o j) = false) →
      attemptsMade cfg.maxAttempts o = max cfg.maxAttempts 1) ∧
    (cfg.maxAttempts ≤ U32_MAX → attemptsMade cfg.maxAttempts o ≤ U32_MAX) := by
  obtain ⟨n, hn, hle, -, hstop⟩ := attemptsMade_spec cfg.maxAttempts o
  refine ⟨fun tr r => ?_, fun ds hds => ⟨?_, ?_, ?_⟩, fun n => attemptsMade_of_final,
    fun hgo => ?_, fun hmax => ?_⟩
  · rw [exec_guard_iff]
    refine or_congr_right (exists_congr fun ds => and_congr_right fun hds => ?_)
    rw [show attemptsMade cfg.maxAttempts o - 1 = ds.length by omega]
  · rw [innerCalls_turns, hds]
  · rw [reports_turns, hds, List.range_eq_range']
  · rw [show attemptsMade cfg.maxAttempts o - 1 = 0 + ds.length by omega]
    exact turns_last o 0 ds
  · have : ¬ isFinal (o n) = true := by simp [hgo n]
    rw [hn, hstop.resolve_left this]
  · have : 1 ≤ U32_MAX := by decide
    omega

end ResilientNodeAgent

end ValidatorForge.Core
