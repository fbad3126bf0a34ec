import Mathlib.Order.Basic

/-!
# The circuit breaker

crates/validatorforge-resilience/src/breaker.rs. The mutex-guarded `Inner` is an
argument and a result of each method, the clock reading (`now_millis`) an
argument; `u64` milliseconds and the `u32` counter are naturals, so
`saturating_sub` is `-`. `Cooling`: the breaker is open and its cooldown has not
elapsed, the one case in which it rejects (`acquire_eq_error`).
-/
namespace ValidatorForge.Resilience

/-- mirrors crates/validatorforge-resilience/src/breaker.rs:12-21 -/
inductive BreakerState where
  | closed | open' | halfOpen
  deriving DecidableEq, Repr

/-- mirrors crates/validatorforge-resilience/src/breaker.rs:23-33 -/
def BreakerState.asStr : BreakerState → String
  | .closed => "closed"
  | .open' => "open"
  | .halfOpen => "half_open"

/-- mirrors crates/validatorforge-resilience/src/breaker.rs:35-38 -/
structure BreakerError where
  deriving DecidableEq, Repr

/-- mirrors crates/validatorforge-resilience/src/breaker.rs:40-45 -/
structure Inner where
  state : BreakerState
  consecutiveFailures : Nat
  openedAtMillis : Nat
  deriving DecidableEq, Repr

/-- The fixed part; its fields are private, and `new` keeps the threshold positive.
mirrors crates/validatorforge-resilience/src/breaker.rs:47-54 -/
structure CircuitBreaker where
  failureThreshold : Nat
  cooldownMillis : Nat
  threshold_pos : 0 < failureThreshold

def Inner.new : Inner := { state := .closed, consecutiveFailures := 0, openedAtMillis := 0 }

namespace CircuitBreaker

/-- mirrors crates/validatorforge-resilience/src/breaker.rs:57-70 -/
def new (failureThreshold cooldownMillis : Nat) : CircuitBreaker :=
  { failureThreshold := max failureThreshold 1, cooldownMillis, threshold_pos := by omega }

/-- mirrors crates/validatorforge-resilience/src/breaker.rs:84-91 -/
def refresh (b : CircuitBreaker) (now : Nat) (inner : Inner) : Inner :=
  if inner.state = .open' then
    if now - inner.openedAtMillis ≥ b.cooldownMillis then { inner with state := .halfOpen }
    else inner
  else inner

/-- mirrors crates/validatorforge-resilience/src/breaker.rs:72-77 -/
def state (b : CircuitBreaker) (now : Nat) (inner : Inner) : BreakerState × Inner :=
  let inner := b.refresh now inner
  (inner.state, inner)

/-- mirrors crates/validatorforge-resilience/src/breaker.rs:93-104 -/
def acquire (b : CircuitBreaker) (now : Nat) (inner : Inner) : Except BreakerError Unit × Inner :=
  let inner := b.refresh now inner
  match inner.state with
  | .open' => (.error {}, inner)
  | .closed | .halfOpen => (.ok (), inner)

/-- mirrors crates/validatorforge-resilience/src/breaker.rs:106-111 -/
def onSuccess (inner : Inner) : Inner := { inner with consecutiveFailures := 0, state := .closed }

/-- mirrors crates/validatorforge-resilience/src/breaker.rs:113-130 -/
def onFailure (b : CircuitBreaker) (now : Nat) (inner : Inner) : Inner :=
  match inner.state with
  | .halfOpen =>
    { state := .open', openedAtMillis := now, consecutiveFailures := b.failureThreshold }
  | _ =>
    let inner := { inner with consecutiveFailures := inner.consecutiveFailures + 1 }
    if inner.consecutiveFailures ≥ b.failureThreshold then
      { inner with state := .open', openedAtMillis := now }
    else inner

/-- Open, and the cooldown has not elapsed. -/
def Cooling (b : CircuitBreaker) (now : Nat) (inner : Inner) : Prop :=
  inner.state = .open' ∧ now - inner.openedAtMillis < b.cooldownMillis

instance (b : CircuitBreaker) (now : Nat) (inner : Inner) : Decidable (b.Cooling now inner) :=
  inferInstanceAs (Decidable (_ ∧ _))

theorem refresh_of_cooling {b : CircuitBreaker} {now : Nat} {inner : Inner}
    (h : b.Cooling now inner) : b.refresh now inner = inner := by
  have hlt : ¬ now - inner.openedAtMillis ≥ b.cooldownMillis := by
    have := h.2
    omega
  unfold refresh
  rw [if_pos h.1, if_neg hlt]

theorem refresh_state_open {b : CircuitBreaker} {now : Nat} {inner : Inner} :
    (b.refresh now inner).state = .open' ↔ b.Cooling now inner := by
  constructor
  · intro h
    unfold refresh at h
    split at h
    · rename_i ho
      split at h
      · cases h
      · exact ⟨ho, by omega⟩
    · rename_i ho
      exact absurd h ho
  · intro h
    rw [refresh_of_cooling h]
    exact h.1

@[simp] theorem acquire_snd (b : CircuitBreaker) (now : Nat) (s : Inner) :
    (b.acquire now s).2 = b.refresh now s := by
  unfold acquire
  dsimp only
  split <;> rfl

theorem acquire_fst (b : CircuitBreaker) (now : Nat) (s : Inner) :
    (b.acquire now s).1 = if (b.refresh now s).state = .open' then .error {} else .ok () := by
  unfold acquire
  cases h : (b.refresh now s).state <;> simp [h]

/-- A breaker rejects exactly while it is open and cooling. -/
theorem acquire_eq_error {b : CircuitBreaker} {now : Nat} {inner : Inner} {e : BreakerError} :
    (b.acquire now inner).1 = .error e ↔ b.Cooling now inner := by
  rw [← refresh_state_open, acquire_fst]
  split
  · exact ⟨fun _ => by assumption, fun _ => rfl⟩
  · constructor
    · intro h
      cases h
    · intro h
      exact absurd h (by assumption)

/-- A question does not close the breaker. -/
theorem refresh_closed {b : CircuitBreaker} {t : Nat} {s : Inner}
    (h : (b.refresh t s).state = .closed) : s.state = .closed := by
  unfold refresh at h
  split at h
  · split at h
    · cases h
    · exact h
  · exact h

/-- Nor does a failure. -/
theorem onFailure_closed {b : CircuitBreaker} {t : Nat} {s : Inner}
    (h : (b.onFailure t s).state = .closed) : s.state = .closed := by
  unfold onFailure at h
  split at h
  · cases h
  · dsimp only at h
    split at h
    · cases h
    · exact h

/-- A failure on an open breaker leaves it open, and never dates it back. -/
theorem onFailure_open {b : CircuitBreaker} {t : Nat} {s : Inner}
    (h : s.state = .open') (hle : s.openedAtMillis ≤ t) :
    (b.onFailure t s).state = .open' ∧ s.openedAtMillis ≤ (b.onFailure t s).openedAtMillis := by
  unfold onFailure
  cases hs : s.state with
  | open' =>
    dsimp only
    split
    · exact ⟨rfl, hle⟩
    · exact ⟨rfl, Nat.le_refl _⟩
  | closed | halfOpen => rw [hs] at h; cases h

/-- An open breaker was opened by `t`. -/
theorem onFailure_openedAt {b : CircuitBreaker} {t : Nat} {s : Inner}
    (h : s.state = .open' → s.openedAtMillis ≤ t) :
    (b.onFailure t s).state = .open' → (b.onFailure t s).openedAtMillis ≤ t := by
  unfold onFailure
  split
  · exact fun _ => Nat.le_refl t
  · dsimp only
    split
    · exact fun _ => Nat.le_refl t
    · exact h

end CircuitBreaker

end ValidatorForge.Resilience
