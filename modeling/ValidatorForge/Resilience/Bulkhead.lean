import ValidatorForge.Lib.Permits

/-!
# The bulkhead

crates/validatorforge-resilience/src/bulkhead.rs, a cap on operations in flight. It
is a `tokio` semaphore behind four methods; of the semaphore only its documented
laws are used (`Semaphore`), so they hold of any. A guard is a permit: `tryAcquire`
answers whether there is one, `release` is its drop.

* `bulkhead_conserved`: over any number of tasks that drop only guards they hold,
  interleaved anyhow: the guards held and the free slots add up to the capacity, and
  `available` answers what is left of it.
-/
namespace ValidatorForge.Resilience

open Interaction Prog

/-- The calls made of a `tokio::sync::Semaphore`; `dropPermit` is the drop of an
`OwnedSemaphorePermit`. An `acquireOwned` is performed when it is granted. -/
inductive SemaphoreOp where
  | tryAcquireOwned
  | acquireOwned
  | dropPermit
  | availablePermits
  deriving DecidableEq, Repr

@[reducible] def SemaphoreOp.Resp : SemaphoreOp → Type
  | .tryAcquireOwned => Bool
  | .acquireOwned | .dropPermit => Unit
  | .availablePermits => Nat

abbrev SemaphoreSig : Sig where
  Op := SemaphoreOp
  Resp := SemaphoreOp.Resp

/-- `Semaphore::MAX_PERMITS`, `usize::MAX >> 3`; `Semaphore::new` panics above it. -/
def MAX_PERMITS : Nat := 2305843009213693951

/-- A semaphore that is never closed, as documented: permits are counted, taken only
when there is one, and never refused while there is one. -/
structure Semaphore (P : Type) where
  env : Env SemaphoreSig P
  new : Nat → P
  free : P → Nat
  new_free : ∀ n, n ≤ MAX_PERMITS → free (new n) = n
  granted : ∀ {p p'}, env .tryAcquireOwned p true p' → free p' + 1 = free p
  refused : ∀ {p p'}, env .tryAcquireOwned p false p' → free p = 0 ∧ free p' = 0
  acquired : ∀ {p p'}, env .acquireOwned p () p' → free p' + 1 = free p
  dropped : ∀ {p p'}, env .dropPermit p () p' → free p' = free p + 1
  counted : ∀ {p n p'}, env .availablePermits p n p' → n = free p ∧ free p' = free p

/-- mirrors crates/validatorforge-resilience/src/bulkhead.rs:9-13 (the semaphore's
state is an argument of the environment) -/
structure Bulkhead where
  capacity : Nat
  capacity_pos : 0 < capacity

namespace Bulkhead

theorem max_one_pos (capacity : Nat) : 0 < max capacity 1 := by omega

/-- mirrors crates/validatorforge-resilience/src/bulkhead.rs:22-30 -/
def new (capacity : Nat) : Bulkhead where
  capacity := max capacity 1
  capacity_pos := max_one_pos capacity

/-- `Semaphore::new(capacity)`. -/
def slots {P : Type} (b : Bulkhead) (S : Semaphore P) : P := S.new b.capacity

/-- mirrors crates/validatorforge-resilience/src/bulkhead.rs:32-39 -/
def tryAcquire : Prog SemaphoreSig Bool := perform (S := SemaphoreSig) .tryAcquireOwned

/-- mirrors crates/validatorforge-resilience/src/bulkhead.rs:41-53 -/
def acquire : Prog SemaphoreSig Unit := perform (S := SemaphoreSig) .acquireOwned

/-- The drop of a `BulkheadGuard`.
mirrors crates/validatorforge-resilience/src/bulkhead.rs:15-19 -/
def release : Prog SemaphoreSig Unit := perform (S := SemaphoreSig) .dropPermit

/-- mirrors crates/validatorforge-resilience/src/bulkhead.rs:55-59 -/
def available : Prog SemaphoreSig Nat := perform (S := SemaphoreSig) .availablePermits

/-- The guards of a task: it has one for every grant, and each is dropped once. -/
def guards : Permits SemaphoreSig where
  takes
    | ⟨.tryAcquireOwned, ok⟩ => ok
    | ⟨.acquireOwned, _⟩ => true
    | _ => false
  gives
    | ⟨.dropPermit, _⟩ => true
    | _ => false
  may _ _ := True

theorem metered {P : Type} (S : Semaphore P) : guards.Metered S.env S.free := by
  intro o p r p' h
  cases o with
  | tryAcquireOwned =>
    cases r with
    | true => exact S.granted h
    | false =>
      obtain ⟨h₁, h₂⟩ := S.refused h
      show S.free p' + 0 = S.free p + 0
      omega
  | acquireOwned => exact S.acquired h
  | dropPermit => exact S.dropped h
  | availablePermits => exact (S.counted h).2

section Tasks
variable {P : Type} (S : Semaphore P) (b : Bulkhead) {ι α : Type} [DecidableEq ι]

/-- Tasks that share one bulkhead. -/
def tasks (p : ι → Prog SemaphoreSig α) :
    LTS (PoolState SemaphoreSig ι P α) (ι × SemaphoreSig.Ev) :=
  pool S.env p (· = b.slots S)

/-- **The bulkhead.** Tasks that drop only what they hold: free slots and guards held
add up to the capacity at every moment; a `try_acquire` is refused only when all of
it is held, and `available` answers what is left of it. -/
theorem bulkhead_conserved [Fintype ι] (hb : b.capacity ≤ MAX_PERMITS)
    {p : ι → Prog SemaphoreSig α} (hp : ∀ i, guards.Spends 0 (p i) fun _ _ => True)
    {s : PoolState SemaphoreSig ι P α} (h : (tasks S b p).Reachable s) :
    S.free s.world + ∑ i, guards.held (s.thread i).trace = b.capacity ∧
      (∀ i s', (tasks S b p).step s (i, ⟨.tryAcquireOwned, false⟩) s' →
        ∑ i, guards.held (s.thread i).trace = b.capacity) ∧
      ∀ i (n : Nat) s', (tasks S b p).step s (i, ⟨.availablePermits, n⟩) s' →
        n = b.capacity - ∑ i, guards.held (s.thread i).trace := by
  have hsum := Permits.conserved (metered S) hp (c := b.capacity)
    (fun w hw => by rw [hw]; exact S.new_free _ hb) h
  refine ⟨hsum, ?_, ?_⟩
  · intro i s' hs
    obtain ⟨k, w', -, he, -⟩ := hs
    have hnone := (S.refused he).1
    omega
  · intro i n s' hs
    obtain ⟨k, w', -, he, -⟩ := hs
    have hn : n = S.free s.world := (S.counted he).1
    omega

end Tasks

/-! ## Two tasks -/

/-- A semaphore that counts, and does nothing else. -/
def counting : Semaphore Nat where
  env
    | .tryAcquireOwned, p, ok, p' => if ok then p = p' + 1 else p = 0 ∧ p' = 0
    | .acquireOwned, p, _, p' => p = p' + 1
    | .dropPermit, p, _, p' => p' = p + 1
    | .availablePermits, p, n, p' => n = p ∧ p' = p
  new n := n
  free p := p
  new_free _ _ := rfl
  granted h := h.symm
  refused h := h
  acquired h := h.symm
  dropped h := h
  counted h := h

/-- One task takes a slot and drops it, the other asks what is available. -/
def takeAndLook : Bool → Prog SemaphoreSig Nat
  | false => do
    acquire
    release
    return 0
  | true => available

theorem spends_takeAndLook (i : Bool) : guards.Spends 0 (takeAndLook i) fun _ _ => True := by
  cases i with
  | false =>
    refine ⟨trivial, fun _ => ⟨fun h => (by cases h), ?_⟩⟩
    exact ⟨trivial, fun _ => ⟨fun _ => Nat.one_pos, trivial⟩⟩
  | true => exact ⟨trivial, fun _ => ⟨fun h => (by cases h), trivial⟩⟩

/-- While the one slot of a bulkhead is held, none is available. -/
theorem bulkhead_conserved_held : ∃ s : PoolState SemaphoreSig Bool Nat Nat,
    (tasks counting (new 0) takeAndLook).Reachable s ∧
      counting.free s.world + ∑ i, guards.held (s.thread i).trace = 1 ∧ s.world = 0 := by
  let s₀ : PoolState SemaphoreSig Bool Nat Nat :=
    ⟨(new 0).slots counting, fun i => ⟨[], takeAndLook i⟩⟩
  let e : SemaphoreSig.Ev := ⟨.acquireOwned, ()⟩
  have hstep : (tasks counting (new 0) takeAndLook).step s₀ (false, e)
      (s₀.advance false [e] (release >>= fun _ => .ret 0) 0) := by
    refine ⟨_, 0, rfl, ?_, rfl⟩
    show 1 = 0 + 1
    rfl
  have hreach : (tasks counting (new 0) takeAndLook).Reachable
      (s₀.advance false [e] (release >>= fun _ => .ret 0) 0) :=
    ⟨s₀, _, ⟨rfl, fun _ => rfl⟩, .cons hstep (.nil _)⟩
  refine ⟨_, hreach, ?_, rfl⟩
  exact (bulkhead_conserved counting (new 0) (by decide) spends_takeAndLook hreach).1

end Bulkhead

end ValidatorForge.Resilience
