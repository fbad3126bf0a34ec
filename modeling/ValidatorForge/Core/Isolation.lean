import ValidatorForge.Core.Guard

/-!
# Operations on different hosts

One `ResilientNodeAgent` guards the operations on every host with one breaker.
`playAll` performs a sequence of operations against given inner-agent outcomes
and clock readings; two sequences that agree on the operations on a host `B` are
compared by what these do. `isolated_iff`: they do the same exactly if each of
them finds the breaker admitting in both runs or in neither.
-/
namespace ValidatorForge.Core

open Interaction ValidatorForge.Types Prog Resilience

/-- The hosts a call acts on. -/
def AgentCall.hosts : AgentCall → List HostAddr
  | .applyInfra host | .tuneHost host | .startValidator host _ | .awaitCatchup host
  | .drain host | .destroyInfra host => [host]
  | .swapIdentity from' to' => [from', to']

/-- A guarded operation with everything from outside: when it asks the breaker,
what its attempts are answered, when each of them is reported, and the backoffs. -/
structure Operation where
  call : AgentCall
  askedAt : Nat
  outcome : Outcomes call
  reportedAt : Nat → Nat
  backoff : Nat → Nat

/-- What an operation returned, and the calls the inner agent received for it. -/
structure Done where
  operation : Operation
  result : Except PortError operation.call.Reply
  calls : List AgentCall

def Operation.isOn (B : HostAddr) (x : Operation) : Bool := x.call.hosts.contains B

namespace ResilientNodeAgent

/-- What answers the operation: the breaker, and the script. The state is the
breaker's and the number of attempts made. -/
def script (A : ResilientNodeAgent) (x : Operation) : Handler ResilientSig (Inner × Nat)
  | .acquire, (s, i) =>
    ((A.breaker.acquire x.askedAt s).1, ((A.breaker.acquire x.askedAt s).2, i))
  | .withTimeout _ c, (s, i) => (if h : c = x.call then h ▸ x.outcome i else none, (s, i + 1))
  | .onSuccess, (s, i) => ((), (CircuitBreaker.onSuccess s, i))
  | .onFailure, (s, i) => ((), (A.breaker.onFailure (x.reportedAt (i - 1)) s, i))
  | .backoffFor k, (s, i) => (x.backoff k, (s, i))
  | .sleep _, (s, i) | .publish _, (s, i) => ((), (s, i))
  | .now, (s, i) => (0, (s, i))

/-- The operation, with the breaker in this state. -/
def play (A : ResilientNodeAgent) (s : Inner) (x : Operation) :
    Outcome ResilientSig (Inner × Nat) (Except PortError x.call.Reply) :=
  (A.guard x.call).runWith (A.script x) (s, 0)

/-- What came of it. -/
def done (A : ResilientNodeAgent) (s : Inner) (x : Operation) : Done :=
  { operation := x, result := (A.play s x).val, calls := innerCalls (A.play s x).trace }

/-- One operation after another, each with the breaker state it finds. -/
def playAll (A : ResilientNodeAgent) : Inner → List Operation → List (Inner × Operation)
  | _, [] => []
  | s, x :: xs => (s, x) :: A.playAll (A.play s x).world.1 xs

/-- The operations on `B`, each with the breaker state it finds. -/
def foundOn (A : ResilientNodeAgent) (B : HostAddr) (xs : List Operation) :
    List (Inner × Operation) := (A.playAll .new xs).filter fun y => y.2.isOn B

/-- What came of the operations on `B`. -/
def doneOn (A : ResilientNodeAgent) (B : HostAddr) (xs : List Operation) : List Done :=
  (A.foundOn B xs).map fun y => A.done y.1 y.2

/-- For each operation on `B`: whether it finds the breaker open and cooling. -/
def coolingOn (A : ResilientNodeAgent) (B : HostAddr) (xs : List Operation) : List Bool :=
  (A.foundOn B xs).map fun y => decide (A.breaker.Cooling y.2.askedAt y.1)

variable {A : ResilientNodeAgent}

/-- Whatever runs against the script, its attempts are answered from it. -/
theorem follows_runWith {α : Type} (x : Operation) (p : Prog ResilientSig α) (s : Inner)
    (i : Nat) : Follows x.call x.outcome i (p.runWith (A.script x) (s, i)).trace := by
  induction p generalizing s i with
  | ret a => trivial
  | op o k ih =>
    cases o with
    | withTimeout dur c =>
      refine ⟨?_, ih _ _ _⟩
      rintro rfl
      exact heq_of_eq (dif_pos rfl)
    | acquire | onSuccess | onFailure | backoffFor | sleep | publish | now => exact ih _ _ _

/-- What an operation does depends on the breaker only through whether it is
open and cooling. -/
theorem done_eq (cfg : OpsConfig) (s : Inner) (x : Operation) :
    (new cfg).done s x =
      if (new cfg).breaker.Cooling x.askedAt s then
        { operation := x, result := .error (.unavailable ("circuit open for " ++ x.call.label))
          calls := [] }
      else
        { operation := x
          result := settle x.call (x.outcome (attemptsMade cfg.maxAttempts x.outcome - 1))
          calls := List.replicate (attemptsMade cfg.maxAttempts x.outcome) x.call } := by
  obtain ⟨tr, htr⟩ : ∃ tr, ((new cfg).play s x).trace = tr := ⟨_, rfl⟩
  -- The first event of the trace is the breaker's answer.
  have hacq : tr.head? = some ⟨.acquire, ((new cfg).breaker.acquire x.askedAt s).1⟩ := by
    rw [← htr]
    rfl
  have hx : ((new cfg).guard x.call).Exec tr ((new cfg).play s x).val := by
    rw [← htr]
    exact exec_runWith _ _ _
  have hf : Follows x.call x.outcome 0 tr := by
    rw [← htr]
    exact follows_runWith x _ s 0
  unfold done
  rw [htr]
  rcases exec_guard_iff.1 ⟨hx, hf⟩ with ⟨rfl, hr⟩ | ⟨ds, hds, rfl, hr⟩
  · have hcool : (new cfg).breaker.Cooling x.askedAt s := by
      rw [List.head?_cons, Option.some.injEq] at hacq
      exact CircuitBreaker.acquire_eq_error.1 (eq_of_heq (Sigma.mk.inj hacq).2).symm
    rw [if_pos hcool, hr]
    rfl
  · have hcool : ¬ (new cfg).breaker.Cooling x.askedAt s := by
      intro hc
      rw [List.head?_cons, Option.some.injEq] at hacq
      have hok := (eq_of_heq (Sigma.mk.inj hacq).2).symm
      rw [CircuitBreaker.acquire_eq_error (e := {}).2 hc] at hok
      cases hok
    have hcalls : innerCalls (⟨.acquire, .ok ()⟩ :: (new cfg).turns x.call x.outcome 0 ds) =
        List.replicate (attemptsMade cfg.maxAttempts x.outcome) x.call := by
      rw [← hds]
      exact innerCalls_turns x.outcome 0 ds
    rw [if_neg hcool, hr, hcalls, show attemptsMade cfg.maxAttempts x.outcome - 1 = ds.length by omega]

/-- The same operation does the same in two breaker states exactly if both admit
it or neither does. -/
theorem done_eq_iff (cfg : OpsConfig) (s t : Inner) (x : Operation) :
    (new cfg).done s x = (new cfg).done t x ↔
      ((new cfg).breaker.Cooling x.askedAt s ↔ (new cfg).breaker.Cooling x.askedAt t) := by
  obtain ⟨n, hn, -⟩ := attemptsMade_spec cfg.maxAttempts x.outcome
  rw [done_eq, done_eq, hn]
  by_cases hs : (new cfg).breaker.Cooling x.askedAt s <;>
    by_cases ht : (new cfg).breaker.Cooling x.askedAt t <;> simp [hs, ht, List.replicate_succ]

theorem playAll_operations (s : Inner) (xs : List Operation) :
    (A.playAll s xs).map Prod.snd = xs := by
  induction xs generalizing s with
  | nil => rfl
  | cons x xs ih => rw [playAll, List.map_cons, ih]

theorem foundOn_operations (B : HostAddr) (xs : List Operation) :
    (A.foundOn B xs).map Prod.snd = xs.filter (Operation.isOn B) := by
  have hops := playAll_operations (A := A) .new xs
  conv => rhs; rw [← hops]
  rw [foundOn, List.filter_map]
  rfl

/-- Two lists of the same operations, pointwise. -/
theorem map_done_eq_iff (cfg : OpsConfig) {ys zs : List (Inner × Operation)}
    (h : ys.map Prod.snd = zs.map Prod.snd) :
    ys.map (fun y => (new cfg).done y.1 y.2) = zs.map (fun y => (new cfg).done y.1 y.2) ↔
      ys.map (fun y => decide ((new cfg).breaker.Cooling y.2.askedAt y.1)) =
        zs.map (fun y => decide ((new cfg).breaker.Cooling y.2.askedAt y.1)) := by
  induction ys generalizing zs with
  | nil =>
    cases zs with
    | nil => simp
    | cons z zs => cases h
  | cons y ys ih =>
    cases zs with
    | nil => cases h
    | cons z zs =>
      obtain ⟨s, x⟩ := y
      obtain ⟨t, x'⟩ := z
      simp only [List.map_cons, List.cons.injEq] at h
      obtain ⟨rfl, h⟩ := h
      simp only [List.map_cons, List.cons.injEq]
      rw [done_eq_iff, ih h, decide_eq_decide]

/-- **Isolation.** Two runs of one agent that agree on the operations on `B`: each
of these returns the same and makes the same inner calls in both exactly if each
finds the breaker open and cooling in both or in neither. -/
theorem isolated_iff (cfg : OpsConfig) (B : HostAddr) (xs ys : List Operation)
    (h : xs.filter (Operation.isOn B) = ys.filter (Operation.isOn B)) :
    (new cfg).doneOn B xs = (new cfg).doneOn B ys ↔
      (new cfg).coolingOn B xs = (new cfg).coolingOn B ys :=
  map_done_eq_iff cfg (by rw [foundOn_operations, foundOn_operations, h])

/-- A host that refuses a call for good, and one that carries it out. -/
def refusing (host : String) : Operation :=
  { call := .tuneHost ⟨host⟩
    askedAt := 0
    outcome := fun _ => some (.error (.rejected "bad request"))
    reportedAt := fun _ => 0
    backoff := fun _ => 0 }

def healthy (host : String) : Operation :=
  { call := .tuneHost ⟨host⟩
    askedAt := 1
    outcome := fun _ => some (.ok ())
    reportedAt := fun _ => 1
    backoff := fun _ => 0 }

/-- Five refusals on one host, with the default configuration, and the operation
on another host is refused unheard. -/
theorem not_isolated :
    ¬ ∀ (cfg : OpsConfig) (B : HostAddr) (xs ys : List Operation),
      xs.filter (Operation.isOn B) = ys.filter (Operation.isOn B) →
      (new cfg).doneOn B xs = (new cfg).doneOn B ys := by
  intro h
  have hdone := h .default ⟨"val02.internal"⟩
    (List.replicate 5 (refusing "val01.internal") ++ [healthy "val02.internal"])
    [healthy "val02.internal"] rfl
  have hcalls := congrArg (List.map Done.calls) hdone
  exact absurd hcalls (by decide +kernel)

/-- Four refusals do not open the breaker. -/
theorem isolated_iff_four :
    (new .default).doneOn ⟨"val02.internal"⟩
      (List.replicate 4 (refusing "val01.internal") ++ [healthy "val02.internal"]) =
    (new .default).doneOn ⟨"val02.internal"⟩ [healthy "val02.internal"] :=
  (isolated_iff .default ⟨"val02.internal"⟩
    (List.replicate 4 (refusing "val01.internal") ++ [healthy "val02.internal"])
    [healthy "val02.internal"] rfl).2 (by decide +kernel)

end ResilientNodeAgent

end ValidatorForge.Core
