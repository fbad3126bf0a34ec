import Mathlib.Algebra.BigOperators.Group.Finset.Piecewise
import ValidatorForge.Core.Contract
import ValidatorForge.Core.Record
import ValidatorForge.Resilience.Bulkhead
import ValidatorForge.Resilience.RateLimit

/-!
# Admission

The two gates of `start_deployment` (crates/validatorforge-core/src/engine.rs:82-91)
with what stands behind them: the rate limiter read at the engine's own clock and the
bulkhead over its semaphore (`gatedEnv`); everything else behind the engine is any
environment. Any number of calls, on any nodes, interleaved anyhow.

* `deployments_bounded`: the calls at work never exceed the bulkhead's capacity, none
  touches a port without a slot, no slot is lost, none is refused while one is free.
* `starts_within_rate`: the runs ever started are no more than the limiter's capacity
  and what it refilled since, its arithmetic being exact.
-/
namespace ValidatorForge.Core

open Interaction ValidatorForge.Types ValidatorForge.Resilience Prog

namespace OpsEngine

/-- mirrors crates/validatorforge-core/src/engine.rs:47 -/
def limiter (cfg : OpsConfig) : RateLimiter := .new cfg.rateCapacity cfg.ratePerSec

/-- mirrors crates/validatorforge-core/src/engine.rs:48 -/
def bulkhead (cfg : OpsConfig) : Bulkhead := .new cfg.maxConcurrentDeploys

/-! ## What an admitted call performs -/

/-- The operations of a deployment behind the gates, but for the taking of its id. -/
inductive Inner : EngineOp → Prop
  | getNode (id : NodeId) : Inner (.getNode id)
  | saveNode (node : ValidatorNode) : Inner (.saveNode node)
  | saveRun (run : DeploymentRun) : Inner (.saveRun run)
  | now : Inner .now
  | publish (event : OpsEvent) : Inner (.publish event)
  | agent (call : AgentCall) : Inner (.agent call)

section Rules
variable {α β : Type}

theorem ask_inner {o : EngineOp} (h : Inner o) : (ask o).run.Only Inner :=
  Only.bind ((only_perform (S := EngineSig) o).2 h) fun _ => trivial

theorem port_inner {p : Prog EngineSig (Except PortError α)} (h : p.Only Inner) :
    (port p).run.Only Inner := h.bind fun _ => trivial

theorem findNode_inner (id : NodeId) : (findNode id).run.Only Inner := by
  refine Only.tryBind (port_inner ((only_perform (S := EngineSig) _).2 (.getNode id))) fun n => ?_
  cases n with
  | none => exact trivial
  | some node => exact trivial

theorem findSpare_inner (kind : DeploymentKind) : (findSpare kind).run.Only Inner := by
  cases kind with
  | failover spare => exact Only.tryBind (findNode_inner spare) fun _ => trivial
  | provision | upgrade _ | decommission => exact trivial

/-- `begin_run` once it has its id. -/
theorem announce_inner (node : ValidatorNode) (kind : DeploymentKind) (runId : RunId) :
    (do let run := DeploymentRun.new runId node.id kind (← ask .now)
        saveRunOp run
        ask (.publish (.runStarted runId node.id kind (← ask .now)))
        return run : Engine DeploymentRun).run.Only Inner := by
  refine Only.tryBind (ask_inner .now) fun t => ?_
  refine Only.tryBind (port_inner ((only_perform (S := EngineSig) _).2 (.saveRun _))) fun _ => ?_
  exact Only.tryBind (ask_inner .now) fun _ =>
    Only.tryBind (ask_inner (.publish _)) fun _ => trivial

theorem sagaRun_inner (node : ValidatorNode) (kind : DeploymentKind) (spareHost : Option HostAddr)
    (run : DeploymentRun) : (sagaRun node kind spareHost run).Only Inner := by
  have hagent : ∀ {α : Type} (p : Prog AgentSig α), (p.interp agentPort).Only Inner := by
    intro α p
    refine Only.interp (fun c => ?_) p
    exact (only_perform (S := EngineSig) _).2 (.agent c)
  refine Only.interp (fun o => ?_) _
  cases o with
  | execute s ctx => exact hagent _
  | compensate s ctx => exact hagent _
  | publish e => exact (only_perform (S := EngineSig) _).2 (.publish e)
  | now => exact (only_perform (S := EngineSig) _).2 .now

theorem transitions_inner (node : ValidatorNode) (path : List NodeState) :
    (transitions node path).run.Only Inner := by
  induction path generalizing node with
  | nil => exact trivial
  | cons t path ih =>
    refine Only.tryBind (ask_inner .now) fun t₀ => Only.tryBind (by exact trivial) fun n => ?_
    exact Only.tryBind (ask_inner .now) fun t₁ =>
      Only.tryBind (ask_inner (.publish _)) fun _ => ih n

theorem settleNode_inner (kind : DeploymentKind) (status : RunStatus) (node : ValidatorNode) :
    (settleNode kind status node).run.Only Inner := by
  refine Only.tryBind (transitions_inner node _) fun n => Only.tryBind ?_ fun m => ?_
  · unfold stampVersion
    by_cases hs : status = .succeeded
    · rw [if_pos hs]
      cases kind with
      | upgrade v => exact Only.tryBind (ask_inner .now) fun _ => trivial
      | provision | failover _ | decommission => exact trivial
    · rw [if_neg hs]
      exact trivial
  · exact port_inner ((only_perform (S := EngineSig) _).2 (.saveNode m))

theorem finishRun_inner (status : RunStatus) (run : DeploymentRun) :
    (finishRun status run).run.Only Inner := by
  refine Only.tryBind (ask_inner .now) fun t => ?_
  refine Only.tryBind (port_inner ((only_perform (S := EngineSig) _).2 (.saveRun _))) fun _ => ?_
  exact Only.tryBind (ask_inner .now) fun _ =>
    Only.tryBind (ask_inner (.publish _)) fun _ => trivial

/-- The deployment of a run that is open. -/
theorem conclude_inner (node : ValidatorNode) (kind : DeploymentKind) (spareHost : Option HostAddr)
    (run : DeploymentRun) :
    (do let (status, run) ← (liftM (sagaRun node kind spareHost run) : Engine _)
        settleNode kind status node
        finishRun status run : Engine DeploymentRun).run.Only Inner := by
  refine Only.tryBind ((sagaRun_inner node kind spareHost run).bind fun _ => trivial) fun out => ?_
  exact Only.tryBind (settleNode_inner ..) fun _ => finishRun_inner ..

end Rules

/-! ## The slot of a call -/

/-- A call's slot. It is asked for by a call that has none, and every operation but
the two gates is performed holding it. -/
def slot : Permits EngineSig where
  takes
    | ⟨.bulkheadTryAcquire, ok⟩ => ok
    | _ => false
  gives
    | ⟨.bulkheadRelease, _⟩ => true
    | _ => false
  may
    | .limiterTryAcquire, _ => True
    | .bulkheadTryAcquire, n => n = 0
    | _, n => 0 < n

theorem Inner.neutral {o : EngineOp} (h : Inner o ∨ o = .nextRun) :
    slot.Neutral o ∧ slot.may o 1 := by
  rcases h with h | rfl
  · cases h <;> exact ⟨fun _ => ⟨rfl, rfl⟩, Nat.one_pos⟩
  · exact ⟨fun _ => ⟨rfl, rfl⟩, Nat.one_pos⟩

/-- What a call does once it has its slot. -/
theorem admitted_inner (nodeId : NodeId) (kind : DeploymentKind) :
    (do let node ← findNode nodeId
        let spareHost ← findSpare kind
        deploy node kind spareHost : Engine DeploymentRun).run.Only
      fun o => Inner o ∨ o = EngineOp.nextRun := by
  refine Only.tryBind ((findNode_inner nodeId).mono fun _ => .inl) fun node => ?_
  refine Only.tryBind ((findSpare_inner kind).mono fun _ => .inl) fun spareHost => ?_
  refine Only.tryBind (Only.tryBind (Only.bind ((only_perform (S := EngineSig) _).2 (.inr rfl))
    fun _ => trivial) fun n => (announce_inner node kind _).mono fun _ => .inl) fun run => ?_
  exact (conclude_inner node kind spareHost run).mono fun _ => .inl

/-- The slot's guard is dropped however its scope is left. -/
theorem withSlot_slot {α : Type} {body : Engine α}
    (h : body.run.Only fun o => Inner o ∨ o = EngineOp.nextRun) :
    slot.Spends 1 (withSlot body).run fun n _ => n = 0 := by
  refine Permits.Spends.bind (Permits.Spends.frame (h.mono fun _ => Inner.neutral)) ?_
  intro n r hn
  subst hn
  exact ⟨Nat.one_pos, fun _ => ⟨fun _ => Nat.one_pos, rfl⟩⟩

/-- **One slot a call.** It is taken once, everything is done under it, and it is given
back on every way out. -/
theorem startDeployment_slot (nodeId : NodeId) (kind : DeploymentKind) :
    slot.Spends 0 (startDeployment nodeId kind).run fun n _ => n = 0 := by
  refine Permits.Spends.tryBind (Q := fun n _ => n = 0)
    ⟨trivial, fun r => ⟨fun h => (by cases h), rfl⟩⟩ (fun _ _ h => h) fun n ok hn => ?_
  subst hn
  cases ok with
  | false => rfl
  | true =>
    refine Permits.Spends.tryBind (Q := fun n r => ∃ ok, r = .ok ok ∧ n = ok.toNat) ?_ ?_ ?_
    · exact ⟨rfl, fun r => ⟨fun h => (by cases h), r, rfl, by cases r <;> rfl⟩⟩
    · intro n e h
      obtain ⟨ok, he, -⟩ := h
      cases he
    · intro n ok h
      obtain ⟨ok', he, rfl⟩ := h
      cases he
      cases ok with
      | false => rfl
      | true => exact withSlot_slot (admitted_inner nodeId kind)

/-! ## The gates -/

/-- The engine's gates with what stands behind them: the limiter's bucket and the latest
time read off its clock, and the bulkhead's semaphore. -/
structure Gated (P W : Type) where
  bucket : Bucket
  clock : Nat
  slots : P
  world : W

section Gates
variable {P W : Type}

/-- The limiter reads its clock at any times, the bulkhead is the semaphore; every
other operation is answered by `E`.
mirrors crates/validatorforge-core/src/engine.rs:87-91 -/
def gatedEnv (L : RateLimiter) (S : Semaphore P) (E : Env EngineSig W) : Env EngineSig (Gated P W)
  | .limiterTryAcquire, g, ok, g' => ∃ now, ok = (L.tryAcquire now g.bucket).1 ∧
      g' = { g with bucket := (L.tryAcquire now g.bucket).2, clock := max g.clock now }
  | .bulkheadTryAcquire, g, ok, g' => ∃ p, S.env .tryAcquireOwned g.slots ok p ∧
      g' = { g with slots := p }
  | .bulkheadRelease, g, u, g' => ∃ p, S.env .dropPermit g.slots u p ∧ g' = { g with slots := p }
  | o, g, r, g' => ∃ w, E o g.world r w ∧ g' = { g with world := w }

theorem metered_slot (L : RateLimiter) (S : Semaphore P) (E : Env EngineSig W) :
    slot.Metered (gatedEnv L S E) fun g => S.free g.slots := by
  intro o g r g' h
  cases o with
  | bulkheadTryAcquire =>
    obtain ⟨p, hp, rfl⟩ := h
    exact Bulkhead.metered S .tryAcquireOwned _ _ _ hp
  | bulkheadRelease =>
    obtain ⟨p, hp, rfl⟩ := h
    exact S.dropped hp
  | limiterTryAcquire =>
    obtain ⟨now, -, rfl⟩ := h
    rfl
  | _ =>
    obtain ⟨w, -, rfl⟩ := h
    rfl

end Gates

/-! ## Any number of calls -/

section Calls
variable {P W ι : Type} [DecidableEq ι] (cfg : OpsConfig) (S : Semaphore P) (E : Env EngineSig W)
  (w₀ : W → Prop) (t₀ : Nat) (node : ι → NodeId) (kind : ι → DeploymentKind)

/-- Calls of `start_deployment` on an engine made at `t₀`. -/
def service : LTS (PoolState EngineSig ι (Gated P W) (Except CoreError DeploymentRun))
    (ι × EngineSig.Ev) :=
  pool (gatedEnv (limiter cfg) S E) (fun i => (startDeployment (node i) (kind i)).run) fun g =>
    g.bucket = (limiter cfg).newBucket t₀ ∧ g.clock = t₀ ∧ g.slots = (bulkhead cfg).slots S ∧
      w₀ g.world

variable {cfg S E w₀ t₀ node kind}

/-- The calls that hold a slot. -/
def atWork [Fintype ι] (s : PoolState EngineSig ι (Gated P W) (Except CoreError DeploymentRun)) :
    Finset ι :=
  Finset.univ.filter fun i => 0 < slot.held (s.thread i).trace

omit [DecidableEq ι] in
theorem card_atWork [Fintype ι]
    {s : PoolState EngineSig ι (Gated P W) (Except CoreError DeploymentRun)}
    (h : Threads (fun i => (startDeployment (node i) (kind i)).run) s) :
    (atWork s).card = ∑ i, slot.held (s.thread i).trace := by
  unfold atWork
  rw [Finset.card_filter]
  refine Finset.sum_congr rfl fun i _ => ?_
  have hle : slot.held (s.thread i).trace ≤ 1 := by
    refine (startDeployment_slot (node i) (kind i)).held_le_one ?_ (Nat.zero_le 1) (h i)
    intro e n ht hm
    obtain ⟨o, r⟩ := e
    cases o with
    | bulkheadTryAcquire => exact hm
    | _ => cases ht
  split <;> omega

/-- The calls at work and the slots they work under. -/
structure SlotLaw [Fintype ι] (cfg : OpsConfig) (S : Semaphore P)
    (M : LTS (PoolState EngineSig ι (Gated P W) (Except CoreError DeploymentRun))
      (ι × EngineSig.Ev))
    (s : PoolState EngineSig ι (Gated P W) (Except CoreError DeploymentRun)) : Prop where
  counted : S.free s.world.slots + (atWork s).card = max cfg.maxConcurrentDeploys 1
  working : ∀ l s', M.step s l s' → l.2.1 ≠ .limiterTryAcquire → l.2.1 ≠ .bulkheadTryAcquire →
    l.1 ∈ atWork s
  refused : ∀ i s', M.step s (i, ⟨.bulkheadTryAcquire, false⟩) s' →
    i ∉ atWork s ∧ (atWork s).card = max cfg.maxConcurrentDeploys 1
  returned : ∀ i r, (s.thread i).rest = .ret r → i ∉ atWork s

/-- **The bulkhead of the engine.** At every moment, whatever the ports answer: free
slots and calls at work are the configured number; a call that does anything but ask
for admission holds a slot; one refused a slot finds them all taken by others; and one
that has returned, however it did, holds none. -/
theorem deployments_bounded [Fintype ι] (hcap : (bulkhead cfg).capacity ≤ MAX_PERMITS)
    {s : PoolState EngineSig ι (Gated P W) (Except CoreError DeploymentRun)}
    (h : (service cfg S E w₀ t₀ node kind).Reachable s) :
    SlotLaw cfg S (service cfg S E w₀ t₀ node kind) s := by
  have hsp := fun i => startDeployment_slot (node i) (kind i)
  have hth := pool_after h
  have hsum := Permits.conserved (metered_slot (limiter cfg) S E) hsp
    (c := (bulkhead cfg).capacity) (fun g hg => by rw [hg.2.2.1]; exact S.new_free _ hcap) h
  rw [← card_atWork hth] at hsum
  refine ⟨hsum, ?_, ?_, ?_⟩
  · intro l s' hs hl hb
    refine Finset.mem_filter.2 ⟨Finset.mem_univ _, ?_⟩
    have hmay := (Permits.may_of_step hsp hth hs).1
    obtain ⟨i, o, r⟩ := l
    cases o with
    | limiterTryAcquire => exact absurd rfl hl
    | bulkheadTryAcquire => exact absurd rfl hb
    | _ => exact hmay
  · intro i s' hs
    have hmay := (Permits.may_of_step hsp hth hs).1
    obtain ⟨k, g', -, ⟨p, hp, -⟩, -⟩ := hs
    have hfree := (S.refused hp).1
    have hzero : slot.held (s.thread i).trace = 0 := hmay
    refine ⟨?_, ?_⟩
    · simp [atWork, hzero]
    · show _ = (bulkhead cfg).capacity
      omega
  · intro i r hr
    have hzero : slot.held (s.thread i).trace = 0 := Permits.held_of_ret hsp hth hr
    simp [atWork, hzero]

/-! ## The rate of opening runs -/

/-- The admission a run is opened with: the limiter grants it, taking a run id uses it. -/
def admission : Permits EngineSig where
  takes
    | ⟨.limiterTryAcquire, ok⟩ => ok
    | _ => false
  gives
    | ⟨.nextRun, _⟩ => true
    | _ => false
  may _ _ := True

/-- A part of a call that is neither admitted nor takes an id. -/
theorem admission_frame {α : Type} {x : Engine α} {n : Nat} (h : x.run.Only Inner) :
    admission.Spends n x.run fun m _ => m = n := by
  refine Permits.Spends.frame (h.mono fun o ho => ⟨?_, trivial⟩)
  cases ho <;> exact fun _ => ⟨rfl, rfl⟩

/-- A deployment uses one admission: it takes one id. -/
theorem deploy_admission (node : ValidatorNode) (kind : DeploymentKind)
    (spareHost : Option HostAddr) :
    admission.Spends 1 (deploy node kind spareHost).run fun n _ => n = 0 := by
  refine Permits.Spends.tryBind (Q := fun n _ => n = 0) ?_ (fun _ _ h => h) ?_
  · refine Permits.Spends.tryBind (Q := fun n _ => n = 0) ?_ (fun _ _ h => h) ?_
    · exact ⟨trivial, fun _ => ⟨fun _ => Nat.one_pos, rfl⟩⟩
    · intro n runId hn
      subst hn
      exact admission_frame (announce_inner node kind _)
  · intro n run hn
    subst hn
    exact admission_frame (conclude_inner node kind spareHost run)

/-- A run is opened with an admission of its own. -/
theorem startDeployment_admission (nodeId : NodeId) (kind : DeploymentKind) :
    admission.Spends 0 (startDeployment nodeId kind).run fun _ _ => True := by
  refine Permits.Spends.tryBind (Q := fun n r => ∃ ok, r = .ok ok ∧ n = ok.toNat) ?_
    (fun _ _ _ => trivial) ?_
  · exact ⟨trivial, fun r => ⟨fun h => (by cases h), r, rfl, by cases r <;> rfl⟩⟩
  intro n ok h
  obtain ⟨ok', he, rfl⟩ := h
  cases he
  cases ok with
  | false => exact trivial
  | true =>
    refine Permits.Spends.tryBind (Q := fun n _ => n = 1) ?_ (fun _ _ _ => trivial) ?_
    · exact ⟨trivial, fun r => ⟨fun h => (by cases h), rfl⟩⟩
    intro n ok hn
    subst hn
    cases ok with
    | false => exact trivial
    | true =>
      refine Permits.Spends.bind (Q := fun _ _ => True) ?_ fun n r _ =>
        ⟨trivial, fun _ => ⟨fun h => (by cases h), trivial⟩⟩
      refine Permits.Spends.tryBind (admission_frame (findNode_inner nodeId))
        (fun _ _ _ => trivial) fun n node hn => ?_
      subst hn
      refine Permits.Spends.tryBind (admission_frame (findSpare_inner kind))
        (fun _ _ _ => trivial) fun n spareHost hn => ?_
      subst hn
      exact (deploy_admission node kind spareHost).mono fun _ _ _ => trivial

/-- The bucket was last refilled when its clock was last read. -/
structure Clocked (L : RateLimiter) (g : Gated P W) : Prop where
  last : g.bucket.lastRefillMillis = g.clock
  range : L.InRange g.bucket

/-- What the limiter still has and what it granted is no more than it had and earned. -/
structure Within (L : RateLimiter) (g g' : Gated P W) (granted : Nat) : Prop where
  clocked : Clocked L g'
  later : g.clock ≤ g'.clock
  budget : g'.bucket.tokens + (granted : Rat) ≤ g.bucket.tokens + L.earned (g'.clock - g.clock)

theorem Within.refl {L : RateLimiter} {g : Gated P W} (h : Clocked L g) : Within L g g 0 where
  clocked := h
  later := Nat.le_refl _
  budget := by simp

theorem Within.trans {L : RateLimiter} {g g₁ g₂ : Gated P W} {m n : Nat} (h : Within L g g₁ m)
    (h' : Within L g₁ g₂ n) : Within L g g₂ (m + n) := by
  have hl := h.later
  have hl' := h'.later
  refine ⟨h'.clocked, Nat.le_trans hl hl', ?_⟩
  have hsum : g₂.clock - g.clock = (g₁.clock - g.clock) + (g₂.clock - g₁.clock) := by omega
  have hb := h.budget
  have hb' := h'.budget
  rw [hsum, L.earned_add, Nat.cast_add]
  linarith

theorem within_tryAcquire {L : RateLimiter} {g : Gated P W} (hg : Clocked L g) (now : Nat) :
    Within L g { g with bucket := (L.tryAcquire now g.bucket).2, clock := max g.clock now }
      (L.tryAcquire now g.bucket).1.toNat where
  clocked := by
    refine ⟨?_, (RateLimiter.call_inRange hg.range (now, .tryAcquire)).2
      (L.fits_of_nonneg _ zero_le_one)⟩
    rw [← hg.last]
    exact L.call_last now .tryAcquire g.bucket
  later := Nat.le_max_left ..
  budget := by
    have hspent := L.call_budget now (c := .tryAcquire) g.bucket zero_le_one
    have hcounts : L.counts now .tryAcquire g.bucket = (L.tryAcquire now g.bucket).1.toNat := by
      cases hok : (L.tryAcquire now g.bucket).1 <;> simp [RateLimiter.counts, RateLimiter.call, hok]
    have hfill : (L.refill now g.bucket).tokens ≤
        g.bucket.tokens + L.earned (now - g.bucket.lastRefillMillis) := by
      rw [L.refill_tokens now hg.range.2]
      exact Capped.topUp_le_add ..
    have hmax : max g.clock now - g.clock = now - g.clock := by omega
    rw [hcounts] at hspent
    rw [hg.last] at hfill
    show (L.call now .tryAcquire g.bucket).2.tokens + _ ≤
      g.bucket.tokens + L.earned (max g.clock now - g.clock)
    rw [hmax]
    linarith

theorem within_step {L : RateLimiter} {S : Semaphore P} {E : Env EngineSig W} {g g' : Gated P W}
    {e : EngineSig.Ev} (h : gatedEnv L S E e.1 g e.2 g') (hg : Clocked L g) :
    Within L g g' (admission.takes e).toNat := by
  obtain ⟨o, r⟩ := e
  have hidle : ∀ g' : Gated P W, g'.bucket = g.bucket → g'.clock = g.clock → Within L g g' 0 := by
    intro g' hb hc
    refine ⟨⟨by rw [hb, hc, hg.last], by rw [hb]; exact hg.range⟩, by omega, ?_⟩
    rw [hb, hc]
    simp
  cases o with
  | limiterTryAcquire =>
    obtain ⟨now, rfl, rfl⟩ := h
    exact within_tryAcquire hg now
  | bulkheadTryAcquire | bulkheadRelease =>
    obtain ⟨p, -, rfl⟩ := h
    exact hidle _ rfl rfl
  | _ =>
    obtain ⟨w, -, rfl⟩ := h
    exact hidle _ rfl rfl

theorem within_accepts {L : RateLimiter} {S : Semaphore P} {E : Env EngineSig W} {g g' : Gated P W}
    {tr : List EngineSig.Ev} (h : (gatedEnv L S E).Accepts g tr g') (hg : Clocked L g) :
    Within L g g' (tr.countP admission.takes) := by
  induction tr generalizing g with
  | nil =>
    cases h
    exact .refl hg
  | cons e tr ih =>
    obtain ⟨g₁, he, h⟩ := h
    have hone := within_step he hg
    have hall := hone.trans (ih h hone.clocked)
    rw [List.countP_cons]
    have ht : (if admission.takes e = true then 1 else 0) = (admission.takes e).toNat := by
      cases admission.takes e <;> rfl
    rw [ht, Nat.add_comm]
    exact hall

theorem length_ids (tr : List EngineSig.Ev) : (ids tr).length = tr.countP admission.gives := by
  induction tr with
  | nil => rfl
  | cons e tr ih =>
    obtain ⟨o, r⟩ := e
    rw [ids_cons, List.length_append, ih, List.countP_cons]
    cases o with
    | nextRun =>
      show 1 + _ = _ + 1
      omega
    | _ => exact Nat.zero_add _

/-- **The rate of the engine.** In exact arithmetic, however its calls are interleaved and
whatever its limiter's clock reads, the run ids an engine has given out since `t₀` are no
more than a full bucket and what was refilled by the latest reading. -/
theorem starts_within_rate [Fintype ι]
    {s₀ s : PoolState EngineSig ι (Gated P W) (Except CoreError DeploymentRun)}
    {ls : List (ι × EngineSig.Ev)} (h₀ : (service cfg S E w₀ t₀ node kind).init s₀)
    (h : (service cfg S E w₀ t₀ node kind).Run s₀ ls s) :
    ((ids (ls.map Prod.snd)).length : Rat) ≤
      (limiter cfg).capacity + (limiter cfg).earned (s.world.clock - t₀) := by
  have hsp := fun i => startDeployment_admission (node i) (kind i)
  have hsum := Permits.held_add_gives hsp h (threads_init h₀)
  have hz : ∑ i, admission.held (s₀.thread i).trace = 0 :=
    Finset.sum_eq_zero fun i _ => by rw [h₀.2 i]; rfl
  obtain ⟨hb, hc, -⟩ := h₀.1
  have hstart : Clocked (limiter cfg) s₀.world :=
    ⟨by rw [hb, hc]; rfl, by rw [hb]; exact (limiter cfg).newBucket_inRange t₀⟩
  have hwithin := within_accepts (accepts_of_run h) hstart
  have hbudget := hwithin.budget
  have hleft := hwithin.clocked.range.1
  rw [hb, hc] at hbudget
  have hle : (ids (ls.map Prod.snd)).length ≤ (ls.map Prod.snd).countP admission.takes := by
    rw [length_ids]
    omega
  have hcast : ((ids (ls.map Prod.snd)).length : Rat) ≤
      ((ls.map Prod.snd).countP admission.takes : Nat) := Nat.cast_le.2 hle
  have hfull : ((limiter cfg).newBucket t₀).tokens = (limiter cfg).capacity := rfl
  linarith

end Calls

/-! ## An upgrade under the default configuration -/

/-- Ports that know one node, behind the gates; the clock stands still. -/
def gatedPorts : Handler EngineSig (Gated Nat Unit)
  | .limiterTryAcquire, g =>
    let out := (limiter .default).tryAcquire g.clock g.bucket
    (out.1, { g with bucket := out.2 })
  | .bulkheadTryAcquire, g =>
    if 0 < g.slots then (true, { g with slots := g.slots - 1 }) else (false, g)
  | .bulkheadRelease, g => ((), { g with slots := g.slots + 1 })
  | o, g =>
    let out := fixedPorts (fleetNode .active) (fun _ => false) (.rejected "") o g.world
    (out.1, { g with world := out.2 })

/-- What they may answer. -/
def fixedEnv : Env EngineSig Unit := fun o w r w' =>
  (r, w') = fixedPorts (fleetNode .active) (fun _ => false) (.rejected "") o w

theorem gatedPorts_allowed (o : EngineOp) (g : Gated Nat Unit) :
    gatedEnv (limiter .default) Bulkhead.counting fixedEnv o g (gatedPorts o g).1
      (gatedPorts o g).2 := by
  cases o with
  | limiterTryAcquire =>
    refine ⟨g.clock, rfl, ?_⟩
    rw [Nat.max_self]
    rfl
  | bulkheadTryAcquire =>
    by_cases h : 0 < g.slots
    · refine ⟨g.slots - 1, ?_, ?_⟩ <;> simp [gatedPorts, h, Bulkhead.counting]
      omega
    · refine ⟨g.slots, ?_, ?_⟩ <;> simp [gatedPorts, h, Bulkhead.counting]
      omega
  | bulkheadRelease => exact ⟨g.slots + 1, rfl, rfl⟩
  | _ => exact ⟨_, rfl, rfl⟩

/-- One upgrade, stopped while it runs. -/
def upgradeAtWork : Prog.Partial EngineSig (Gated Nat Unit) (Except CoreError DeploymentRun) :=
  (startDeployment ⟨"eu-val-01"⟩ (.upgrade ⟨"2.1.0"⟩)).run.runFor gatedPorts 9
    ⟨(limiter .default).newBucket 0, 0, 8, ()⟩

abbrev upgradeService : LTS (PoolState EngineSig Unit (Gated Nat Unit)
    (Except CoreError DeploymentRun)) (Unit × EngineSig.Ev) :=
  service .default Bulkhead.counting fixedEnv (fun _ => True) 0 (fun _ => ⟨"eu-val-01"⟩)
    fun _ => .upgrade ⟨"2.1.0"⟩

def upgradeCalled : PoolState EngineSig Unit (Gated Nat Unit) (Except CoreError DeploymentRun) :=
  ⟨⟨(limiter .default).newBucket 0, 0, 8, ()⟩,
    fun _ => ⟨[], (startDeployment ⟨"eu-val-01"⟩ (.upgrade ⟨"2.1.0"⟩)).run⟩⟩

theorem init_upgradeCalled : upgradeService.init upgradeCalled :=
  ⟨⟨rfl, rfl, rfl, trivial⟩, fun _ => rfl⟩

def upgradeRunning : PoolState EngineSig Unit (Gated Nat Unit) (Except CoreError DeploymentRun) :=
  upgradeCalled.advance () upgradeAtWork.trace upgradeAtWork.rest upgradeAtWork.world

theorem run_upgradeCalled :
    upgradeService.Run upgradeCalled (upgradeAtWork.trace.map (Prod.mk ())) upgradeRunning :=
  run_after (after_runFor gatedPorts 9 _ _) (Env.accepts_runFor gatedPorts_allowed 9 _ _)
    (by decide)

/-- One of the eight slots is taken, by the call. -/
theorem deployments_bounded_upgrade :
    SlotLaw .default Bulkhead.counting upgradeService upgradeRunning ∧
      upgradeRunning.world.slots = 7 :=
  ⟨deployments_bounded (by decide) ⟨_, _, init_upgradeCalled, run_upgradeCalled⟩, by decide +kernel⟩

/-- One run opened, of the sixteen a full bucket allows. -/
theorem starts_within_rate_upgrade :
    ((ids ((upgradeAtWork.trace.map (Prod.mk ())).map Prod.snd)).length : Rat) ≤
      (limiter .default).capacity + (limiter .default).earned (upgradeRunning.world.clock - 0) ∧
    (ids upgradeAtWork.trace).length = 1 :=
  ⟨starts_within_rate init_upgradeCalled run_upgradeCalled, by decide +kernel⟩

end OpsEngine

end ValidatorForge.Core
