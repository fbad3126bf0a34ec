import Mathlib.Data.List.Infix
import Mathlib.Logic.Function.Basic
import ValidatorForge.Core.Contract
import ValidatorForge.Core.Rollback

/-!
# What a rollback leaves on the hosts

A model of the hosts the agent acts on: a host is absent, or present with the
validator version it runs, whether it is drained and whether the staked identity
lies there. A drained validator has stopped voting and runs under a junk identity;
both are `drained`, and the staked identity lies where it lay until it is moved or
the host destroyed. `Hosts.apply` is the effect of a successful agent call, after
the doc comments of `NodeAgent`; a failing call has none (`cleanAgent`), or may
have it nevertheless (`ambiguousAgent`).

* `rolledBack_hosts`: with clean failures, what every plan leaves behind when it
  is rolled back. A drained host stays drained, and an upgraded one upgraded:
  `Drain` has no compensation and `StartValidator` is compensated by a drain.
* `rolledBack_ambiguous`: with ambiguous failures, what a rollback covers: the
  completed steps, and not the one that failed.
-/
namespace ValidatorForge.Core

open Interaction ValidatorForge.Types Prog OpsEngine SagaExecutor Unwind

/-- `identity`: the staked identity lies there, in use or (when drained) not. -/
inductive Host where
  | absent
  | present (running : Option ValidatorVersion) (drained identity : Bool)
  deriving DecidableEq, Repr

namespace Host

/-- mirrors crates/validatorforge-core/src/ports.rs:26-27 -/
def provision : Host → Host
  | absent => present none false false
  | h => h

/-- mirrors crates/validatorforge-core/src/ports.rs:30-35 -/
def start (v : ValidatorVersion) : Host → Host
  | absent => absent
  | present _ _ identity => present (some v) false identity

/-- The junk identity that is swapped in is part of `drained`.
mirrors crates/validatorforge-core/src/ports.rs:38-39 -/
def drain : Host → Host
  | absent => absent
  | present running _ identity => present running true identity

def holdsIdentity : Host → Bool
  | absent => false
  | present _ _ identity => identity

def setIdentity (b : Bool) : Host → Host
  | absent => absent
  | present running drained _ => present running drained b

end Host

abbrev Hosts : Type := HostAddr → Host

namespace Hosts

def update (w : Hosts) (host : HostAddr) (f : Host → Host) : Hosts :=
  Function.update w host (f (w host))

/-- The effect of a successful agent call. The identity only moves off a host
that holds it, onto one that is there.
mirrors crates/validatorforge-core/src/ports.rs:24-44 -/
def apply (w : Hosts) : AgentCall → Hosts
  | .applyInfra host => w.update host Host.provision
  | .tuneHost _ => w
  | .startValidator host version => w.update host (Host.start version)
  | .awaitCatchup _ => w
  | .drain host => w.update host Host.drain
  | .swapIdentity from' to' =>
    if (w from').holdsIdentity ∧ w to' ≠ .absent then
      (w.update from' (Host.setIdentity false)).update to' (Host.setIdentity true)
    else w
  | .destroyInfra host => w.update host fun _ => .absent

def applyAll (w : Hosts) (l : List AgentCall) : Hosts := l.foldl apply w

@[simp] theorem applyAll_nil (w : Hosts) : w.applyAll [] = w := rfl

@[simp] theorem applyAll_cons (w : Hosts) (c : AgentCall) (l : List AgentCall) :
    w.applyAll (c :: l) = (w.apply c).applyAll l := rfl

@[simp] theorem update_self (w : Hosts) (host : HostAddr) (f : Host → Host) :
    w.update host f host = f (w host) := Function.update_self ..

theorem update_of_ne (w : Hosts) {host h : HostAddr} (f : Host → Host) (hne : h ≠ host) :
    w.update host f h = w h := Function.update_of_ne hne ..

@[simp] theorem update_update (w : Hosts) (host : HostAddr) (f g : Host → Host) :
    (w.update host f).update host g = w.update host fun h => g (f h) := by
  unfold update
  simp

/-- Changing one host to what it is changes nothing. -/
theorem update_eq_self {w : Hosts} {host : HostAddr} {f : Host → Host} (h : f (w host) = w host) :
    w.update host f = w := by
  unfold update
  rw [h, Function.update_eq_self]

theorem update_congr {w : Hosts} {host : HostAddr} {f g : Host → Host}
    (h : f (w host) = g (w host)) : w.update host f = w.update host g := by
  unfold update
  rw [h]

/-- Draining a host leaves the identity where it is. -/
theorem drain_holdsIdentity (w : Hosts) (host h : HostAddr) :
    (w.apply (.drain host) h).holdsIdentity = (w h).holdsIdentity := by
  by_cases hh : h = host
  · subst hh
    show (w.update h Host.drain h).holdsIdentity = _
    rw [update_self]
    cases w h <;> rfl
  · exact congrArg Host.holdsIdentity (update_of_ne w _ hh)

end Hosts

/-- An agent whose failing calls have no effect. -/
def cleanAgent : Env AgentSig Hosts
  | c, w, .ok _, w' => w' = w.apply c
  | _, w, .error _, w' => w' = w

/-- An agent whose failing calls may have taken effect. -/
def ambiguousAgent : Env AgentSig Hosts
  | c, w, .ok _, w' => w' = w.apply c
  | c, w, .error _, w' => w' = w ∨ w' = w.apply c

/-- The steps of the plans, acting on the hosts through an agent. -/
def planWorld (E : Env AgentSig Hosts) : World PlanStep Hosts where
  execute s ctx w r w' := ∃ tr, (s.execute ctx).Exec tr r ∧ E.Accepts w tr w'
  compensate s ctx w r w' := ∃ tr, (s.compensate ctx).Exec tr r ∧ E.Accepts w tr w'

/-- An agent that fails the calls of `fails`, which take effect all the same if
`anyway`. -/
def flakyAgent (fails : AgentCall → Bool) (anyway : Bool) : Handler AgentSig Hosts :=
  fun c w =>
    if fails c then (.error (.timeout ""), if anyway then w.apply c else w)
    else (.ok c.okReply, w.apply c)

theorem flakyAgent_clean (fails : AgentCall → Bool) (c : AgentCall) (w : Hosts) :
    cleanAgent c w (flakyAgent fails false c w).1 (flakyAgent fails false c w).2 := by
  by_cases hf : fails c = true <;> simp [flakyAgent, hf, cleanAgent]

theorem flakyAgent_ambiguous (fails : AgentCall → Bool) (anyway : Bool) (c : AgentCall)
    (w : Hosts) :
    ambiguousAgent c w (flakyAgent fails anyway c w).1 (flakyAgent fails anyway c w).2 := by
  by_cases hf : fails c = true <;> cases anyway <;> simp [flakyAgent, hf, ambiguousAgent]

/-- The methods of the steps, run against an agent. -/
def planHandler {W : Type} (h : Handler AgentSig W) : Handler (SagaSig PlanStep) W
  | .execute s ctx, w => (((s.execute ctx).runWith h w).val, ((s.execute ctx).runWith h w).world)
  | .compensate s ctx, w =>
    (((s.compensate ctx).runWith h w).val, ((s.compensate ctx).runWith h w).world)
  | .publish _, w => ((), w)
  | .now, w => (0, w)

theorem accepts_planHandler {E : Env AgentSig Hosts} {h : Handler AgentSig Hosts}
    (hE : ∀ c w, E c w (h c w).1 (h c w).2) {α : Type} (p : Prog (SagaSig PlanStep) α)
    (w : Hosts) : (planWorld E).env.Accepts w (p.runWith (planHandler h) w).trace
      (p.runWith (planHandler h) w).world := by
  refine Env.accepts_runWith (fun o w => ?_) p w
  cases o with
  | execute s ctx => exact ⟨_, exec_runWith h _ w, Env.accepts_runWith hE _ w⟩
  | compensate s ctx => exact ⟨_, exec_runWith h _ w, Env.accepts_runWith hE _ w⟩
  | publish e => rfl
  | now => rfl

/-! ## The effect of a rolled back run -/

section Effects
variable {E : Env AgentSig Hosts} {ctx : SagaContext} {w w' : Hosts}

/-- Executing a step is its agent call, or fails without one. -/
theorem planWorld_execute {s : PlanStep} {r : Except PortError Unit}
    (h : (planWorld E).execute s ctx w r w') :
    (∃ c reply, s.executeCall ctx = some c ∧ E c w reply w' ∧ r.isOk = reply.isOk) ∨
      (r.isOk = false ∧ w' = w) := by
  obtain ⟨tr, hx, hw⟩ := h
  rcases PlanStep.execute_cases hx with ⟨c, reply, hc, rfl, rfl⟩ | ⟨-, rfl, hr⟩
  · obtain ⟨w₁, h₁, rfl⟩ := hw
    exact .inl ⟨c, reply, hc, h₁, PlanStep.isOk_unitOf reply⟩
  · exact .inr ⟨hr, hw⟩

/-- Compensating a step is its agent call, or nothing. -/
theorem planWorld_compensate {s : PlanStep} {r : Except PortError Unit}
    (h : (planWorld E).compensate s ctx w r w') :
    (∃ c reply, s.compensateCall ctx = some c ∧ E c w reply w' ∧ r.isOk = reply.isOk) ∨
      (s.compensateCall ctx = none ∧ w' = w) := by
  obtain ⟨tr, hx, hw⟩ := h
  rcases PlanStep.compensate_cases hx with ⟨c, reply, hc, rfl, rfl⟩ | ⟨hc, rfl⟩
  · obtain ⟨w₁, h₁, rfl⟩ := hw
    exact .inl ⟨c, reply, hc, h₁, PlanStep.isOk_unitOf reply⟩
  · exact .inr ⟨hc, hw⟩

theorem act_execute (hok : ∀ c w r w', E c w (.ok r) w' → w' = w.apply c) {s : PlanStep}
    (h : (planWorld E).act (.execute s ctx true) w w') :
    w' = w.applyAll (s.executeCall ctx).toList := by
  obtain ⟨r, hr, hx⟩ := h
  rcases planWorld_execute hx with ⟨c, reply, hc, he, hrep⟩ | ⟨hbad, -⟩
  · rw [hr] at hrep
    cases reply with
    | ok a => rw [hc]; exact hok _ _ _ _ he
    | error e => cases hrep
  · rw [hr] at hbad; cases hbad

theorem act_compensate (hok : ∀ c w r w', E c w (.ok r) w' → w' = w.apply c) {s : PlanStep}
    (h : (planWorld E).act (.compensate s ctx true) w w') :
    w' = w.applyAll (s.compensateCall ctx).toList := by
  obtain ⟨r, hr, hx⟩ := h
  rcases planWorld_compensate hx with ⟨c, reply, hc, he, hrep⟩ | ⟨hc, hw⟩
  · rw [hr] at hrep
    cases reply with
    | ok a => rw [hc]; exact hok _ _ _ _ he
    | error e => cases hrep
  · rw [hc]; exact hw

/-- A step that failed did so through its agent call, or left everything alone. -/
theorem act_failed {s : PlanStep} (h : (planWorld E).act (.execute s ctx false) w w') :
    (∃ c e, s.executeCall ctx = some c ∧ E c w (.error e) w') ∨ w' = w := by
  obtain ⟨r, hr, hx⟩ := h
  rcases planWorld_execute hx with ⟨c, reply, hc, he, hrep⟩ | ⟨-, hw⟩
  · rw [hr] at hrep
    cases reply with
    | ok a => cases hrep
    | error e => exact .inl ⟨c, e, hc, he⟩
  · exact .inr hw

/-- A path of steps each of which applies its calls applies them all. -/
theorem path_applyAll {σ : Type} {R : σ → Hosts → Hosts → Prop} {f : σ → List AgentCall}
    (hR : ∀ s w w', R s w w' → w' = w.applyAll (f s)) {l : List σ} (h : Path R l w w') :
    w' = w.applyAll (l.flatMap f) := by
  induction l generalizing w with
  | nil => exact h
  | cons s l ih =>
    obtain ⟨w₁, h₁, h₂⟩ := h
    rw [ih h₂, hR _ _ _ h₁, List.flatMap_cons]
    unfold Hosts.applyAll
    rw [List.foldl_append]

/-- How a rolled back run acted on the hosts: the calls of the steps completed,
the failed call, the calls that compensate. -/
structure RolledBackBy (E : Env AgentSig Hosts) (kind : DeploymentKind) (ctx : SagaContext)
    (done : List PlanStep) (failed : PlanStep) (w w' : Hosts) : Prop where
  plan : done ++ [failed] <+: buildPlan kind
  effect : ∃ w₁, (planWorld E).act (.execute failed ctx false)
      (w.applyAll (done.flatMap fun s => (s.executeCall ctx).toList)) w₁ ∧
    w' = w₁.applyAll (done.reverse.flatMap fun s => (s.compensateCall ctx).toList)

theorem rolledBackBy_of_run (hok : ∀ c w r w', E c w (.ok r) w' → w' = w.apply c)
    {kind : DeploymentKind} {r r' : DeploymentRun} {tr : List (SagaSig PlanStep).Ev}
    (hrun : (SagaExecutor.run (buildPlan kind) ctx r).Exec tr (.rolledBack, r'))
    (hw : (planWorld E).env.Accepts w tr w') :
    ∃ done failed, RolledBackBy E kind ctx done failed w w' ∧
      r'.completedSteps = r.completedSteps ++ done.map SagaStep.action ∧
      calls tr = done.map (Call.execute · ctx true) ++ [Call.execute failed ctx false] ++
        done.reverse.map (Call.compensate · ctx true) := by
  obtain ⟨sh, hs⟩ := forward_spec ctx (buildPlan kind) [] r tr _ _ hrun
  obtain ⟨s, hf, hc⟩ := hs.calls_of_rolledBack
  rw [List.nil_append] at hc
  have hp := (planWorld E).path_calls hw
  rw [hc, path_append] at hp
  obtain ⟨w₂, hp, hundo⟩ := hp
  obtain ⟨w₁, hdone, hfail⟩ := path_append.1 hp
  have h₁ := path_applyAll (fun _ _ _ h => act_execute hok h) (path_map.1 hdone)
  have h₂ := path_applyAll (fun _ _ _ h => act_compensate hok h) (path_map.1 hundo)
  refine ⟨sh.done, s, ⟨⟨sh.rest, ?_⟩, w₂, ?_, h₂⟩, by rw [hs.record]; rfl, hc⟩
  · rw [hs.split, hf]; rfl
  · rw [← h₁]
    exact path_singleton.1 hfail

end Effects

/-- The steps completed before a failure are the first so many of the plan. -/
theorem RolledBackBy.done_eq {E : Env AgentSig Hosts} {kind : DeploymentKind} {ctx : SagaContext}
    {done : List PlanStep} {failed : PlanStep} {w w' : Hosts}
    (h : RolledBackBy E kind ctx done failed w w') :
    ∃ n, n < (buildPlan kind).length ∧ done = (buildPlan kind).take n := by
  have hlen := h.plan.length_le
  rw [List.length_append, List.length_singleton] at hlen
  have hd : done <+: buildPlan kind := (List.prefix_append ..).trans h.plan
  exact ⟨done.length, by omega, List.prefix_iff_eq_take.1 hd⟩

theorem nodup_buildPlan (kind : DeploymentKind) : (buildPlan kind).Nodup := by
  cases kind <;> simp [buildPlan]

/-- No step is planned twice, so the one that failed is none of those completed. -/
theorem RolledBackBy.failed_notMem_done {E : Env AgentSig Hosts} {kind : DeploymentKind}
    {ctx : SagaContext} {done : List PlanStep} {failed : PlanStep} {w w' : Hosts}
    (h : RolledBackBy E kind ctx done failed w w') : failed ∉ done := by
  have hnodup : (done ++ [failed]).Nodup := h.plan.sublist.nodup (nodup_buildPlan kind)
  rw [List.nodup_append] at hnodup
  intro hmem
  exact hnodup.2.2 failed hmem failed (List.mem_singleton_self failed) rfl

/-! ## Clean failures -/

/-- What a rolled back run of `kind` that completed `completed` leaves of its
target host. -/
def afterRollback (kind : DeploymentKind) (completed : List OpsActionKind) (host : Host) : Host :=
  match kind with
  | .provision => host
  | .upgrade targetVersion =>
    if .startValidator ∈ completed then (host.start targetVersion).drain
    else if .drain ∈ completed then host.drain else host
  | .failover _ | .decommission => if .drain ∈ completed then host.drain else host

/-- The hosts agree with the node's record: an active node runs its version,
undrained, with its identity; a provisioning node has no host yet. -/
def Consistent (node : ValidatorNode) (w : Hosts) : Prop :=
  match node.state with
  | .provisioning => w node.host = .absent
  | .active => w node.host = .present (some node.version) false true
  | _ => False

theorem act_failed_clean {s : PlanStep} {ctx : SagaContext} {w w' : Hosts}
    (h : (planWorld cleanAgent).act (.execute s ctx false) w w') : w' = w := by
  rcases act_failed h with ⟨c, e, -, he⟩ | hw
  · exact he
  · exact hw

theorem Host.drain_start_drain (v : ValidatorVersion) (h : Host) :
    ((h.drain).start v).drain = (h.start v).drain := by
  cases h <;> rfl

/-- The calls a rolled back run made, `n` steps having completed: each plan
leaves its target as `afterRollback` says. Only a `Provision` needs to know what
it started from, for its compensation destroys the host. -/
theorem applyAll_rollback {node : ValidatorNode} {kind : DeploymentKind}
    {spareHost : Option HostAddr} {w : Hosts}
    (habs : kind = .provision → w node.host = .absent) {n : Nat}
    (hn : n < (buildPlan kind).length) :
    (w.applyAll (((buildPlan kind).take n).flatMap fun s =>
        (s.executeCall (ctxFor node kind spareHost)).toList)).applyAll
      (((buildPlan kind).take n).reverse.flatMap fun s =>
        (s.compensateCall (ctxFor node kind spareHost)).toList) =
    w.update node.host (afterRollback kind (((buildPlan kind).take n).map SagaStep.action)) := by
  cases kind with
  | provision =>
    have hsame : w = w.update node.host fun _ => .absent :=
      (Hosts.update_eq_self (habs rfl).symm).symm
    have hid : w.update node.host (fun h => h) = w := Hosts.update_eq_self rfl
    have hn : n < 4 := hn
    obtain rfl | rfl | rfl | rfl : n = 0 ∨ n = 1 ∨ n = 2 ∨ n = 3 := by omega
    all_goals simp [buildPlan, PlanStep.executeCall, PlanStep.compensateCall, ctxFor, Hosts.apply]
    · exact hid.symm
    all_goals exact hsame.symm.trans hid.symm
  | upgrade v =>
    have hn : n < 3 := hn
    obtain rfl | rfl | rfl : n = 0 ∨ n = 1 ∨ n = 2 := by omega
    all_goals simp [buildPlan, PlanStep.executeCall, PlanStep.compensateCall, ctxFor, Hosts.apply,
      versionFor, SagaStep.action]
    · exact (Hosts.update_eq_self rfl).symm
    · exact Hosts.update_congr rfl
    · exact Hosts.update_congr (Host.drain_start_drain v _)
  | failover _ | decommission =>
    have hn : n < 2 := hn
    obtain rfl | rfl : n = 0 ∨ n = 1 := by omega
    all_goals simp [buildPlan, PlanStep.executeCall, PlanStep.compensateCall, ctxFor, Hosts.apply,
      SagaStep.action]
    · exact (Hosts.update_eq_self rfl).symm
    · exact Hosts.update_congr rfl

/-- **Rolled back hosts.** On hosts that agree with the node's record (a
`Provision` being of a provisioning node): a run that returns `RolledBack`
leaves every host as it was, except that a drained target stays drained, and
upgraded once its validator was restarted. -/
theorem rolledBack_hosts {node : ValidatorNode} {kind : DeploymentKind}
    {spareHost : Option HostAddr} {id : RunId} {t : DateTime} {r' : DeploymentRun}
    {tr : List (SagaSig PlanStep).Ev} {w w' : Hosts} (hc : Consistent node w)
    (hp : kind = .provision → node.state = .provisioning)
    (hrun : (SagaExecutor.run (buildPlan kind) (ctxFor node kind spareHost)
      (.new id node.id kind t)).Exec tr (.rolledBack, r'))
    (hw : (planWorld cleanAgent).env.Accepts w tr w') :
    w' = w.update node.host (afterRollback kind r'.completedSteps) := by
  have habs : kind = .provision → w node.host = .absent := by
    intro hk
    unfold Consistent at hc
    rw [hp hk] at hc
    exact hc
  obtain ⟨done, failed, hby, hsteps, -⟩ := rolledBackBy_of_run (fun _ _ _ _ h => h) hrun hw
  obtain ⟨n, hn, rfl⟩ := hby.done_eq
  obtain ⟨w₁, hfail, rfl⟩ := hby.effect
  rw [act_failed_clean hfail, hsteps]
  exact applyAll_rollback habs hn

/-- The hosts of `fleetNode .active`: its own, voting, and nothing else. -/
def activeHosts : Hosts := fun h =>
  if h = (fleetNode .active).host then .present (some (fleetNode .active).version) false true
  else .absent

/-- The upgrade of `fleetNode .active`. -/
def fleetUpgrade : Prog (SagaSig PlanStep) (RunStatus × DeploymentRun) :=
  SagaExecutor.run (buildPlan (.upgrade ⟨"2.1.0"⟩))
    (ctxFor (fleetNode .active) (.upgrade ⟨"2.1.0"⟩) none)
    (.new ⟨1⟩ (fleetNode .active).id (.upgrade ⟨"2.1.0"⟩) 0)

/-- It, when the catch-up fails. -/
def failedUpgrade : Outcome (SagaSig PlanStep) Hosts (RunStatus × DeploymentRun) :=
  fleetUpgrade.runWith
    (planHandler (flakyAgent (fun c => c = .awaitCatchup (fleetNode .active).host) false))
    activeHosts

theorem failedUpgrade_exec :
    fleetUpgrade.Exec failedUpgrade.trace (.rolledBack, failedUpgrade.val.2) :=
  exec_runWith _ fleetUpgrade activeHosts

theorem failedUpgrade_accepts :
    (planWorld cleanAgent).env.Accepts activeHosts failedUpgrade.trace failedUpgrade.world :=
  accepts_planHandler (flakyAgent_clean _) fleetUpgrade activeHosts

/-- A rolled back upgrade leaves its validator drained, and on the new version. -/
theorem failed_upgrade_not_restored :
    ¬ ∀ (node : ValidatorNode) (kind : DeploymentKind) (spareHost : Option HostAddr) (id : RunId)
      (t : DateTime) (r' : DeploymentRun) (tr : List (SagaSig PlanStep).Ev) (w w' : Hosts),
      Consistent node w →
      (SagaExecutor.run (buildPlan kind) (ctxFor node kind spareHost)
        (.new id node.id kind t)).Exec tr (.rolledBack, r') →
      (planWorld cleanAgent).env.Accepts w tr w' → w' = w := by
  intro h
  have hw : failedUpgrade.world = activeHosts :=
    h (fleetNode .active) _ _ _ _ _ _ _ _ rfl failedUpgrade_exec failedUpgrade_accepts
  have hleft : failedUpgrade.world (fleetNode .active).host =
    .present (some ⟨"2.1.0"⟩) true true := rfl
  rw [hw] at hleft
  exact absurd hleft (by decide)

theorem rolledBack_hosts_upgrade :
    failedUpgrade.world = activeHosts.update (fleetNode .active).host
      (afterRollback (.upgrade ⟨"2.1.0"⟩) [.drain, .startValidator]) := by
  have hc : Consistent (fleetNode .active) activeHosts := rfl
  have hp : DeploymentKind.upgrade ⟨"2.1.0"⟩ = .provision →
      (fleetNode .active).state = .provisioning := by
    intro hk
    cases hk
  exact rolledBack_hosts hc hp failedUpgrade_exec failedUpgrade_accepts

/-! ## Ambiguous failures -/

theorem act_failed_ambiguous {s : PlanStep} {ctx : SagaContext} {w w' : Hosts}
    (h : (planWorld ambiguousAgent).act (.execute s ctx false) w w') :
    w' = w ∨ w' = w.applyAll (s.executeCall ctx).toList := by
  rcases act_failed h with ⟨c, e, hc, he⟩ | hw
  · rw [hc]
    exact he
  · exact .inl hw

/-- After a call that succeeded, its compensation: the successful calls are the
first of the trace, the compensations the last. -/
theorem compensated_after {ctx : SagaContext} {cs : List (Call PlanStep)} {done : List PlanStep}
    {failed : PlanStep}
    (h : cs = done.map (Call.execute · ctx true) ++ [Call.execute failed ctx false] ++
      done.reverse.map (Call.compensate · ctx true))
    {s : PlanStep} {pre post : List (Call PlanStep)}
    (hs : cs = pre ++ .execute s ctx true :: post) : .compensate s ctx true ∈ post := by
  have hlast : Call.execute s ctx true ∉ done.reverse.map (Call.compensate · ctx true) := by simp
  have hmem : Call.execute s ctx true ∈ cs := by simp [hs]
  have hdone : s ∈ done := by
    rw [h] at hmem
    simpa using hmem
  rw [h, List.append_eq_append_iff] at hs
  rcases hs with ⟨l, -, hl⟩ | ⟨l, -, hl⟩
  · exact absurd (by rw [hl]; simp) hlast
  · cases l with
    | nil => exact absurd (by rw [← List.nil_append (List.map _ _), ← hl]; simp) hlast
    | cons c l =>
      obtain ⟨-, rfl⟩ := List.cons_eq_cons.1 hl
      simpa using .inr hdone

/-- The step that failed is not compensated, and no other failed. -/
theorem failed_not_compensated {ctx : SagaContext} {cs : List (Call PlanStep)}
    {done : List PlanStep} {failed : PlanStep}
    (h : cs = done.map (Call.execute · ctx true) ++ [Call.execute failed ctx false] ++
      done.reverse.map (Call.compensate · ctx true))
    (hno : failed ∉ done) {s : PlanStep} (hs : .execute s ctx false ∈ cs) (b : Bool) :
    .compensate s ctx b ∉ cs := by
  obtain rfl : s = failed := by
    rw [h] at hs
    simpa using hs
  intro hc
  rw [h] at hc
  have hdone : s ∈ done ∧ b = true := by simpa [eq_comm] using hc
  exact hno hdone.1

/-- **Ambiguous rollback.** Any failed call may have taken effect. A run that
returns `RolledBack` compensated, later on and successfully, every step whose
`execute` succeeded, and never tried to compensate the step whose `execute` failed. So
a `Provision` leaves no infrastructure unless it is `apply_infra` that failed, and a
`Failover` moves no identity unless it is `swap_identity` that failed. -/
theorem rolledBack_ambiguous {kind : DeploymentKind} {ctx : SagaContext} {r r' : DeploymentRun}
    {tr : List (SagaSig PlanStep).Ev} {w w' : Hosts}
    (hrun : (SagaExecutor.run (buildPlan kind) ctx r).Exec tr (.rolledBack, r'))
    (hw : (planWorld ambiguousAgent).env.Accepts w tr w') :
    (∀ s pre post, calls tr = pre ++ .execute s ctx true :: post →
      .compensate s ctx true ∈ post) ∧
    (∀ s b, .execute s ctx false ∈ calls tr → .compensate s ctx b ∉ calls tr) ∧
    (kind = .provision → .execute .applyInfraStep ctx false ∉ calls tr →
      w' ctx.host = .absent) ∧
    (∀ spare, kind = .failover spare → .execute .swapIdentityStep ctx false ∉ calls tr →
      ∀ host, (w' host).holdsIdentity = (w host).holdsIdentity) := by
  obtain ⟨done, failed, hby, -, hc⟩ := rolledBackBy_of_run (fun _ _ _ _ h => h) hrun hw
  obtain ⟨n, hn, rfl⟩ := hby.done_eq
  have hplan := hby.plan
  obtain ⟨w₁, hfail, rfl⟩ := hby.effect
  have hmem : .execute failed ctx false ∈ calls tr := by simp [hc]
  refine ⟨fun s pre post => compensated_after hc, ?_, ?_, ?_⟩
  · intro s b hs
    exact failed_not_compensated hc hby.failed_notMem_done hs b
  · rintro rfl hno
    have hn : n < 4 := hn
    obtain rfl | rfl | rfl | rfl : n = 0 ∨ n = 1 ∨ n = 2 ∨ n = 3 := by omega
    · -- the step that failed is the first of the plan
      obtain rfl : failed = .applyInfraStep := by simpa [buildPlan] using hplan
      exact absurd hmem hno
    all_goals simp [buildPlan, PlanStep.compensateCall, Hosts.apply]
  · rintro spare rfl hno host
    have hn : n < 2 := hn
    obtain rfl | rfl : n = 0 ∨ n = 1 := by omega
    · obtain rfl : failed = .drainStep := by simpa [buildPlan] using hplan
      rcases act_failed_ambiguous hfail with rfl | rfl
      · rfl
      · exact Hosts.drain_holdsIdentity w ctx.host host
    · obtain rfl : failed = .swapIdentityStep := by simpa [buildPlan] using hplan
      exact absurd hmem hno

/-- The provisioning of `fleetNode .provisioning`. -/
def fleetProvision : Prog (SagaSig PlanStep) (RunStatus × DeploymentRun) :=
  SagaExecutor.run (buildPlan .provision) (ctxFor (fleetNode .provisioning) .provision none)
    (.new ⟨1⟩ (fleetNode .provisioning).id .provision 0)

/-- It, when `lost` times out after it took effect. -/
def timedOutProvision (lost : AgentCall) :
    Outcome (SagaSig PlanStep) Hosts (RunStatus × DeploymentRun) :=
  fleetProvision.runWith (planHandler (flakyAgent (fun c => c = lost) true)) fun _ => .absent

theorem timedOutProvision_accepts (lost : AgentCall) :
    (planWorld ambiguousAgent).env.Accepts (fun _ => .absent) (timedOutProvision lost).trace
      (timedOutProvision lost).world :=
  accepts_planHandler (flakyAgent_ambiguous _ true) fleetProvision _

theorem timedOutProvision_exec (lost : AgentCall) :
    fleetProvision.Exec (timedOutProvision lost).trace (timedOutProvision lost).val :=
  exec_runWith _ fleetProvision _

/-- Infrastructure applied by a call that timed out survives the rollback. -/
theorem timed_out_infra_left_behind :
    ¬ ∀ (ctx : SagaContext) (r r' : DeploymentRun) (tr : List (SagaSig PlanStep).Ev)
      (w w' : Hosts), w ctx.host = .absent →
      (SagaExecutor.run (buildPlan .provision) ctx r).Exec tr (.rolledBack, r') →
      (planWorld ambiguousAgent).env.Accepts w tr w' → w' ctx.host = .absent := by
  intro h
  have hgone : (timedOutProvision (.applyInfra ⟨"val01.internal"⟩)).world ⟨"val01.internal"⟩ =
      .absent :=
    h _ _ _ _ _ _ rfl (timedOutProvision_exec (.applyInfra ⟨"val01.internal"⟩))
      (timedOutProvision_accepts _)
  have hleft : (timedOutProvision (.applyInfra ⟨"val01.internal"⟩)).world ⟨"val01.internal"⟩ =
      .present none false false := rfl
  rw [hgone] at hleft
  cases hleft

/-- A tuning that timed out is covered: the host is gone. -/
theorem rolledBack_ambiguous_tune :
    (timedOutProvision (.tuneHost ⟨"val01.internal"⟩)).world ⟨"val01.internal"⟩ = .absent := by
  have hno : .execute .applyInfraStep (ctxFor (fleetNode .provisioning) .provision none) false ∉
      calls (timedOutProvision (.tuneHost ⟨"val01.internal"⟩)).trace := by decide
  exact (rolledBack_ambiguous (timedOutProvision_exec (.tuneHost ⟨"val01.internal"⟩))
    (timedOutProvision_accepts _)).2.2.1 rfl hno

end ValidatorForge.Core
