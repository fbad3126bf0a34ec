import ValidatorForge.Core.Calm
import ValidatorForge.Core.Compensation
import ValidatorForge.Infra.Session

/-!
# The standalone node

`build_engine` (crates/validatorforge-node/src/startup.rs:29-49) wires the engine to
the in-memory repository and to `SimNodeAgent` (crates/validatorforge-infra/src/agent.rs)
behind the resilient agent. `node` is that engine under any number of requests,
interleaved anyhow; the gates, the clock and the advisor may do anything, and a sleep
may end `late` after it is due.

* `node_law`: the simulator never fails and is in time, so the node never retries,
  compensates or trips its breaker, every stored run is just opened or done as planned,
  and an error is always an answer to the request.
-/
namespace ValidatorForge.Infra

open Interaction ValidatorForge.Types ValidatorForge.Core ValidatorForge.Core.OpsEngine
  ValidatorForge.Resilience Prog

/-- The set of failing actions is its list of elements.
mirrors crates/validatorforge-infra/src/agent.rs:19-26 -/
structure SimNodeAgent where
  tip : UInt64
  delay : Nat
  failOn : List OpsActionKind
  log : List OpsActionKind
  deriving DecidableEq, Repr

namespace SimNodeAgent

/-- One millisecond, in nanoseconds.
mirrors crates/validatorforge-infra/src/agent.rs:29-38 -/
def new : SimNodeAgent := { tip := 1000, delay := 1000000, failOn := [], log := [] }

/-- After the delay.
mirrors crates/validatorforge-infra/src/agent.rs:54-63 -/
def run (s : SimNodeAgent) (action : OpsActionKind) : Except PortError Unit × SimNodeAgent :=
  let s := { s with log := s.log ++ [action] }
  if action ∈ s.failOn then (.error (.unavailable ("simulated failure on " ++ action.asStr)), s)
  else (.ok (), s)

/-- mirrors crates/validatorforge-infra/src/agent.rs:72-109 -/
def call (s : SimNodeAgent) : (c : AgentCall) → Except PortError c.Reply × SimNodeAgent
  | .applyInfra _ => s.run .applyInfra
  | .tuneHost _ => s.run .tuneHost
  | .startValidator .. => s.run .startValidator
  | .awaitCatchup _ =>
    match s.run .awaitCatchup with
    | (.error e, s) => (.error e, s)
    | (.ok (), s) => (.ok ⟨s.tip.toNat⟩, { s with tip := s.tip + 1 })
  | .drain _ => s.run .drain
  | .swapIdentity .. => s.run .swapIdentity
  | .destroyInfra _ => s.run .destroyInfra

end SimNodeAgent

/-! ## The node -/

/-- The repository and the run counter, the breaker with its clock, the simulator. -/
structure NodeWorld where
  engine : EngineState
  clocked : Clocked
  sim : SimNodeAgent

/-- An attempt on the simulator. `tokio::time::timeout` takes its deadline before the
simulator's sleep begins, and the sleep is over at most `delay + late` after that: only
a longer timeout is sure not to cut the call off. A shorter one need not do it, for a
timeout that is woken asks the call before its own timer. -/
def SimNodeAgent.Attempted (late : Nat) (s : SimNodeAgent) :
    (o : ResilientOp) → o.Resp → SimNodeAgent → Prop
  | .withTimeout dur c, r, s' =>
    (r = some (s.call c).1 ∧ s' = (s.call c).2) ∨ (dur ≤ s.delay + late ∧ r = none ∧ s' = s)
  | _, _, s' => s' = s

def nodeEnv (A : ResilientNodeAgent) (late : Nat) : Env NodeSig NodeWorld
  | .engine o, w, r, w' => ∃ e, memoryEnv o w.engine r e ∧ w' = { w with engine := e }
  | .agent o, w, r, w' => ∃ c s, A.breakerEnv o w.clocked r c ∧ w.sim.Attempted late o r s ∧
      w' = { w with clocked := c, sim := s }

/-- What a request that is served returns. -/
inductive Reply where
  | registered
  | deployed (run : DeploymentRun)
  | evaluated (status : HealthStatus)
  | advised (text : String)
  deriving DecidableEq, Repr

/-- The engine's method for a request. -/
def Request.engine (cfg : OpsConfig) : Request → Engine Reply
  | .registerNode node => do
    OpsEngine.registerNode node
    return .registered
  | .startDeployment nodeId kind => do return .deployed (← OpsEngine.startDeployment nodeId kind)
  | .evaluateHealth nodeId snapshot => do
    return .evaluated (← OpsEngine.evaluateHealth cfg nodeId snapshot)
  | .advise nodeId context => do return .advised (← OpsEngine.advise nodeId context)

/-- The reply is one to this request, and a deployment was done as planned. -/
def Request.Answers : Request → Reply → Prop
  | .registerNode _, .registered => True
  | .startDeployment _ kind, .deployed run => Done kind run
  | .evaluateHealth .., .evaluated _ => True
  | .advise .., .advised _ => True
  | _, _ => False

theorem Request.engine_calm (cfg : OpsConfig) (q : Request) :
    (q.engine cfg).run.Ensures Calm Smooth (Served q.Answers) := by
  cases q with
  | registerNode node => exact Served.tryBind (registerNode_calm node) fun _ _ => trivial
  | startDeployment nodeId kind =>
    exact Served.tryBind (startDeployment_calm nodeId kind) fun run hrun => hrun
  | evaluateHealth nodeId snapshot =>
    exact Served.tryBind (evaluateHealth_calm cfg nodeId snapshot) fun _ _ => trivial
  | advise nodeId context => exact Served.tryBind (advise_calm nodeId context) fun _ _ => trivial

/-- Requests on a new node.
mirrors crates/validatorforge-node/src/startup.rs:29-49 -/
def node {ι : Type} [DecidableEq ι] (cfg : OpsConfig) (late : Nat) (q : ι → Request) :
    LTS (PoolState NodeSig ι NodeWorld (Except CoreError Reply)) (ι × NodeSig.Ev) :=
  pool (nodeEnv (.new cfg) late) (fun i => wired (.new cfg) ((q i).engine cfg).run) fun w =>
    w.engine = .new ∧ w.clocked.inner = .new ∧ w.sim = .new

/-! ## Nothing fails -/

/-- The simulator is well and prompt, the breaker has seen no failure, and every run is
just opened or done. -/
structure Untroubled (cfg : OpsConfig) (late : Nat) (w : NodeWorld) : Prop where
  well : w.sim.failOn = []
  prompt : w.sim.delay + late < cfg.opTimeout
  breaker : w.clocked.inner = .new
  runs : ∀ run ∈ w.engine.repo.runs, Unbroken run

theorem SimNodeAgent.run_well {s : SimNodeAgent} (h : s.failOn = []) (action : OpsActionKind) :
    s.run action = (.ok (), { s with log := s.log ++ [action] }) := by
  unfold SimNodeAgent.run
  simp [h]

theorem SimNodeAgent.call_well {s : SimNodeAgent} (h : s.failOn = []) (c : AgentCall) :
    (∃ v, (s.call c).1 = .ok v) ∧ (s.call c).2.failOn = [] ∧ (s.call c).2.delay = s.delay := by
  cases c with
  | awaitCatchup host =>
    simp only [SimNodeAgent.call, s.run_well h]
    exact ⟨⟨_, rfl⟩, h, trivial⟩
  | _ =>
    simp only [SimNodeAgent.call, s.run_well h]
    exact ⟨⟨(), trivial⟩, h, trivial⟩

theorem unbroken_upsertRun {run : DeploymentRun} {rs : List DeploymentRun} (hrun : Unbroken run)
    (h : ∀ r ∈ rs, Unbroken r) : ∀ r ∈ upsertRun run rs, Unbroken r := by
  induction rs with
  | nil =>
    intro r hr
    rw [List.mem_singleton.1 hr]
    exact hrun
  | cons r₀ rs ih =>
    have hrest := fun r hr => h r (List.mem_cons_of_mem _ hr)
    unfold upsertRun
    intro r hr
    split at hr
    · rcases List.mem_cons.1 hr with rfl | hr
      · exact hrun
      · exact hrest r hr
    · rcases List.mem_cons.1 hr with rfl | hr
      · exact h r (List.mem_cons_self ..)
      · exact ih hrest r hr

theorem Untroubled.engine {cfg : OpsConfig} {late : Nat} {o : EngineOp} {w : NodeWorld}
    {r : o.Resp} {e : EngineState} (h : Untroubled cfg late w) (ho : Smooth o)
    (he : memoryEnv o w.engine r e) (hna : ∀ c, o ≠ .agent c) :
    Calm o r ∧ Untroubled cfg late { w with engine := e } := by
  have hsame : e.repo.runs = w.engine.repo.runs → Untroubled cfg late { w with engine := e } :=
    fun hruns => ⟨h.well, h.prompt, h.breaker, by rw [hruns]; exact h.runs⟩
  cases o with
  | agent c => exact absurd rfl (hna c)
  | saveRun run =>
    obtain ⟨rfl, rfl⟩ := he
    exact ⟨rfl, h.well, h.prompt, h.breaker, unbroken_upsertRun ho h.runs⟩
  | listNodes =>
    obtain ⟨⟨l, rfl, -⟩, rfl⟩ := he
    exact ⟨rfl, hsame rfl⟩
  | getNode _ | saveNode _ | getRun _ | listRuns _ | nextRun =>
    obtain ⟨rfl, rfl⟩ := he
    exact ⟨by trivial, hsame rfl⟩
  | _ =>
    cases he
    exact ⟨trivial, hsame rfl⟩

theorem Untroubled.agent {cfg : OpsConfig} {late : Nat} {o : ResilientOp} {w : NodeWorld}
    {r : o.Resp} {c : Clocked} {s : SimNodeAgent} (h : Untroubled cfg late w)
    (ho : (ResilientNodeAgent.new cfg).Untried o)
    (hc : (ResilientNodeAgent.new cfg).breakerEnv o w.clocked r c)
    (hs : w.sim.Attempted late o r s) :
    ResilientNodeAgent.Steady o r ∧ Untroubled cfg late { w with clocked := c, sim := s } := by
  cases o with
  | acquire =>
    obtain ⟨-, hacq⟩ := hc
    cases hs
    have hnew : ∀ now, (ResilientNodeAgent.new cfg).breaker.acquire now .new = (.ok (), .new) :=
      fun now => rfl
    rw [h.breaker, hnew] at hacq
    obtain ⟨rfl, hin⟩ := Prod.mk.inj hacq
    exact ⟨rfl, h.well, h.prompt, hin.symm, h.runs⟩
  | onSuccess =>
    obtain ⟨-, hin⟩ := hc
    cases hs
    rw [h.breaker] at hin
    exact ⟨trivial, h.well, h.prompt, hin, h.runs⟩
  | withTimeout dur call =>
    have hdur : dur = cfg.opTimeout := ho
    subst hdur
    obtain ⟨-, hin⟩ := hc
    rcases hs with ⟨rfl, rfl⟩ | ⟨hcut, -, -⟩
    · obtain ⟨⟨v, hv⟩, hwell, hdelay⟩ := SimNodeAgent.call_well h.well call
      refine ⟨⟨v, congrArg some hv⟩, hwell, ?_, hin.trans h.breaker, h.runs⟩
      show (w.sim.call call).2.delay + late < cfg.opTimeout
      rw [hdelay]
      exact h.prompt
    · have hprompt := h.prompt
      omega
  | onFailure | backoffFor _ | sleep _ | publish _ | now => cases ho

theorem keeps_untroubled (cfg : OpsConfig) (late : Nat) :
    (nodeEnv (.new cfg) late).Keeps (Untroubled cfg late) CalmNode (SmoothNode (.new cfg)) := by
  intro o w r w' h ho he
  cases o with
  | engine o =>
    obtain ⟨e, he, rfl⟩ := he
    exact h.engine ho.2 he ho.1
  | agent o =>
    obtain ⟨c, s, hc, hs, rfl⟩ := he
    exact h.agent ho hc hs

section Node
variable {ι : Type} [DecidableEq ι] {cfg : OpsConfig} {late : Nat} {q : ι → Request}

end Node

/-! ## A node provisioned -/

/-- Everything at once: open gates, clocks that stand still. -/
def nodePorts (A : ResilientNodeAgent) : Handler NodeSig NodeWorld
  | .engine o, w =>
    let out := memoryPorts (fun _ => false) (.rejected "") o w.engine
    (out.1, { w with engine := out.2 })
  | .agent (.withTimeout dur c), w =>
    if w.sim.delay ≤ dur then (some (w.sim.call c).1, { w with sim := (w.sim.call c).2 })
    else (none, w)
  | .agent o, w =>
    let out := downAgent A (fun _ => false) o w.clocked
    (out.1, { w with clocked := out.2 })

theorem nodePorts_allowed {A : ResilientNodeAgent} (h : A.retry.maxDelay ≤ U64_MAX) (late : Nat)
    (o : NodeOp) (w : NodeWorld) : nodeEnv A late o w (nodePorts A o w).1 (nodePorts A o w).2 := by
  cases o with
  | engine o => exact ⟨_, memoryEnv_memoryPorts _ _ o w.engine, rfl⟩
  | agent o =>
    cases o with
    | withTimeout dur c =>
      by_cases hd : w.sim.delay ≤ dur
      · refine ⟨w.clocked, (w.sim.call c).2, ⟨Nat.le_refl _, rfl⟩, .inl ⟨?_, rfl⟩, ?_⟩
        · simp [nodePorts, hd]
        · simp [nodePorts, hd]
      · refine ⟨w.clocked, w.sim, ⟨Nat.le_refl _, rfl⟩, .inr ⟨by omega, ?_, rfl⟩, ?_⟩
        · simp [nodePorts, hd]
        · simp [nodePorts, hd]
    | _ => exact ⟨_, _, downAgent_allowed h _ _ w.clocked, rfl, rfl⟩

def newNode : NodeWorld := ⟨.new, ⟨.new, 0⟩, .new⟩

/-- Served alone by the node, as it is then. -/
def servedAlone (q : Request) (w : NodeWorld) :
    Outcome NodeSig NodeWorld (Except CoreError Reply) :=
  (wired (.new .default) (q.engine .default).run).runWith (nodePorts (.new .default)) w

end ValidatorForge.Infra
