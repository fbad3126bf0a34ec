import ValidatorForge.Infra.Sim

/-!
# What the standalone node does to its fleet

`Fleet` is what an operator keeps in mind: of each node it knows its lifecycle state and
its version. `Fleet.Serves` says what a request may answer and what it makes of the
fleet; nothing in it speaks of sagas, retries, ports or records.

* `fleet_refined`: requests made one after another of a new standalone node are
  answered as `Fleet.Serves` says, and what the repository holds is what it says.
-/
namespace ValidatorForge.Infra

open Interaction ValidatorForge.Types ValidatorForge.Core ValidatorForge.Core.OpsEngine Prog

/-! ## The fleet -/

abbrev Fleet : Type := NodeId → Option (NodeState × ValidatorVersion)

namespace Fleet

/-- The state a node has to be able to enter for a deployment of this kind. -/
def entry : DeploymentKind → NodeState
  | .provision => .bootstrapping
  | .upgrade _ | .failover _ | .decommission => .draining

/-- The state it is left in. -/
def goal : DeploymentKind → NodeState
  | .provision | .upgrade _ => .active
  | .failover _ | .decommission => .decommissioned

def versionAt : DeploymentKind → ValidatorVersion → ValidatorVersion
  | .upgrade targetVersion, _ => targetVersion
  | _, version => version

def put (F : Fleet) (id : NodeId) (state : NodeState) (version : ValidatorVersion) : Fleet :=
  Function.update F id (some (state, version))

/-- The spare of a failover is known. -/
def SpareKnown (F : Fleet) (kind : DeploymentKind) : Prop :=
  ∀ spare, kind = .failover spare → (F spare).isSome = true

/-- A deployment: refused for one of four reasons, the fleet as before, or done. -/
inductive Deploys (F : Fleet) (id : NodeId) (kind : DeploymentKind) :
    Except CoreError Reply → Fleet → Prop
  | throttled : Deploys F id kind (.error .throttled) F
  | unknown (h : F id = none) : Deploys F id kind (.error (.notFound id.raw)) F
  | spareUnknown {spare : NodeId} (hk : kind = .failover spare) (h : (F id).isSome = true)
      (hs : F spare = none) : Deploys F id kind (.error (.notFound spare.raw)) F
  | illegal {state : NodeState} {version : ValidatorVersion} {from' to' : String}
      (h : F id = some (state, version)) (hs : F.SpareKnown kind)
      (hno : state.canTransitionTo (entry kind) = false) :
      Deploys F id kind (.error (.domain (.illegalTransition from' to'))) F
  | done {state : NodeState} {version : ValidatorVersion} {run : DeploymentRun}
      (h : F id = some (state, version)) (hs : F.SpareKnown kind)
      (hcan : state.canTransitionTo (entry kind) = true) (hrun : Done kind run)
      (htarget : run.target = id) :
      Deploys F id kind (.ok (.deployed run)) (F.put id (goal kind) (versionAt kind version))

/-- A question about a node that leaves the fleet alone. -/
structure Asks (F : Fleet) (id : NodeId) (answer : Reply → Prop) (r : Except CoreError Reply)
    (F' : Fleet) : Prop where
  same : F' = F
  unknown : F id = none → r = .error (.notFound id.raw)
  known : (F id).isSome = true → ∃ a, r = .ok a ∧ answer a

def Serves (F : Fleet) : Request → Except CoreError Reply → Fleet → Prop
  | .registerNode node, r, F' => r = .ok .registered ∧ F' = F.put node.id node.state node.version
  | .startDeployment id kind, r, F' => F.Deploys id kind r F'
  | .evaluateHealth id _, r, F' => F.Asks id (fun a => ∃ status, a = .evaluated status) r F'
  | .advise id _, r, F' => F.Asks id (fun a => ∃ text, a = .advised text) r F'

/-- Requests served one after another, of a fleet that begins empty. -/
def service : LTS Fleet (Request × Except CoreError Reply) where
  init F := F = fun _ => none
  step F l F' := F.Serves l.1 l.2 F'

end Fleet

/-! ## What is stored, as a fleet -/

namespace EngineState

def fleet (w : EngineState) : Fleet := fun id =>
  (w.getNode id).map fun n => (n.state, n.version)

theorem fleet_eq_none {w : EngineState} {id : NodeId} : w.fleet id = none ↔ w.getNode id = none :=
  Option.map_eq_none_iff

theorem fleet_of_getNode {w : EngineState} {id : NodeId} {n : ValidatorNode}
    (h : w.getNode id = some n) : w.fleet id = some (n.state, n.version) := by
  unfold fleet
  rw [h]
  rfl

theorem fleet_isSome {w : EngineState} {id : NodeId} {n : ValidatorNode}
    (h : w.getNode id = some n) : (w.fleet id).isSome = true := by
  rw [fleet_of_getNode h]
  rfl

end EngineState

/-- A trace that saves no node leaves the fleet alone. -/
theorem fleet_unsaved {w w' : EngineState} {tr : List EngineSig.Ev}
    (h : memoryEnv.Accepts w tr w') (hs : savedNodes tr = []) : w'.fleet = w.fleet := by
  funext id
  have hg := accepts_getNode h id
  unfold savedFor at hg
  rw [hs] at hg
  unfold EngineState.fleet
  rw [hg]
  rfl

/-- One that saves one node changes the fleet there. -/
theorem fleet_saved {w w' : EngineState} {tr : List EngineSig.Ev} {m : ValidatorNode}
    {a : Except PortError Unit} (h : memoryEnv.Accepts w tr w') (hs : savedNodes tr = [(m, a)]) :
    w'.fleet = w.fleet.put m.id m.state m.version := by
  funext id
  have hg := accepts_getNode h id
  rw [savedFor_of_savedNodes hs] at hg
  unfold EngineState.fleet Fleet.put
  by_cases hid : m.id = id
  · subst hid
    rw [hg, if_pos rfl, Function.update_self]
    rfl
  · rw [hg, if_neg hid, Function.update_of_ne (Ne.symm hid)]
    rfl

/-! ## One request on calm ports -/

theorem legalPath_successPath (kind : DeploymentKind) (s : NodeState) :
    legalPath s (successPath kind) = s.canTransitionTo (Fleet.entry kind) := by
  cases kind <;> cases s <;> rfl

theorem successPath_getLastD (kind : DeploymentKind) (s : NodeState) :
    (successPath kind).getLastD s = Fleet.goal kind := by
  cases kind <;> rfl

theorem versionFor_eq_versionAt (node : ValidatorNode) (kind : DeploymentKind) :
    versionFor node kind = Fleet.versionAt kind node.version := by
  cases kind <;> rfl

/-- What was loaded is in the fleet. -/
theorem spareKnown_of_loaded {nodeId : NodeId} {kind : DeploymentKind} {node : ValidatorNode}
    {spareHost : Option HostAddr} {lt rest : List EngineSig.Ev} {w w' : EngineState}
    (hl : Loaded nodeId kind node spareHost lt) (hw : memoryEnv.Accepts w (lt ++ rest) w') :
    w.fleet.SpareKnown kind := by
  intro spare hk
  cases hl with
  | mk hst =>
    cases hst with
    | other _ hno => exact absurd hk (hno spare)
    | failover _ sp =>
      cases hk
      obtain ⟨w₁, rfl, w₂, rfl, w₃, ⟨-, rfl⟩, w₄, ⟨hr, -⟩, -⟩ := hw
      exact EngineState.fleet_isSome (Except.ok.inj hr).symm

theorem agentCalls_calm {tr : List EngineSig.Ev} (h : ∀ e ∈ tr, Calm e.1 e.2) :
    ∀ e ∈ agentCalls tr, e.2.isOk = true := by
  intro e he
  obtain ⟨⟨o, r⟩, hmem, heq⟩ := List.mem_filterMap.1 he
  cases o with
  | agent c =>
    cases heq
    exact h _ hmem
  | _ => cases heq

/-- A refused call, of the fleet it was refused on. -/
theorem refused_deploys {nodeId : NodeId} {kind : DeploymentKind} {tr : List EngineSig.Ev}
    {e : CoreError} {w w' : EngineState} (h : Refused nodeId kind tr e)
    (hcalm : ∀ e ∈ tr, Calm e.1 e.2) (hw : memoryEnv.Accepts w tr w') :
    w.fleet.Deploys nodeId kind (.error e) w'.fleet := by
  rw [fleet_unsaved hw h.untouched.1.nodes]
  cases h with
  | limited | full => exact .throttled
  | unknown =>
    obtain ⟨w₁, rfl, w₂, rfl, w₃, ⟨hr, -⟩, -⟩ := hw
    exact .unknown (EngineState.fleet_eq_none.2 (Except.ok.inj hr).symm)
  | spareUnknown spare hk node =>
    obtain ⟨w₁, rfl, w₂, rfl, w₃, ⟨hn, rfl⟩, w₄, ⟨hr, -⟩, -⟩ := hw
    exact .spareUnknown hk (EngineState.fleet_isSome (Except.ok.inj hn).symm)
      (EngineState.fleet_eq_none.2 (Except.ok.inj hr).symm)
  | unread e =>
    have hbad := hcalm ⟨.getNode nodeId, .error e⟩ (by simp)
    cases hbad
  | spareUnread spare hk node e =>
    have hbad := hcalm ⟨.getNode spare, .error e⟩ (by simp)
    cases hbad

/-- A deployment on calm ports. -/
theorem deployment_serves {nodeId : NodeId} {kind : DeploymentKind} {tr : List EngineSig.Ev}
    {r : Except CoreError DeploymentRun} {w w' : EngineState}
    (hx : (startDeployment nodeId kind).run.Exec tr r) (hcalm : ∀ e ∈ tr, Calm e.1 e.2)
    (hw : memoryEnv.Accepts w tr w') :
    w.fleet.Deploys nodeId kind (r.map .deployed) w'.fleet := by
  have hserved := ((startDeployment_calm nodeId kind).exec hx hcalm).2
  rcases startDeployment_cases hx with ⟨e, hr, rfl⟩ | ⟨node, spareHost, lt, bt, hl, rfl, hd⟩
  · exact refused_deploys hr hcalm hw
  rw [List.append_assoc] at hw hcalm
  have hknown := spareKnown_of_loaded hl hw
  have hnode := getNode_of_loaded hl hw
  have hid : node.id = nodeId := InMemoryNodeRepository.id_of_getNode hnode
  have hview := EngineState.fleet_of_getNode hnode
  have hlt := hl.untouched.1.nodes
  rcases deploy_cases hd with ⟨n, t₀, e, rfl, rfl⟩ | ⟨n, t₀, t₁, st, et, status, run, sh, ut, rfl,
    hsaga, hend⟩
  · exact (hserved : False).elim
  obtain rfl : status = .succeeded := by
    cases hl with
    | mk hst =>
      refine (hsaga.succeeded_iff hst).2 (agentCalls_calm fun e he => hcalm e ?_)
      simp [he]
  have hst := hsaga.trace.nodes
  cases hend with
  | stuck hs =>
    obtain ⟨from', to', rfl⟩ := hs.error
    have hsame := fleet_unsaved hw
      (by simp [hlt, hst, opening, savedNodeOf, hs.untouched.nodes])
    rw [hsame]
    refine .illegal hview hknown ?_
    rw [← legalPath_successPath]
    exact hs.illegal
  | unsaved | unclosed => exact (hserved : False).elim
  | @closed ft m hs t t' =>
    have hput := fleet_saved (m := m) (a := .ok ()) hw
      (by simp [hlt, hst, opening, savedNodeOf, hs.untouched.nodes])
    have hstate : m.state = Fleet.goal kind := by
      rw [hs.state]
      exact successPath_getLastD kind node.state
    have hversion : m.version = Fleet.versionAt kind node.version := by
      rw [hs.version, if_pos rfl, versionFor_eq_versionAt]
    rw [hput, hs.record.id, hid, hstate, hversion]
    refine .done hview hknown ?_ hserved ?_
    · rw [← legalPath_successPath]
      exact hs.legal
    · rw [hsaga.spec.record]
      exact hid

/-- A question that begins with finding its node. -/
theorem asks_of_findNode {α : Type} {nodeId : NodeId} {f : ValidatorNode → Engine α}
    {tr : List EngineSig.Ev} {r : Except CoreError α} {w w' : EngineState}
    {answer : Reply → Prop} {g : α → Reply} (hx : (findNode nodeId >>= f).run.Exec tr r)
    (hcalm : ∀ e ∈ tr, Calm e.1 e.2) (hw : memoryEnv.Accepts w tr w') (hs : savedNodes tr = [])
    (hf : ∀ n tr r, (f n).run.Exec tr r → ∃ a, r = .ok a ∧ answer (g a)) :
    w.fleet.Asks nodeId answer (r.map g) w'.fleet := by
  have hsame := fleet_unsaved hw hs
  rw [exec_findNode_bind] at hx
  rcases hx with ⟨e, rfl, rfl⟩ | ⟨rfl, rfl⟩ | ⟨n, t₁, rfl, hx⟩
  · have hbad := hcalm ⟨.getNode nodeId, .error e⟩ (by simp)
    cases hbad
  · obtain ⟨w₁, ⟨hr, -⟩, -⟩ := hw
    have hnone := EngineState.fleet_eq_none.2 (Except.ok.inj hr).symm
    refine ⟨hsame, fun _ => rfl, fun hsome => ?_⟩
    rw [hnone] at hsome
    cases hsome
  · obtain ⟨w₁, ⟨hr, -⟩, -⟩ := hw
    have hsome := EngineState.fleet_isSome (Except.ok.inj hr).symm
    refine ⟨hsame, fun hnone => ?_, fun _ => ?_⟩
    · rw [hnone] at hsome
      cases hsome
    · obtain ⟨a, rfl, ha⟩ := hf n t₁ r hx
      exact ⟨g a, rfl, ha⟩

/-- A method whose value is put in a reply. -/
theorem exec_map {α : Type} {x : Engine α} {g : α → Reply} {tr : List EngineSig.Ev}
    {r : Except CoreError Reply} (h : (x >>= fun a => return g a).run.Exec tr r) :
    ∃ a, x.run.Exec tr a ∧ r = a.map g := by
  rw [exec_tryBind] at h
  rcases h with ⟨e, h, rfl⟩ | ⟨t₁, a, t₂, rfl, h, rfl, rfl⟩
  · exact ⟨.error e, h, rfl⟩
  · exact ⟨.ok a, by simpa using h, rfl⟩

/-- **One request.** -/
theorem request_serves {cfg : OpsConfig} {q : Request} {tr : List EngineSig.Ev}
    {r : Except CoreError Reply} {w w' : EngineState} (hx : (q.engine cfg).run.Exec tr r)
    (hcalm : ∀ e ∈ tr, Calm e.1 e.2) (hw : memoryEnv.Accepts w tr w') :
    w.fleet.Serves q r w'.fleet := by
  cases q with
  | registerNode node =>
    obtain ⟨a, hb, rfl⟩ := exec_map hx
    obtain ⟨ans, rfl, rfl⟩ := (exec_saveNodeOp ..).1 hb
    have hput := fleet_saved (m := node) hw rfl
    obtain ⟨w₁, ⟨rfl, -⟩, -⟩ := hw
    exact ⟨rfl, hput⟩
  | startDeployment nodeId kind =>
    obtain ⟨a, hb, rfl⟩ := exec_map hx
    exact deployment_serves hb hcalm hw
  | evaluateHealth nodeId snapshot =>
    obtain ⟨a, hb, rfl⟩ := exec_map hx
    refine asks_of_findNode hb hcalm hw (evaluateHealth_spec hb).1 fun n tr r h => ?_
    rw [exec_ask_bind] at h
    obtain ⟨t, t₁, -, h⟩ := h
    rw [exec_ask_bind] at h
    obtain ⟨t', t₂, -, h⟩ := h
    rw [exec_ask_bind] at h
    obtain ⟨_, t₃, -, -, rfl⟩ := h
    exact ⟨_, rfl, _, rfl⟩
  | advise nodeId context =>
    obtain ⟨a, hb, rfl⟩ := exec_map hx
    refine asks_of_findNode hb hcalm hw (advise_spec hb).1 fun n tr r h => ?_
    obtain ⟨text, -, rfl⟩ := (exec_ask ..).1 h
    exact ⟨text, rfl, text, rfl⟩

/-! ## The whole node -/

/-- Requests made one after another of a new node. -/
def nodeSession (cfg : OpsConfig) (late : Nat) : LTS NodeWorld (Request × Except CoreError Reply) where
  init w := w.engine = .new ∧ w.clocked.inner = .new ∧ w.sim = .new
  step w l w' := ∃ tr, (wired (.new cfg) (l.1.engine cfg).run).Exec tr l.2 ∧
    (nodeEnv (.new cfg) late).Accepts w tr w'

theorem engine_of_accepts {A : ResilientNodeAgent} {late : Nat} {w w' : NodeWorld}
    {tr : List NodeSig.Ev} (h : (nodeEnv A late).Accepts w tr w') (htr : ∀ e ∈ tr, ∃ a, e.1 = NodeOp.agent a) :
    w'.engine = w.engine := by
  induction tr generalizing w with
  | nil =>
    cases h
    rfl
  | cons e tr ih =>
    obtain ⟨w₁, he, h⟩ := h
    rw [ih h fun d hd => htr d (List.mem_cons_of_mem _ hd)]
    obtain ⟨o, r⟩ := e
    obtain ⟨a, rfl⟩ := htr _ List.mem_cons_self
    obtain ⟨c, s, -, -, rfl⟩ := he
    rfl

/-- What one of the engine's operations is below, the engine's own environment allows. -/
theorem wirePort_refined (cfg : OpsConfig) (late : Nat) (o : EngineOp) (w : NodeWorld)
    (tr : List NodeSig.Ev) (r : o.Resp) (w' : NodeWorld) (ho : Smooth o)
    (hw : Untroubled cfg late w) (hx : (wirePort (.new cfg) o).Exec tr r)
    (hacc : (nodeEnv (.new cfg) late).Accepts w tr w') :
    Calm o r ∧ memoryEnv o w.engine r w'.engine ∧ Untroubled cfg late w' := by
  have hens := wirePort_calm (.new cfg) ho
  obtain ⟨hans, hw'⟩ := (keeps_untroubled cfg late).accepts hens ((exec_iff_after ..).1 hx) hacc hw
  refine ⟨(hens.exec hx hans).2, ?_, hw'⟩
  cases o with
  | agent c => exact engine_of_accepts hacc ((wirePort_agent _ c).exec hx)
  | _ =>
    obtain ⟨r', t, rfl, rfl, rfl⟩ := hx
    obtain ⟨w₁, ⟨e, he, rfl⟩, rfl⟩ := hacc
    exact he

theorem nodeSession_simulates {cfg : OpsConfig} {late : Nat}
    (htime : 1000000 + late < cfg.opTimeout) :
    (nodeSession cfg late).Simulates Fleet.service (fun w => w.engine.fleet)
      (Untroubled cfg late) where
  init w hw := by
    obtain ⟨he, hb, hsim⟩ := hw
    refine ⟨?_, by rw [hsim]; rfl, by rw [hsim]; exact htime, hb, ?_⟩
    · show w.engine.fleet = _
      rw [he]
      rfl
    · rw [he]
      intro run hrun
      cases hrun
  step w l w' hw hs := by
    obtain ⟨tr, hx, hacc⟩ := hs
    obtain ⟨up, hup, hmem, hcalm, hw'⟩ := ((l.1.engine_calm cfg).refined
      (wirePort_refined cfg late) hx hacc hw)
    exact ⟨request_serves hup hcalm hmem, hw'⟩

/-- **Refinement.** Whatever requests are made one after another of a new standalone
node, and however long things take (but the simulator's sleep, which is in time): its
answers are those of a fleet that is served the same requests, and that fleet is the one
stored. -/
theorem fleet_refined {cfg : OpsConfig} {late : Nat} (htime : 1000000 + late < cfg.opTimeout)
    {w₀ w : NodeWorld} {ls : List (Request × Except CoreError Reply)}
    (h₀ : (nodeSession cfg late).init w₀) (h : (nodeSession cfg late).Run w₀ ls w) :
    Fleet.service.Run (fun _ => none) ls w.engine.fleet := by
  have hsim := nodeSession_simulates htime
  obtain ⟨hstart, hw₀⟩ := hsim.init w₀ h₀
  have hrun := (hsim.run hw₀ h).1
  rw [show w₀.engine.fleet = fun _ => none from hstart] at hrun
  exact hrun

/-! ## Three requests -/

theorem step_servedAlone (late : Nat) (q : Request) (w : NodeWorld) :
    (nodeSession .default late).step w (q, (servedAlone q w).val) (servedAlone q w).world :=
  ⟨_, exec_runWith .., Env.accepts_runWith (nodePorts_allowed (by decide) late) ..⟩

/-- Register a node, provision it, fail over to a spare that is not there. -/
theorem fleet_refined_provision :
    let s₁ := servedAlone (.registerNode (fleetNode .provisioning)) newNode
    let s₂ := servedAlone (.startDeployment ⟨"eu-val-01"⟩ .provision) s₁.world
    let s₃ := servedAlone (.startDeployment ⟨"eu-val-01"⟩ (.failover ⟨"eu-val-02"⟩)) s₂.world
    Fleet.service.Run (fun _ => none)
      [(.registerNode (fleetNode .provisioning), s₁.val),
        (.startDeployment ⟨"eu-val-01"⟩ .provision, s₂.val),
        (.startDeployment ⟨"eu-val-01"⟩ (.failover ⟨"eu-val-02"⟩), s₃.val)]
      s₃.world.engine.fleet ∧
    s₃.val = .error (.notFound "eu-val-02") ∧
    s₃.world.engine.fleet ⟨"eu-val-01"⟩ = some (.active, ⟨"2.0.14"⟩) := by
  intro s₁ s₂ s₃
  refine ⟨?_, by decide +kernel, by decide +kernel⟩
  have hstep := step_servedAlone 1000000000
  exact fleet_refined (by decide) ⟨rfl, rfl, rfl⟩
    (.cons (hstep ..) (.cons (hstep ..) (.cons (hstep ..) (.nil _))))

end ValidatorForge.Infra
