import ValidatorForge.Api.Mutation
import ValidatorForge.Api.Query
import ValidatorForge.Core.Sound
import ValidatorForge.Infra.Equivalence
import ValidatorForge.Infra.Repo
import ValidatorForge.Lib.Pool

/-!
# The API as a whole

All requests of the schema but the subscription. What a request is checked for,
before anything else, is its list of `checks`; the first that fails is the answer
(`refusal`). `Meets` follows a resolver along its checks and into the engine.

* `api_safe`: requests of any callers, interleaved anyhow over one engine, leave
  only valid records behind, and are answered as their checks say.
* `query_reads`: what a query answers, of what is stored.
* `registered_then_read`: a node registered is the node read.
-/
namespace ValidatorForge.Api

open Interaction ValidatorForge.Types ValidatorForge.Core ValidatorForge.Core.OpsEngine
open ValidatorForge.Infra Prog

/-- `now` is what `Utc::now()` returns to the request. -/
inductive ApiRequest where
  | health
  | node (id : String)
  | nodes
  | run (id : String)
  | runs (limit : Int32)
  | advise (nodeId context : String)
  | registerNode (now : DateTime) (input : RegisterNodeInput)
  | startDeployment (input : StartDeploymentInput)

inductive ApiReply where
  | health (object : HealthObject)
  | node (object : Option NodeObject)
  | nodes (objects : List NodeObject)
  | run (object : Option RunObject)
  | runs (objects : List RunObject)
  | advice (text : String)
  | registered (object : NodeObject)
  | deployed (object : RunObject)
  deriving DecidableEq, Repr

def resolve : ApiRequest → Resolver ApiReply
  | .health => do return .health (← QueryRoot.health)
  | .node id => do return .node (← QueryRoot.node id)
  | .nodes => do return .nodes (← QueryRoot.nodes)
  | .run id => do return .run (← QueryRoot.run id)
  | .runs limit => do return .runs (← QueryRoot.runs limit)
  | .advise nodeId context => do return .advice (← QueryRoot.advise nodeId context)
  | .registerNode now input => do return .registered (← MutationRoot.registerNode now input)
  | .startDeployment input => do return .deployed (← MutationRoot.startDeployment input)

/-! ## The checks of a request -/

/-- A newtype's own check, an argument that has to be there, a number. -/
inductive Check where
  | str (field : String) (max : Option Nat) (raw : String)
  | present (msg : String) (value : Option String)
  | number (raw : String)

/-- The message of a check that fails. -/
def Check.error : Check → Option String
  | .str field max raw =>
    match checkStr field max raw with
    | .ok _ => none
    | .error e => some e.fmt
  | .present msg value => if value.isSome then none else some msg
  | .number raw => if (parseU128 raw).isSome then none else some "invalid run id"

/-- A node id, as the four constructors check their strings. -/
def Check.nodeId (raw : String) : Check := .str "node_id" (some MAX_NODE_ID_LEN) raw

/-- An argument that a kind of deployment needs, and its own check. -/
def needs (msg : String) (value : Option String) (check : String → Check) : List Check :=
  .present msg value :: value.toList.map check

def StartDeploymentInput.checks (input : StartDeploymentInput) : List Check :=
  .nodeId input.nodeId ::
    match input.kind with
    | .provision | .decommission => []
    | .upgrade =>
      needs "targetVersion required for UPGRADE" input.targetVersion (.str "version" none)
    | .failover => needs "spare required for FAILOVER" input.spare .nodeId

/-- In the order in which they are made. -/
def ApiRequest.checks : ApiRequest → List Check
  | .health | .nodes | .runs _ => []
  | .node id | .advise id _ => [.nodeId id]
  | .run id => [.number id]
  | .registerNode _ input =>
    [.nodeId input.id, .str "cluster_name" (some MAX_CLUSTER_NAME_LEN) input.clusterName,
      .str "host" (some MAX_HOST_ADDR_LEN) input.host, .str "version" none input.version]
  | .startDeployment input => input.checks

/-- The first check that fails. -/
def ApiRequest.refusal (q : ApiRequest) : Option String := q.checks.findSome? Check.error

/-! ## What is answered -/

/-- The strings that a registration is asked for are ones it takes. (`cluster` and `role`
are shown under other names than the enumerations of the schema have.) -/
structure NodeObject.WellFormed (o : NodeObject) : Prop where
  id : Accepts (some MAX_NODE_ID_LEN) o.id
  clusterName : Accepts (some MAX_CLUSTER_NAME_LEN) o.clusterName
  host : Accepts (some MAX_HOST_ADDR_LEN) o.host
  version : Accepts none o.version

/-- Its target is the id of a node. Its own id is not looked at: it is shown in another
base than the one `run` reads. -/
def RunObject.WellFormed (o : RunObject) : Prop := Accepts (some MAX_NODE_ID_LEN) o.target

def ApiReply.WellFormed : ApiReply → Prop
  | .health object => object.nodes ≤ QueryRoot.I32_MAX
  | .node object => ∀ o, object = some o → o.WellFormed
  | .nodes objects => ∀ o ∈ objects, o.WellFormed
  | .run object => ∀ o, object = some o → o.WellFormed
  | .runs objects => ∀ o ∈ objects, o.WellFormed
  | .advice _ => True
  | .registered object => object.WellFormed
  | .deployed object => object.WellFormed

/-- What a request makes of the engine's answer. -/
def answer {α : Type} (f : α → ApiReply) (r : Except CoreError α) : Except GqlError ApiReply :=
  (r.map f).mapError toErr

theorem wellFormed_ofNode {n : ValidatorNode} (h : n.Valid) : (NodeObject.ofNode n).WellFormed where
  id := (new_eq_ok NodeId.mk).1 h.id
  clusterName := (new_eq_ok ClusterName.mk).1 h.clusterName
  host := (new_eq_ok HostAddr.mk).1 h.host
  version := (new_eq_ok ValidatorVersion.mk).1 h.version

theorem wellFormed_ofRun {r : DeploymentRun} (h : r.Valid) : (RunObject.ofRun r).WellFormed :=
  (new_eq_ok NodeId.mk).1 h.target

/-! ## Resolvers and their checks -/

/-- The first of the checks that fails is all that `x` does; if none does, `x` ensures `P`. -/
def Meets {α : Type} (G : Answers EngineSig) (R : EngineOp → Prop) (cs : List Check)
    (x : Resolver α) (P : Except GqlError α → Prop) : Prop :=
  (∀ msg, cs.findSome? Check.error = some msg → x = throw { message := msg, code := none }) ∧
  (cs.findSome? Check.error = none → x.run.Ensures G R P)

section Meets
variable {α β : Type} {G : Answers EngineSig} {R : EngineOp → Prop} {cs : List Check}
  {P : Except GqlError α → Prop} {P' : Except GqlError β → Prop}

theorem meets_nil {x : Resolver α} : Meets G R [] x P ↔ x.run.Ensures G R P := by
  unfold Meets
  simp

/-- A check that fails ends the resolver. -/
theorem meets_error {c : Check} {msg : String} (h : c.error = some msg) :
    Meets G R (c :: cs) (throw { message := msg, code := none }) P := by
  refine ⟨?_, ?_⟩
  · intro msg' hm
    rw [List.findSome?_cons, h] at hm
    cases hm
    rfl
  · intro hm
    rw [List.findSome?_cons, h] at hm
    cases hm

theorem meets_passed {c : Check} (h : c.error = none) {x : Resolver α} (hx : Meets G R cs x P) :
    Meets G R (c :: cs) x P := by
  unfold Meets
  rw [List.findSome?_cons, h]
  exact hx

theorem checked_of_passed (mk : String → α) {field : String} {max : Option Nat} {raw : String}
    (h : Check.error (.str field max raw) = none) :
    checked (mk <$> checkStr field max raw) = pure (mk raw) := by
  cases hc : checkStr field max raw with
  | error e => simp [Check.error, hc] at h
  | ok s =>
    obtain ⟨rfl, -⟩ := checkStr_ok hc
    rfl

/-- A constructor, and `?`. -/
theorem meets_checked (mk : String → α) {field : String} {max : Option Nat} {raw : String}
    {k : α → Resolver β} (hk : Accepts max raw → Meets G R cs (k (mk raw)) P') :
    Meets G R (.str field max raw :: cs) (checked (mk <$> checkStr field max raw) >>= k) P' := by
  cases hc : checkStr field max raw with
  | error e =>
    have herr : Check.error (.str field max raw) = some e.fmt := by
      simp only [Check.error, hc]
    exact meets_error herr
  | ok s =>
    obtain ⟨rfl, hacc⟩ := checkStr_ok hc
    have hpass : Check.error (.str field max s) = none := by
      simp only [Check.error, hc]
    exact meets_passed hpass (hk hacc)

/-- A method of the engine, `?`, and what is made of the value. -/
theorem meets_answer {x : Engine α} {f : α → ApiReply} {P : Except GqlError ApiReply → Prop}
    (hx : x.run.Ensures G R fun r => P (answer f r)) :
    Meets G R [] (served x >>= fun a => pure (f a)) P := by
  rw [meets_nil]
  have hserved : (served x).run.Ensures G R fun r => ∃ c, P (answer f c) ∧ r = c.mapError toErr :=
    hx.bind fun r hr => ⟨r, hr, rfl⟩
  refine hserved.tryBind (fun e he => ?_) fun a ha => ?_
  · obtain ⟨c, hc, he⟩ := he
    cases c with
    | error c =>
      cases he
      exact hc
    | ok a => cases he
  · obtain ⟨c, hc, he⟩ := ha
    cases c with
    | error c => cases he
    | ok b =>
      cases he
      exact hc

end Meets

/-! ## Every request -/

/-- The kind of deployment asked for, once its argument is there. -/
def StartDeploymentInput.kind? (input : StartDeploymentInput) : Option DeploymentKind :=
  match input.kind with
  | .provision => some .provision
  | .decommission => some .decommission
  | .upgrade => input.targetVersion.map fun v => .upgrade ⟨v⟩
  | .failover => input.spare.map fun s => .failover ⟨s⟩

/-- The node asked to be registered. -/
def RegisterNodeInput.node (now : DateTime) (input : RegisterNodeInput) : ValidatorNode :=
  ValidatorNode.new ⟨input.id⟩ ⟨input.clusterName⟩ input.cluster ⟨input.host⟩ input.role
    ⟨input.version⟩ now

/-- The method of the engine behind the request, given valid arguments, ensures `P` of
what the request makes of its answer. -/
def ApiRequest.Asks (G : Answers EngineSig) (R : EngineOp → Prop)
    (P : Except GqlError ApiReply → Prop) : ApiRequest → Prop
  | .health => listNodes.run.Ensures G R fun r => P (answer (fun l =>
      .health { status := "ok", nodes := if l.length ≤ QueryRoot.I32_MAX then l.length
        else QueryRoot.I32_MAX }) r)
  | .node id => (getNode ⟨id⟩).run.Ensures G R fun r =>
      P (answer (fun n => .node (n.map NodeObject.ofNode)) r)
  | .nodes => listNodes.run.Ensures G R fun r =>
      P (answer (fun l => .nodes (l.map NodeObject.ofNode)) r)
  | .run id => ∀ v, parseU128 id = some v → (getRun ⟨v⟩).run.Ensures G R fun r =>
      P (answer (fun n => .run (n.map RunObject.ofRun)) r)
  | .runs limit => (listRuns (max limit.toInt 0).toNat).run.Ensures G R fun r =>
      P (answer (fun l => .runs (l.map RunObject.ofRun)) r)
  | .advise nodeId context => (OpsEngine.advise ⟨nodeId⟩ context).run.Ensures G R fun r =>
      P (answer .advice r)
  | .registerNode now input => (input.node now).Valid →
      (OpsEngine.registerNode (input.node now)).run.Ensures G R fun r =>
        P (answer (fun _ => .registered (NodeObject.ofNode (input.node now))) r)
  | .startDeployment input => ∀ kind, input.kind? = some kind → kind.Valid →
      (OpsEngine.startDeployment ⟨input.nodeId⟩ kind).run.Ensures G R fun r =>
        P (answer (fun run => .deployed (RunObject.ofRun run)) r)

section Requests
variable {G : Answers EngineSig} {R : EngineOp → Prop} {P : Except GqlError ApiReply → Prop}

theorem run_meets {id : String} (h : (ApiRequest.run id).Asks G R P) :
    Meets G R (ApiRequest.run id).checks (resolve (.run id)) P := by
  cases hid : parseU128 id with
  | none =>
    have hres : resolve (.run id) = throw { message := "invalid run id", code := none } := by
      simp only [resolve, QueryRoot.run, hid]
      rfl
    rw [hres]
    exact meets_error (by simp [Check.error, hid])
  | some v =>
    refine meets_passed (by simp [Check.error, hid]) ?_
    simp only [resolve, QueryRoot.run, hid, bind_assoc, pure_bind]
    exact meets_answer (h v hid)

theorem registerNode_meets {now : DateTime} {input : RegisterNodeInput}
    (h : (ApiRequest.registerNode now input).Asks G R P) :
    Meets G R (ApiRequest.registerNode now input).checks (resolve (.registerNode now input)) P := by
  unfold resolve MutationRoot.registerNode
  simp only [bind_assoc, pure_bind]
  refine meets_checked NodeId.mk fun hid => meets_checked ClusterName.mk fun hname => ?_
  refine meets_checked HostAddr.mk fun hhost => meets_checked ValidatorVersion.mk fun hversion => ?_
  have hvalid : (input.node now).Valid :=
    { id := (new_eq_ok NodeId.mk).2 hid
      clusterName := (new_eq_ok ClusterName.mk).2 hname
      host := (new_eq_ok HostAddr.mk).2 hhost
      version := (new_eq_ok ValidatorVersion.mk).2 hversion }
  exact meets_answer (h hvalid)

theorem startDeployment_meets {input : StartDeploymentInput}
    (h : (ApiRequest.startDeployment input).Asks G R P) :
    Meets G R input.checks (resolve (.startDeployment input)) P := by
  unfold resolve MutationRoot.startDeployment MutationRoot.deploymentKind
  simp only [bind_assoc, pure_bind]
  refine meets_checked NodeId.mk fun _ => ?_
  obtain ⟨nodeId, kind, targetVersion, spare⟩ := input
  cases kind with
  | provision => exact meets_answer (h .provision rfl trivial)
  | decommission => exact meets_answer (h .decommission rfl trivial)
  | upgrade =>
    cases targetVersion with
    | none => exact meets_error rfl
    | some v =>
      refine meets_passed rfl ?_
      simp only [bind_assoc, pure_bind]
      refine meets_checked ValidatorVersion.mk fun hv => ?_
      exact meets_answer (h (.upgrade ⟨v⟩) rfl ((new_eq_ok ValidatorVersion.mk).2 hv))
  | failover =>
    cases spare with
    | none => exact meets_error rfl
    | some s =>
      refine meets_passed rfl ?_
      simp only [bind_assoc, pure_bind]
      refine meets_checked NodeId.mk fun hs => ?_
      exact meets_answer (h (.failover ⟨s⟩) rfl ((new_eq_ok NodeId.mk).2 hs))

/-- **Every request** is answered by its first check that fails, or by the engine. -/
theorem resolve_meets {q : ApiRequest} (h : q.Asks G R P) : Meets G R q.checks (resolve q) P := by
  cases q with
  | run id => exact run_meets h
  | registerNode now input => exact registerNode_meets h
  | startDeployment input => exact startDeployment_meets h
  | health =>
    unfold resolve QueryRoot.health
    simp only [bind_assoc, pure_bind]
    exact meets_answer h
  | nodes =>
    unfold resolve QueryRoot.nodes
    simp only [bind_assoc, pure_bind]
    exact meets_answer h
  | runs limit =>
    unfold resolve QueryRoot.runs
    simp only [bind_assoc, pure_bind]
    exact meets_answer h
  | node id =>
    unfold resolve QueryRoot.node
    simp only [bind_assoc, pure_bind]
    exact meets_checked NodeId.mk fun _ => meets_answer h
  | advise nodeId context =>
    unfold resolve QueryRoot.advise
    simp only [bind_assoc]
    exact meets_checked NodeId.mk fun _ => meets_answer h

end Requests

/-! ## Requests of one operation -/

theorem error_of_refusal {q : ApiRequest} (h : q.refusal = none) : ∀ c ∈ q.checks, c.error = none :=
  List.findSome?_eq_none_iff.1 h

theorem registerNode_run {now : DateTime} {input : RegisterNodeInput}
    (h : (ApiRequest.registerNode now input).refusal = none) :
    (resolve (.registerNode now input)).run = .op (.saveNode (input.node now)) fun r => .ret
      (answer (fun _ => .registered (NodeObject.ofNode (input.node now))) (r.mapError .port)) := by
  have hc := error_of_refusal h
  simp only [ApiRequest.checks, List.forall_mem_cons] at hc
  obtain ⟨hid, hname, hhost, hversion, -⟩ := hc
  simp only [resolve, MutationRoot.registerNode, NodeId.new, ClusterName.new, HostAddr.new,
    ValidatorVersion.new]
  rw [checked_of_passed NodeId.mk hid, checked_of_passed ClusterName.mk hname,
    checked_of_passed HostAddr.mk hhost, checked_of_passed ValidatorVersion.mk hversion]
  refine congrArg (Prog.op _) (funext fun r => ?_)
  cases r <;> rfl

theorem node_run {id : String} (h : (ApiRequest.node id).refusal = none) :
    (resolve (.node id)).run = .op (.getNode ⟨id⟩) fun r =>
      .ret (answer (fun n => .node (n.map NodeObject.ofNode)) (r.mapError .port)) := by
  have hid := error_of_refusal h _ List.mem_cons_self
  simp only [resolve, QueryRoot.node, NodeId.new]
  rw [checked_of_passed NodeId.mk hid]
  refine congrArg (Prog.op _) (funext fun r => ?_)
  cases r <;> rfl

/-! ## Over one engine -/

/-- Every record stored is one its constructors make. -/
structure StoredValid (w : EngineState) : Prop where
  nodes : ∀ id node, w.getNode id = some node → node.Valid
  runs : ∀ run ∈ w.repo.runs, run.Valid

theorem storedValid_new : StoredValid .new where
  nodes id node h := by
    have hnone : EngineState.new.getNode id = none := InMemoryNodeRepository.getNode_new id
    rw [hnone] at h
    cases h
  runs run h := by cases h

/-- What is in the vector after a run is saved. -/
theorem mem_upsertRun {s : InMemoryNodeRepository} {run x : DeploymentRun}
    (h : x ∈ (s.saveRun run).runs) : x ∈ s.runs ∨ x = run := by
  have hx : x ∈ Table.upsert DeploymentRun.id (fun _ new => new) run s.runs := by
    rw [← upsertRun_eq]
    exact h
  rcases (Table.mem_upsert s.nodup).1 hx with ⟨hmem, -⟩ | ⟨-, rfl⟩ | ⟨_, -, -, rfl⟩
  · exact .inl hmem
  · exact .inr rfl
  · exact .inr rfl

theorem StoredValid.saveNode {w : EngineState} (hw : StoredValid w) {node : ValidatorNode}
    (hnode : node.Valid) : StoredValid ⟨w.repo.saveNode node, w.nextRun⟩ where
  nodes id n h := by
    by_cases hid : id = node.id
    · subst hid
      rw [EngineState.getNode, InMemoryNodeRepository.getNode_saveNode] at h
      cases h
      exact hnode
    · rw [EngineState.getNode, InMemoryNodeRepository.getNode_saveNode_ne _ _ hid] at h
      exact hw.nodes id n h
  runs := hw.runs

theorem StoredValid.saveRun {w : EngineState} (hw : StoredValid w) {run : DeploymentRun}
    (hrun : run.Valid) : StoredValid ⟨w.repo.saveRun run, w.nextRun⟩ where
  nodes := hw.nodes
  runs x hx := by
    rcases mem_upsertRun hx with hx | rfl
    · exact hw.runs x hx
    · exact hrun

/-- A repository of valid records, failing or not, answers valid records and, given
valid records, goes on to hold them. -/
theorem failingEnv_keeps : failingEnv.Keeps StoredValid Sound Filed := by
  intro o w r w' hw ho h
  rcases h with h | ⟨herr, rfl⟩
  · cases o with
    | getNode id =>
      obtain ⟨rfl, rfl⟩ := h
      exact ⟨fun node hn => hw.nodes id node hn, hw⟩
    | saveNode node =>
      obtain ⟨rfl, rfl⟩ := h
      exact ⟨trivial, hw.saveNode ho⟩
    | listNodes =>
      obtain ⟨⟨l, rfl, hl⟩, rfl⟩ := h
      refine ⟨fun node hn => ?_, hw⟩
      exact hw.nodes node.id node (InMemoryNodeRepository.mem_listNodes.1 (hl.mem_iff.1 hn))
    | getRun id =>
      obtain ⟨rfl, rfl⟩ := h
      exact ⟨fun run hr => hw.runs run (List.mem_of_find?_eq_some hr), hw⟩
    | saveRun run =>
      obtain ⟨rfl, rfl⟩ := h
      exact ⟨trivial, hw.saveRun ho⟩
    | listRuns limit =>
      obtain ⟨rfl, rfl⟩ := h
      refine ⟨fun run hr => ?_, hw⟩
      exact hw.runs run (List.mem_mergeSort.1 (List.mem_of_mem_take hr))
    | nextRun =>
      obtain ⟨-, rfl⟩ := h
      exact ⟨trivial, ⟨hw.nodes, hw.runs⟩⟩
    | _ =>
      cases h
      exact ⟨trivial, hw⟩
  · refine ⟨?_, hw⟩
    cases o with
    | getNode _ | listNodes | getRun _ | listRuns _ =>
      obtain ⟨e, rfl⟩ := herr
      exact trivial
    | _ => exact trivial

/-- A well-formed reply, or an error that has a code. -/
def Coded : Except GqlError ApiReply → Prop
  | .ok reply => reply.WellFormed
  | .error e => e.code.isSome = true

theorem coded_answer {α : Type} {f : α → ApiReply} {Q : α → Prop} {r : Except CoreError α}
    (hr : IfOk Q r) (hf : ∀ a, Q a → (f a).WellFormed) : Coded (answer f r) := by
  cases r with
  | error e => exact rfl
  | ok a => exact hf a hr

theorem asks_sound (q : ApiRequest) : q.Asks Sound Filed Coded := by
  cases q with
  | health =>
    refine listNodes_sound.mono fun r hr => coded_answer hr fun l _ => ?_
    show (if l.length ≤ QueryRoot.I32_MAX then l.length else QueryRoot.I32_MAX) ≤ QueryRoot.I32_MAX
    split <;> omega
  | node id =>
    refine (getNode_sound ⟨id⟩).mono fun r hr => coded_answer hr fun n hn => ?_
    intro o ho
    obtain ⟨node, rfl, rfl⟩ := Option.map_eq_some_iff.1 ho
    exact wellFormed_ofNode (hn node rfl)
  | nodes =>
    refine listNodes_sound.mono fun r hr => coded_answer hr fun l hl => ?_
    intro o ho
    obtain ⟨node, hmem, rfl⟩ := List.mem_map.1 ho
    exact wellFormed_ofNode (hl node hmem)
  | run id =>
    intro v _
    refine (getRun_sound ⟨v⟩).mono fun r hr => coded_answer hr fun n hn => ?_
    intro o ho
    obtain ⟨run, rfl, rfl⟩ := Option.map_eq_some_iff.1 ho
    exact wellFormed_ofRun (hn run rfl)
  | runs limit =>
    refine (listRuns_sound _).mono fun r hr => coded_answer hr fun l hl => ?_
    intro o ho
    obtain ⟨run, hmem, rfl⟩ := List.mem_map.1 ho
    exact wellFormed_ofRun (hl run hmem)
  | advise nodeId context =>
    refine (advise_sound ⟨nodeId⟩ context).mono fun r hr => coded_answer hr fun _ _ => ?_
    exact trivial
  | registerNode now input =>
    intro hv
    refine (registerNode_sound hv).mono fun r hr => coded_answer hr fun _ _ => ?_
    exact wellFormed_ofNode hv
  | startDeployment input =>
    intro kind _ hk
    refine (startDeployment_sound _ hk).mono fun r hr => coded_answer hr fun run hrun => ?_
    exact wellFormed_ofRun hrun

/-- The answer of a request: refused for its first check that fails, or served. -/
def Answered (q : ApiRequest) : Except GqlError ApiReply → Prop
  | .ok reply => q.refusal = none ∧ reply.WellFormed
  | .error e => q.refusal = if e.code.isSome then none else some e.message

theorem resolve_ensures (q : ApiRequest) : (resolve q).run.Ensures Sound Filed (Answered q) := by
  have hmeets := resolve_meets (asks_sound q)
  cases hq : q.refusal with
  | some msg =>
    rw [hmeets.1 msg hq]
    exact hq
  | none =>
    refine (hmeets.2 hq).mono fun res hres => ?_
    cases res with
    | ok reply => exact ⟨hq, hres⟩
    | error e =>
      have hcode : e.code.isSome = true := hres
      show q.refusal = if e.code.isSome then none else some e.message
      rw [if_pos hcode, hq]

/-- **The API.** Any number of requests, interleaved anyhow over one engine whose
repository may fail: what is stored is valid throughout; a request that does not pass
its checks asks nothing of the engine and is answered with the first that fails; and
every other is answered with well-formed objects, or with an error that has a code. -/
theorem api_safe {ι : Type} [DecidableEq ι] {q : ι → ApiRequest}
    {s : PoolState EngineSig ι EngineState (Except GqlError ApiReply)}
    (h : (pool failingEnv (fun i => (resolve (q i)).run) StoredValid).Reachable s) :
    StoredValid s.world ∧
    (∀ i msg, (q i).refusal = some msg →
      s.thread i = ⟨[], .ret (.error { message := msg, code := none })⟩) ∧
    ∀ i res, (s.thread i).rest = .ret res → Answered (q i) res := by
  obtain ⟨hstored, hrest⟩ :=
    pool_safe failingEnv_keeps (fun i => resolve_ensures (q i)) (fun _ hw => hw) h
  refine ⟨hstored, ?_, ?_⟩
  · intro i msg hmsg
    have hafter := pool_after h i
    rw [(resolve_meets (asks_sound (q i))).1 msg hmsg] at hafter
    obtain ⟨htr, hret⟩ := after_ret.1 hafter
    calc s.thread i = ⟨(s.thread i).trace, (s.thread i).rest⟩ := rfl
      _ = _ := by rw [htr, hret]
  · intro i res hres
    have hthread := hrest i
    rw [hres] at hthread
    exact hthread

/-- A node of the testnet. -/
def euVal : RegisterNodeInput :=
  { id := "eu-val-01", clusterName := "eu-fiber", cluster := .testnet, host := "val01.internal",
    role := .voting, version := "2.0.14" }

/-- One request registers it and another queries it, or registers a node without an id. -/
def euRequests (other : ApiRequest) : Bool → ApiRequest
  | true => .registerNode 0 euVal
  | false => other

def euStart (other : ApiRequest) :
    PoolState EngineSig Bool EngineState (Except GqlError ApiReply) :=
  ⟨.new, fun i => ⟨[], (resolve (euRequests other i)).run⟩⟩

/-- The registration has been performed. -/
def euRegistered (other : ApiRequest) :
    PoolState EngineSig Bool EngineState (Except GqlError ApiReply) :=
  (euStart other).advance true [⟨.saveNode (euVal.node 0), .ok ()⟩]
    (.ret (.ok (.registered (NodeObject.ofNode (euVal.node 0)))))
    { EngineState.new with repo := InMemoryNodeRepository.new.saveNode (euVal.node 0) }

theorem euVal_run : (resolve (.registerNode 0 euVal)).run = .op (.saveNode (euVal.node 0)) fun r =>
    .ret (answer (fun _ => .registered (NodeObject.ofNode (euVal.node 0))) (r.mapError .port)) :=
  registerNode_run (by decide)

theorem step_euRegistered {E : Env EngineSig EngineState} {w₀ : EngineState → Prop}
    (other : ApiRequest) (hE : E (.saveNode (euVal.node 0)) .new (.ok ())
      { EngineState.new with repo := InMemoryNodeRepository.new.saveNode (euVal.node 0) }) :
    (pool E (fun i => (resolve (euRequests other i)).run) w₀).step (euStart other)
      (true, ⟨.saveNode (euVal.node 0), .ok ()⟩) (euRegistered other) :=
  ⟨_, _, euVal_run, hE, rfl⟩

theorem api_safe_registered :
    ∃ s : PoolState EngineSig Bool EngineState (Except GqlError ApiReply),
      (s.thread true).rest = .ret (.ok (.registered (NodeObject.ofNode (euVal.node 0)))) ∧
      StoredValid s.world ∧
      s.thread false =
        ⟨[], .ret (.error { message := "node_id must not be empty", code := none })⟩ := by
  have hreach : (pool failingEnv (fun i => (resolve (euRequests (.node " ") i)).run)
      StoredValid).Reachable (euRegistered (.node " ")) :=
    LTS.Reachable.step ⟨_, [], ⟨storedValid_new, fun _ => rfl⟩, .nil _⟩
      (step_euRegistered _ (.inl ⟨rfl, rfl⟩))
  obtain ⟨hstored, hrefused, -⟩ := api_safe hreach
  refine ⟨euRegistered (.node " "), ?_, hstored, hrefused false _ (by decide)⟩
  unfold euRegistered
  rw [PoolState.advance_self]

/-! ## What the queries read -/

/-- The requests that are queries. -/
def ApiRequest.IsQuery : ApiRequest → Prop
  | .registerNode .. | .startDeployment _ => False
  | _ => True

/-- The repository answers what `w` holds. -/
def Reads (w : EngineState) : Answers EngineSig
  | .getNode id, r => r = .ok (w.getNode id)
  | .listNodes, r => ∃ l, r = .ok l ∧ l.Perm w.repo.listNodes
  | .getRun id, r => r = .ok (w.repo.getRun id)
  | .listRuns limit, r => r = .ok (w.repo.listRuns limit)
  | _, _ => True

def ReadOnly : EngineOp → Prop
  | .getNode _ | .listNodes | .getRun _ | .listRuns _ | .advise .. => True
  | _ => False

/-- What a query answers of `w`. -/
def Reported (w : EngineState) : ApiRequest → Except GqlError ApiReply → Prop
  | .health, res => res = .ok (.health
      { status := "ok", nodes := min w.repo.listNodes.length QueryRoot.I32_MAX })
  | .node id, res => res = .ok (.node ((w.getNode ⟨id⟩).map NodeObject.ofNode))
  | .nodes, res => ∃ l : List ValidatorNode,
      l.Perm w.repo.listNodes ∧ res = .ok (.nodes (l.map NodeObject.ofNode))
  | .run id, res => ∃ v, parseU128 id = some v ∧
      res = .ok (.run ((w.repo.getRun ⟨v⟩).map RunObject.ofRun))
  | .runs limit, res => ∃ l,
      Table.Top DeploymentRun.startedAt (max limit.toInt 0).toNat w.repo.runs l ∧
      res = .ok (.runs (l.map RunObject.ofRun))
  | .advise nodeId _, res =>
      ((w.getNode ⟨nodeId⟩).isSome = true ∧ ∃ text, res = .ok (.advice text)) ∨
      (w.getNode ⟨nodeId⟩ = none ∧ res = .error (toErr (.notFound nodeId)))
  | .registerNode .., _ | .startDeployment _, _ => False

theorem memoryEnv_keeps (w : EngineState) : memoryEnv.Keeps (· = w) (Reads w) ReadOnly := by
  intro o v r v' hv ho h
  subst hv
  cases o with
  | getNode id => exact h
  | listNodes => exact h
  | getRun id => exact h
  | listRuns limit => exact h
  | advise node context => exact ⟨trivial, h⟩
  | _ => cases ho

theorem asks_reads (w : EngineState) {q : ApiRequest} (hq : q.IsQuery) :
    q.Asks (Reads w) ReadOnly (Reported w q) := by
  cases q with
  | health =>
    refine ⟨trivial, fun r hr => ?_⟩
    obtain ⟨l, rfl, hl⟩ := hr
    show Except.ok (ApiReply.health _) = _
    rw [← hl.length_eq, Nat.min_def]
  | node id =>
    refine ⟨trivial, fun r hr => ?_⟩
    cases hr
    rfl
  | nodes =>
    refine ⟨trivial, fun r hr => ?_⟩
    obtain ⟨l, rfl, hl⟩ := hr
    exact ⟨l, hl, rfl⟩
  | run id =>
    refine fun v hv => ⟨trivial, fun r hr => ?_⟩
    cases hr
    exact ⟨v, hv, rfl⟩
  | runs limit =>
    refine ⟨trivial, fun r hr => ?_⟩
    cases hr
    exact ⟨_, top_listRuns w.repo _, rfl⟩
  | advise nodeId context =>
    refine ⟨trivial, fun r hr => ?_⟩
    cases hr
    cases hn : w.getNode ⟨nodeId⟩ with
    | none => exact .inr ⟨hn, rfl⟩
    | some node => exact ⟨trivial, fun text _ => .inl ⟨by rw [hn]; rfl, text, rfl⟩⟩
  | registerNode now input => cases hq
  | startDeployment input => cases hq

/-- **Queries.** A query changes nothing, and what passes its checks is answered with
what is stored: the newest runs first, as many as asked for, and a count that saturates. -/
theorem query_reads {q : ApiRequest} (hq : q.IsQuery) {tr : List EngineSig.Ev}
    {res : Except GqlError ApiReply} (hx : (resolve q).run.Exec tr res) {w w' : EngineState}
    (hw : memoryEnv.Accepts w tr w') :
    w' = w ∧
      ((∃ msg, q.refusal = some msg ∧ res = .error { message := msg, code := none }) ∨
        (q.refusal = none ∧ Reported w q res)) := by
  have hmeets := resolve_meets (asks_reads w hq)
  cases hr : q.refusal with
  | some msg =>
    rw [hmeets.1 msg hr] at hx
    obtain ⟨rfl, rfl⟩ := hx
    cases hw
    exact ⟨rfl, .inl ⟨msg, rfl, rfl⟩⟩
  | none =>
    have hens := hmeets.2 hr
    obtain ⟨hans, hw'⟩ := (memoryEnv_keeps w).accepts hens ((exec_iff_after ..).1 hx) hw rfl
    exact ⟨hw', .inr ⟨rfl, (hens.exec hx hans).2⟩⟩

theorem query_reads_registered :
    let w := (euRegistered .nodes).world
    let out := (resolve (.node "eu-val-01")).run.runWith
      (memoryPorts (fun _ => false) (.rejected "")) w
    out.world = w ∧ ∃ object, out.val = .ok (.node (some object)) ∧
      object.state = "provisioning" := by
  intro w out
  have hread := query_reads (q := .node "eu-val-01") trivial (exec_runWith ..)
    (Env.accepts_runWith (memoryEnv_memoryPorts (fun _ => false) (.rejected "")) _ w)
  obtain ⟨hw, ⟨msg, hmsg, -⟩ | ⟨-, hres⟩⟩ := hread
  · rw [show (ApiRequest.node "eu-val-01").refusal = none by decide] at hmsg
    cases hmsg
  · refine ⟨hw, NodeObject.ofNode (euVal.node 0), hres.trans ?_, rfl⟩
    have hstored : w.getNode ⟨"eu-val-01"⟩ = some (euVal.node 0) :=
      InMemoryNodeRepository.getNode_saveNode _ (euVal.node 0)
    rw [hstored]
    rfl

/-! ## What was registered is what is read -/

/-- A request that reaches the engine has passed its checks. -/
theorem refusal_of_step {ι W : Type} [DecidableEq ι] {E : Env EngineSig W} {q : ι → ApiRequest}
    {w₀ : W → Prop} {s s' : PoolState EngineSig ι W (Except GqlError ApiReply)} {i : ι}
    {e : EngineSig.Ev} (h : (pool E (fun i => (resolve (q i)).run) w₀).Reachable s)
    (hs : (pool E (fun i => (resolve (q i)).run) w₀).step s (i, e) s') : (q i).refusal = none := by
  cases hr : (q i).refusal with
  | none => rfl
  | some msg =>
    have hafter := pool_after h i
    rw [(resolve_meets (asks_sound (q i))).1 msg hr] at hafter
    obtain ⟨k, _, hk, -⟩ := hs
    cases hk.symm.trans (after_ret.1 hafter).2

/-- **Read your writes.** In any interleaving: from the step in which a registration
reaches the engine to the one in which a query of its id does, if nobody else saves a node
under that id, the query is answered with the object that the registration was. -/
theorem registered_then_read {ι : Type} [DecidableEq ι] {q : ι → ApiRequest} {i j : ι}
    {now : DateTime} {input : RegisterNodeInput} (hi : q i = .registerNode now input)
    (hj : q j = .node input.id)
    {s₀ s₁ s₂ s₃ : PoolState EngineSig ι EngineState (Except GqlError ApiReply)}
    {e d : EngineSig.Ev} {ls : List (ι × EngineSig.Ev)} {w₀ : EngineState → Prop}
    (h : (pool memoryEnv (fun i => (resolve (q i)).run) w₀).Reachable s₀)
    (hwrite : (pool memoryEnv (fun i => (resolve (q i)).run) w₀).step s₀ (i, e) s₁)
    (hrun : (pool memoryEnv (fun i => (resolve (q i)).run) w₀).Run s₁ ls s₂)
    (hquiet : savedFor ⟨input.id⟩ (ls.map Prod.snd) = [])
    (hread : (pool memoryEnv (fun i => (resolve (q i)).run) w₀).step s₂ (j, d) s₃) :
    ∃ object, (s₁.thread i).rest = .ret (.ok (.registered object)) ∧
      (s₃.thread j).rest = .ret (.ok (.node (some object))) := by
  have hreach : (pool memoryEnv (fun i => (resolve (q i)).run) w₀).Reachable s₂ :=
    hrun.keeps (fun _ _ _ => LTS.Reachable.step) (h.step hwrite)
  have hwritten := refusal_of_step h hwrite
  rw [hi] at hwritten
  have hwriter := registerNode_run hwritten
  rw [← hi] at hwriter
  have hpassed := refusal_of_step hreach hread
  rw [hj] at hpassed
  have hreader := node_run hpassed
  rw [← hj] at hreader
  obtain ⟨r, ⟨rfl, hstored⟩, hreply⟩ := pool_step_single h hwrite hwriter
  obtain ⟨a, ⟨rfl, -⟩, hanswer⟩ := pool_step_single hreach hread hreader
  refine ⟨NodeObject.ofNode (input.node now), hreply, ?_⟩
  have hfound : s₂.world.getNode ⟨input.id⟩ = some (input.node now) := by
    rw [accepts_getNode (accepts_of_run hrun), hquiet, hstored]
    exact InMemoryNodeRepository.getNode_saveNode s₀.world.repo (input.node now)
  rw [hanswer]
  show Prog.ret (answer _ ((Except.ok (s₂.world.getNode ⟨input.id⟩)).mapError _)) = _
  rw [hfound]
  rfl

theorem registered_then_read_fresh :
    let q := euRequests (.node "eu-val-01")
    ∃ s : PoolState EngineSig Bool EngineState (Except GqlError ApiReply),
      (pool memoryEnv (fun i => (resolve (q i)).run) (· = .new)).Reachable s ∧
      ∃ object, (s.thread false).rest = .ret (.ok (.node (some object))) := by
  intro q
  have hwrite : (pool memoryEnv (fun i => (resolve (q i)).run) (· = .new)).step
      (euStart (.node "eu-val-01")) (true, ⟨.saveNode (euVal.node 0), .ok ()⟩)
      (euRegistered (.node "eu-val-01")) := step_euRegistered _ ⟨rfl, rfl⟩
  have hstart : (pool memoryEnv (fun i => (resolve (q i)).run) (· = .new)).Reachable
      (euStart (.node "eu-val-01")) := ⟨_, [], ⟨rfl, fun _ => rfl⟩, .nil _⟩
  have hreader : ((euRegistered (.node "eu-val-01")).thread false).rest =
      .op (.getNode ⟨"eu-val-01"⟩) _ := node_run (by decide)
  have hread : (pool memoryEnv (fun i => (resolve (q i)).run) (· = .new)).step
      (euRegistered (.node "eu-val-01")) (false, ⟨.getNode ⟨"eu-val-01"⟩, _⟩) _ :=
    ⟨_, _, hreader, ⟨rfl, rfl⟩, rfl⟩
  have hi : q true = .registerNode 0 euVal := rfl
  have hj : q false = .node euVal.id := rfl
  obtain ⟨object, -, hanswer⟩ := registered_then_read hi hj hstart hwrite (.nil _) rfl hread
  exact ⟨_, (hstart.step hwrite).step hread, object, hanswer⟩

end ValidatorForge.Api
