import ValidatorForge.Lib.Json
import ValidatorForge.Types.Node
import ValidatorForge.Types.Ops

/-!
# Nodes and runs as JSON

What `derive(Serialize, Deserialize)` makes of the declarations in
crates/validatorforge-types/src/ids.rs, node.rs and ops.rs: `toValue` writes,
`fromValue` reads. A one-field tuple struct is read as its field is, so the
newtypes are built without their constructors. `rename_all = "snake_case"` gives
the names `as_str` gives. `Chrono` is the text of a date and its reader, which
lie outside the crate.

* `ValidatorNode.fromValue_toValue`, `DeploymentRun.fromValue_toValue`: what is
  written is read back.
* `ValidatorNode.valid_iff`, `DeploymentRun.valid_iff`: the newtypes of what is
  read satisfy their constructors exactly when the strings of the document do.
-/
namespace ValidatorForge.Types

open Json

structure Chrono where
  format : DateTime → String
  parse : String → Option DateTime

/-- The date is read back from its text. -/
def Chrono.Reads (C : Chrono) (d : DateTime) : Prop := C.parse (C.format d) = some d

def Chrono.fromValue (C : Chrono) (v : Value) : Option DateTime := v.asStr.bind C.parse

theorem Chrono.Reads.fromValue {C : Chrono} {d : DateTime} (h : C.Reads d) :
    C.fromValue (.str (C.format d)) = some d := h

/-! ## Newtypes -/

/-- mirrors crates/validatorforge-types/src/ids.rs:18-19 -/
def NodeId.fromValue (v : Value) : Option NodeId := v.asStr.map NodeId.mk

/-- mirrors crates/validatorforge-types/src/ids.rs:55-56 -/
def ClusterName.fromValue (v : Value) : Option ClusterName := v.asStr.map ClusterName.mk

/-- mirrors crates/validatorforge-types/src/ids.rs:94-95 -/
def ValidatorVersion.fromValue (v : Value) : Option ValidatorVersion :=
  v.asStr.map ValidatorVersion.mk

/-- mirrors crates/validatorforge-types/src/ids.rs:124-125 -/
def HostAddr.fromValue (v : Value) : Option HostAddr := v.asStr.map HostAddr.mk

/-- mirrors crates/validatorforge-types/src/ids.rs:181-182 -/
def RunId.fromValue (v : Value) : Option RunId :=
  v.asU64.map fun n => { value := BitVec.ofNat 128 n.toNat }

/-- A `u128` that is no `u64` is no JSON number, and is not written.
mirrors crates/validatorforge-types/src/ids.rs:181-182 -/
def RunId.toValue (id : RunId) : Option Value :=
  if id.value.toNat < UInt64.size then some (.num (.posInt (UInt64.ofNat id.value.toNat)))
  else none

/-! ## Enumerations -/

/-- mirrors crates/validatorforge-types/src/node.rs:10-19 -/
def Cluster.variants : List Cluster := [.mainnet, .testnet, .devnet]

def Cluster.fromValue : Value → Option Cluster :=
  Value.asVariant (variants.map fun c => (c.asStr, c))

/-- mirrors crates/validatorforge-types/src/node.rs:40-49 -/
def NodeRole.variants : List NodeRole := [.voting, .rpc, .hotSpare]

def NodeRole.fromValue : Value → Option NodeRole :=
  Value.asVariant (variants.map fun r => (r.asStr, r))

/-- mirrors crates/validatorforge-types/src/node.rs:84-103 -/
def NodeState.variants : List NodeState :=
  [.provisioning, .bootstrapping, .catchingUp, .active, .delinquent, .draining,
    .decommissioned, .failed]

def NodeState.fromValue : Value → Option NodeState :=
  Value.asVariant (variants.map fun s => (s.asStr, s))

/-- mirrors crates/validatorforge-types/src/ops.rs:109-120 -/
def RunStatus.variants : List RunStatus := [.running, .succeeded, .rolledBack, .failed]

def RunStatus.fromValue : Value → Option RunStatus :=
  Value.asVariant (variants.map fun s => (s.asStr, s))

/-- mirrors crates/validatorforge-types/src/ops.rs:43-60 -/
def OpsActionKind.variants : List OpsActionKind :=
  [.applyInfra, .tuneHost, .startValidator, .awaitCatchup, .drain, .swapIdentity, .destroyInfra]

def OpsActionKind.fromValue : Value → Option OpsActionKind :=
  Value.asTag "action" (variants.map fun a => (a.asStr, a))

def OpsActionKind.toValue (a : OpsActionKind) : Value := .obj [("action", .str a.asStr)]

/-- Internally tagged under `kind`.
mirrors crates/validatorforge-types/src/ops.rs:10-27 -/
def DeploymentKind.fromValue (v : Value) : Option DeploymentKind := do
  let (t, rest) ← v.asTagged "kind"
  if t = "provision" then
    if rest.isEmpty then return .provision else none
  else if t = "upgrade" then
    let get ← rest.asStruct ["target_version"]
    return .upgrade (← Value.required get "target_version" ValidatorVersion.fromValue)
  else if t = "failover" then
    let get ← rest.asStruct ["spare"]
    return .failover (← Value.required get "spare" NodeId.fromValue)
  else if t = "decommission" then
    if rest.isEmpty then return .decommission else none
  else none

def DeploymentKind.toValue (k : DeploymentKind) : Value :=
  match k with
  | .provision | .decommission => .obj [("kind", .str k.asStr)]
  | .upgrade targetVersion =>
    .obj [("kind", .str k.asStr), ("target_version", .str targetVersion.raw)]
  | .failover spare => .obj [("kind", .str k.asStr), ("spare", .str spare.raw)]

/-! ## Nodes and runs -/

def ValidatorNode.fieldNames : List String :=
  ["id", "cluster_name", "cluster", "host", "role", "version", "state", "created_at", "updated_at"]

/-- mirrors crates/validatorforge-types/src/node.rs:167-178 -/
def ValidatorNode.fromValue (C : Chrono) (v : Value) : Option ValidatorNode := do
  let get ← v.asStruct fieldNames
  let id ← Value.required get "id" NodeId.fromValue
  let clusterName ← Value.required get "cluster_name" ClusterName.fromValue
  let cluster ← Value.required get "cluster" Cluster.fromValue
  let host ← Value.required get "host" HostAddr.fromValue
  let role ← Value.required get "role" NodeRole.fromValue
  let version ← Value.required get "version" ValidatorVersion.fromValue
  let state ← Value.required get "state" NodeState.fromValue
  let createdAt ← Value.required get "created_at" C.fromValue
  let updatedAt ← Value.required get "updated_at" C.fromValue
  return { id, clusterName, cluster, host, role, version, state, createdAt, updatedAt }

def ValidatorNode.toValue (C : Chrono) (n : ValidatorNode) : Value :=
  .obj
    [("id", .str n.id.raw), ("cluster_name", .str n.clusterName.raw),
      ("cluster", .str n.cluster.asStr), ("host", .str n.host.raw), ("role", .str n.role.asStr),
      ("version", .str n.version.raw), ("state", .str n.state.asStr),
      ("created_at", .str (C.format n.createdAt)), ("updated_at", .str (C.format n.updatedAt))]

def DeploymentRun.fieldNames : List String :=
  ["id", "target", "kind", "status", "completed_steps", "started_at", "finished_at"]

/-- mirrors crates/validatorforge-types/src/ops.rs:148-157 -/
def DeploymentRun.fromValue (C : Chrono) (v : Value) : Option DeploymentRun := do
  let get ← v.asStruct fieldNames
  let id ← Value.required get "id" RunId.fromValue
  let target ← Value.required get "target" NodeId.fromValue
  let kind ← Value.required get "kind" DeploymentKind.fromValue
  let status ← Value.required get "status" RunStatus.fromValue
  let completedSteps ←
    Value.required get "completed_steps" (Value.asArr OpsActionKind.fromValue)
  let startedAt ← Value.required get "started_at" C.fromValue
  let finishedAt ← Value.optional get "finished_at" C.fromValue
  return { id, target, kind, status, completedSteps, startedAt, finishedAt }

def DeploymentRun.toValue (C : Chrono) (r : DeploymentRun) : Option Value := do
  let id ← r.id.toValue
  return .obj
    [("id", id), ("target", .str r.target.raw), ("kind", r.kind.toValue),
      ("status", .str r.status.asStr),
      ("completed_steps", .arr (r.completedSteps.map OpsActionKind.toValue)),
      ("started_at", .str (C.format r.startedAt)),
      ("finished_at", (r.finishedAt.map fun d => Value.str (C.format d)).getD .null)]

/-! ## What is written is read back -/

theorem Cluster.fromValue_asStr (c : Cluster) : fromValue (.str c.asStr) = some c := by
  apply Value.lookup_names (by decide)
  cases c <;> decide

theorem NodeRole.fromValue_asStr (r : NodeRole) : fromValue (.str r.asStr) = some r := by
  apply Value.lookup_names (by decide)
  cases r <;> decide

theorem NodeState.fromValue_asStr (s : NodeState) : fromValue (.str s.asStr) = some s := by
  apply Value.lookup_names (by decide)
  cases s <;> decide

theorem RunStatus.fromValue_asStr (s : RunStatus) : fromValue (.str s.asStr) = some s := by
  apply Value.lookup_names (by decide)
  cases s <;> decide

theorem OpsActionKind.fromValue_toValue (a : OpsActionKind) : fromValue a.toValue = some a := by
  have hname : (variants.map fun a => (a.asStr, a)).lookup a.asStr = some a := by
    apply Value.lookup_names (by decide)
    cases a <;> decide
  simp [fromValue, toValue, Value.asTag, Value.asTagged, Value.asStr, Value.isEmpty, hname]

theorem DeploymentKind.fromValue_toValue (k : DeploymentKind) : fromValue k.toValue = some k := by
  cases k <;>
    simp [fromValue, toValue, asStr, Value.asTagged, Value.asStr, Value.isEmpty, Value.asStruct,
      Value.required, ValidatorVersion.fromValue, NodeId.fromValue]

theorem RunId.toValue_isSome {id : RunId} : id.toValue.isSome ↔ id.value.toNat < UInt64.size := by
  unfold toValue
  split <;> simp [*]

theorem RunId.fromValue_toValue {id : RunId} {v : Value} (h : id.toValue = some v) :
    fromValue v = some id := by
  unfold toValue at h
  split at h
  · rename_i hlt
    cases h
    obtain ⟨n⟩ := id
    have hround : (UInt64.ofNat n.toNat).toNat = n.toNat := UInt64.toNat_ofNat_of_lt hlt
    simp [fromValue, Value.asU64, hround]
  · cases h

/-- **A node is read back**, if its dates are. -/
theorem ValidatorNode.fromValue_toValue {C : Chrono} {n : ValidatorNode}
    (hcreated : C.Reads n.createdAt) (hupdated : C.Reads n.updatedAt) :
    fromValue C (n.toValue C) = some n := by
  unfold fromValue
  refine Option.bind_eq_some_iff.2 ⟨_, rfl, ?_⟩
  refine Option.bind_eq_some_iff.2 ⟨n.id, Value.required_of rfl rfl, ?_⟩
  refine Option.bind_eq_some_iff.2 ⟨n.clusterName, Value.required_of rfl rfl, ?_⟩
  refine Option.bind_eq_some_iff.2 ⟨n.cluster, Value.required_of rfl n.cluster.fromValue_asStr, ?_⟩
  refine Option.bind_eq_some_iff.2 ⟨n.host, Value.required_of rfl rfl, ?_⟩
  refine Option.bind_eq_some_iff.2 ⟨n.role, Value.required_of rfl n.role.fromValue_asStr, ?_⟩
  refine Option.bind_eq_some_iff.2 ⟨n.version, Value.required_of rfl rfl, ?_⟩
  refine Option.bind_eq_some_iff.2 ⟨n.state, Value.required_of rfl n.state.fromValue_asStr, ?_⟩
  refine Option.bind_eq_some_iff.2 ⟨n.createdAt, Value.required_of rfl hcreated.fromValue, ?_⟩
  refine Option.bind_eq_some_iff.2 ⟨n.updatedAt, Value.required_of rfl hupdated.fromValue, ?_⟩
  rfl

/-- A run is written if its id is. -/
theorem DeploymentRun.toValue_isSome {C : Chrono} {r : DeploymentRun} :
    (r.toValue C).isSome ↔ r.id.value.toNat < UInt64.size := by
  rw [← RunId.toValue_isSome]
  unfold toValue
  cases r.id.toValue <;> simp

/-- **A run is read back**, if it is written and its dates are read back. -/
theorem DeploymentRun.fromValue_toValue {C : Chrono} {r : DeploymentRun} {v : Value}
    (hstarted : C.Reads r.startedAt) (hfinished : ∀ d, r.finishedAt = some d → C.Reads d)
    (h : r.toValue C = some v) : fromValue C v = some r := by
  unfold toValue at h
  obtain ⟨id, hid, hv⟩ := Option.bind_eq_some_iff.1 h
  cases hv
  have hsteps : (Value.arr (r.completedSteps.map OpsActionKind.toValue)).asArr
      OpsActionKind.fromValue = some r.completedSteps :=
    Value.asArr_map fun a _ => a.fromValue_toValue
  have hfin : Value.asOption C.fromValue
      ((r.finishedAt.map fun d => Value.str (C.format d)).getD .null) = some r.finishedAt := by
    cases hf : r.finishedAt with
    | none => rfl
    | some d =>
      show (C.fromValue (.str (C.format d))).map some = some (some d)
      rw [(hfinished d hf).fromValue]
      rfl
  unfold fromValue
  refine Option.bind_eq_some_iff.2 ⟨_, rfl, ?_⟩
  refine Option.bind_eq_some_iff.2 ⟨r.id, Value.required_of rfl (RunId.fromValue_toValue hid), ?_⟩
  refine Option.bind_eq_some_iff.2 ⟨r.target, Value.required_of rfl rfl, ?_⟩
  refine Option.bind_eq_some_iff.2 ⟨r.kind, Value.required_of rfl r.kind.fromValue_toValue, ?_⟩
  refine Option.bind_eq_some_iff.2 ⟨r.status, Value.required_of rfl r.status.fromValue_asStr, ?_⟩
  refine Option.bind_eq_some_iff.2 ⟨r.completedSteps, Value.required_of rfl hsteps, ?_⟩
  refine Option.bind_eq_some_iff.2 ⟨r.startedAt, Value.required_of rfl hstarted.fromValue, ?_⟩
  refine Option.bind_eq_some_iff.2 ⟨r.finishedAt, Value.optional_of rfl hfin, ?_⟩
  rfl

/-! ## What is read -/

/-- The document's string for the field `k`, if it has one, is one the
constructor with the bound `max` takes. -/
def FieldOk (names : List String) (k : String) (max : Option Nat) (v : Value) : Prop :=
  ∀ s, v.strField names k = some s → Accepts max s

theorem fieldOk_iff {names : List String} {k s : String} {max : Option Nat} {v : Value}
    (h : v.strField names k = some s) : FieldOk names k max v ↔ Accepts max s := by
  unfold FieldOk
  rw [h]
  simp

/-- The newtypes of the node are ones their constructors make. -/
structure ValidatorNode.Valid (n : ValidatorNode) : Prop where
  id : NodeId.new n.id.raw = .ok n.id
  clusterName : ClusterName.new n.clusterName.raw = .ok n.clusterName
  host : HostAddr.new n.host.raw = .ok n.host
  version : ValidatorVersion.new n.version.raw = .ok n.version

/-- The strings the document has for them are ones their constructors take. -/
structure ValidatorNode.StringsOk (v : Value) : Prop where
  id : FieldOk fieldNames "id" (some MAX_NODE_ID_LEN) v
  clusterName : FieldOk fieldNames "cluster_name" (some MAX_CLUSTER_NAME_LEN) v
  host : FieldOk fieldNames "host" (some MAX_HOST_ADDR_LEN) v
  version : FieldOk fieldNames "version" none v

/-- **A node is as valid as its document.** -/
theorem ValidatorNode.valid_iff {C : Chrono} {v : Value} {n : ValidatorNode}
    (h : fromValue C v = some n) : n.Valid ↔ StringsOk v := by
  unfold fromValue at h
  obtain ⟨get, hget, h⟩ := Option.bind_eq_some_iff.1 h
  obtain ⟨_, rid, h⟩ := Option.bind_eq_some_iff.1 h
  obtain ⟨_, rname, h⟩ := Option.bind_eq_some_iff.1 h
  obtain ⟨_, -, h⟩ := Option.bind_eq_some_iff.1 h
  obtain ⟨_, rhost, h⟩ := Option.bind_eq_some_iff.1 h
  obtain ⟨_, -, h⟩ := Option.bind_eq_some_iff.1 h
  obtain ⟨_, rversion, h⟩ := Option.bind_eq_some_iff.1 h
  obtain ⟨_, -, h⟩ := Option.bind_eq_some_iff.1 h
  obtain ⟨_, -, h⟩ := Option.bind_eq_some_iff.1 h
  obtain ⟨_, -, h⟩ := Option.bind_eq_some_iff.1 h
  cases h
  obtain ⟨id, hid, rfl⟩ := Value.strField_of_required hget rid
  obtain ⟨name, hname, rfl⟩ := Value.strField_of_required hget rname
  obtain ⟨host, hhost, rfl⟩ := Value.strField_of_required hget rhost
  obtain ⟨version, hversion, rfl⟩ := Value.strField_of_required hget rversion
  constructor
  · intro hv
    exact
      { id := (fieldOk_iff hid).2 ((new_eq_ok NodeId.mk).1 hv.id)
        clusterName := (fieldOk_iff hname).2 ((new_eq_ok ClusterName.mk).1 hv.clusterName)
        host := (fieldOk_iff hhost).2 ((new_eq_ok HostAddr.mk).1 hv.host)
        version := (fieldOk_iff hversion).2 ((new_eq_ok ValidatorVersion.mk).1 hv.version) }
  · intro hv
    exact
      { id := (new_eq_ok NodeId.mk).2 ((fieldOk_iff hid).1 hv.id)
        clusterName := (new_eq_ok ClusterName.mk).2 ((fieldOk_iff hname).1 hv.clusterName)
        host := (new_eq_ok HostAddr.mk).2 ((fieldOk_iff hhost).1 hv.host)
        version := (new_eq_ok ValidatorVersion.mk).2 ((fieldOk_iff hversion).1 hv.version) }

/-- The newtype of the kind, if it has one, is one its constructor makes. -/
def DeploymentKind.Valid : DeploymentKind → Prop
  | .upgrade targetVersion => ValidatorVersion.new targetVersion.raw = .ok targetVersion
  | .failover spare => NodeId.new spare.raw = .ok spare
  | .provision | .decommission => True

/-- The string the document has for it is one its constructor takes. -/
def DeploymentKind.StringsOk (v : Value) : Prop :=
  ∀ t rest, v.asTagged "kind" = some (t, rest) →
    (t = "upgrade" → FieldOk ["target_version"] "target_version" none rest) ∧
    (t = "failover" → FieldOk ["spare"] "spare" (some MAX_NODE_ID_LEN) rest)

theorem DeploymentKind.valid_iff {v : Value} {k : DeploymentKind} (h : fromValue v = some k) :
    k.Valid ↔ StringsOk v := by
  unfold fromValue at h
  obtain ⟨⟨t, rest⟩, htag, h⟩ := Option.bind_eq_some_iff.1 h
  have hdoc : StringsOk v ↔
      (t = "upgrade" → FieldOk ["target_version"] "target_version" none rest) ∧
      (t = "failover" → FieldOk ["spare"] "spare" (some MAX_NODE_ID_LEN) rest) := by
    unfold StringsOk
    rw [htag]
    simp
  rw [hdoc]
  dsimp only at h
  split at h
  · rename_i ht
    split at h
    · cases h
      simp [Valid, ht]
    · cases h
  split at h
  · rename_i ht
    obtain ⟨get, hget, h⟩ := Option.bind_eq_some_iff.1 h
    obtain ⟨_, rversion, h⟩ := Option.bind_eq_some_iff.1 h
    cases h
    obtain ⟨s, hs, rfl⟩ := Value.strField_of_required hget rversion
    have hnew : Valid (.upgrade ⟨s⟩) ↔ Accepts none s := new_eq_ok ValidatorVersion.mk
    rw [hnew]
    simp [ht, fieldOk_iff hs]
  split at h
  · rename_i ht
    obtain ⟨get, hget, h⟩ := Option.bind_eq_some_iff.1 h
    obtain ⟨_, rspare, h⟩ := Option.bind_eq_some_iff.1 h
    cases h
    obtain ⟨s, hs, rfl⟩ := Value.strField_of_required hget rspare
    have hnew : Valid (.failover ⟨s⟩) ↔ Accepts (some MAX_NODE_ID_LEN) s := new_eq_ok NodeId.mk
    rw [hnew]
    simp [ht, fieldOk_iff hs]
  split at h
  · rename_i ht
    split at h
    · cases h
      simp [Valid, ht]
    · cases h
  · cases h

/-- The newtypes of the run are ones their constructors make. -/
structure DeploymentRun.Valid (r : DeploymentRun) : Prop where
  target : NodeId.new r.target.raw = .ok r.target
  kind : r.kind.Valid

/-- The strings the document has for them are ones their constructors take. -/
structure DeploymentRun.StringsOk (v : Value) : Prop where
  target : FieldOk fieldNames "target" (some MAX_NODE_ID_LEN) v
  kind : ∀ w, v.field fieldNames "kind" = some w → DeploymentKind.StringsOk w

/-- **A run is as valid as its document.** -/
theorem DeploymentRun.valid_iff {C : Chrono} {v : Value} {r : DeploymentRun}
    (h : fromValue C v = some r) : r.Valid ↔ StringsOk v := by
  unfold fromValue at h
  obtain ⟨get, hget, h⟩ := Option.bind_eq_some_iff.1 h
  obtain ⟨_, -, h⟩ := Option.bind_eq_some_iff.1 h
  obtain ⟨_, rtarget, h⟩ := Option.bind_eq_some_iff.1 h
  obtain ⟨_, rkind, h⟩ := Option.bind_eq_some_iff.1 h
  obtain ⟨_, -, h⟩ := Option.bind_eq_some_iff.1 h
  obtain ⟨_, -, h⟩ := Option.bind_eq_some_iff.1 h
  obtain ⟨_, -, h⟩ := Option.bind_eq_some_iff.1 h
  obtain ⟨_, -, h⟩ := Option.bind_eq_some_iff.1 h
  cases h
  obtain ⟨target, htarget, rfl⟩ := Value.strField_of_required hget rtarget
  obtain ⟨w, hw, hkind⟩ := Value.field_of_required hget rkind
  have hvalid := DeploymentKind.valid_iff hkind
  constructor
  · intro hv
    refine ⟨(fieldOk_iff htarget).2 ((new_eq_ok NodeId.mk).1 hv.target), ?_⟩
    intro w' hw'
    cases hw.symm.trans hw'
    exact hvalid.1 hv.kind
  · intro hv
    exact ⟨(new_eq_ok NodeId.mk).2 ((fieldOk_iff htarget).1 hv.target), hvalid.2 (hv.kind w hw)⟩

end ValidatorForge.Types
