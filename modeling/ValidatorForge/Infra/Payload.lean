import ValidatorForge.Infra.Pg
import ValidatorForge.Types.Wire

/-!
# The payload columns

What crates/validatorforge-infra/src/pg.rs writes into a payload column
(`encodeNode`, `encodeRun`) and reads back from it (`decode`). serde_json's error
texts are an argument. `pgRepo_saveRun_iff` ties the encoder to the repository of
`Infra.Pg`, whose columns hold the value itself.

* `decode_valid_iff`: what is read is as valid as the document read, and what is
  written is read back.
* `decodeNode_blank`: a document with a blank id is read.
-/
namespace ValidatorForge.Infra

open Json ValidatorForge.Types ValidatorForge.Core ValidatorForge.Resilience

/-- mirrors crates/validatorforge-infra/src/pg.rs:25-27 -/
def decode {α : Type} (fromValue : Value → Option α) (text : Value → String) (v : Value) :
    Except PortError α :=
  match fromValue v with
  | some a => .ok a
  | none => .error (.internal ("decode: " ++ text v))

def decodeNode (C : Chrono) (text : Value → String) : Value → Except PortError ValidatorNode :=
  decode (ValidatorNode.fromValue C) text

def decodeRun (C : Chrono) (text : Value → String) : Value → Except PortError DeploymentRun :=
  decode (DeploymentRun.fromValue C) text

/-- mirrors crates/validatorforge-infra/src/pg.rs:57-58 -/
def encodeNode (C : Chrono) (node : ValidatorNode) : Except PortError Value :=
  .ok (node.toValue C)

/-- mirrors crates/validatorforge-infra/src/pg.rs:100-102 -/
def encodeRun (C : Chrono) (text : String) (run : DeploymentRun) : Except PortError Value :=
  match run.toValue C with
  | some v => .ok v
  | none => .error (.internal ("encode: " ++ text))

theorem decode_eq_ok {α : Type} {fromValue : Value → Option α} {text : Value → String}
    {v : Value} {a : α} : decode fromValue text v = .ok a ↔ fromValue v = some a := by
  unfold decode
  cases fromValue v <;> simp

theorem encodeRun_eq_ok {C : Chrono} {text : String} {run : DeploymentRun} {v : Value} :
    encodeRun C text run = .ok v ↔ run.toValue C = some v := by
  unfold encodeRun
  cases run.toValue C <;> simp

/-- A `u128` above `u64::MAX` is not encoded. -/
theorem toValue_isSome_iff {C : Chrono} {run : DeploymentRun} :
    (run.toValue C).isSome ↔ run.id.value.toNat ≤ U64_MAX :=
  DeploymentRun.toValue_isSome.trans Nat.lt_succ_iff

/-- The repository saves the runs that are encoded, and answers the others with
the encoder's error. -/
theorem pgRepo_saveRun_iff (C : Chrono) {run : DeploymentRun} {s s' : PgNodeRepository}
    {r : RepoSig.Resp (.saveRun run)} :
    pgRepo (.saveRun run) s r s' ↔
      ∃ text, match encodeRun C text run with
        | .ok _ => r = .ok () ∧ s' = s.saveRun run
        | .error e => r = .error e ∧ s' = s := by
  have hsome : (run.toValue C).isSome ↔ run.id.value.toNat ≤ U64_MAX := toValue_isSome_iff
  unfold encodeRun
  cases hv : run.toValue C with
  | some v =>
    rw [hv] at hsome
    rw [pgRepo_saveRun (hsome.1 rfl)]
    simp
  | none =>
    rw [hv] at hsome
    have hlarge : ¬ run.id.value.toNat ≤ U64_MAX := by simpa using hsome
    simp only [pgRepo, if_neg hlarge]
    exact exists_and_right.symm

/-- **What is read from a payload column.** Whatever chrono's texts of dates are:
a node or a run that is read satisfies the constructors of its newtypes exactly
when the strings the document has for them do; and, where its dates are read back
from their texts, a node is written and read back, and a run is exactly when its
id is a `u64`. -/
theorem decode_valid_iff (C : Chrono) (text : Value → String) (encodeText : String) :
    (∀ v node, decodeNode C text v = .ok node → (node.Valid ↔ ValidatorNode.StringsOk v)) ∧
    (∀ v run, decodeRun C text v = .ok run → (run.Valid ↔ DeploymentRun.StringsOk v)) ∧
    (∀ node : ValidatorNode, C.Reads node.createdAt → C.Reads node.updatedAt →
      ∃ v, encodeNode C node = .ok v ∧ decodeNode C text v = .ok node) ∧
    (∀ run : DeploymentRun, C.Reads run.startedAt →
      (∀ d, run.finishedAt = some d → C.Reads d) →
      ((∃ v, encodeRun C encodeText run = .ok v ∧ decodeRun C text v = .ok run) ↔
        run.id.value.toNat ≤ U64_MAX)) := by
  refine ⟨?_, ?_, ?_, ?_⟩
  · intro v node h
    exact ValidatorNode.valid_iff (decode_eq_ok.1 h)
  · intro v run h
    exact DeploymentRun.valid_iff (decode_eq_ok.1 h)
  · intro node hcreated hupdated
    exact ⟨_, rfl, decode_eq_ok.2 (ValidatorNode.fromValue_toValue hcreated hupdated)⟩
  · intro run hstarted hfinished
    rw [← toValue_isSome_iff (C := C), Option.isSome_iff_exists]
    constructor
    · intro ⟨v, hv, _⟩
      exact ⟨v, encodeRun_eq_ok.1 hv⟩
    · intro ⟨v, hv⟩
      refine ⟨v, encodeRun_eq_ok.2 hv, decode_eq_ok.2 ?_⟩
      exact DeploymentRun.fromValue_toValue hstarted hfinished hv

/-! ## A blank id -/

/-- The one date of the documents below. -/
def newYear : Chrono where
  format _ := "2026-01-01T00:00:00Z"
  parse s := if s = "2026-01-01T00:00:00Z" then some 1767225600000000000 else none

def blankDocument : Value :=
  .obj
    [("id", .str ""), ("cluster_name", .str "eu-central-fiber"), ("cluster", .str "testnet"),
      ("host", .str "val01.internal"), ("role", .str "voting"), ("version", .str "2.0.14"),
      ("state", .str "provisioning"), ("created_at", .str "2026-01-01T00:00:00Z"),
      ("updated_at", .str "2026-01-01T00:00:00Z")]

def blankNode : ValidatorNode :=
  { id := ⟨""⟩
    clusterName := ⟨"eu-central-fiber"⟩
    cluster := .testnet
    host := ⟨"val01.internal"⟩
    role := .voting
    version := ⟨"2.0.14"⟩
    state := .provisioning
    createdAt := 1767225600000000000
    updatedAt := 1767225600000000000 }

/-- **A node with a blank id is read**, and `NodeId::new` refuses it. -/
theorem decodeNode_blank :
    decodeNode newYear (fun _ => "") blankDocument = .ok blankNode ∧
      NodeId.new blankNode.id.raw = .error (.empty "node_id") :=
  ⟨rfl, rfl⟩

/-- An upgrade with one step behind it. -/
def upgradeRun : DeploymentRun :=
  { id := ⟨7⟩
    target := ⟨"eu-val-01"⟩
    kind := .upgrade ⟨"2.1.0"⟩
    status := .running
    completedSteps := [.drain]
    startedAt := 1767225600000000000
    finishedAt := none }

/-- The blank document is not a valid one, and the upgrade is written and read back. -/
theorem decode_valid_iff_upgradeRun :
    ¬ ValidatorNode.StringsOk blankDocument ∧
      ∃ v, encodeRun newYear "" upgradeRun = .ok v ∧
        decodeRun newYear (fun _ => "") v = .ok upgradeRun := by
  constructor
  · intro h
    have hvalid := ((decode_valid_iff newYear (fun _ => "") "").1 blankDocument blankNode rfl).2 h
    have hnew : NodeId.new blankNode.id.raw = .error (.empty "node_id") := rfl
    rw [hvalid.id] at hnew
    cases hnew
  · apply ((decode_valid_iff newYear (fun _ => "") "").2.2.2 upgradeRun rfl ?_).2
    · decide
    · intro d hd
      cases hd

end ValidatorForge.Infra
