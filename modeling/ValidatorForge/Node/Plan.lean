import ValidatorForge.Core.Progress
import ValidatorForge.Infra.Iac

/-!
# The printed plan

crates/validatorforge-node/src/plan.rs: the `plan` command shows what a deployment
would run (`runPlan`), one section of Terraform and one of Ansible, without running
anything. Every check comes before the first line that is printed.

* `runPlan_law`: the first check that fails is what the command fails with; if none
  does, the sections read back as the resource and one play for each step, in order,
  if and only if the node's strings can be spliced in. The plays are those of the
  steps that a deployment of the kind completes.
-/
namespace ValidatorForge.Node

open Interaction ValidatorForge.Types ValidatorForge.Core ValidatorForge.Core.OpsEngine
open ValidatorForge.Infra.DefaultIacRenderer

/-- mirrors crates/validatorforge-node/src/config.rs:58-69 -/
inductive PlanKind where
  | provision | upgrade | failover | decommission
  deriving DecidableEq, Repr

/-- mirrors crates/validatorforge-node/src/config.rs:71-110 -/
structure PlanArgs where
  kind : PlanKind := .provision
  id : String := "val-01"
  clusterName : String := "eu-fiber"
  host : String := "val01.internal"
  version : String := "2.0.14"
  spare : String := "spare-01"
  deriving DecidableEq, Repr

/-- An error and the context it is given. -/
structure PlanError where
  context : String
  source : DomainError
  deriving DecidableEq, Repr

/-- `Context::context`. -/
def context {α : Type} (r : Except DomainError α) (msg : String) : Except PlanError α :=
  r.mapError (PlanError.mk msg)

/-- The steps from the one with index `i` on.
mirrors crates/validatorforge-node/src/plan.rs:47-52 -/
def printSteps (node : ValidatorNode) : (i : Nat) → List PlanStep → String
  | _, [] => ""
  | i, step :: steps =>
    "# step " ++ toString (i + 1) ++ " — " ++ (SagaStep.action step).asStr ++ "\n" ++
      (renderAnsible node (SagaStep.action step) ++ "\n") ++ printSteps node (i + 1) steps

/-- mirrors crates/validatorforge-node/src/plan.rs:44-45 -/
def terraformSection (node : ValidatorNode) (kind : DeploymentKind) : String :=
  "# === Terraform ===\n" ++ (renderTerraform node kind ++ "\n")

/-- mirrors crates/validatorforge-node/src/plan.rs:47-52 -/
def ansibleSection (node : ValidatorNode) (kind : DeploymentKind) : String :=
  "# === Ansible (saga steps) ===\n" ++ printSteps node 0 (buildPlan kind)

/-- What is printed; `now` is what `Utc::now()` returns.
mirrors crates/validatorforge-node/src/plan.rs:20-55 -/
def runPlan (now : DateTime) (args : PlanArgs) : Except PlanError String := do
  let id ← context (NodeId.new args.id) "invalid node id"
  let clusterName ← context (ClusterName.new args.clusterName) "invalid cluster name"
  let host ← context (HostAddr.new args.host) "invalid host address"
  let version ← context (ValidatorVersion.new args.version) "invalid version"
  let node := ValidatorNode.new id clusterName .testnet host .voting version now
  let kind ← match args.kind with
    | .provision => pure DeploymentKind.provision
    | .upgrade => do
      let targetVersion ← context (ValidatorVersion.new args.version) "invalid target version"
      pure (.upgrade targetVersion)
    | .failover => do
      let spare ← context (NodeId.new args.spare) "invalid spare id"
      pure (.failover spare)
    | .decommission => pure .decommission
  return terraformSection node kind ++ ansibleSection node kind

/-! ## The checks -/

/-- What a newtype's check fails with. -/
def check (msg field : String) (max : Option Nat) (raw : String) : Option PlanError :=
  match checkStr field max raw with
  | .ok _ => none
  | .error e => some ⟨msg, e⟩

/-- In the order in which they are made. The target of an upgrade is the version that
has been checked for the node, and the spare is looked at for a failover only. -/
def PlanArgs.checks (args : PlanArgs) : List (Option PlanError) :=
  [check "invalid node id" "node_id" (some MAX_NODE_ID_LEN) args.id,
    check "invalid cluster name" "cluster_name" (some MAX_CLUSTER_NAME_LEN) args.clusterName,
    check "invalid host address" "host" (some MAX_HOST_ADDR_LEN) args.host,
    check "invalid version" "version" none args.version,
    if args.kind = .failover then
      check "invalid spare id" "node_id" (some MAX_NODE_ID_LEN) args.spare
    else none]

/-- The first check that fails. -/
def PlanArgs.refusal (args : PlanArgs) : Option PlanError := args.checks.findSome? fun e => e

def PlanArgs.node (args : PlanArgs) (now : DateTime) : ValidatorNode :=
  .new ⟨args.id⟩ ⟨args.clusterName⟩ .testnet ⟨args.host⟩ .voting ⟨args.version⟩ now

def PlanArgs.deployment (args : PlanArgs) : DeploymentKind :=
  match args.kind with
  | .provision => .provision
  | .upgrade => .upgrade ⟨args.version⟩
  | .failover => .failover ⟨args.spare⟩
  | .decommission => .decommission

theorem context_checkStr {α β : Type} (mk : String → α) (msg field : String) (max : Option Nat)
    (raw : String) (k : α → Except PlanError β) :
    (context (mk <$> checkStr field max raw) msg >>= k) =
      match check msg field max raw with
      | some e => .error e
      | none => k (mk raw) := by
  unfold check
  cases hc : checkStr field max raw with
  | error e => rfl
  | ok s =>
    obtain ⟨rfl, -⟩ := checkStr_ok hc
    rfl

/-- The same check in another context. -/
theorem check_congr {msg msg' field : String} {max : Option Nat} {raw : String}
    (h : check msg field max raw = none) : check msg' field max raw = none := by
  unfold check at h ⊢
  cases hc : checkStr field max raw with
  | error e => simp [hc] at h
  | ok s => rfl

/-- The command fails with the first check that fails, or prints both sections. -/
theorem runPlan_eq (now : DateTime) (args : PlanArgs) :
    runPlan now args =
      match args.refusal with
      | some e => .error e
      | none => .ok (terraformSection (args.node now) args.deployment ++
          ansibleSection (args.node now) args.deployment) := by
  unfold runPlan NodeId.new ClusterName.new HostAddr.new ValidatorVersion.new
  unfold PlanArgs.refusal PlanArgs.checks
  simp only [context_checkStr]
  cases hid : check "invalid node id" "node_id" (some MAX_NODE_ID_LEN) args.id with
  | some e => rfl
  | none =>
  cases hname : check "invalid cluster name" "cluster_name" (some MAX_CLUSTER_NAME_LEN)
      args.clusterName with
  | some e => rfl
  | none =>
  cases hhost : check "invalid host address" "host" (some MAX_HOST_ADDR_LEN) args.host with
  | some e => rfl
  | none =>
  cases hversion : check "invalid version" "version" none args.version with
  | some e => rfl
  | none =>
  have htarget : check "invalid target version" "version" none args.version = none :=
    check_congr hversion
  unfold PlanArgs.deployment PlanArgs.node
  cases hkind : args.kind with
  | provision => rfl
  | decommission => rfl
  | upgrade =>
    simp only [htarget]
    rfl
  | failover =>
    cases check "invalid spare id" "node_id" (some MAX_NODE_ID_LEN) args.spare <;> rfl

/-! ## The sections, line by line -/

/-- A comment of printable characters says nothing. -/
theorem readEntries_comment {r : List Char} (h : ∀ c ∈ r, Yaml.isText c = true)
    (hline : Lines.OneLine Yaml.isBreak r) (resolve : List Char → Yaml.Tag) :
    Yaml.readEntries resolve ('#' :: r) = some [] := by
  have hall : r.all Yaml.isText = true := List.all_eq_true.2 h
  have hitem : Yaml.item resolve ('#' :: r) = some none := by
    simp [Yaml.item, hall]
  have hone : Lines.OneLine Yaml.isBreak ('#' :: r) := by
    intro c hc
    rcases List.mem_cons.1 hc with rfl | hc
    · rfl
    · exact hline c hc
  unfold Yaml.readEntries
  rw [Lines.read_line hone, hitem]
  rfl

theorem isText_of_isDigit {c : Char} (h : c.isDigit = true) :
    Yaml.isText c = true ∧ Yaml.isBreak c = false := by
  have hrange : 48 ≤ c.toNat ∧ c.toNat ≤ 57 := by
    simp only [Char.isDigit, Bool.and_eq_true, decide_eq_true_eq] at h
    exact ⟨h.1, h.2⟩
  constructor
  · simp only [Yaml.isText, decide_eq_true_eq]
    omega
  · unfold Yaml.isBreak
    simp only [decide_eq_false_iff_not, not_or]
    constructor
    · rintro rfl
      exact absurd hrange (by decide)
    · rintro rfl
      exact absurd hrange (by decide)

theorem of_all_text {l : List Char}
    (h : (l.all fun c => Yaml.isText c && !Yaml.isBreak c) = true) :
    ∀ c ∈ l, Yaml.isText c = true ∧ Yaml.isBreak c = false := by
  simpa using h

/-- A step's heading is a comment. -/
theorem read_heading (resolve : List Char → Yaml.Tag) (i : Nat) (action : OpsActionKind) :
    Yaml.readEntries resolve ("# step " ++ toString (i + 1) ++ " — " ++ action.asStr).toList =
      some [] := by
  have hstep : ∀ c ∈ " step ".toList, Yaml.isText c = true ∧ Yaml.isBreak c = false :=
    of_all_text rfl
  have haction : ∀ c ∈ " — ".toList ++ action.asStr.toList,
      Yaml.isText c = true ∧ Yaml.isBreak c = false := by
    cases action <;> exact of_all_text rfl
  have hchars : ∀ c ∈ " step ".toList ++ (Nat.toDigits 10 (i + 1) ++ (" — ".toList ++
      action.asStr.toList)), Yaml.isText c = true ∧ Yaml.isBreak c = false := by
    intro c hc
    rcases List.mem_append.1 hc with hc | hc
    · exact hstep c hc
    · rcases List.mem_append.1 hc with hc | hc
      · exact isText_of_isDigit (Nat.isDigit_of_mem_toDigits (by decide) (by decide) hc)
      · exact haction c hc
  have htext : ("# step " ++ toString (i + 1) ++ " — " ++ action.asStr).toList =
      '#' :: (" step ".toList ++ (Nat.toDigits 10 (i + 1) ++ (" — ".toList ++
        action.asStr.toList))) := by
    simp
  rw [htext]
  apply readEntries_comment
  · intro c hc
    exact (hchars c hc).1
  · intro c hc
    exact (hchars c hc).2

/-- The Terraform section is read as its text is. -/
theorem readBlocks_terraformSection (node : ValidatorNode) (kind : DeploymentKind) :
    Hcl.readBlocks (terraformSection node kind).toList =
      Hcl.readBlocks (renderTerraform node kind).toList := by
  have htitle : Hcl.readItems "# === Terraform ===".toList = some [] := by decide +kernel
  have hend : Hcl.readItems [] = some [] := rfl
  have hitems : Hcl.readItems (terraformSection node kind).toList =
      Hcl.readItems (renderTerraform node kind).toList := by
    have htext : (terraformSection node kind).toList =
        "# === Terraform ===".toList ++ '\n' :: ((renderTerraform node kind).toList ++ '\n' :: []) := by
      unfold terraformSection
      simp only [String.toList_append]
      rfl
    rw [htext, Hcl.readItems_append, htitle, Hcl.readItems_append, hend]
    simp
  unfold Hcl.readBlocks
  rw [hitems]

/-- Behind its name, what a play is read as does not depend on its task. -/
def behindName (resolve : List Char → Yaml.Tag) (node : ValidatorNode)
    (es₁ es₂ : List Yaml.Entry) : List Yaml.Entry :=
  es₁ ++ (middleEntries resolve ++ (es₂ ++ [clusterEntry node]))

section Steps

variable {resolve : List Char → Yaml.Tag} {node : ValidatorNode}

theorem toList_printSteps_cons (i : Nat) (step : PlanStep) (steps : List PlanStep) :
    (printSteps node i (step :: steps)).toList =
      ("# step " ++ toString (i + 1) ++ " — " ++ (SagaStep.action step).asStr).toList ++ '\n' ::
        ((renderAnsible node (SagaStep.action step)).toList ++ '\n' ::
          (printSteps node (i + 1) steps).toList) := by
  have hbreak : "\n".toList = ['\n'] := rfl
  rw [printSteps]
  simp only [String.toList_append, List.append_assoc, hbreak, List.cons_append, List.nil_append]

/-- The first step is read, and then the others. -/
theorem readEntries_printSteps_cons (i : Nat) (step : PlanStep) (steps : List PlanStep) :
    Yaml.readEntries resolve (printSteps node i (step :: steps)).toList =
      (Yaml.readEntries resolve (renderAnsible node (SagaStep.action step)).toList).bind fun es =>
        (Yaml.readEntries resolve (printSteps node (i + 1) steps).toList).map (es ++ ·) := by
  rw [toList_printSteps_cons, Yaml.readEntries_append, read_heading, Option.bind_some,
    Yaml.readEntries_append]
  simp

/-- All steps are read if the lines that differ between nodes are. -/
theorem readEntries_printSteps {es₁ es₂ : List Yaml.Entry}
    (h₁ : Yaml.readEntries resolve ("  hosts: ".toList ++ node.host.raw.toList) = some es₁)
    (h₂ : Yaml.readEntries resolve ("    validator_version: \"".toList ++
      (node.version.raw.toList ++ ['"'])) = some es₂) (i : Nat) (steps : List PlanStep) :
    Yaml.readEntries resolve (printSteps node i steps).toList =
      some (steps.flatMap fun step =>
        nameEntry resolve (SagaStep.action step) :: behindName resolve node es₁ es₂) := by
  induction steps generalizing i with
  | nil => rfl
  | cons step steps ih =>
    rw [readEntries_printSteps_cons, renderAnsible_entries, h₁, h₂, ih]
    rfl

/-- What is read at all has its lines read. -/
theorem lines_of_printSteps {i : Nat} {step : PlanStep} {steps : List PlanStep}
    {es : List Yaml.Entry}
    (h : Yaml.readEntries resolve (printSteps node i (step :: steps)).toList = some es) :
    ∃ es₁ es₂,
      Yaml.readEntries resolve ("  hosts: ".toList ++ node.host.raw.toList) = some es₁ ∧
      Yaml.readEntries resolve ("    validator_version: \"".toList ++
        (node.version.raw.toList ++ ['"'])) = some es₂ := by
  rw [readEntries_printSteps_cons, renderAnsible_entries] at h
  obtain ⟨_, hplay, -⟩ := Option.bind_eq_some_iff.1 h
  obtain ⟨es₁, h₁, hplay⟩ := Option.bind_eq_some_iff.1 hplay
  obtain ⟨es₂, h₂, -⟩ := Option.map_eq_some_iff.1 hplay
  exact ⟨es₁, es₂, h₁, h₂⟩

/-- The lines of a play that says what the node says. -/
theorem mappingEntries_play (action : OpsActionKind) :
    Yaml.mappingEntries (play resolve node action) =
      nameEntry resolve action :: behindName resolve node
        [⟨2, false, "hosts".toList, some ⟨.str, node.host.raw.toList⟩⟩]
        [⟨4, false, "validator_version".toList, some ⟨.str, node.version.raw.toList⟩⟩] := rfl

/-- Put together, the lines of the steps' plays are the plays. -/
theorem assemble_plays (steps : List PlanStep) :
    Lines.assemble Yaml.attach ⟨[], [], []⟩ (steps.flatMap fun step =>
        Yaml.mappingEntries (play resolve node (SagaStep.action step))) =
      some ⟨[], [], steps.map fun step => play resolve node (SagaStep.action step)⟩ := by
  induction steps with
  | nil => rfl
  | cons step steps ih =>
    rw [List.flatMap_cons, Lines.assemble_append, ih]
    rfl

/-- **All the plays of a plan.** They read back as one play for each step, in order, if
and only if one of them does. -/
theorem printSteps_iff (i : Nat) (step : PlanStep) (steps : List PlanStep) :
    Yaml.readMappings resolve (printSteps node i (step :: steps)).toList =
        some ((step :: steps).map fun s => play resolve node (SagaStep.action s)) ↔
      Yaml.Plain node.host.raw.toList ∧ resolve node.host.raw.toList = .str ∧
        Literal.Clean Yaml.dialect node.version.raw.toList := by
  constructor
  · intro h
    have hread := Yaml.readMappings_entries h
    obtain ⟨es₁, es₂, h₁, h₂⟩ := lines_of_printSteps hread
    rw [readEntries_printSteps h₁ h₂, List.flatMap_map, Option.some.injEq] at hread
    simp only [mappingEntries_play] at hread
    have hbehind := Lines.eq_of_repeated step steps hread
    -- so the first play alone is read as it should be
    have hentries : Yaml.readEntries resolve (renderAnsible node (SagaStep.action step)).toList =
        some (Yaml.mappingEntries (play resolve node (SagaStep.action step))) := by
      rw [renderAnsible_entries, h₁, h₂, mappingEntries_play, ← hbehind]
      rfl
    have hplay : Yaml.readMappings resolve (renderAnsible node (SagaStep.action step)).toList =
        some [play resolve node (SagaStep.action step)] := by
      unfold Yaml.readMappings
      rw [hentries]
      rfl
    exact ansible_iff.1 hplay
  · intro h
    obtain ⟨hplain, hstr, hversion⟩ := h
    unfold Yaml.readMappings
    rw [readEntries_printSteps (read_hosts hplain hstr) (read_version hversion)]
    simp only [← mappingEntries_play, Option.bind_some, assemble_plays]

end Steps

/-! ## The whole plan -/

/-- Read back, the sections are the node's resource and one play for each step. -/
structure Shows (resolve : List Char → Yaml.Tag) (node : ValidatorNode) (kind : DeploymentKind) :
    Prop where
  terraform : Hcl.readBlocks (terraformSection node kind).toList = some [resource node]
  ansible : Yaml.readMappings resolve (ansibleSection node kind).toList =
    some ((planned kind).map (play resolve node))

/-- The Ansible section is read as its steps are. -/
theorem readMappings_ansibleSection (resolve : List Char → Yaml.Tag) (node : ValidatorNode)
    (kind : DeploymentKind) :
    Yaml.readMappings resolve (ansibleSection node kind).toList =
      Yaml.readMappings resolve (printSteps node 0 (buildPlan kind)).toList := by
  have htitle : Yaml.readEntries resolve "# === Ansible (saga steps) ===".toList = some [] := rfl
  have hentries : Yaml.readEntries resolve (ansibleSection node kind).toList =
      Yaml.readEntries resolve (printSteps node 0 (buildPlan kind)).toList := by
    have htext : (ansibleSection node kind).toList = "# === Ansible (saga steps) ===".toList ++
        '\n' :: (printSteps node 0 (buildPlan kind)).toList := by
      unfold ansibleSection
      simp only [String.toList_append]
      rfl
    rw [htext, Yaml.readEntries_append, htitle]
    simp
  unfold Yaml.readMappings
  rw [hentries]

theorem shows_iff {resolve : List Char → Yaml.Tag} {node : ValidatorNode} {kind : DeploymentKind} :
    Shows resolve node kind ↔ Spliceable resolve node := by
  obtain ⟨step, steps, hplan⟩ : ∃ step steps, buildPlan kind = step :: steps := by
    cases kind <;> exact ⟨_, _, rfl⟩
  have hplays : (planned kind).map (play resolve node) =
      (step :: steps).map fun s => play resolve node (SagaStep.action s) := by
    unfold planned
    rw [hplan, List.map_map]
    rfl
  constructor
  · intro h
    obtain ⟨hid, hhost⟩ := terraform_iff.1 ((readBlocks_terraformSection node kind).symm.trans
      h.terraform)
    have hansible := h.ansible
    rw [readMappings_ansibleSection, hplan, hplays] at hansible
    obtain ⟨hplain, hstr, hversion⟩ := (printSteps_iff 0 step steps).1 hansible
    exact ⟨hid, hhost, hplain, hstr, hversion⟩
  · intro h
    constructor
    · rw [readBlocks_terraformSection]
      exact terraform_iff.2 ⟨h.id, h.host⟩
    · rw [readMappings_ansibleSection, hplan, hplays]
      exact (printSteps_iff 0 step steps).2 ⟨h.plain, h.string, h.version⟩

/-- A deployment completes the steps that are shown, in their order. -/
theorem completed_shown {id : NodeId} {kind : DeploymentKind} {tr : List EngineSig.Ev}
    {run : DeploymentRun} (h : (startDeployment id kind).run.Exec tr (.ok run)) :
    run.completedSteps <+: planned kind ∧
      (run.completedSteps = planned kind ↔ run.status = .succeeded) := by
  rcases startDeployment_cases h with ⟨e, -, he⟩ | ⟨node, spareHost, lt, bt, hl, rfl, hd⟩
  · cases he
  · obtain ⟨m, hc⟩ := deploy_completed hl hd
    exact ⟨hc.steps, hc.whole⟩

/-- **The plan that is shown.** The command fails with the first check that fails. If
none does it prints its two sections, which say exactly what the node and the plan say
if and only if the node's strings can be spliced in; and whatever deployment of that
kind completes steps, completes those with the first plays shown, and all of them if
and only if it succeeds. -/
theorem runPlan_law (resolve : List Char → Yaml.Tag) (now : DateTime) (args : PlanArgs) :
    match args.refusal with
    | some e => runPlan now args = .error e
    | none =>
      runPlan now args = .ok (terraformSection (args.node now) args.deployment ++
        ansibleSection (args.node now) args.deployment) ∧
      (Shows resolve (args.node now) args.deployment ↔ Spliceable resolve (args.node now)) ∧
      ∀ id tr run, (startDeployment id args.deployment).run.Exec tr (.ok run) →
        let plays := (planned args.deployment).map (play resolve (args.node now))
        let completed := run.completedSteps.map (play resolve (args.node now))
        completed <+: plays ∧ (completed = plays ↔ run.status = .succeeded) := by
  have heq := runPlan_eq now args
  cases hrefusal : args.refusal with
  | some e =>
    rw [hrefusal] at heq
    exact heq
  | none =>
    rw [hrefusal] at heq
    refine ⟨heq, shows_iff, ?_⟩
    intro id tr run hx
    obtain ⟨hpre, hwhole⟩ := completed_shown hx
    refine ⟨hpre.map _, ?_⟩
    rw [← hwhole]
    constructor
    · intro hplays
      have hlen := congrArg List.length hplays
      simp only [List.length_map] at hlen
      exact hpre.eq_of_length hlen
    · intro hsteps
      rw [hsteps]

/-- The plan for an upgrade of the default node can be read back. -/
theorem runPlan_law_upgrade :
    let args : PlanArgs := { kind := .upgrade }
    (runPlan 0 args).isOk = true ∧ Shows Yaml.core (args.node 0) args.deployment := by
  intro args
  have hlaw := runPlan_law Yaml.core 0 args
  have hrefusal : args.refusal = none := by decide +kernel
  rw [hrefusal] at hlaw
  obtain ⟨hprinted, hshows, -⟩ := hlaw
  have hread : Yaml.readPlain "val01.internal".toList = some "val01.internal".toList := by
    decide +kernel
  refine ⟨by rw [hprinted]; rfl, hshows.2 ⟨?_, ?_, ?_, by decide +kernel, ?_⟩⟩
  · show Literal.Clean Hcl.dialect "val-01".toList
    simp [Literal.clean_cons, Literal.clean_nil, Hcl.dialect]
  · show Literal.Clean Hcl.dialect "val01.internal".toList
    simp [Literal.clean_cons, Literal.clean_nil, Hcl.dialect]
  · exact ((Yaml.readPlain_sound hread).2 rfl).2
  · show Literal.Clean Yaml.dialect "2.0.14".toList
    simp [Literal.clean_cons, Literal.clean_nil, Yaml.dialect]

end ValidatorForge.Node
