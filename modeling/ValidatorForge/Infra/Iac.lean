import ValidatorForge.Types.Node
import ValidatorForge.Types.Ops
import ValidatorForge.Lib.Hcl
import ValidatorForge.Lib.Yaml

/-!
# Rendered infrastructure code

crates/validatorforge-infra/src/iac.rs: the Terraform and Ansible texts of a node
(`renderTerraform`, `renderAnsible`), and what their readers make of them. The
node's id, host and version are spliced in as they are, and the constructors of
`Types.Ids` let quotes, backslashes, line breaks and template markers through.

* `saysExactly_iff`: both texts say exactly what the node says if and only if
  its id, host and version can be spliced in (`Spliceable`).
* `terraform_iff`, `ansible_iff`: the same for each of the two texts.
* `not_saysExactly`: an accepted host that adds an attribute to the resource
  (`terraform_injected`), and one that adds an entry to the play
  (`ansible_injected`).
-/
namespace ValidatorForge.Infra.DefaultIacRenderer
open ValidatorForge.Types

/-- Lines, each ended by a line feed. -/
def unlines : List String → String
  | [] => ""
  | l :: ls => l ++ "\n" ++ unlines ls

@[simp] theorem toList_unlines_nil : (unlines []).toList = [] := rfl

@[simp] theorem toList_unlines_cons (l : String) (ls : List String) :
    (unlines (l :: ls)).toList = l.toList ++ '\n' :: (unlines ls).toList := by
  simp [unlines]

/-- The lines of the resource behind its host name.
mirrors crates/validatorforge-infra/src/iac.rs:26-30 -/
def fixedLines (node : ValidatorNode) : List String :=
  ["  plan             = \"m3.large.x86\"",
    "  metro            = \"fr\"",
    "  operating_system = \"ubuntu_22_04\"",
    "  billing_cycle    = \"hourly\"",
    "  tags             = [\"solana\", \"" ++ node.cluster.asStr ++ "\", \"" ++ node.role.asStr ++
      "\"]",
    "\x7d"]

/-- mirrors crates/validatorforge-infra/src/iac.rs:21-37 -/
def renderTerraform (node : ValidatorNode) (kind : DeploymentKind) : String :=
  unlines
    (["# Terraform plan for " ++ (node.id.raw ++ (" (" ++ node.cluster.asStr ++ ") — " ++
        kind.asStr)),
      "resource \"metal_device\" \"" ++ (node.id.raw ++ "\" \x7b"),
      "  hostname         = \"" ++ (node.host.raw ++ "\"")] ++ fixedLines node)

/-- mirrors crates/validatorforge-infra/src/iac.rs:40-50 -/
def task : OpsActionKind → String
  | .applyInfra => "base bootstrap (users, firewall, fail2ban)"
  | .tuneHost => "performance tuning (sysctl, hugepages, CPU governor=performance, NIC rings)"
  | .startValidator => "install + start agave-validator systemd unit"
  | .awaitCatchup => "poll catchup via agave-validator monitor"
  | .drain => "set identity to junk keypair, wait for restart window"
  | .swapIdentity => "copy staked identity keypair and hot-swap"
  | .destroyInfra => "stop services, wipe ledger, deprovision"

/-- mirrors crates/validatorforge-infra/src/iac.rs:39-63 -/
def renderAnsible (node : ValidatorNode) (action : OpsActionKind) : String :=
  unlines
    ["- name: " ++ task action,
      "  hosts: " ++ node.host.raw,
      "  become: true",
      "  vars:",
      "    validator_version: \"" ++ (node.version.raw ++ "\""),
      "    cluster: \"" ++ node.cluster.asStr ++ "\""]

/-! ## What the texts are to say -/

/-- The attributes of the resource behind its host name. -/
def fixedAttrs (node : ValidatorNode) : List (List Char × Hcl.Value) :=
  [("plan".toList, .literal "m3.large.x86".toList),
    ("metro".toList, .literal "fr".toList),
    ("operating_system".toList, .literal "ubuntu_22_04".toList),
    ("billing_cycle".toList, .literal "hourly".toList),
    ("tags".toList,
      .tuple ["solana".toList, node.cluster.asStr.toList, node.role.asStr.toList])]

/-- The resource of a node. -/
def resource (node : ValidatorNode) : Hcl.Block where
  kind := "resource".toList
  labels := ["metal_device".toList, node.id.raw.toList]
  attrs := ("hostname".toList, .literal node.host.raw.toList) :: fixedAttrs node

/-- The play of a node and an action. -/
def play (resolve : List Char → Yaml.Tag) (node : ValidatorNode) (action : OpsActionKind) :
    List (List Char × Yaml.Field) :=
  [("name".toList, .scalar ⟨resolve (task action).toList, (task action).toList⟩),
    ("hosts".toList, .scalar ⟨.str, node.host.raw.toList⟩),
    ("become".toList, .scalar ⟨resolve "true".toList, "true".toList⟩),
    ("vars".toList, .mapping
      [("validator_version".toList, some ⟨.str, node.version.raw.toList⟩),
        ("cluster".toList, some ⟨.str, node.cluster.asStr.toList⟩)])]

/-- Read back, the two texts are the node's one resource and its one play, for a
YAML reader of any schema. -/
structure SaysExactly (resolve : List Char → Yaml.Tag) (node : ValidatorNode)
    (kind : DeploymentKind) (action : OpsActionKind) : Prop where
  terraform : Hcl.readBlocks (renderTerraform node kind).toList = some [resource node]
  ansible : Yaml.readMappings resolve (renderAnsible node action).toList =
    some [play resolve node action]

/-- The strings of a node can be spliced into both texts as they are. -/
structure Spliceable (resolve : List Char → Yaml.Tag) (node : ValidatorNode) : Prop where
  id : Literal.Clean Hcl.dialect node.id.raw.toList
  host : Literal.Clean Hcl.dialect node.host.raw.toList
  plain : Yaml.Plain node.host.raw.toList
  string : resolve node.host.raw.toList = .str
  version : Literal.Clean Yaml.dialect node.version.raw.toList

variable {node : ValidatorNode} {kind : DeploymentKind} {action : OpsActionKind}
  {resolve : List Char → Yaml.Tag}

/-! ## The Terraform text, line by line -/

/-- The lines behind the host name add their attributes and close the block. -/
theorem read_fixedLines (node : ValidatorNode) :
    Hcl.readItems (unlines (fixedLines node)).toList = some (Hcl.bodyItems (fixedAttrs node)) := by
  unfold fixedLines fixedAttrs
  -- literals are lists of characters before anything is evaluated
  cases node.cluster <;> cases node.role <;>
    simp only [toList_unlines_cons, toList_unlines_nil, String.toList_append, Cluster.asStr,
      NodeRole.asStr] <;>
    repeat rw [String.toList_ofList]
  all_goals decide +kernel

/-- The text is its first three lines, whatever is spliced into them, and the
fixed ones. -/
theorem renderTerraform_items :
    Hcl.readItems (renderTerraform node kind).toList =
      (Hcl.readItems ("# Terraform plan for ".toList ++ (node.id.raw.toList ++
        (" (" ++ node.cluster.asStr ++ ") — " ++ kind.asStr).toList))).bind fun is₁ =>
      (Hcl.readItems ("resource \"metal_device\" \"".toList ++
        (node.id.raw.toList ++ "\" \x7b".toList))).bind fun is₂ =>
      (Hcl.readItems ("  hostname         = \"".toList ++
        (node.host.raw.toList ++ ['"']))).map fun is₃ =>
      is₁ ++ (is₂ ++ (is₃ ++ Hcl.bodyItems (fixedAttrs node))) := by
  have hquote : "\"".toList = ['"'] := rfl
  unfold renderTerraform
  simp only [List.cons_append, List.nil_append, toList_unlines_cons, String.toList_append,
    Hcl.readItems_append, read_fixedLines, hquote, Option.map_eq_bind, Option.bind_assoc,
    Option.bind_some, Function.comp_def]

/-- The comment adds nothing, unless the id ends its line. -/
theorem read_comment (node : ValidatorNode) (kind : DeploymentKind)
    (h : Lines.OneLine Hcl.isBreak node.id.raw.toList) :
    Hcl.readItems ("# Terraform plan for ".toList ++ (node.id.raw.toList ++
      (" (" ++ node.cluster.asStr ++ ") — " ++ kind.asStr).toList)) = some [] := by
  have hrest : Lines.OneLine Hcl.isBreak (" (" ++ node.cluster.asStr ++ ") — " ++ kind.asStr).toList := by
    cases node.cluster <;> cases kind <;>
      simp only [String.toList_append, Cluster.asStr, DeploymentKind.asStr] <;>
      repeat rw [String.toList_ofList]
    all_goals decide
  unfold Hcl.readItems
  rw [Lines.read_line (Lines.oneLine_append.2 ⟨by decide, Lines.oneLine_append.2 ⟨h, hrest⟩⟩)]
  rfl

/-- The line of the label, up to its literal. -/
theorem item_header (w : List Char) :
    Hcl.item ("resource \"metal_device\" \"".toList ++ w) =
      (((Hcl.labels (w.length + 15) ('"' :: w)).map ("metal_device".toList :: ·)).map
        (Hcl.Item.header "resource".toList)).map some := rfl

/-- The line of the host name, up to its literal. -/
theorem item_hostname (w : List Char) :
    Hcl.item ("  hostname         = \"".toList ++ w) =
      ((Hcl.value ('"' :: w)).map (Hcl.Item.attr "hostname".toList)).map some := rfl

/-- What the line of the label is read as, whatever the id. -/
theorem header_items {is : List Hcl.Item}
    (h : Hcl.readItems ("resource \"metal_device\" \"".toList ++
      (node.id.raw.toList ++ "\" \x7b".toList)) = some is) :
    ∃ w s r ls rest, w <+: node.id.raw.toList ++ "\" \x7b".toList ∧
      Literal.read Hcl.dialect w = some (s, r) ∧
      is = .header "resource".toList ("metal_device".toList :: s :: ls) :: rest := by
  obtain ⟨w, o, rest, hw, ho, his⟩ := Lines.read_cut (by decide) h
  rw [item_header] at ho
  obtain ⟨i, hi, hoi⟩ := Option.map_eq_some_iff.1 ho
  obtain ⟨ls, hls, hil⟩ := Option.map_eq_some_iff.1 hi
  obtain ⟨ls', hls', hl⟩ := Option.map_eq_some_iff.1 hls
  obtain ⟨s, r, ls'', hr, hs⟩ := Hcl.labels_literal hls'
  refine ⟨w, s, r, ls'', rest, hw, hr, ?_⟩
  rw [his, ← hoi, ← hil, ← hl, hs]
  rfl

/-- The same for the line of the host name. -/
theorem host_items {is : List Hcl.Item}
    (h : Hcl.readItems ("  hostname         = \"".toList ++ (node.host.raw.toList ++ ['"'])) =
      some is) :
    ∃ w s r rest, w <+: node.host.raw.toList ++ ['"'] ∧
      Literal.read Hcl.dialect w = some (s, r) ∧
      is = .attr "hostname".toList (.literal s) :: rest := by
  obtain ⟨w, o, rest, hw, ho, his⟩ := Lines.read_cut (by decide) h
  rw [item_hostname] at ho
  obtain ⟨i, hi, hoi⟩ := Option.map_eq_some_iff.1 ho
  obtain ⟨v, hv, hiv⟩ := Option.map_eq_some_iff.1 hi
  obtain ⟨s, r, hr, hs⟩ := Hcl.value_literal hv
  refine ⟨w, s, r, rest, hw, hr, ?_⟩
  rw [his, ← hoi, ← hiv, hs]
  rfl

theorem read_header (h : Literal.Clean Hcl.dialect node.id.raw.toList) :
    Hcl.readItems ("resource \"metal_device\" \"".toList ++
        (node.id.raw.toList ++ "\" \x7b".toList)) =
      some [.header "resource".toList ["metal_device".toList, node.id.raw.toList]] := by
  have hlabels : Hcl.labels ((node.id.raw.toList ++ "\" \x7b".toList).length + 15)
      ('"' :: (node.id.raw.toList ++ "\" \x7b".toList)) = some [node.id.raw.toList] :=
    Hcl.labels_clean h _ " \x7b".toList
  unfold Hcl.readItems
  rw [Lines.read_line (Lines.oneLine_append.2
    ⟨by decide, Lines.oneLine_append.2 ⟨Hcl.oneLine_of_clean h, by decide⟩⟩), item_header, hlabels]
  rfl

theorem read_host (h : Literal.Clean Hcl.dialect node.host.raw.toList) :
    Hcl.readItems ("  hostname         = \"".toList ++ (node.host.raw.toList ++ ['"'])) =
      some [.attr "hostname".toList (.literal node.host.raw.toList)] := by
  unfold Hcl.readItems
  rw [Lines.read_line (Lines.oneLine_append.2
    ⟨by decide, Lines.oneLine_append.2 ⟨Hcl.oneLine_of_clean h, by decide⟩⟩), item_hostname,
    Hcl.value_clean h]
  rfl

/-- **The Terraform text.** It reads back as the node's one resource if and only
if id and host are clean. -/
theorem terraform_iff :
    Hcl.readBlocks (renderTerraform node kind).toList = some [resource node] ↔
      Literal.Clean Hcl.dialect node.id.raw.toList ∧
        Literal.Clean Hcl.dialect node.host.raw.toList := by
  constructor
  · intro h
    have hread := renderTerraform_items.symm.trans (Hcl.readBlocks_eq_some.1 h)
    obtain ⟨is₁, -, hread⟩ := Option.bind_eq_some_iff.1 hread
    obtain ⟨is₂, h₂, hread⟩ := Option.bind_eq_some_iff.1 hread
    obtain ⟨is₃, h₃, his⟩ := Option.map_eq_some_iff.1 hread
    obtain ⟨w₂, s₂, r₂, ls, rest₂, hw₂, hr₂, hi₂⟩ := header_items h₂
    obtain ⟨w₃, s₃, r₃, rest₃, hw₃, hr₃, hi₃⟩ := host_items h₃
    -- one header and one host name are all there is before the fixed attributes
    rw [hi₂, hi₃] at his
    obtain ⟨hheader, hhost⟩ := Lines.eq_of_spliced [] his.symm
    have hid : node.id.raw.toList = s₂ :=
      (List.cons.inj (List.cons.inj (Hcl.Item.header.inj hheader).2).2).1
    have hname : node.host.raw.toList = s₃ := Hcl.Value.literal.inj (Hcl.Item.attr.inj hhost).2
    rw [← hid] at hr₂
    rw [← hname] at hr₃
    exact ⟨Literal.read_spliced (by decide) hw₂ hr₂, Literal.read_spliced (by decide) hw₃ hr₃⟩
  · intro h
    obtain ⟨hid, hhost⟩ := h
    rw [Hcl.readBlocks_eq_some, renderTerraform_items,
      read_comment node kind (Hcl.oneLine_of_clean hid), read_header hid, read_host hhost]
    rfl

/-! ## The Ansible text, line by line -/

theorem task_plain (action : OpsActionKind) : Yaml.Plain (task action).toList := by
  have hread : Yaml.readPlain (task action).toList = some (task action).toList := by
    cases action <;> unfold task <;> dsimp only <;> rw [String.toList_ofList]
    all_goals decide +kernel
  exact ((Yaml.readPlain_sound hread).2 rfl).2

/-- The entry of the task. -/
def nameEntry (resolve : List Char → Yaml.Tag) (action : OpsActionKind) : Yaml.Entry :=
  ⟨2, true, "name".toList, some ⟨resolve (task action).toList, (task action).toList⟩⟩

theorem read_name (resolve : List Char → Yaml.Tag) (action : OpsActionKind) :
    Yaml.readEntries resolve ("- name: ".toList ++ (task action).toList) =
      some [nameEntry resolve action] := by
  have hline : Yaml.item resolve ("- name: ".toList ++ (task action).toList) =
      ((Yaml.scalar resolve (' ' :: (task action).toList)).map
        fun v => Yaml.Entry.mk 2 true "name".toList v).map some := rfl
  unfold Yaml.readEntries
  rw [Lines.read_line (Lines.oneLine_append.2
    ⟨by decide, Yaml.oneLine_of_plain (task_plain action)⟩), hline,
    Yaml.scalar_plain (task_plain action)]
  rfl

/-- The entries between the hosts and the version. -/
def middleEntries (resolve : List Char → Yaml.Tag) : List Yaml.Entry :=
  [⟨2, false, "become".toList, some ⟨resolve "true".toList, "true".toList⟩⟩,
    ⟨2, false, "vars".toList, none⟩]

theorem read_become (resolve : List Char → Yaml.Tag) :
    Yaml.readEntries resolve "  become: true".toList =
      some [⟨2, false, "become".toList, some ⟨resolve "true".toList, "true".toList⟩⟩] := by
  unfold Yaml.readEntries
  rw [Lines.read_line (by decide)]
  rfl

theorem read_vars (resolve : List Char → Yaml.Tag) :
    Yaml.readEntries resolve "  vars:".toList = some [⟨2, false, "vars".toList, none⟩] := rfl

/-- The entry of the cluster. -/
def clusterEntry (node : ValidatorNode) : Yaml.Entry :=
  ⟨4, false, "cluster".toList, some ⟨.str, node.cluster.asStr.toList⟩⟩

theorem read_cluster (resolve : List Char → Yaml.Tag) (node : ValidatorNode) :
    Yaml.readEntries resolve ("    cluster: \"" ++ node.cluster.asStr ++ "\"").toList =
      some [clusterEntry node] := by
  unfold clusterEntry
  cases node.cluster <;> rfl

/-- The text is its lines, whatever is spliced into two of them. -/
theorem renderAnsible_entries :
    Yaml.readEntries resolve (renderAnsible node action).toList =
      (Yaml.readEntries resolve ("  hosts: ".toList ++ node.host.raw.toList)).bind fun es₁ =>
      (Yaml.readEntries resolve ("    validator_version: \"".toList ++
        (node.version.raw.toList ++ ['"']))).map fun es₂ =>
      nameEntry resolve action ::
        (es₁ ++ (middleEntries resolve ++ (es₂ ++ [clusterEntry node]))) := by
  have hquote : "\"".toList = ['"'] := rfl
  have hcluster := read_cluster resolve node
  have hend : Yaml.readEntries resolve [] = some [] := rfl
  unfold renderAnsible
  simp only [toList_unlines_cons, toList_unlines_nil, String.toList_append, hquote,
    Yaml.readEntries_append] at hcluster ⊢
  rw [read_name, read_become, read_vars, hcluster, hend]
  simp only [Option.map_eq_bind, Option.bind_assoc, Option.bind_some, Function.comp_def,
    middleEntries, List.cons_append, List.nil_append]

/-- The line of the hosts, up to its value. -/
theorem item_hosts (resolve : List Char → Yaml.Tag) (w : List Char) :
    Yaml.item resolve ("  hosts: ".toList ++ w) =
      ((Yaml.scalar resolve (' ' :: w)).map (Yaml.Entry.mk 2 false "hosts".toList)).map some := rfl

/-- The line of the version, up to its literal. -/
theorem item_version (resolve : List Char → Yaml.Tag) (w : List Char) :
    Yaml.item resolve ("    validator_version: \"".toList ++ w) =
      ((Yaml.scalar resolve (' ' :: '"' :: w)).map
        (Yaml.Entry.mk 4 false "validator_version".toList)).map some := rfl

/-- What the line of the hosts is read as, whatever the host. -/
theorem hosts_entries {es : List Yaml.Entry}
    (h : Yaml.readEntries resolve ("  hosts: ".toList ++ node.host.raw.toList) = some es) :
    ∃ w v rest, w <+: node.host.raw.toList ∧ Yaml.scalar resolve (' ' :: w) = some v ∧
      es = ⟨2, false, "hosts".toList, v⟩ :: rest := by
  obtain ⟨w, o, rest, hw, ho, hes⟩ := Lines.read_cut (by decide) h
  rw [item_hosts] at ho
  obtain ⟨e, he, hoe⟩ := Option.map_eq_some_iff.1 ho
  obtain ⟨v, hv, hev⟩ := Option.map_eq_some_iff.1 he
  refine ⟨w, v, rest, hw, hv, ?_⟩
  rw [hes, ← hoe, ← hev]
  rfl

/-- The same for the line of the version. -/
theorem version_entries {es : List Yaml.Entry}
    (h : Yaml.readEntries resolve ("    validator_version: \"".toList ++
      (node.version.raw.toList ++ ['"'])) = some es) :
    ∃ w s r rest, w <+: node.version.raw.toList ++ ['"'] ∧
      Literal.read Yaml.dialect w = some (s, r) ∧
      es = ⟨4, false, "validator_version".toList, some ⟨.str, s⟩⟩ :: rest := by
  obtain ⟨w, o, rest, hw, ho, hes⟩ := Lines.read_cut (by decide) h
  rw [item_version] at ho
  obtain ⟨e, he, hoe⟩ := Option.map_eq_some_iff.1 ho
  obtain ⟨v, hv, hev⟩ := Option.map_eq_some_iff.1 he
  obtain ⟨s, r, hr, hs⟩ := Yaml.scalar_literal hv
  refine ⟨w, s, r, rest, hw, hr, ?_⟩
  rw [hes, ← hoe, ← hev, hs]
  rfl

theorem read_hosts (h : Yaml.Plain node.host.raw.toList)
    (hs : resolve node.host.raw.toList = .str) :
    Yaml.readEntries resolve ("  hosts: ".toList ++ node.host.raw.toList) =
      some [⟨2, false, "hosts".toList, some ⟨.str, node.host.raw.toList⟩⟩] := by
  unfold Yaml.readEntries
  rw [Lines.read_line (Lines.oneLine_append.2 ⟨by decide, Yaml.oneLine_of_plain h⟩), item_hosts,
    Yaml.scalar_plain h, hs]
  rfl

theorem read_version (h : Literal.Clean Yaml.dialect node.version.raw.toList) :
    Yaml.readEntries resolve ("    validator_version: \"".toList ++
        (node.version.raw.toList ++ ['"'])) =
      some [⟨4, false, "validator_version".toList,
        some ⟨.str, node.version.raw.toList⟩⟩] := by
  unfold Yaml.readEntries
  rw [Lines.read_line (Lines.oneLine_append.2
    ⟨by decide, Lines.oneLine_append.2 ⟨Yaml.oneLine_of_clean h, by decide⟩⟩), item_version,
    Yaml.scalar_clean h]
  rfl

/-- The lines of the play. -/
theorem play_entries (resolve : List Char → Yaml.Tag) (node : ValidatorNode)
    (action : OpsActionKind) :
    [play resolve node action].flatMap Yaml.mappingEntries =
      nameEntry resolve action ::
        ⟨2, false, "hosts".toList, some ⟨.str, node.host.raw.toList⟩⟩ ::
        (middleEntries resolve ++
          ⟨4, false, "validator_version".toList, some ⟨.str, node.version.raw.toList⟩⟩ ::
          [clusterEntry node]) := rfl

/-- **The Ansible text.** It reads back as the node's one play if and only if the
host is a plain string and the version is clean. -/
theorem ansible_iff :
    Yaml.readMappings resolve (renderAnsible node action).toList =
        some [play resolve node action] ↔
      Yaml.Plain node.host.raw.toList ∧ resolve node.host.raw.toList = .str ∧
        Literal.Clean Yaml.dialect node.version.raw.toList := by
  constructor
  · intro h
    have hread := renderAnsible_entries.symm.trans (Yaml.readMappings_entries h)
    obtain ⟨es₁, h₁, hread⟩ := Option.bind_eq_some_iff.1 hread
    obtain ⟨es₂, h₂, hes⟩ := Option.map_eq_some_iff.1 hread
    obtain ⟨w₁, v, rest₁, hw₁, hv, he₁⟩ := hosts_entries h₁
    obtain ⟨w₂, s, r, rest₂, hw₂, hr, he₂⟩ := version_entries h₂
    rw [he₁, he₂, play_entries] at hes
    -- the hosts and the version are one entry each
    obtain ⟨hhosts, hversion⟩ := Lines.eq_of_spliced (middleEntries resolve)
      ((List.cons.inj hes).2.symm.trans (List.nil_append _).symm)
    have hvhost : some ⟨.str, node.host.raw.toList⟩ = v := (Yaml.Entry.mk.inj hhosts).2.2.2
    have hsversion : node.version.raw.toList = s :=
      (Yaml.Scalar.mk.inj (Option.some.inj (Yaml.Entry.mk.inj hversion).2.2.2)).2
    rw [← hvhost] at hv
    rw [← hsversion] at hr
    obtain ⟨hplain, hstr⟩ := Yaml.scalar_spliced hw₁ hv
    exact ⟨hplain, hstr, Literal.read_spliced (by decide) hw₂ hr⟩
  · intro h
    obtain ⟨hplain, hstr, hversion⟩ := h
    unfold Yaml.readMappings
    rw [renderAnsible_entries, read_hosts hplain hstr, read_version hversion]
    rfl

/-! ## Both texts -/

/-- **What the rendered texts say.** For a YAML reader of any schema, every
deployment and every action: exactly what the node says if and only if its
strings can be spliced in. -/
theorem saysExactly_iff (resolve : List Char → Yaml.Tag) (node : ValidatorNode)
    (kind : DeploymentKind) (action : OpsActionKind) :
    SaysExactly resolve node kind action ↔ Spliceable resolve node := by
  constructor
  · intro h
    obtain ⟨hid, hhost⟩ := terraform_iff.1 h.terraform
    obtain ⟨hplain, hstr, hversion⟩ := ansible_iff.1 h.ansible
    exact ⟨hid, hhost, hplain, hstr, hversion⟩
  · intro h
    exact ⟨terraform_iff.2 ⟨h.id, h.host⟩, ansible_iff.2 ⟨h.plain, h.string, h.version⟩⟩

/-- A node of the tests with another host. -/
def nodeAt (host : String) : ValidatorNode :=
  .new ⟨"eu-val-01"⟩ ⟨"eu-fiber"⟩ .mainnet ⟨host⟩ .voting ⟨"2.0.14"⟩ 0

/-- A host that closes its literal and adds an attribute to the resource. -/
theorem terraform_injected :
    Hcl.readBlocks (renderTerraform (nodeAt "x\"\n  user_data = \"evil") .provision).toList =
      some [⟨"resource".toList, ["metal_device".toList, "eu-val-01".toList],
        ("hostname".toList, .literal "x".toList) :: ("user_data".toList, .literal "evil".toList) ::
          fixedAttrs (nodeAt "x\"\n  user_data = \"evil")⟩] := by
  simp only [renderTerraform, fixedLines, fixedAttrs, nodeAt, ValidatorNode.new, Cluster.asStr,
    NodeRole.asStr, DeploymentKind.asStr, List.cons_append, List.nil_append, toList_unlines_cons,
    toList_unlines_nil, String.toList_append]
  repeat rw [String.toList_ofList]
  decide +kernel

/-- A host that ends its line and adds an entry to the play. -/
theorem ansible_injected :
    Yaml.readMappings Yaml.core
        (renderAnsible (nodeAt "all\n  become_user: root") .drain).toList =
      some [[("name".toList, .scalar ⟨.str, (task .drain).toList⟩),
        ("hosts".toList, .scalar ⟨.str, "all".toList⟩),
        ("become_user".toList, .scalar ⟨.str, "root".toList⟩),
        ("become".toList, .scalar ⟨.bool, "true".toList⟩),
        ("vars".toList, .mapping
          [("validator_version".toList, some ⟨.str, "2.0.14".toList⟩),
            ("cluster".toList, some ⟨.str, "mainnet".toList⟩)])]] := by
  simp only [renderAnsible, task, nodeAt, ValidatorNode.new, Cluster.asStr, toList_unlines_cons,
    toList_unlines_nil, String.toList_append]
  repeat rw [String.toList_ofList]
  decide +kernel

/-- The constructors accept every string of both nodes. -/
theorem not_saysExactly :
    NodeId.new "eu-val-01" = .ok (nodeAt "").id ∧
    ClusterName.new "eu-fiber" = .ok (nodeAt "").clusterName ∧
    ValidatorVersion.new "2.0.14" = .ok (nodeAt "").version ∧
    HostAddr.new "x\"\n  user_data = \"evil" =
      .ok (nodeAt "x\"\n  user_data = \"evil").host ∧
    HostAddr.new "all\n  become_user: root" = .ok (nodeAt "all\n  become_user: root").host ∧
    ¬ SaysExactly Yaml.core (nodeAt "x\"\n  user_data = \"evil") .provision .drain ∧
    ¬ SaysExactly Yaml.core (nodeAt "all\n  become_user: root") .provision .drain := by
  refine ⟨by decide +kernel, by decide +kernel, by decide +kernel, by decide +kernel,
    by decide +kernel, ?_, ?_⟩
  · intro h
    have hlen := congrArg (Option.map fun bs => bs.map fun b => b.attrs.length)
      (terraform_injected.symm.trans h.terraform)
    exact absurd hlen (by decide)
  · intro h
    have hlen := congrArg (Option.map fun ms => ms.map List.length)
      (ansible_injected.symm.trans h.ansible)
    exact absurd hlen (by decide)

end ValidatorForge.Infra.DefaultIacRenderer
