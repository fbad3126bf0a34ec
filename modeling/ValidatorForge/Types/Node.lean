import ValidatorForge.Types.Ids
import Mathlib.Logic.Relation

/-!
# Validator nodes and their lifecycle

crates/validatorforge-types/src/node.rs: the lifecycle graph
(`canTransitionTo`), the node aggregate and its two mutations. `Reaches` is the
reflexive transitive closure of the graph; `Reaches.rank_le` bounds it by a
rank, from which the terminal states and the one-way edges are read off.
-/
namespace ValidatorForge.Types

/-- mirrors crates/validatorforge-types/src/node.rs:12-19 -/
inductive Cluster where
  | mainnet | testnet | devnet
  deriving DecidableEq, Repr

/-- mirrors crates/validatorforge-types/src/node.rs:21-31 -/
def Cluster.asStr : Cluster → String
  | .mainnet => "mainnet"
  | .testnet => "testnet"
  | .devnet => "devnet"

/-- mirrors crates/validatorforge-types/src/node.rs:42-49 -/
inductive NodeRole where
  | voting | rpc | hotSpare
  deriving DecidableEq, Repr

/-- mirrors crates/validatorforge-types/src/node.rs:51-61 -/
def NodeRole.asStr : NodeRole → String
  | .voting => "voting"
  | .rpc => "rpc"
  | .hotSpare => "hot_spare"

/-- mirrors crates/validatorforge-types/src/node.rs:84-103 -/
inductive NodeState where
  | provisioning | bootstrapping | catchingUp | active | delinquent | draining
  | decommissioned | failed
  deriving DecidableEq, Repr

namespace NodeState

/-- mirrors crates/validatorforge-types/src/node.rs:107-119 -/
def asStr : NodeState → String
  | provisioning => "provisioning"
  | bootstrapping => "bootstrapping"
  | catchingUp => "catching_up"
  | active => "active"
  | delinquent => "delinquent"
  | draining => "draining"
  | decommissioned => "decommissioned"
  | failed => "failed"

/-- mirrors crates/validatorforge-types/src/node.rs:121-125 -/
def isTerminal : NodeState → Bool
  | decommissioned | failed => true
  | _ => false

/-- mirrors crates/validatorforge-types/src/node.rs:127-131 -/
def isHealthy : NodeState → Bool
  | active => true
  | _ => false

/-- mirrors crates/validatorforge-types/src/node.rs:133-155 -/
def canTransitionTo : NodeState → NodeState → Bool
  | provisioning, bootstrapping => true
  | provisioning, failed => true
  | bootstrapping, catchingUp => true
  | bootstrapping, failed => true
  | catchingUp, active => true
  | catchingUp, failed => true
  | active, delinquent => true
  | active, draining => true
  | delinquent, catchingUp => true
  | delinquent, draining => true
  | draining, decommissioned => true
  | draining, catchingUp => true
  | _, _ => false

/-- `t` can be reached from `s` along permitted edges (or is `s`). -/
def Reaches : NodeState → NodeState → Prop :=
  Relation.ReflTransGen fun s t => s.canTransitionTo t = true

instance : Trans Reaches Reaches Reaches := ⟨Relation.ReflTransGen.trans⟩

/-- A terminal state has no edge out of it. -/
theorem not_canTransitionTo_of_isTerminal {s t : NodeState} (h : s.isTerminal = true) :
    s.canTransitionTo t = false := by
  cases s <;> cases t <;> first | rfl | cases h

theorem Reaches.eq_of_isTerminal {s t : NodeState} (h : Reaches s t) (hs : s.isTerminal = true) :
    t = s := by
  induction h with
  | refl => rfl
  | tail _ he ih =>
    subst ih
    rw [not_canTransitionTo_of_isTerminal hs] at he
    cases he

/-- The states in which a node has been started at least once come after those
in which it has not: no edge lowers this rank. -/
def rank : NodeState → Nat
  | provisioning => 0
  | bootstrapping => 1
  | _ => 2

theorem rank_le_of_canTransitionTo {s t : NodeState} (h : s.canTransitionTo t = true) :
    s.rank ≤ t.rank := by
  cases s <;> cases t <;> first | decide | cases h

theorem Reaches.rank_le {s t : NodeState} (h : Reaches s t) : s.rank ≤ t.rank := by
  induction h with
  | refl => exact Nat.le_refl _
  | tail _ he ih => exact Nat.le_trans ih (rank_le_of_canTransitionTo he)

/-- Nothing leads back to `Provisioning`. -/
theorem Reaches.eq_of_provisioning {s : NodeState} (h : Reaches s provisioning) :
    s = provisioning := by
  have hr := h.rank_le
  cases s <;> first | rfl | simp [rank] at hr

end NodeState

/-- mirrors crates/validatorforge-types/src/node.rs:164-178 -/
structure ValidatorNode where
  id : NodeId
  clusterName : ClusterName
  cluster : Cluster
  host : HostAddr
  role : NodeRole
  version : ValidatorVersion
  state : NodeState
  createdAt : DateTime
  updatedAt : DateTime
  deriving DecidableEq, Repr

namespace ValidatorNode

/-- mirrors crates/validatorforge-types/src/node.rs:180-205 -/
def new (id : NodeId) (clusterName : ClusterName) (cluster : Cluster) (host : HostAddr)
    (role : NodeRole) (version : ValidatorVersion) (now : DateTime) : ValidatorNode :=
  { id, clusterName, cluster, host, role, version, state := .provisioning,
    createdAt := now, updatedAt := now }

/-- mirrors crates/validatorforge-types/src/node.rs:264-278 -/
def transitionTo (n : ValidatorNode) (next : NodeState) (now : DateTime) :
    Except DomainError ValidatorNode :=
  if !n.state.canTransitionTo next then
    .error (.illegalTransition n.state.asStr next.asStr)
  else .ok { n with state := next, updatedAt := now }

/-- mirrors crates/validatorforge-types/src/node.rs:280-284 -/
def setVersion (n : ValidatorNode) (version : ValidatorVersion) (now : DateTime) : ValidatorNode :=
  { n with version, updatedAt := now }

/-- The fields no operation changes: all but version, state and `updatedAt`. -/
structure SameRecord (n m : ValidatorNode) : Prop where
  id : m.id = n.id
  clusterName : m.clusterName = n.clusterName
  cluster : m.cluster = n.cluster
  host : m.host = n.host
  role : m.role = n.role
  createdAt : m.createdAt = n.createdAt

theorem SameRecord.refl (n : ValidatorNode) : SameRecord n n := ⟨rfl, rfl, rfl, rfl, rfl, rfl⟩

theorem SameRecord.trans {a b c : ValidatorNode} (h : SameRecord a b) (h' : SameRecord b c) :
    SameRecord a c :=
  ⟨h'.id.trans h.id, h'.clusterName.trans h.clusterName, h'.cluster.trans h.cluster,
    h'.host.trans h.host, h'.role.trans h.role, h'.createdAt.trans h.createdAt⟩

theorem SameRecord.symm {a b : ValidatorNode} (h : SameRecord a b) : SameRecord b a :=
  ⟨h.id.symm, h.clusterName.symm, h.cluster.symm, h.host.symm, h.role.symm, h.createdAt.symm⟩

theorem transitionTo_eq_ok {n m : ValidatorNode} {next : NodeState} {now : DateTime} :
    n.transitionTo next now = .ok m ↔
      n.state.canTransitionTo next = true ∧ m = { n with state := next, updatedAt := now } := by
  unfold transitionTo
  cases n.state.canTransitionTo next <;> simp [eq_comm]

theorem transitionTo_eq_error {n : ValidatorNode} {next : NodeState} {now : DateTime}
    {e : DomainError} :
    n.transitionTo next now = .error e ↔
      n.state.canTransitionTo next = false ∧
        e = .illegalTransition n.state.asStr next.asStr := by
  unfold transitionTo
  cases n.state.canTransitionTo next <;> simp [eq_comm]

end ValidatorNode

end ValidatorForge.Types
