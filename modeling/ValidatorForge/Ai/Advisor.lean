import Mathlib.Data.List.Infix
import ValidatorForge.Core.Engine

/-!
# The advisor

crates/validatorforge-ai/src/advisor.rs. `recommend` is an ordered cascade of
rules over the node's state and role and the trigger words of a free text;
`str::contains` is a sublist of characters, decided.

* `action_eq`, `urgency_eq`: the cascade, with what fires each rule named.
* `recommend_startable_iff`: when a recommended deployment can be started.
* `recommend_urgency_le_iff`: when more text cannot lower the urgency.
-/
namespace ValidatorForge.Ai

open ValidatorForge.Types ValidatorForge.Core

/-- mirrors crates/validatorforge-ai/src/advisor.rs:8-24 -/
inductive RecommendedAction where
  | hold | investigate | tuneHost | failover | upgrade | decommission
  deriving DecidableEq, Repr

/-- mirrors crates/validatorforge-ai/src/advisor.rs:41-51 -/
inductive Urgency where
  | low | medium | high
  deriving DecidableEq, Repr

/-- mirrors crates/validatorforge-ai/src/advisor.rs:53-62 -/
structure Recommendation where
  action : RecommendedAction
  urgency : Urgency
  rationale : String
  deriving DecidableEq, Repr

/-- `str::contains`. -/
def contains (s w : String) : Bool := decide (w.toList <:+: s.toList)

namespace HeuristicAdvisor

/-- `to_ascii_lowercase` is `toLower`.
mirrors crates/validatorforge-ai/src/advisor.rs:80-177 -/
def recommend (node : ValidatorNode) (context : String) : Recommendation :=
  let ctx := context.toLower
  let state := node.state
  if state = .failed then
    { action := .investigate
      urgency := .high
      rationale :=
        "node is in a terminal Failed state; inspect provisioning/bootstrap logs before retrying" }
  else if state = .delinquent || contains ctx "delinquent" || contains ctx "not voting" then
    if node.role = .voting then
      { action := .failover
        urgency := .high
        rationale :=
          "voting node is delinquent; fail the staked identity over to a hot spare to stop " ++
            "missing votes" }
    else
      { action := .investigate
        urgency := .medium
        rationale := "non-voting node is delinquent; no stake at risk, investigate connectivity" }
  else if contains ctx "upgrade" || contains ctx "new version" || contains ctx "cve" then
    { action := .upgrade
      urgency := if contains ctx "cve" then .high else .medium
      rationale :=
        "a newer/secure version is indicated; run the zero-downtime upgrade saga " ++
          "(drain → restart → catch up)" }
  else if (contains ctx "lag" || contains ctx "behind" || contains ctx "slow") &&
      state.isHealthy then
    { action := .tuneHost
      urgency := .medium
      rationale :=
        "node is active but lagging; apply host tuning (hugepages, CPU governor, NIC) and " ++
          "re-evaluate" }
  else if state = .provisioning || state = .bootstrapping || state = .catchingUp then
    { action := .hold
      urgency := .low
      rationale :=
        "node is mid-lifecycle; allow the in-flight run to complete before intervening" }
  else if state = .draining || state = .decommissioned then
    { action := .hold
      urgency := .low
      rationale := "node is draining/decommissioned; no action required" }
  else
    { action := .hold
      urgency := .low
      rationale := "node is active and within tolerances; hold" }

/-! ## What fires each rule -/

/-- The text speaks of delinquency. -/
def saysDelinquent (context : String) : Bool :=
  contains context.toLower "delinquent" || contains context.toLower "not voting"

/-- The text names a vulnerability. -/
def saysCve (context : String) : Bool := contains context.toLower "cve"

/-- The text asks for an upgrade. -/
def saysUpgrade (context : String) : Bool :=
  contains context.toLower "upgrade" || contains context.toLower "new version" || saysCve context

/-- The text speaks of lag. -/
def saysLag (context : String) : Bool :=
  contains context.toLower "lag" || contains context.toLower "behind" ||
    contains context.toLower "slow"

/-- Rule 2 fires. -/
def delinquent (node : ValidatorNode) (context : String) : Bool :=
  node.state = .delinquent || saysDelinquent context

/-- The first rule that fires gives both action and urgency. -/
theorem recommend_eq (node : ValidatorNode) (context : String) :
    ((recommend node context).action, (recommend node context).urgency) =
      if node.state = .failed then (.investigate, .high)
      else if delinquent node context then
        if node.role = .voting then (.failover, .high) else (.investigate, .medium)
      else if saysUpgrade context then (.upgrade, if saysCve context then .high else .medium)
      else if saysLag context && node.state.isHealthy then (.tuneHost, .medium)
      else (.hold, .low) := by
  unfold recommend delinquent saysDelinquent saysUpgrade saysCve saysLag
  simp only [Bool.or_assoc]
  split
  · rfl
  · split
    · split <;> rfl
    · split
      · rfl
      · split
        · rfl
        · split
          · rfl
          · split <;> rfl

theorem action_eq (node : ValidatorNode) (context : String) :
    (recommend node context).action =
      if node.state = .failed then .investigate
      else if delinquent node context then
        if node.role = .voting then .failover else .investigate
      else if saysUpgrade context then .upgrade
      else if saysLag context && node.state.isHealthy then .tuneHost
      else .hold := by
  have h := congrArg Prod.fst (recommend_eq node context)
  simpa only [apply_ite Prod.fst] using h

theorem urgency_eq (node : ValidatorNode) (context : String) :
    (recommend node context).urgency =
      if node.state = .failed then .high
      else if delinquent node context then
        if node.role = .voting then .high else .medium
      else if saysUpgrade context then if saysCve context then .high else .medium
      else if saysLag context && node.state.isHealthy then .medium
      else .low := by
  have h := congrArg Prod.snd (recommend_eq node context)
  simpa only [apply_ite Prod.snd] using h

/-! ## What can be started -/

end HeuristicAdvisor

/-- The recommendation is to start a deployment of this kind. -/
def RecommendedAction.Deploys : RecommendedAction → DeploymentKind → Prop
  | .upgrade, .upgrade _ | .failover, .failover _ | .decommission, .decommission => True
  | _, _ => False

/-- A deployment the action names can take its first transition from `state`. -/
def RecommendedAction.Startable (a : RecommendedAction) (state : NodeState) : Prop :=
  ∀ kind, a.Deploys kind → ∀ first ∈ (OpsEngine.successPath kind).head?,
    state.canTransitionTo first = true

/-- All three deployments start by draining. -/
theorem RecommendedAction.Deploys.head {a : RecommendedAction} {kind : DeploymentKind}
    (h : a.Deploys kind) :
    (a = .upgrade ∨ a = .failover ∨ a = .decommission) ∧
      (OpsEngine.successPath kind).head? = some .draining := by
  cases a <;> cases kind <;> first | exact h.elim | exact ⟨by simp, rfl⟩

theorem RecommendedAction.startable_iff {a : RecommendedAction} {state : NodeState} :
    a.Startable state ↔
      (a = .upgrade ∨ a = .failover ∨ a = .decommission →
        state = .active ∨ state = .delinquent) := by
  have hdrain : state.canTransitionTo .draining = true ↔ state = .active ∨ state = .delinquent := by
    cases state <;> decide
  rw [← hdrain]
  constructor
  · rintro h (rfl | rfl | rfl)
    · exact h (.upgrade ⟨""⟩) trivial .draining rfl
    · exact h (.failover ⟨""⟩) trivial .draining rfl
    · exact h .decommission trivial .draining rfl
  · intro h kind hk first hf
    obtain ⟨ha, hhead⟩ := hk.head
    rw [hhead, Option.mem_some_iff] at hf
    rw [← hf]
    exact h ha

namespace HeuristicAdvisor

/-- **What the advisor recommends can be started** exactly if the node is
active, delinquent or failed, or the text names no deployment for its role. -/
theorem recommend_startable_iff (node : ValidatorNode) (context : String) :
    (recommend node context).action.Startable node.state ↔
      node.state = .active ∨ node.state = .delinquent ∨ node.state = .failed ∨
        if node.role = .voting then saysDelinquent context = false ∧ saysUpgrade context = false
        else saysDelinquent context = true ∨ saysUpgrade context = false := by
  rw [RecommendedAction.startable_iff, action_eq]
  unfold delinquent
  generalize saysDelinquent context = d, saysUpgrade context = u, saysLag context = l
  by_cases hv : node.role = .voting
  · cases hs : node.state <;> cases d <;> cases u <;> cases l <;>
      simp [hv, NodeState.isHealthy]
  · cases hs : node.state <;> cases d <;> cases u <;> cases l <;>
      simp [hv, NodeState.isHealthy]

/-- A node that is still being provisioned, and a text about an upgrade. -/
theorem recommend_upgrade_provisioning :
    ¬ ∀ (node : ValidatorNode) (context : String),
      (recommend node context).action.Startable node.state := by
  intro h
  have hstart := h (.new ⟨"eu-val-01"⟩ ⟨"eu-fiber"⟩ .mainnet ⟨"val01.internal"⟩ .voting ⟨"2.0.14"⟩ 0)
    "upgrade"
  rw [RecommendedAction.startable_iff] at hstart
  exact absurd (hstart (by decide +kernel)) (by decide)

/-! ## What more text does -/

end HeuristicAdvisor

/-- `Low < Medium < High`. -/
def Urgency.rank : Urgency → Nat
  | .low => 0
  | .medium => 1
  | .high => 2

theorem Urgency.rank_le_high (u : Urgency) : u.rank ≤ Urgency.high.rank := by
  cases u <;> decide

theorem contains_mono {s t w : String} (h : s.toList <:+: t.toList)
    (hc : contains s.toLower w = true) : contains t.toLower w = true := by
  have hlower : ∀ u : String, u.toLower.toList = u.toList.map Char.toLower :=
    fun _ => String.toList_map
  unfold contains at hc ⊢
  rw [decide_eq_true_eq, hlower] at hc ⊢
  exact hc.trans (h.map Char.toLower)

namespace HeuristicAdvisor

variable {c d : String}

theorem saysDelinquent_mono (h : c.toList <:+: d.toList) (hc : saysDelinquent c = true) :
    saysDelinquent d = true := by
  unfold saysDelinquent at hc ⊢
  rw [Bool.or_eq_true] at hc ⊢
  exact hc.imp (contains_mono h) (contains_mono h)

theorem saysCve_mono (h : c.toList <:+: d.toList) (hc : saysCve c = true) : saysCve d = true :=
  contains_mono h hc

theorem saysUpgrade_mono (h : c.toList <:+: d.toList) (hc : saysUpgrade c = true) :
    saysUpgrade d = true := by
  unfold saysUpgrade at hc ⊢
  rw [Bool.or_eq_true, Bool.or_eq_true] at hc ⊢
  exact hc.imp (Or.imp (contains_mono h) (contains_mono h)) (saysCve_mono h)

theorem saysLag_mono (h : c.toList <:+: d.toList) (hc : saysLag c = true) : saysLag d = true := by
  unfold saysLag at hc ⊢
  rw [Bool.or_eq_true, Bool.or_eq_true] at hc ⊢
  exact hc.imp (Or.imp (contains_mono h) (contains_mono h)) (contains_mono h)

theorem saysUpgrade_of_saysCve (h : saysCve c = true) : saysUpgrade c = true := by
  unfold saysUpgrade
  rw [h, Bool.or_true]

/-- Word of delinquency in `d` hides the vulnerability that `c` names: the node
does not vote, and its state decides nothing by itself. -/
def Masks (node : ValidatorNode) (c d : String) : Prop :=
  node.role ≠ .voting ∧ node.state ≠ .failed ∧ node.state ≠ .delinquent ∧
    saysCve c = true ∧ saysDelinquent c = false ∧ saysDelinquent d = true

/-- **More text does not lower the urgency**, unless it masks. -/
theorem recommend_urgency_le_iff (node : ValidatorNode) (c d : String)
    (h : c.toList <:+: d.toList) :
    (recommend node c).urgency.rank ≤ (recommend node d).urgency.rank ↔ ¬ Masks node c d := by
  have hdel := saysDelinquent_mono h
  have hcve := saysCve_mono h
  have hupg := saysUpgrade_mono h
  have hlag := saysLag_mono h
  have hsub := saysUpgrade_of_saysCve (c := c)
  rw [urgency_eq, urgency_eq]
  unfold Masks delinquent
  generalize saysDelinquent c = d₁, saysDelinquent d = d₂, saysCve c = v₁, saysCve d = v₂,
    saysUpgrade c = u₁, saysUpgrade d = u₂, saysLag c = l₁, saysLag d = l₂ at *
  by_cases hf : node.state = .failed
  · simp [hf]
  by_cases hs : node.state = .delinquent
  · simp [hs]
  simp only [hf, hs, if_false, decide_false, Bool.false_or]
  cases d₁ with
  | true => simp [hdel rfl]
  | false =>
    cases d₂ with
    | true =>
      -- Rule 2 takes over: high for a voting node, medium for another.
      by_cases hv : node.role = .voting
      · simpa [hv] using Urgency.rank_le_high _
      · cases v₁ with
        | true => simp [hv, hf, hs, hsub rfl, Urgency.rank]
        | false => cases u₁ <;> cases l₁ <;> cases node.state.isHealthy <;> simp [hv, Urgency.rank]
    | false =>
      cases u₁ with
      | true =>
        cases v₁ with
        | true => simp [hupg rfl, hcve rfl]
        | false => cases v₂ <;> simp [hupg rfl, Urgency.rank]
      | false =>
        cases l₁ with
        | true =>
          rw [hlag rfl]
          cases u₂ <;> cases v₂ <;> cases node.state.isHealthy <;> simp [Urgency.rank]
        | false => simp [Urgency.rank]

/-- "cve" alone is urgent for an RPC node; "cve delinquent" is not. -/
theorem recommend_masked :
    ¬ ∀ (node : ValidatorNode) (c d : String), c.toList <:+: d.toList →
      (recommend node c).urgency.rank ≤ (recommend node d).urgency.rank := by
  intro h
  exact absurd (h { ValidatorNode.new ⟨"eu-rpc-01"⟩ ⟨"eu-fiber"⟩ .mainnet ⟨"rpc01.internal"⟩ .rpc
    ⟨"2.0.14"⟩ 0 with state := .active } "cve" "cve delinquent" (by decide)) (by decide +kernel)

/-- A voting node that falls behind and then stops voting. -/
theorem recommend_urgency_le_voting :
    let node := { ValidatorNode.new ⟨"eu-val-01"⟩ ⟨"eu-fiber"⟩ .mainnet ⟨"val01.internal"⟩ .voting
      ⟨"2.0.14"⟩ 0 with state := .active }
    (recommend node "slow").urgency.rank ≤ (recommend node "slow, not voting").urgency.rank :=
  (recommend_urgency_le_iff _ _ _ (by decide)).2 fun h => h.1 rfl

end HeuristicAdvisor

end ValidatorForge.Ai
