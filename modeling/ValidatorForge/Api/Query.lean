import ValidatorForge.Api.Types

/-!
# The query root

crates/validatorforge-api/src/query.rs. `run` reads a run id in decimal; the API
shows it in hexadecimal. `FoundAgain`: the id shown for a run leads back to it.
It does so only for the ids of a single decimal digit (`foundAgain_iff`).
-/
namespace ValidatorForge.Api

open Interaction ValidatorForge.Types ValidatorForge.Core Prog

/-- `u128::MAX`. -/
def U128_MAX : Nat := 340282366920938463463374607431768211455

/-- `parse::<u128>()`. -/
def parseU128 (s : String) : Option (BitVec 128) :=
  (Numeral.parse 10 U128_MAX s.toList).map (BitVec.ofNat 128)

namespace QueryRoot

/-- mirrors crates/validatorforge-api/src/query.rs:38-48 -/
def run (id : String) : ExceptT GqlError (Prog EngineSig) (Option RunObject) := do
  match parseU128 id with
  | none => throw { message := "invalid run id", code := none }
  | some v =>
    let run ← ExceptT.mk do return (← (OpsEngine.getRun ⟨v⟩).run).mapError toErr
    return run.map RunObject.ofRun

/-- `i32::MAX`. -/
def I32_MAX : Nat := 2147483647

/-- mirrors crates/validatorforge-api/src/query.rs:14-22 -/
def health : Resolver HealthObject := do
  let nodes ← served OpsEngine.listNodes
  return { status := "ok", nodes := if nodes.length ≤ I32_MAX then nodes.length else I32_MAX }

/-- mirrors crates/validatorforge-api/src/query.rs:24-30 -/
def node (id : String) : Resolver (Option NodeObject) := do
  let id ← checked (NodeId.new id)
  let node ← served (OpsEngine.getNode id)
  return node.map NodeObject.ofNode

/-- mirrors crates/validatorforge-api/src/query.rs:32-37 -/
def nodes : Resolver (List NodeObject) := do
  let nodes ← served OpsEngine.listNodes
  return nodes.map NodeObject.ofNode

/-- mirrors crates/validatorforge-api/src/query.rs:50-60 -/
def runs (limit : Int32) : Resolver (List RunObject) := do
  let limit := (max limit.toInt 0).toNat
  let runs ← served (OpsEngine.listRuns limit)
  return runs.map RunObject.ofRun

/-- mirrors crates/validatorforge-api/src/query.rs:62-72 -/
def advise (nodeId context : String) : Resolver String := do
  let id ← checked (NodeId.new nodeId)
  served (OpsEngine.advise id context)

end QueryRoot

/-- A repository that answers `get_run` with what is stored. -/
def storedRuns (stored : RunId → Option DeploymentRun) : Env EngineSig Unit
  | .getRun id, _, r, _ => r = .ok (stored id)
  | _, _, _, _ => True

/-- The id that the API shows for a run is the id of that run and of no other,
and querying it returns the run. -/
structure FoundAgain (x : BitVec 128) : Prop where
  parsed : parseU128 (RunId.fmt ⟨x⟩) = some x
  unambiguous : ∀ y, parseU128 (RunId.fmt ⟨x⟩) = some y → y = x
  returned : ∀ (stored : RunId → Option DeploymentRun) (r : DeploymentRun),
    stored ⟨x⟩ = some r → r.id = ⟨x⟩ → ∀ tr res,
      (QueryRoot.run (RunObject.ofRun r).id).run.Exec tr res →
      (storedRuns stored).Accepts () tr () → res = .ok (some (RunObject.ofRun r))

/-- The id is read back by `parse` exactly if it is one digit. -/
theorem parseU128_fmt {x y : BitVec 128} (h : parseU128 (RunId.fmt ⟨x⟩) = some y) :
    y.toNat ≤ x.toNat ∧ (y = x → x.toNat < 10) := by
  unfold parseU128 RunId.fmt at h
  rw [String.toList_ofList, Numeral.parse_render (by decide) (by decide),
    Option.map_eq_some_iff] at h
  obtain ⟨v, hv, rfl⟩ := h
  have hle := Numeral.parse_render_le (by decide) (by decide) (by decide) 32 hv
  have hval : (BitVec.ofNat 128 v).toNat = v := by
    rw [BitVec.toNat_ofNat]
    exact Nat.mod_eq_of_lt (Nat.lt_of_le_of_lt hle x.isLt)
  refine ⟨by rw [hval]; exact hle, fun hyx => ?_⟩
  have hvx : v = x.toNat := by rw [← hval, hyx]
  rw [hvx] at hv
  exact Numeral.parse_render_eq (by decide) (by decide) 31 hv

theorem parseU128_digit {x : BitVec 128} (h : x.toNat < 10) :
    parseU128 (RunId.fmt ⟨x⟩) = some x := by
  unfold parseU128 RunId.fmt
  rw [String.toList_ofList, Numeral.parse_render (by decide) (by decide),
    Numeral.parse_render_digit (by decide) (by decide) 31 h (by unfold U128_MAX; omega)]
  exact congrArg some (BitVec.ofNat_toNat 128 x)

/-- A query that parses asks the repository once. -/
theorem exec_run {id : String} {v : BitVec 128} (hv : parseU128 id = some v)
    {tr : List EngineSig.Ev} {res : Except GqlError (Option RunObject)}
    (h : (QueryRoot.run id).run.Exec tr res) : ∃ a, tr = [⟨.getRun ⟨v⟩, a⟩] ∧
      res = (a.mapError fun e => toErr (.port e)).map (Option.map RunObject.ofRun) := by
  unfold QueryRoot.run at h
  rw [hv] at h
  obtain ⟨a, rest, rfl, h⟩ := h
  refine ⟨a, ?_⟩
  cases a with
  | error e =>
    obtain ⟨rfl, rfl⟩ := h
    exact ⟨rfl, rfl⟩
  | ok found =>
    obtain ⟨rfl, rfl⟩ := h
    exact ⟨rfl, rfl⟩

/-- And answers with the run that is stored. -/
theorem run_returns {id : String} {x : BitVec 128} (hv : parseU128 id = some x)
    {stored : RunId → Option DeploymentRun} {r : DeploymentRun} (hr : stored ⟨x⟩ = some r)
    {tr : List EngineSig.Ev} {res : Except GqlError (Option RunObject)}
    (hrun : (QueryRoot.run id).run.Exec tr res) (hacc : (storedRuns stored).Accepts () tr ()) :
    res = .ok (some (RunObject.ofRun r)) := by
  obtain ⟨a, rfl, rfl⟩ := exec_run hv hrun
  obtain ⟨_, hget, -⟩ := hacc
  have ha : a = .ok (stored ⟨x⟩) := hget
  rw [ha, hr]
  rfl

/-- **Looking a run up again.** For every `u128` value: the id shown for a run
leads back to that run, in every repository that holds it, and to no other,
exactly when it is below 10. -/
theorem foundAgain_iff (x : BitVec 128) : FoundAgain x ↔ x.toNat < 10 := by
  constructor
  · intro h
    exact (parseU128_fmt h.parsed).2 rfl
  · intro hx
    have hparsed := parseU128_digit hx
    have hshown : ∀ r : DeploymentRun, r.id = ⟨x⟩ → parseU128 (RunObject.ofRun r).id = some x := by
      intro r hid
      have hfmt : (RunObject.ofRun r).id = RunId.fmt ⟨x⟩ := congrArg RunId.fmt hid
      rw [hfmt]
      exact hparsed
    exact ⟨hparsed, fun y hy => Option.some.inj (hy.symm.trans hparsed),
      fun stored r hr hid _ _ => run_returns (hshown r hid) hr⟩

/-- Run 16 is shown as `..10`, which is read as run 10; run 10 is shown as `..a`,
which is not a number. -/
theorem run_sixteen_read_as_ten :
    parseU128 (RunId.fmt ⟨16⟩) = some 10 ∧ parseU128 (RunId.fmt ⟨10⟩) = none ∧
      ¬ FoundAgain 16 ∧ ¬ FoundAgain 10 := by
  have h16 : parseU128 (RunId.fmt ⟨16⟩) = some 10 := by decide
  have h10 : parseU128 (RunId.fmt ⟨10⟩) = none := by decide
  refine ⟨h16, h10, fun h => ?_, fun h => ?_⟩
  · exact absurd (h.unambiguous 10 h16) (by decide)
  · have hp := h.parsed
    rw [h10] at hp
    cases hp

end ValidatorForge.Api
