import ValidatorForge.Core.Ports
import ValidatorForge.Lib.Document
import ValidatorForge.Types.Wire

/-!
# Events as subscribers get them

crates/validatorforge-core/src/event.rs and crates/validatorforge-api/src/types.rs:93-108.
The subscription maps every event to its kind and the text of its JSON document
(crates/validatorforge-api/src/subscription.rs:18-23). The document is written, never
built: a run id is a `u128`, which serde_json writes as it is.

* `opsEvents_lossless`: events published are told apart by their payloads alone.
-/
namespace ValidatorForge.Types

open Json

/-- mirrors crates/validatorforge-types/src/health.rs:23-34 -/
def HealthStatus.asStr : HealthStatus → String
  | .healthy => "healthy"
  | .lagging => "lagging"
  | .delinquent => "delinquent"
  | .unknown => "unknown"

/-- mirrors crates/validatorforge-types/src/ops.rs:10-27 -/
def DeploymentKind.toDoc (k : DeploymentKind) : Doc :=
  match k with
  | .provision | .decommission => .ofList [("kind", .str k.asStr)]
  | .upgrade targetVersion =>
    .ofList [("kind", .str k.asStr), ("target_version", .str targetVersion.raw)]
  | .failover spare => .ofList [("kind", .str k.asStr), ("spare", .str spare.raw)]

/-- mirrors crates/validatorforge-types/src/ops.rs:43-61 -/
def OpsActionKind.toDoc (a : OpsActionKind) : Doc := .ofList [("action", .str a.asStr)]

theorem HealthStatus.asStr_injective {a b : HealthStatus} (h : a.asStr = b.asStr) : a = b := by
  cases a <;> cases b <;> first | rfl | (exact absurd h (by decide))

theorem NodeState.asStr_injective {a b : NodeState} (h : a.asStr = b.asStr) : a = b := by
  have hread := a.fromValue_asStr
  rw [h, b.fromValue_asStr] at hread
  exact (Option.some.inj hread).symm

theorem RunStatus.asStr_injective {a b : RunStatus} (h : a.asStr = b.asStr) : a = b := by
  have hread := a.fromValue_asStr
  rw [h, b.fromValue_asStr] at hread
  exact (Option.some.inj hread).symm

theorem OpsActionKind.toDoc_injective {a b : OpsActionKind} (h : a.toDoc = b.toDoc) : a = b := by
  have hname : a.asStr = b.asStr := by simpa [toDoc, Doc.ofList] using h
  have hread := a.fromValue_toValue
  unfold toValue at hread
  rw [hname] at hread
  exact Option.some.inj (hread.symm.trans b.fromValue_toValue)

theorem DeploymentKind.toDoc_injective {a b : DeploymentKind} (h : a.toDoc = b.toDoc) : a = b := by
  cases a with
  | provision => cases b <;> simp [toDoc, Doc.ofList, asStr] at h ⊢
  | decommission => cases b <;> simp [toDoc, Doc.ofList, asStr] at h ⊢
  | upgrade v =>
    cases b with
    | upgrade v' =>
      obtain ⟨v⟩ := v
      obtain ⟨v'⟩ := v'
      have hraw : v = v' := by simpa [toDoc, Doc.ofList, asStr] using h
      rw [hraw]
    | _ => simp [toDoc, Doc.ofList, asStr] at h
  | failover spare =>
    cases b with
    | failover spare' =>
      obtain ⟨spare⟩ := spare
      obtain ⟨spare'⟩ := spare'
      have hraw : spare = spare' := by simpa [toDoc, Doc.ofList, asStr] using h
      rw [hraw]
    | _ => simp [toDoc, Doc.ofList, asStr] at h

theorem Chrono.Reads.inj {C : Chrono} {a b : DateTime} (ha : C.Reads a) (hb : C.Reads b)
    (h : C.format a = C.format b) : a = b := by
  unfold Reads at ha
  rw [h, hb] at ha
  exact (Option.some.inj ha).symm

end ValidatorForge.Types

namespace ValidatorForge.Core

open Json ValidatorForge.Types

namespace OpsEvent

/-- mirrors crates/validatorforge-core/src/event.rs:75-87 -/
def kind : OpsEvent → String
  | .runStarted .. => "run_started"
  | .stepCompleted .. => "step_completed"
  | .stepCompensated .. => "step_compensated"
  | .nodeStateChanged .. => "node_state_changed"
  | .healthEvaluated .. => "health_evaluated"
  | .runFinished .. => "run_finished"

/-- When it happened. -/
def date : OpsEvent → DateTime
  | .runStarted _ _ _ at' | .stepCompleted _ _ at' | .stepCompensated _ _ at'
  | .nodeStateChanged _ _ _ at' | .healthEvaluated _ _ at' | .runFinished _ _ at' => at'

/-- mirrors crates/validatorforge-core/src/event.rs:14-72 -/
def toDoc (C : Chrono) : OpsEvent → Doc
  | .runStarted run node kind at' =>
    .ofList
      [("event", .str "run_started"), ("run", .nat run.value.toNat), ("node", .str node.raw),
        ("kind", kind.toDoc), ("at", .str (C.format at'))]
  | .stepCompleted run action at' =>
    .ofList
      [("event", .str "step_completed"), ("run", .nat run.value.toNat),
        ("action", action.toDoc), ("at", .str (C.format at'))]
  | .stepCompensated run action at' =>
    .ofList
      [("event", .str "step_compensated"), ("run", .nat run.value.toNat),
        ("action", action.toDoc), ("at", .str (C.format at'))]
  | .nodeStateChanged node from' to' at' =>
    .ofList
      [("event", .str "node_state_changed"), ("node", .str node.raw),
        ("from", .str from'.asStr), ("to", .str to'.asStr), ("at", .str (C.format at'))]
  | .healthEvaluated node status at' =>
    .ofList
      [("event", .str "health_evaluated"), ("node", .str node.raw),
        ("status", .str status.asStr), ("at", .str (C.format at'))]
  | .runFinished run status at' =>
    .ofList
      [("event", .str "run_finished"), ("run", .nat run.value.toNat),
        ("status", .str status.asStr), ("at", .str (C.format at'))]

/-! ## What the documents keep -/

/-- The first member is the event's tag, the last its date. -/
theorem toDoc_members (C : Chrono) (e : OpsEvent) :
    ∃ members, e.toDoc C =
      .ofList (("event", .str e.kind) :: (members ++ [("at", .str (C.format e.date))])) := by
  cases e with
  | runStarted run node kind at' =>
    exact ⟨[("run", .nat run.value.toNat), ("node", .str node.raw), ("kind", kind.toDoc)], rfl⟩
  | stepCompleted run action at' =>
    exact ⟨[("run", .nat run.value.toNat), ("action", action.toDoc)], rfl⟩
  | stepCompensated run action at' =>
    exact ⟨[("run", .nat run.value.toNat), ("action", action.toDoc)], rfl⟩
  | nodeStateChanged node from' to' at' =>
    exact ⟨[("node", .str node.raw), ("from", .str from'.asStr), ("to", .str to'.asStr)], rfl⟩
  | healthEvaluated node status at' =>
    exact ⟨[("node", .str node.raw), ("status", .str status.asStr)], rfl⟩
  | runFinished run status at' =>
    exact ⟨[("run", .nat run.value.toNat), ("status", .str status.asStr)], rfl⟩

theorem toDoc_injective {C : Chrono} {e e' : OpsEvent} (h : C.Reads e.date) (h' : C.Reads e'.date)
    (hdoc : e.toDoc C = e'.toDoc C) : e = e' := by
  have hrun : ∀ run run' : RunId, run.value.toNat = run'.value.toNat → run = run' := by
    rintro ⟨v⟩ ⟨v'⟩ hv
    exact congrArg RunId.mk (BitVec.eq_of_toNat_eq hv)
  have hnode : ∀ node node' : NodeId, node.raw = node'.raw → node = node' := by
    rintro ⟨raw⟩ ⟨raw'⟩ hraw
    exact congrArg NodeId.mk hraw
  cases e with
  | runStarted run node kind at' =>
    cases e' with
    | runStarted run' node' kind' at'' =>
      simp [toDoc, Doc.ofList] at hdoc
      obtain ⟨hr, hn, hk, ha⟩ := hdoc
      have hat : at' = at'' := h.inj h' ha
      rw [hrun _ _ hr, hnode _ _ hn, DeploymentKind.toDoc_injective hk, hat]
    | _ => simp [toDoc, Doc.ofList] at hdoc
  | stepCompleted run action at' =>
    cases e' with
    | stepCompleted run' action' at'' =>
      simp [toDoc, Doc.ofList] at hdoc
      obtain ⟨hr, hk, ha⟩ := hdoc
      have hat : at' = at'' := h.inj h' ha
      rw [hrun _ _ hr, OpsActionKind.toDoc_injective hk, hat]
    | _ => simp [toDoc, Doc.ofList] at hdoc
  | stepCompensated run action at' =>
    cases e' with
    | stepCompensated run' action' at'' =>
      simp [toDoc, Doc.ofList] at hdoc
      obtain ⟨hr, hk, ha⟩ := hdoc
      have hat : at' = at'' := h.inj h' ha
      rw [hrun _ _ hr, OpsActionKind.toDoc_injective hk, hat]
    | _ => simp [toDoc, Doc.ofList] at hdoc
  | nodeStateChanged node from' to' at' =>
    cases e' with
    | nodeStateChanged node' from'' to'' at'' =>
      simp [toDoc, Doc.ofList] at hdoc
      obtain ⟨hn, hf, ht, ha⟩ := hdoc
      have hat : at' = at'' := h.inj h' ha
      rw [hnode _ _ hn, NodeState.asStr_injective hf, NodeState.asStr_injective ht, hat]
    | _ => simp [toDoc, Doc.ofList] at hdoc
  | healthEvaluated node status at' =>
    cases e' with
    | healthEvaluated node' status' at'' =>
      simp [toDoc, Doc.ofList] at hdoc
      obtain ⟨hn, hs, ha⟩ := hdoc
      have hat : at' = at'' := h.inj h' ha
      rw [hnode _ _ hn, HealthStatus.asStr_injective hs, hat]
    | _ => simp [toDoc, Doc.ofList] at hdoc
  | runFinished run status at' =>
    cases e' with
    | runFinished run' status' at'' =>
      simp [toDoc, Doc.ofList] at hdoc
      obtain ⟨hr, hs, ha⟩ := hdoc
      have hat : at' = at'' := h.inj h' ha
      rw [hrun _ _ hr, RunStatus.asStr_injective hs, hat]
    | _ => simp [toDoc, Doc.ofList] at hdoc

end OpsEvent

end ValidatorForge.Core

namespace ValidatorForge.Api

open Json ValidatorForge.Types ValidatorForge.Core

/-- mirrors crates/validatorforge-api/src/types.rs:93-100 -/
structure OpsEventObject where
  kind : String
  payload : String
  deriving DecidableEq, Repr

/-- mirrors crates/validatorforge-api/src/types.rs:102-108 -/
def OpsEventObject.ofEvent (C : Chrono) (e : OpsEvent) : OpsEventObject :=
  { kind := e.kind, payload := String.ofList (e.toDoc C).write }

/-- What a subscriber gets of the events it is sent.
mirrors crates/validatorforge-api/src/subscription.rs:18-23 -/
def SubscriptionRoot.opsEvents (C : Chrono) (events : List OpsEvent) : List OpsEventObject :=
  events.map (OpsEventObject.ofEvent C)

theorem payload_injective {C : Chrono} {e e' : OpsEvent} (h : C.Reads e.date)
    (h' : C.Reads e'.date)
    (hpayload : (OpsEventObject.ofEvent C e).payload = (OpsEventObject.ofEvent C e').payload) :
    e = e' := by
  have hwrite : (e.toDoc C).write = (e'.toDoc C).write := String.ofList_injective hpayload
  exact OpsEvent.toDoc_injective h h' (write_injective hwrite)

/-- **Payloads lose nothing.** A payload is the writing of an object whose first member is
the tag, with the kind that is sent beside the payload, and whose last is the event's
date; and from the payloads alone the events come back, each one and in order, if their
dates can be read back. -/
theorem opsEvents_lossless (C : Chrono) (sent sent' : List OpsEvent)
    (h : ∀ e ∈ sent, C.Reads e.date) (h' : ∀ e ∈ sent', C.Reads e.date) :
    (∀ o ∈ SubscriptionRoot.opsEvents C sent, ∃ e ∈ sent, o.kind = e.kind ∧ ∃ members,
      o.payload.toList = (Doc.ofList (("event", .str o.kind) ::
        (members ++ [("at", .str (C.format e.date))]))).write) ∧
    ((SubscriptionRoot.opsEvents C sent).map OpsEventObject.payload =
        (SubscriptionRoot.opsEvents C sent').map OpsEventObject.payload →
      sent = sent') := by
  constructor
  · intro o ho
    obtain ⟨e, he, rfl⟩ := List.mem_map.1 ho
    obtain ⟨members, hdoc⟩ := e.toDoc_members C
    refine ⟨e, he, rfl, members, ?_⟩
    have htext : (OpsEventObject.ofEvent C e).payload.toList = (e.toDoc C).write :=
      String.toList_ofList
    rw [htext, hdoc]
    rfl
  · intro hpayloads
    unfold SubscriptionRoot.opsEvents at hpayloads
    simp only [List.map_map] at hpayloads
    induction sent generalizing sent' with
    | nil =>
      cases sent' with
      | nil => rfl
      | cons e' sent' => cases hpayloads
    | cons e sent ih =>
      cases sent' with
      | nil => cases hpayloads
      | cons e' sent' =>
        simp only [List.map_cons, List.cons.injEq] at hpayloads
        obtain ⟨hhead, htail⟩ := hpayloads
        have he : e = e' := payload_injective (h e (by simp)) (h' e' (by simp)) hhead
        have hrest : sent = sent' := by
          refine ih sent' ?_ ?_ htail
          · intro d hd
            exact h d (by simp [hd])
          · intro d hd
            exact h' d (by simp [hd])
        rw [he, hrest]

/-- Two dates and their texts. -/
def twoDates : Chrono where
  format d := if d = 0 then "1970-01-01T00:00:00Z" else "2026-01-01T00:00:00Z"
  parse s :=
    if s = "1970-01-01T00:00:00Z" then some 0
    else if s = "2026-01-01T00:00:00Z" then some 1767225600000000000
    else none

/-- An upgrade begins and ends, the version to be named. -/
def upgradeEvents (version : String) : List OpsEvent :=
  [.runStarted ⟨7⟩ ⟨"eu-val-01"⟩ (.upgrade ⟨version⟩) 0,
    .runFinished ⟨7⟩ .succeeded 1767225600000000000]

theorem upgradeEvents_dates (version : String) :
    ∀ e ∈ upgradeEvents version, twoDates.Reads e.date := by
  intro e he
  unfold upgradeEvents at he
  simp only [List.mem_cons, List.not_mem_nil, or_false] at he
  rcases he with rfl | rfl <;> rfl

/-- Upgrades to different versions are sent differently. -/
theorem opsEvents_lossless_upgrade :
    (SubscriptionRoot.opsEvents twoDates (upgradeEvents "2.1.0")).map OpsEventObject.payload ≠
      (SubscriptionRoot.opsEvents twoDates (upgradeEvents "2.1.1")).map OpsEventObject.payload := by
  intro hpayloads
  have hsame := (opsEvents_lossless twoDates (upgradeEvents "2.1.0") (upgradeEvents "2.1.1")
    (upgradeEvents_dates _) (upgradeEvents_dates _)).2 hpayloads
  exact absurd hsame (by decide)

end ValidatorForge.Api
