import ValidatorForge.Ai.Advisor
import ValidatorForge.Lib.Document
import ValidatorForge.Lib.Json
import ValidatorForge.Resilience.Backoff

/-!
# The advisor that asks a model

crates/validatorforge-ai/src/llm.rs. `LlmAdvisor.advise` is a program over
`LlmSig`: one attempt is one POST under a deadline, between attempts there is a
backoff and a sleep. With each answer of the endpoint comes reqwest's text of what
went wrong.

* `advise_law`: which requests are made and what is answered, whatever the endpoint does.
* `advise_latency`: how long it can take.
-/
namespace ValidatorForge.Ai

open Interaction Json ValidatorForge.Types ValidatorForge.Core ValidatorForge.Resilience Prog

/-! ## The heuristic's text -/

/-- mirrors crates/validatorforge-ai/src/advisor.rs:26-39 -/
def RecommendedAction.asStr : RecommendedAction → String
  | .hold => "hold"
  | .investigate => "investigate"
  | .tuneHost => "tune_host"
  | .failover => "failover"
  | .upgrade => "upgrade"
  | .decommission => "decommission"

/-- mirrors crates/validatorforge-ai/src/advisor.rs:42-51 -/
def Urgency.asStr : Urgency → String
  | .low => "low"
  | .medium => "medium"
  | .high => "high"

/-- `{:?}` of an urgency. -/
def Urgency.debug : Urgency → String
  | .low => "Low"
  | .medium => "Medium"
  | .high => "High"

/-- mirrors crates/validatorforge-ai/src/advisor.rs:53-62 -/
def Recommendation.toDoc (r : Recommendation) : Doc :=
  .ofList
    [("action", .str r.action.asStr), ("urgency", .str r.urgency.asStr),
      ("rationale", .str r.rationale)]

/-- Strings are always written, so the fallback to another text is never taken.
mirrors crates/validatorforge-ai/src/advisor.rs:180-187 -/
def HeuristicAdvisor.advise (node : ValidatorNode) (context : String) : String :=
  String.ofList (recommend node context).toDoc.write

/-! ## The endpoint -/

/-- mirrors crates/validatorforge-ai/src/llm.rs:20-22 -/
def SYSTEM_PROMPT : String :=
  "You are a Solana validator SRE. Given a node's state and an operator's context note, " ++
    "recommend the single safest next operational action and briefly justify it. Be concise."

/-- mirrors crates/validatorforge-ai/src/llm.rs:24-37 -/
structure LlmConfig where
  endpoint : String
  model : String
  apiKey : String
  timeout : Nat
  maxRetries : Nat
  deriving DecidableEq, Repr

/-- mirrors crates/validatorforge-ai/src/llm.rs:39-49 -/
def LlmConfig.default : LlmConfig :=
  { endpoint := "https://api.openai.com/v1/chat/completions", model := "gpt-4o-mini", apiKey := "",
    timeout := 4000000000, maxRetries := 2 }

/-- mirrors crates/validatorforge-ai/src/llm.rs:51-56 -/
inductive LlmError where
  | disabled
  | timeout
  | provider (msg : String)
  deriving DecidableEq, Repr

/-- mirrors crates/validatorforge-ai/src/llm.rs:58-62 -/
def LlmError.isRetryable : LlmError → Bool
  | .timeout | .provider _ => true
  | .disabled => false

/-- mirrors crates/validatorforge-ai/src/llm.rs:190-194 -/
structure ChatMessage where
  role : String
  content : String
  deriving DecidableEq, Repr

/-- The temperature is the `f32` 0.2.
mirrors crates/validatorforge-ai/src/llm.rs:183-188 -/
structure ChatRequest where
  model : String
  temperature : Rat
  messages : List ChatMessage
  deriving DecidableEq, Repr

/-- A POST: where to, with which bearer key, and what. -/
structure Post where
  endpoint : String
  bearer : String
  json : ChatRequest
  deriving DecidableEq, Repr

/-- What the endpoint sent back. `statusText` is the status as it is displayed, `body`
the document if it is one, and `bodyErr` says why it could not be decoded. -/
structure Response where
  status : Nat
  statusText : String
  body : Option Value
  bodyErr : String

/-- mirrors crates/validatorforge-ai/src/llm.rs:196-209 -/
structure ChatResponse where
  choices : List String
  deriving DecidableEq, Repr

/-- `choices[i].message.content`.
mirrors crates/validatorforge-ai/src/llm.rs:201-209 -/
def ChatResponse.content (v : Value) : Option String := do
  let get ← v.asStruct ["message"]
  let message ← Value.required get "message" some
  let get ← message.asStruct ["content"]
  Value.required get "content" Value.asStr

/-- mirrors crates/validatorforge-ai/src/llm.rs:196-199 -/
def ChatResponse.fromValue (v : Value) : Option ChatResponse := do
  let get ← v.asStruct ["choices"]
  return { choices := ← Value.required get "choices" (Value.asArr content) }

/-- What `request_once` makes of the endpoint's answer; an error is one of transport.
mirrors crates/validatorforge-ai/src/llm.rs:148-162 -/
def completion : Except String Response → Except LlmError String
  | .error msg => .error (.provider msg)
  | .ok resp =>
    if ¬ (200 ≤ resp.status ∧ resp.status ≤ 299) then
      .error (.provider ("status " ++ resp.statusText))
    else
      match resp.body.bind ChatResponse.fromValue with
      | none => .error (.provider resp.bodyErr)
      | some body =>
        match body.choices.head?.filter fun s => !blank s with
        | some text => .ok text
        | none => .error (.provider "empty completion")

/-- `withTimeout dur post` is one POST, given up after `dur`. -/
inductive LlmOp where
  | withTimeout (dur : Nat) (post : Post)
  | backoffFor (retryIndex : Nat)
  | sleep (delay : Nat)

/-- A POST answers `none` when it timed out. -/
@[reducible] def LlmOp.Resp : LlmOp → Type
  | .withTimeout .. => Option (Except String Response)
  | .backoffFor _ => Nat
  | .sleep _ => Unit

abbrev LlmSig : Sig where
  Op := LlmOp
  Resp := LlmOp.Resp

/-! ## The advisor -/

/-- mirrors crates/validatorforge-ai/src/llm.rs:64-70 -/
structure LlmAdvisor where
  config : LlmConfig

namespace LlmAdvisor

def perform (o : LlmOp) : Prog LlmSig o.Resp := Prog.perform (S := LlmSig) o

/-- mirrors crates/validatorforge-ai/src/llm.rs:93-106 -/
def userPrompt (node : ValidatorNode) (context : String) : String :=
  let hint := HeuristicAdvisor.recommend node context
  "Node " ++ node.id.raw ++ " (role=" ++ node.role.asStr ++ ", state=" ++ node.state.asStr ++
    ", version=" ++ node.version.raw ++ "). Context: \"" ++ context ++
    "\". A deterministic heuristic suggests: " ++ hint.action.asStr ++ " (" ++
    hint.urgency.debug ++ ") — " ++ hint.rationale ++ ". Confirm or refine."

/-- mirrors crates/validatorforge-ai/src/llm.rs:127-147 -/
def post (A : LlmAdvisor) (user : String) : Post :=
  { endpoint := A.config.endpoint
    bearer := A.config.apiKey
    json :=
      { model := A.config.model
        temperature := 1 / 5
        messages := [⟨"system", SYSTEM_PROMPT⟩, ⟨"user", user⟩] } }

/-- mirrors crates/validatorforge-ai/src/llm.rs:116-119 -/
def requestOnce (A : LlmAdvisor) (user : String) : Prog LlmSig (Except LlmError String) := do
  match ← perform (.withTimeout A.config.timeout (A.post user)) with
  | some inner => return completion inner
  | none => return .error .timeout

/-- mirrors crates/validatorforge-ai/src/llm.rs:108-112 -/
def policy (A : LlmAdvisor) : RetryPolicy := .new (max A.config.maxRetries 1) 100000000 2000000000

/-- mirrors crates/validatorforge-ai/src/llm.rs:89-124 -/
def callModel (A : LlmAdvisor) (node : ValidatorNode) (context : String) :
    Prog LlmSig (Except LlmError String) :=
  if A.config.apiKey = "" then return .error .disabled
  else
    A.policy.retry (A.requestOnce (userPrompt node context)) LlmError.isRetryable
      (fun i => perform (.backoffFor i)) (fun d => perform (.sleep d))

/-- mirrors crates/validatorforge-ai/src/llm.rs:165-181 -/
def advise (A : LlmAdvisor) (node : ValidatorNode) (context : String) :
    Prog LlmSig String := do
  match ← A.callModel node context with
  | .ok text => return text
  | .error _ => return HeuristicAdvisor.advise node context

/-! ## What is asked, and what is answered -/

/-- The deadline of a POST, the POST and its answer. -/
def posted : LlmSig.Ev → Option (Nat × Post × Option (Except String Response))
  | ⟨.withTimeout dur post, r⟩ => some (dur, post, r)
  | _ => none

/-- What an attempt comes to. -/
def outcome : Option (Except String Response) → Except LlmError String
  | some inner => completion inner
  | none => .error .timeout

theorem exec_perform {o : LlmOp} {tr : List LlmSig.Ev} {r : o.Resp} :
    (perform o).Exec tr r ↔ tr = [⟨o, r⟩] := Prog.exec_perform (S := LlmSig) o tr r

theorem exec_requestOnce {A : LlmAdvisor} {user : String} {tr : List LlmSig.Ev}
    {r : Except LlmError String} :
    (A.requestOnce user).Exec tr r ↔
      ∃ a, tr = [⟨.withTimeout A.config.timeout (A.post user), a⟩] ∧ r = outcome a := by
  unfold requestOnce
  rw [exec_bind]
  constructor
  · intro h
    obtain ⟨t₁, a, t₂, rfl, h₁, h₂⟩ := h
    obtain rfl := exec_perform.1 h₁
    cases a with
    | none =>
      obtain ⟨rfl, rfl⟩ := h₂
      exact ⟨none, rfl, rfl⟩
    | some inner =>
      obtain ⟨rfl, rfl⟩ := h₂
      exact ⟨some inner, rfl, rfl⟩
  · intro h
    obtain ⟨a, rfl, rfl⟩ := h
    refine ⟨_, a, [], rfl, exec_perform.2 rfl, ?_⟩
    cases a <;> exact ⟨rfl, rfl⟩

/-- What is taken from the endpoint is not blank. -/
theorem completion_ok {r : Except String Response} {text : String} (h : completion r = .ok text) :
    blank text = false := by
  cases r with
  | error msg => cases h
  | ok resp =>
    unfold completion at h
    dsimp only at h
    split at h
    · cases h
    · split at h
      · cases h
      · split at h
        · rename_i body _ s hs
          cases h
          simpa using (Option.filter_eq_some_iff.1 hs).2
        · cases h

/-- And whatever goes wrong may be tried again. -/
theorem outcome_retryable {a : Option (Except String Response)} {e : LlmError}
    (h : outcome a = .error e) : e.isRetryable = true := by
  cases e with
  | disabled =>
    cases a with
    | none => cases h
    | some inner =>
      cases inner with
      | error msg => cases h
      | ok resp =>
        simp only [outcome, completion] at h
        split at h
        · cases h
        · split at h
          · cases h
          · split at h <;> cases h
  | timeout => rfl
  | provider msg => rfl

section Law
variable {A : LlmAdvisor} {node : ValidatorNode} {context : String}

/-- The turns of the loop, as the endpoint sees them. -/
theorem posted_of_retried {user : String} {attempt : Nat} {tr : List LlmSig.Ev}
    {r : Except LlmError String}
    (h : A.policy.Retried (A.requestOnce user) LlmError.isRetryable
      (fun i => perform (.backoffFor i)) (fun d => perform (.sleep d)) attempt tr r)
    (hattempt : attempt < A.policy.maxAttempts) :
    ∃ failures last,
      tr.filterMap posted =
        (failures ++ [last]).map (fun a => (A.config.timeout, A.post user, a)) ∧
      (∀ a ∈ failures, (outcome a).isOk = false) ∧ r = outcome last ∧
      attempt + failures.length < A.policy.maxAttempts ∧
      (r.isOk = false → attempt + failures.length + 1 = A.policy.maxAttempts) := by
  induction h with
  | @last attempt tr r hop hstop =>
    obtain ⟨a, rfl, rfl⟩ := exec_requestOnce.1 hop
    refine ⟨[], a, rfl, by simp, rfl, by simpa using hattempt, ?_⟩
    intro hfail
    cases ha : outcome a with
    | ok text =>
      rw [ha] at hfail
      cases hfail
    | error e =>
      rw [ha] at hstop
      rcases hstop with hmax | hno
      · simp only [List.length_nil]
        omega
      · rw [outcome_retryable ha] at hno
        cases hno
  | @again attempt d t₁ t₂ t₃ t₄ e r hop hmore hback hslept hrest ih =>
    obtain ⟨a, rfl, ha⟩ := exec_requestOnce.1 hop
    obtain rfl := exec_perform.1 hback
    have hquiet : t₃.filterMap posted = [] := by
      unfold RetryPolicy.Slept at hslept
      split at hslept
      · rw [hslept]
        rfl
      · obtain rfl := exec_perform.1 hslept
        rfl
    obtain ⟨failures, last, hposts, hfail, hr, hlen, hmax⟩ := ih hmore
    refine ⟨a :: failures, last, ?_, ?_, hr, ?_, ?_⟩
    · simp only [List.filterMap_append, hquiet, hposts]
      rfl
    · intro b hb
      rcases List.mem_cons.1 hb with rfl | hb
      · rw [← ha]
        rfl
      · exact hfail b hb
    · rw [List.length_cons]
      omega
    · intro hno
      have hall := hmax hno
      rw [List.length_cons]
      omega

theorem maxAttempts_policy (A : LlmAdvisor) : A.policy.maxAttempts = max A.config.maxRetries 1 := by
  unfold policy RetryPolicy.new
  simp

theorem exec_advise {tr : List LlmSig.Ev} {text : String}
    (h : (A.advise node context).Exec tr text) :
    ∃ r, (A.callModel node context).Exec tr r ∧
      (r = .ok text ∨ (r.isOk = false ∧ text = HeuristicAdvisor.advise node context)) := by
  unfold advise at h
  rw [exec_bind] at h
  obtain ⟨t₁, r, t₂, rfl, hcall, h⟩ := h
  cases r with
  | ok s =>
    obtain ⟨rfl, rfl⟩ := h
    exact ⟨.ok _, by simpa using hcall, .inl rfl⟩
  | error e =>
    obtain ⟨rfl, rfl⟩ := h
    exact ⟨.error e, by simpa using hcall, .inr ⟨rfl, rfl⟩⟩

/-- **The answer.** Without a key nothing is sent and the heuristic answers. With one, the
same POST is sent under the same deadline until a completion that is not blank comes back,
which is the answer, or as often as configured (but at least once), and then the
heuristic answers. -/
theorem advise_law {tr : List LlmSig.Ev} {text : String}
    (h : (A.advise node context).Exec tr text) :
    (A.config.apiKey = "" → tr = [] ∧ text = HeuristicAdvisor.advise node context) ∧
    (A.config.apiKey ≠ "" → ∃ failures last,
      tr.filterMap posted = (failures ++ [last]).map
        (fun a => (A.config.timeout, A.post (userPrompt node context), a)) ∧
      (∀ a ∈ failures, (outcome a).isOk = false) ∧
      failures.length < max A.config.maxRetries 1 ∧
      ((outcome last = .ok text ∧ blank text = false) ∨
        ((outcome last).isOk = false ∧ failures.length + 1 = max A.config.maxRetries 1 ∧
          text = HeuristicAdvisor.advise node context))) := by
  obtain ⟨r, hcall, hr⟩ := exec_advise h
  unfold callModel at hcall
  constructor
  · intro hkey
    rw [if_pos hkey] at hcall
    obtain ⟨rfl, rfl⟩ := hcall
    rcases hr with hr | ⟨-, htext⟩
    · cases hr
    · exact ⟨rfl, htext⟩
  · intro hkey
    rw [if_neg hkey] at hcall
    have hpos : 0 < A.policy.maxAttempts := by
      rw [maxAttempts_policy]
      omega
    obtain ⟨failures, last, hposts, hfail, rfl, hlen, hmax⟩ :=
      posted_of_retried (RetryPolicy.retried_of_exec (by omega) hcall) hpos
    rw [maxAttempts_policy] at hlen hmax
    refine ⟨failures, last, hposts, hfail, by omega, ?_⟩
    rcases hr with hok | ⟨hno, htext⟩
    · refine .inl ⟨hok, ?_⟩
      cases last with
      | none => cases hok
      | some inner => exact completion_ok hok
    · have hall := hmax hno
      exact .inr ⟨hno, by omega, htext⟩

/-- An advisor with a key. -/
def keyed : LlmAdvisor := ⟨{ LlmConfig.default with apiKey := "k" }⟩

/-- The first POST times out, the next is answered at once. -/
def slowThenHold : Handler LlmSig Nat
  | .withTimeout dur _, t =>
    if t = 0 then (none, dur)
    else
      (some (.ok
        { status := 200
          statusText := "200 OK"
          body := some
            (.obj [("choices", .arr [.obj [("message", .obj [("content", .str "hold")])]])])
          bodyErr := "" }), t)
  | .backoffFor i, t => ((keyed.policy.backoffFor 0 i).getD 0, t)
  | .sleep d, t => ((), t + d)

/-- A voting node of the testnet. -/
def testnetNode : ValidatorNode :=
  ValidatorNode.new ⟨"eu-val-01"⟩ ⟨"eu-fiber"⟩ .testnet ⟨"val01.internal"⟩ .voting ⟨"2.0.14"⟩ 0

theorem advise_law_second :
    let out := (keyed.advise testnetNode "all good").runWith slowThenHold 0
    out.val = "hold" ∧ ∃ failures last,
      out.trace.filterMap posted = (failures ++ [last]).map
        (fun a => (4000000000, keyed.post (userPrompt testnetNode "all good"), a)) ∧
      failures.length < 2 := by
  intro out
  obtain ⟨failures, last, hposts, -, hlen, -⟩ :=
    (advise_law (A := keyed) (exec_runWith slowThenHold _ 0)).2 (by decide)
  exact ⟨by decide +kernel, failures, last, hposts, hlen⟩

/-! ## How long it takes -/

/-- The clock, in nanoseconds, while every timer fires at most `late` after it is due. -/
def timers (A : LlmAdvisor) (late : Nat) : Env LlmSig Nat
  | .withTimeout dur _, t, _, t' => t ≤ t' ∧ t' ≤ t + dur + late
  | .backoffFor i, t, d, t' => t' = t ∧ ∃ nanos, A.policy.backoffFor nanos i = some d
  | .sleep d, t, _, t' => t + d ≤ t' ∧ t' ≤ t + d + late

/-- The longest an operation takes. -/
def longest (late : Nat) : LlmOp → Nat
  | .withTimeout dur _ => dur + late
  | .backoffFor _ => 0
  | .sleep d => d + late

/-- No backoff is longer than the policy's longest. -/
def Capped (A : LlmAdvisor) : Answers LlmSig
  | .backoffFor _, d => d ≤ A.policy.maxDelay
  | _, _ => True

theorem timers_longest {late : Nat} (o : LlmOp) (t : Nat) (r : o.Resp) (t' : Nat)
    (h : A.timers late o t r t') : A.Capped o r ∧ t' ≤ t + longest late o := by
  cases o with
  | withTimeout dur post => exact ⟨trivial, by simp only [longest]; have := h.2; omega⟩
  | backoffFor i =>
    obtain ⟨rfl, nanos, hd⟩ := h
    exact ⟨Nat.le_trans (RetryPolicy.jittered_le hd) (Nat.min_le_right ..), Nat.le_refl _⟩
  | sleep d => exact ⟨trivial, by simp only [longest]; have := h.2; omega⟩

theorem within_advise (late : Nat) :
    (A.advise node context).Within A.Capped (longest late)
      (max A.config.maxRetries 1 * (A.config.timeout + late) +
        (max A.config.maxRetries 1 - 1) * (2000000000 + late)) := by
  have hanswer : ∀ r : Except LlmError String, (match r with
      | .ok text => pure text
      | .error _ => pure (HeuristicAdvisor.advise node context) : Prog LlmSig String).Within
        A.Capped (longest late) 0 := by
    intro r
    cases r <;> exact within_ret _
  refine Within.andThen (m := 0) ?_ hanswer
  unfold callModel
  split
  · exact within_ret _
  · have honce : (A.requestOnce (userPrompt node context)).Within A.Capped (longest late)
        (A.config.timeout + late) := by
      refine Within.andThen (m := 0) (within_perform.2 (Nat.le_refl _)) ?_
      intro a
      cases a <;> exact within_ret _
    have hmax := maxAttempts_policy A
    obtain ⟨n, hn⟩ : ∃ n, max A.config.maxRetries 1 = n + 1 :=
      ⟨max A.config.maxRetries 1 - 1, by omega⟩
    rw [hn, Nat.add_sub_cancel]
    unfold RetryPolicy.retry
    apply RetryPolicy.within_retryLoop honce
    · intro i
      exact within_perform.2 (Nat.le_refl 0)
    · intro i
      exact ⟨trivial, fun _ hd => hd⟩
    · intro d hd
      exact within_perform.2 (Nat.add_le_add_right hd late)
    · omega

/-- **The wait.** While timers are at most `late`, an answer takes at most a deadline for
each attempt, and two seconds between one and the next. -/
theorem advise_latency {tr : List LlmSig.Ev} {text : String}
    (h : (A.advise node context).Exec tr text) {late t t' : Nat}
    (hw : (A.timers late).Accepts t tr t') :
    t' ≤ t + max A.config.maxRetries 1 * (A.config.timeout + late) +
      (max A.config.maxRetries 1 - 1) * (2000000000 + late) := by
  rw [Nat.add_assoc]
  exact (within_advise late).elapsed timers_longest h hw

theorem timers_slowThenHold (o : LlmOp) (t : Nat) :
    keyed.timers 0 o t (slowThenHold o t).1 (slowThenHold o t).2 := by
  cases o with
  | withTimeout dur post =>
    unfold slowThenHold
    by_cases ht : t = 0
    · simp only [if_pos ht]
      exact ⟨by omega, by omega⟩
    · simp only [if_neg ht]
      exact ⟨Nat.le_refl _, by omega⟩
  | backoffFor i =>
    obtain ⟨d, hd⟩ := RetryPolicy.exists_backoffFor (p := keyed.policy) (by decide) 0 i
    refine ⟨rfl, 0, ?_⟩
    show _ = some ((keyed.policy.backoffFor 0 i).getD 0)
    rw [hd]
    rfl
  | sleep d => exact ⟨Nat.le_refl _, Nat.le_refl _⟩

theorem advise_latency_second :
    ((keyed.advise testnetNode "all good").runWith slowThenHold 0).world ≤
      10000000000 :=
  advise_latency (A := keyed) (exec_runWith ..) (Env.accepts_runWith timers_slowThenHold _ 0)

end Law

end LlmAdvisor

end ValidatorForge.Ai
