/-
# Proxy.Intercept -- from a request to a recorded decision and a workflow

`intercept` and `decodeProposal` of `cmd/sentrygate/handler.go`, and the throttled
evaluation of `proxy/proxy.go`.  The handler is a dialogue: it asks for an
evaluation slot, the active policy, a random text, the time, a write of its
decision record and the start of a workflow, and goes on with whatever it is told.

`intercept_handled` lists the dialogues it can have.  `intercept_authorizes` reads
off them that a workflow is started at most once, behind a recorded ALLOW, and
that this record authorizes the request it starts and no other.

Spans and log lines are left out; so is the pool of proposals, whose values are
copied before they are given back.
-/
import SentryGate.Decision.Ingress
import SentryGate.Theory.Dialogue
import SentryGate.Theory.Counting

namespace SentryGate.Proxy

open Theory Theory.Text Theory.Counting Contracts Policy Decision

set_option autoImplicit false

/-! ## The calls of the handler -/

structure StartWorkflowOptions where
  id : GoString
  taskQueue : GoString
  workflowExecutionErrorWhenAlreadyStarted : Bool
  deriving DecidableEq

/-- What `GetID` and `GetRunID` report. -/
structure WorkflowRun where
  id : GoString
  runID : GoString
  deriving DecidableEq

/-- Why `ExecuteWorkflow` failed, as far as the handler looks. -/
inductive StartError where
  | workflowExecutionAlreadyStarted
  | failed
  deriving DecidableEq

inductive Call where
  | ctxErr
  | acquireSlot
  | releaseSlot
  | currentPolicy
  | randText
  | now
  | appendDecision (rec : DecisionRecord)
  | executeWorkflow (options : StartWorkflowOptions) (req : ExecutionRequest)
  deriving DecidableEq

/-- What a call is answered with.  `acquireSlot` waits for a slot or for the end of
the context, whichever comes first. -/
abbrev Call.Answer : Call → Type
  | .ctxErr | .acquireSlot => Context
  | .releaseSlot => Unit
  | .currentPolicy => Option Snapshot
  | .randText => GoString
  | .now => Time
  | .appendDecision _ => Option StoreError
  | .executeWorkflow _ _ => Except StartError WorkflowRun

/-- A program of the proxy. -/
abbrev Handler (β : Type) := Dialogue Call.Answer β

/-- The calls of a run, each with its answer. -/
abbrev Transcript := List (Sigma Call.Answer)

/-- Make one call. -/
def perform (k : Call) : Handler k.Answer := Dialogue.call k

/-! ## Evaluation -/

/-- `SentryProxy.Evaluate`. -/
def evaluate (agentID : GoString) (prop : AgentProposal) : Handler Contracts.Decision := do
  let policy ← perform .currentPolicy
  return Decision.evaluate policy agentID prop

/-- `SentryProxy.EvaluateThrottled`. -/
def evaluateThrottled (agentID : GoString) (prop : AgentProposal) :
    Handler (Except GoString Contracts.Decision) := do
  if let some err ← perform .ctxErr then
    return .error err
  if let some err ← perform .acquireSlot then
    return .error err
  let d ← evaluate agentID prop
  let _ ← perform .releaseSlot
  return .ok d

/-! ## Requests and responses -/

def maxBodyBytes : Nat := 65536

/-- `^[A-Za-z0-9._:-]{1,128}$` -/
def proposalIDPattern : Pattern :=
  [([('A', 'Z'), ('a', 'z'), ('0', '9'), ('.', '.'), ('_', '_'), (':', ':'), ('-', '-')], 1, 128)]

/-- `proposalIDPattern.String()`. -/
def proposalIDPatternText : GoString := ascii "^[A-Za-z0-9._:-]\x7b1,128\x7d$"

/-- What one `Decode` of the JSON decoder returned. -/
inductive Decoded (β : Type) where
  | value (b : β)
  | eof
  | tooLarge
  | failed (message : GoString)

/-- `err.Error()` of a failed `Decode`; the oversized body has a text of its own. -/
def Decoded.text {β : Type} : Decoded β → GoString
  | .value _ => []
  | .eof => ascii "EOF"
  | .tooLarge => ascii "http: request body too large"
  | .failed message => message

/-- An HTTP request, as far as the handler reads it: the agent ID that the
authentication put into the context, the trace ID of the span, and what the first
and the second `Decode` of the body return. -/
structure Request where
  agentID : Option GoString
  traceID : Option GoString
  first : Decoded AgentProposal
  second : Decoded Unit

/-- `AgentIDFromContext`. -/
def agentIDFromContext (r : Request) : Option GoString :=
  r.agentID.filter (· ≠ [])

/-- `traceID`. -/
def traceID (r : Request) : GoString := r.traceID.getD []

def tooLargeMessage : GoString :=
  ascii "request body exceeds " ++ ascii (toString maxBodyBytes) ++ ascii " bytes"

/-- `decodeProposal`: the proposal, or the HTTP status and the message of the refusal. -/
def decodeProposal (r : Request) : Except (Nat × GoString) AgentProposal :=
  match r.first with
  | .value prop =>
      match r.second with
      | .eof =>
          if proposalIDPattern.matchString prop.id then .ok prop
          else .error (400, ascii "invalid agent proposal: id must match " ++ proposalIDPatternText)
      | .tooLarge => .error (413, tooLargeMessage)
      | _ => .error (400, ascii "invalid agent proposal: unexpected data after JSON object")
  | .tooLarge => .error (413, tooLargeMessage)
  | refused => .error (400, ascii "invalid agent proposal: " ++ refused.text)

structure InterceptResponse where
  status : GoString := []
  verdict : Verdict := .ofText []
  reasons : List ReasonCode := []
  decisionID : GoString := []
  proposalID : GoString := []
  workflowID : GoString := []
  runID : GoString := []
  next : GoString := []
  error : GoString := []
  deriving DecidableEq

structure Response where
  code : Nat
  body : InterceptResponse
  deriving DecidableEq

/-- `writeError`. -/
def writeError (code : Nat) (statusText msg : GoString) : Response :=
  ⟨code, { status := statusText, error := msg }⟩

/-! ## The handler -/

/-- The workflow ID of a proposal. -/
def workflowID (prop : AgentProposal) : GoString := ascii "saga-" ++ prop.id

/-- The record of an ingress decision. -/
def ingressRecord (go : Runtime) (r : Request) (agentID : GoString) (prop : AgentProposal)
    (d : Contracts.Decision) (text : GoString) (now : Time) : DecisionRecord where
  decisionID := newDecisionID text
  stage := .ingress
  proposalID := prop.id
  agentID
  requestHash := requestHash go prop
  command := prop.type
  targetID := prop.targetID
  environment := d.environment
  verdict := d.verdict
  reasons := d.reasons
  policyVersion := d.policyVersion
  policyDigest := d.policyDigest
  workflowID := if d.verdict = .allow then workflowID prop else []
  traceID := traceID r
  recordedAt := now

/-- The input of the workflow for a recorded decision. -/
def executionRequest (agentID : GoString) (prop : AgentProposal) (rec : DecisionRecord) :
    ExecutionRequest where
  agentID
  proposal := prop
  ingressDecisionID := rec.decisionID
  requestHash := rec.requestHash

def startOptions (taskQueue : GoString) (prop : AgentProposal) : StartWorkflowOptions where
  id := workflowID prop
  taskQueue
  workflowExecutionErrorWhenAlreadyStarted := true

/-- `intercept`, on the task queue of the server. -/
def intercept (go : Runtime) (taskQueue : GoString) (r : Request) : Handler Response := do
  let some agentID := agentIDFromContext r
    | return writeError 401 (ascii "unauthorized") (ascii "missing or invalid API key")
  match decodeProposal r with
  | .error (status, msg) => return writeError status (ascii "invalid") msg
  | .ok prop =>
  match ← evaluateThrottled agentID prop with
  | .error _ =>
      return writeError 503 (ascii "unavailable") (ascii "request cancelled before evaluation")
  | .ok d =>
  let text ← perform .randText
  let now ← perform .now
  let record := ingressRecord go r agentID prop d text now
  let recordErr ← perform (.appendDecision record)
  let resp : InterceptResponse :=
    { verdict := d.verdict, reasons := d.reasons, proposalID := prop.id,
      decisionID := if recordErr.isSome then [] else record.decisionID }
  match d.verdict with
  | .deny => return ⟨403, { resp with status := ascii "rejected" }⟩
  | .requireApproval => return ⟨403, { resp with status := ascii "not_executed" }⟩
  | .other _ _ => return writeError 500 (ascii "error") (ascii "internal error")
  | .allow =>
  -- without a durable decision record no workflow may start
  if recordErr.isSome then
    return writeError 503 (ascii "unavailable")
      (ascii "decision could not be recorded; proposal not executed")
  match ← perform (.executeWorkflow (startOptions taskQueue prop)
      (executionRequest agentID prop record)) with
  | .error .workflowExecutionAlreadyStarted =>
      return ⟨409, { resp with
        status := ascii "not_executed"
        error := ascii
          "a workflow for this proposal id is already running; this request was not executed" }⟩
  | .error .failed =>
      return writeError 502 (ascii "error") (ascii "failed to start workflow")
  | .ok run =>
      return ⟨200, { resp with
        status := ascii "accepted"
        workflowID := run.id
        runID := run.runID
        next := ascii "GET /v1/decisions/" ++ prop.id ++ ascii " and /v1/audit/" ++ prop.id }⟩

/-! ## Its dialogues -/

/-- The calls of an evaluation that got a slot. -/
def evaluation (policy : Option Snapshot) : Transcript :=
  [⟨.ctxErr, none⟩, ⟨.acquireSlot, none⟩, ⟨.currentPolicy, policy⟩, ⟨.releaseSlot, ()⟩]

/-- The calls up to the write of the decision record. -/
def recording (policy : Option Snapshot) (text : GoString) (now : Time) (rec : DecisionRecord)
    (err : Option StoreError) : Transcript :=
  evaluation policy ++ [⟨.randText, text⟩, ⟨.now, now⟩, ⟨.appendDecision rec, err⟩]

/-- Everything one request can lead to. -/
inductive Handled (go : Runtime) (taskQueue : GoString) (r : Request) : Transcript → Prop where
  /-- No agent, or no proposal. -/
  | refused : Handled go taskQueue r []
  /-- The context ended before the evaluation. -/
  | ended (err : GoString) : Handled go taskQueue r [⟨.ctxErr, some err⟩]
  | waited (err : GoString) :
      Handled go taskQueue r [⟨.ctxErr, none⟩, ⟨.acquireSlot, some err⟩]
  /-- The decision was recorded, or not, and the request not executed. -/
  | judged (policy : Option Snapshot) (agentID : GoString) (prop : AgentProposal)
      (text : GoString) (now : Time) (err : Option StoreError) :
      Handled go taskQueue r (recording policy text now (ingressRecord go r agentID prop
        (Decision.evaluate policy agentID prop) text now) err)
  /-- An ALLOW was recorded and a workflow asked for. -/
  | started (policy : Option Snapshot) (agentID : GoString) (prop : AgentProposal)
      (text : GoString) (now : Time) (result : Except StartError WorkflowRun)
      (known : agentIDFromContext r = some agentID) (decoded : decodeProposal r = .ok prop)
      (allowed : (Decision.evaluate policy agentID prop).verdict = .allow) :
      Handled go taskQueue r (recording policy text now (ingressRecord go r agentID prop
          (Decision.evaluate policy agentID prop) text now) none ++
        [⟨.executeWorkflow (startOptions taskQueue prop) (executionRequest agentID prop
          (ingressRecord go r agentID prop (Decision.evaluate policy agentID prop) text now)),
          result⟩])

section Dialogues

variable {go : Runtime} {taskQueue : GoString} {r : Request} {trace : Transcript} {resp : Response}

/-- The evaluation ends early, or evaluates the policy it found. -/
theorem always_evaluateThrottled {agentID : GoString} {prop : AgentProposal}
    {Q : Transcript → Except GoString Contracts.Decision → Prop} :
    (evaluateThrottled agentID prop).Always Q ↔
      (∀ err, Q [⟨.ctxErr, some err⟩] (.error err)) ∧
      (∀ err, Q [⟨.ctxErr, none⟩, ⟨.acquireSlot, some err⟩] (.error err)) ∧
      ∀ policy, Q (evaluation policy) (.ok (Decision.evaluate policy agentID prop)) := by
  constructor
  · intro always
    exact ⟨fun err => always (some err), fun err => always none (some err),
      fun policy => always none none policy ()⟩
  · rintro ⟨ended, waited, evaluated⟩
    rintro (_ | err)
    · rintro (_ | err)
      · exact fun policy _ => evaluated policy
      · exact waited err
    · exact ended err

/-- **The dialogues of the handler.** -/
theorem intercept_handled (runs : (intercept go taskQueue r).Runs trace resp) :
    Handled go taskQueue r trace := by
  refine runs.of_always (Q := fun trace _ => Handled go taskQueue r trace) ?_
  unfold intercept
  split
  · rename_i agentID known
    split
    · exact .refused
    · rename_i prop decoded
      rw [Dialogue.always_bind, always_evaluateThrottled]
      refine ⟨fun err => .ended err, fun err => .waited err, fun policy => ?_⟩
      simp only [Dialogue.always_bind]
      intro text now err
      split
      · exact .judged policy agentID prop text now err
      · exact .judged policy agentID prop text now err
      · exact .judged policy agentID prop text now err
      · rename_i allowed
        cases err with
        | some e => exact .judged policy agentID prop text now (some e)
        | none =>
            intro result
            rcases result with (_ | _) | run <;>
              exact .started policy agentID prop text now _ known decoded allowed
  · exact .refused

end Dialogues

/-! ## What a record authorizes -/

/-- The record allows this request under this workflow ID, by this policy, and, where
SHA-256 does not collide, no other request and no other workflow ID. -/
structure Authorizes (go : Runtime) (policy : Option Snapshot) (rec : DecisionRecord)
    (req : ExecutionRequest) (workflowID : GoString) : Prop where
  stage : rec.stage = .ingress
  verdict : rec.verdict = .allow
  verified : verifyIngress go rec req workflowID = none
  revalidated : (revalidate go policy req).verdict = .allow
  only : Separates go req.proposal → Sized req.proposal →
    ∀ req' workflowID', Sized req'.proposal → verifyIngress go rec req' workflowID' = none →
      req'.agentID = req.agentID ∧ req'.proposal = req.proposal ∧ workflowID' = workflowID

/-- The record of an ALLOW authorizes the request built from it. -/
theorem ingressRecord_authorizes (go : Runtime) (r : Request) {policy : Option Snapshot}
    {agentID : GoString} {prop : AgentProposal} (text : GoString) (now : Time)
    (allowed : (Decision.evaluate policy agentID prop).verdict = .allow) :
    Authorizes go policy
      (ingressRecord go r agentID prop (Decision.evaluate policy agentID prop) text now)
      (executionRequest agentID prop
        (ingressRecord go r agentID prop (Decision.evaluate policy agentID prop) text now))
      (workflowID prop) := by
  have named : workflowID prop ≠ [] := by simp [workflowID, ascii]
  have verified : verifyIngress go
      (ingressRecord go r agentID prop (Decision.evaluate policy agentID prop) text now)
      (executionRequest agentID prop
        (ingressRecord go r agentID prop (Decision.evaluate policy agentID prop) text now))
      (workflowID prop) = none := by
    rw [verifyIngress_eq_none_iff]
    refine ⟨newDecisionID_ne_nil text, rfl, rfl, allowed, rfl, rfl, rfl, ?_, ?_⟩
    · rw [ingressRecord, if_pos allowed]
      exact named
    · rw [ingressRecord, if_pos allowed]
  exact {
    stage := rfl
    verdict := allowed
    verified
    revalidated := (revalidate_allow_iff go policy _).mpr ⟨rfl, allowed⟩
    only := fun free sized req' workflowID' sized' passed =>
      verifyIngress_unique free sized sized' verified passed }

/-- The call starts a workflow. -/
def isStart : Sigma Call.Answer → Bool
  | ⟨.executeWorkflow _ _, _⟩ => true
  | _ => false

/-- No workflow is started up to the write of the record. -/
theorem recording_starts (policy : Option Snapshot) (text : GoString) (now : Time)
    (rec : DecisionRecord) (err : Option StoreError) :
    ∀ x ∈ recording policy text now rec err, isStart x = false := by
  simp [recording, evaluation, isStart]

/-- A started workflow is the last call, behind a recorded ALLOW. -/
theorem Handled.start {go : Runtime} {taskQueue : GoString} {r : Request}
    {before after : Transcript} {options : StartWorkflowOptions} {req : ExecutionRequest}
    {result : Except StartError WorkflowRun} {trace : Transcript}
    (handled : Handled go taskQueue r trace)
    (here : trace = before ++ ⟨.executeWorkflow options req, result⟩ :: after) :
    ∃ policy agentID prop text now record,
      record = ingressRecord go r agentID prop (Decision.evaluate policy agentID prop) text now ∧
      agentIDFromContext r = some agentID ∧ decodeProposal r = .ok prop ∧
      (Decision.evaluate policy agentID prop).verdict = .allow ∧
      before = recording policy text now record none ∧
      options = startOptions taskQueue prop ∧ req = executionRequest agentID prop record := by
  have member : ⟨.executeWorkflow options req, result⟩ ∈ trace := by simp [here]
  cases handled with
  | refused => cases member
  | ended err => simp at member
  | waited err => simp at member
  | judged policy agentID prop text now err => cases recording_starts _ _ _ _ _ _ member
  | started policy agentID prop text now result' known decoded allowed =>
      rcases split_concat here with ⟨after', early⟩ | ⟨rfl, last⟩
      · have inside : ⟨.executeWorkflow options req, result⟩ ∈
            before ++ ⟨.executeWorkflow options req, result⟩ :: after' := by simp
        rw [← early] at inside
        cases recording_starts _ _ _ _ _ _ inside
      · cases last
        exact ⟨policy, agentID, prop, text, now, _, rfl, known, decoded, allowed, rfl, rfl, rfl⟩

/-- **A request starts at most one workflow, behind a recorded ALLOW that authorizes it
and nothing else**, whatever the store and Temporal answer; the records of other
verdicts authorize nothing. -/
theorem intercept_authorizes {go : Runtime} {taskQueue : GoString} {r : Request}
    {trace : Transcript} {resp : Response} (runs : (intercept go taskQueue r).Runs trace resp) :
    trace.countP isStart ≤ 1 ∧
    (∀ before options req result after,
      trace = before ++ ⟨.executeWorkflow options req, result⟩ :: after →
      agentIDFromContext r = some req.agentID ∧ decodeProposal r = .ok req.proposal ∧
      ∃ rec policy, ⟨.appendDecision rec, none⟩ ∈ before ∧ ⟨.currentPolicy, policy⟩ ∈ before ∧
        Authorizes go policy rec req options.id) ∧
    (∀ rec err, ⟨.appendDecision rec, err⟩ ∈ trace → rec.verdict ≠ .allow →
      ∀ req workflowID, verifyIngress go rec req workflowID ≠ none) := by
  have handled := intercept_handled runs
  refine ⟨?_, ?_, ?_⟩
  · cases handled <;> simp [recording, evaluation, isStart]
  · intro before options req result after here
    obtain ⟨policy, agentID, prop, text, now, record, rfl, known, decoded, allowed, rfl, rfl, rfl⟩ :=
      handled.start here
    refine ⟨known, decoded, _, policy, ?_, ?_, ingressRecord_authorizes go r text now allowed⟩
    · simp [recording]
    · simp [recording, evaluation]
  · intro rec err _ refused
    exact verifyIngress_of_not_allow refused

/-- A policy that allows everything. -/
def samplePolicy : Snapshot where
  version := ascii "v1"
  digest := []
  maxParallelTasks := 1
  environments _ := some .allow
  commands _ := true
  agents _ := some fun _ => true
  targets id := some { id, environment := ascii "dev", isProtected := false }

def sampleProposal : AgentProposal where
  id := ascii "p-1"
  type := ascii "MODIFY_ROUTING"
  targetID := ascii "n"
  payload := []

def sampleRequest : Request where
  agentID := some (ascii "a")
  traceID := none
  first := .value sampleProposal
  second := .eof

/-- A slot is free, the record is written, and the workflow starts. -/
def sampleAnswer : (k : Call) → k.Answer
  | .ctxErr | .acquireSlot => none
  | .releaseSlot => ()
  | .currentPolicy => some samplePolicy
  | .randText => ascii "R"
  | .now => ⟨1⟩
  | .appendDecision _ => none
  | .executeWorkflow options _ => .ok ⟨options.id, ascii "r"⟩

def sampleRecord (go : Runtime) : DecisionRecord :=
  ingressRecord go sampleRequest (ascii "a") sampleProposal
    (Decision.evaluate (some samplePolicy) (ascii "a") sampleProposal) (ascii "R") ⟨1⟩

def sampleExecution (go : Runtime) : ExecutionRequest :=
  executionRequest (ascii "a") sampleProposal (sampleRecord go)

/-- The handler starts a workflow for the sample request. -/
theorem sample_runs (go : Runtime) :
    ∃ resp, (intercept go (ascii "q") sampleRequest).Runs
      (recording (some samplePolicy) (ascii "R") ⟨1⟩ (sampleRecord go) none ++
        [⟨.executeWorkflow (startOptions (ascii "q") sampleProposal) (sampleExecution go),
          .ok ⟨workflowID sampleProposal, ascii "r"⟩⟩]) resp ∧ resp.code = 200 :=
  ⟨_, Dialogue.serve_runs (fun u k => (u, sampleAnswer k)) _ (), rfl⟩

theorem intercept_authorizes_sample :
    Separates .plain sampleProposal ∧
    ∃ rec policy, ⟨.appendDecision rec, none⟩ ∈
        recording (some samplePolicy) (ascii "R") ⟨1⟩ (sampleRecord .plain) none ∧
      Authorizes .plain policy rec (sampleExecution .plain) (ascii "saga-p-1") := by
  obtain ⟨resp, runs, -⟩ := sample_runs .plain
  obtain ⟨-, -, rec, policy, written, -, authorizes⟩ :=
    (intercept_authorizes runs).2.1 _ _ _ _ [] rfl
  exact ⟨fun q same => same, rec, policy, written, authorizes⟩

end SentryGate.Proxy
