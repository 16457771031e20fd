/-
# Workflows.Saga -- SentryGateSagaWorkflow as a resumable thread

`workflows/saga.go`.  The workflow is deterministic code that blocks on
activities, one side effect and timers.  `Point` lists the places where it can be
blocked, with the values it needs afterwards; `await` is what it waits for there
and `resume` how it goes on with the answer.  Temporal replays a run by feeding it
the recorded answers from the start: that is `replay`.

The deferred release of the source runs on every `exit`: it is skipped unless
`mayHoldClaim && !dispatching`.
-/
import SentryGate.Workflows.Activities

namespace SentryGate.Workflows

open Theory.Text Contracts Decision Audit

set_option autoImplicit false

/-! ## Waits -/

/-- The activity options a wait runs with: whether cancelling the workflow ends it
(`NewDisconnectedContext` otherwise), and `RetryPolicy.MaximumAttempts`. -/
structure Options where
  cancellable : Bool
  maximumAttempts : Nat
  deriving DecidableEq

/-- `activityOpts` on `ctx`. -/
def activityOpts : Options := { cancellable := true, maximumAttempts := 1 }
/-- `bookkeepingOpts` on `ctx`: `bookCtx`. -/
def bookCtx : Options := { cancellable := true, maximumAttempts := 3 }
/-- `bookkeepingOpts` on the disconnected context: `claimCtx`. -/
def claimCtx : Options := { cancellable := false, maximumAttempts := 3 }
/-- `activityOpts` on the disconnected context: `compCtx`. -/
def compCtx : Options := { cancellable := false, maximumAttempts := 1 }

inductive Await where
  | activity (act : Activity) (opts : Options)
  | sideEffect
  | sleep (d : Duration)
  | nothing
  deriving DecidableEq

/-! ## Results -/

/-- The error a run fails with: an application error, or `ErrAuditPersistFailed`
wrapping the text of what failed. -/
inductive WorkflowError where
  | application (type : ErrorType) (message cause : GoString) (details : List GoString)
  | auditPersistFailed (cause : GoString)
  deriving DecidableEq

/-- What a run returns; `none` is nil. -/
abbrev WorkflowResult := Option WorkflowError

/-! ## Texts -/

def decimal (n : Nat) : GoString := (Nat.toDigits 10 n).map fun c => UInt8.ofNat c.toNat

def boolText (b : Bool) : GoString := if b then ascii "true" else ascii "false"

/-- `joinReasons`. -/
def joinReasons (rs : List ReasonCode) : GoString :=
  (ascii ",").intercalate (rs.map Open.text)

/-- `newAuditRecord`. -/
def newAuditRecord (proposalID workflowID runID : GoString) (phase : AuditPhase)
    (verdict : AuditVerdict) (prop : AgentProposal) (detail : GoString) (recordedAt : Time)
    (seq : Nat) : AuditRecord where
  recordID := proposalID ++ ascii "-" ++ runID ++ ascii "-" ++ phase.text ++ ascii "-" ++ decimal seq
  proposalID
  workflowID
  runID
  phase
  verdict
  targetID := prop.targetID
  command := prop.type
  detail
  recordedAt

/-- `auditVerdict`. -/
def auditVerdict (o : DispatchOutcome) : AuditVerdict :=
  match o.status with
  | .success => .named .pass
  | .failure => .named .fail
  | _ => .named .unknown

/-- `outcomeDetail`. -/
def outcomeDetail (go : Runtime) (dreq : DispatchRequest) (o : DispatchOutcome) : GoString :=
  ascii "outcome=" ++ o.status.text ++ ascii " partially_applied=" ++ boolText o.partiallyApplied ++
    ascii " idempotency_key=" ++ dreq.idempotencyKey ++ ascii " target=" ++ dreq.proposal.targetID ++
    ascii " detail=" ++ go.quote o.detail

/-- `fenceFailure`: the type of an error that guarantees the adapter was not called. -/
def fenceFailure : ActivityError → Option ErrorTypeName
  | .application (.named .executionFenceRejected) _ _ => some .executionFenceRejected
  | .application (.named .executionFenceUnknown) _ _ => some .executionFenceUnknown
  | _ => none

/-! ## The thread -/

/-- The arguments of `reject`. -/
structure Rejection where
  errType : ErrorTypeName
  reason : ReasonCode
  detail : GoString
  deriving DecidableEq

/-- The reason field of a result as the string it is: empty where none is set. -/
def reasonField (reason : Option ReasonCode) : ReasonCode := reason.getD (.ofText [])

/-- Where the workflow is blocked. -/
inductive Point where
  | verifyIngress
  | rejectRecord (rej : Rejection)
  | rejectAudit (rej : Rejection)
  | executionToken
  | claimExecution
  | evaluateExecution
  | recordDecision (dec : Decision)
  | auditDenied (dec : Decision)
  | auditPassed (dec : Decision)
  | dispatchConfig
  | releaseFenced (fence : ErrorTypeName) (dispatchErr : ActivityError)
  | auditFenceRejected (released : Bool) (dispatchErr : ActivityError)
  | auditFenceUnknown (outcome : DispatchOutcome)
  | auditDispatch (outcome : DispatchOutcome)
  | requireReconciliation
  | reconcile (start : Time) (wait : Duration)
  | reconcileSleep (start : Time) (wait : Duration) (last : DispatchOutcome)
  | auditReconciliation (outcome : DispatchOutcome)
  | markFailed (outcome : DispatchOutcome)
  | compensate (outcome : DispatchOutcome)
  | auditCompensation (err : Option GoString) (failure : GoString)
  | auditWorkflowFailed (failure : GoString)
  | markCompleted
  | auditComplete
  | releaseOnExit (result : WorkflowResult)
  | closed (result : WorkflowResult)
  deriving DecidableEq

/-- The local state of the workflow function. -/
structure Thread where
  point : Point
  token : GoString
  auditSeq : Nat
  mayHoldClaim : Bool
  dispatching : Bool
  auditErr : Option GoString
  now : Time
  deriving DecidableEq

/-- The thread of a run started at `now`. -/
def Thread.initial (now : Time) : Thread where
  point := .verifyIngress
  token := []
  auditSeq := 0
  mayHoldClaim := false
  dispatching := false
  auditErr := none
  now

/-- An answer, with the workflow clock when it is delivered. -/
structure Event where
  reply : Reply
  now : Time
  deriving DecidableEq

/-! ## What it waits for -/

def dispatchRequest (req : ExecutionRequest) : DispatchRequest where
  idempotencyKey := executionKey req.ingressDecisionID
  proposal := req.proposal

def fencedDispatch (req : ExecutionRequest) (token : GoString) : FencedDispatch where
  decisionID := req.ingressDecisionID
  token
  dispatch := dispatchRequest req

/-- `"wf_" + workflowID + "_" + runID`. -/
def workflowDecisionID (x : Execution) : GoString :=
  ascii "wf_" ++ x.workflowID ++ ascii "_" ++ x.runID

/-- The record `recordDecision` writes. -/
def decisionRecord (go : Runtime) (x : Execution) (req : ExecutionRequest) (dec : Decision)
    (now : Time) : DecisionRecord where
  decisionID := workflowDecisionID x
  stage := .workflowRevalidation
  proposalID := req.proposal.id
  agentID := req.agentID
  requestHash := requestHash go req.proposal
  command := req.proposal.type
  targetID := req.proposal.targetID
  environment := dec.environment
  verdict := dec.verdict
  reasons := dec.reasons
  policyVersion := dec.policyVersion
  policyDigest := dec.policyDigest
  workflowID := x.workflowID
  traceID := []
  recordedAt := now

/-- The decision `reject` records. -/
def Rejection.decision (rej : Rejection) : Decision where
  verdict := .deny
  reasons := [rej.reason]
  environment := []
  policyVersion := []
  policyDigest := []

/-- The detail of a rejection's audit row. -/
def Rejection.auditDetail (go : Runtime) (req : ExecutionRequest) (rej : Rejection) : GoString :=
  ascii "execution rejected: reason=" ++ rej.reason.text ++ ascii " detail=" ++ go.quote rej.detail ++
    ascii " ingress_decision_id=" ++ go.quote req.ingressDecisionID

/-- The detail of a re-validation's audit row. -/
def revalidationDetail (req : ExecutionRequest) (dec : Decision) : GoString :=
  ascii "verdict=" ++ dec.verdict.text ++ ascii " reasons=" ++ joinReasons dec.reasons ++
    ascii " policy_version=" ++ dec.policyVersion ++ ascii " ingress_decision_id=" ++
    req.ingressDecisionID

/-- The detail of the audit row for a fence that was not acquired. -/
def fenceDetail (sdk : Sdk) (req : ExecutionRequest) (released : Bool) (err : ActivityError) :
    GoString :=
  ascii "adapter not called: released=" ++ boolText released ++ ascii " ingress_decision_id=" ++
    req.ingressDecisionID ++ ascii " error=" ++ sdk.quote (sdk.errorText err)

/-- The audit row a point writes: phase, verdict and detail. -/
def auditRow (sdk : Sdk) (req : ExecutionRequest) :
    Point → Option (PhaseName × AuditVerdict × GoString)
  | .rejectAudit rej => some (.revalidation, .named .fail, rej.auditDetail sdk.toRuntime req)
  | .auditDenied dec => some (.revalidation, .named .fail, revalidationDetail req dec)
  | .auditPassed dec => some (.revalidation, .named .pass, revalidationDetail req dec)
  | .auditFenceRejected released err =>
      some (.executionFence, .named .fail, fenceDetail sdk req released err)
  | .auditFenceUnknown o =>
      some (.executionFence, .named .unknown, outcomeDetail sdk.toRuntime (dispatchRequest req) o)
  | .auditDispatch o =>
      some (.dispatch, auditVerdict o, outcomeDetail sdk.toRuntime (dispatchRequest req) o)
  | .auditReconciliation o =>
      some (.reconciliation, auditVerdict o, outcomeDetail sdk.toRuntime (dispatchRequest req) o)
  | .auditCompensation (some err) _ => some (.compensation, .named .fail, err)
  | .auditCompensation none _ =>
      some (.compensation, .named .pass, ascii "compensation activity completed")
  | .auditWorkflowFailed failure => some (.workflowFailed, .named .fail, failure)
  | .auditComplete =>
      some (.workflowComplete, .named .pass, ascii "workflow completed without compensation")
  | _ => none

/-- The claim transition a point requests, with the context it runs on. -/
def transition : Point → Option ClaimState
  | .releaseFenced _ _ | .releaseOnExit _ => some .released
  | .requireReconciliation => some .reconciliationRequired
  | .markFailed _ => some .failed
  | .markCompleted => some .completed
  | _ => none

/-- What the workflow waits for. -/
def await (sdk : Sdk) (x : Execution) (req : ExecutionRequest) (th : Thread) : Await :=
  match auditRow sdk req th.point, transition th.point with
  | some (phase, verdict, detail), _ =>
      -- `auditCtx` is disconnected once dispatch may happen
      .activity (.recordAuditTrail (newAuditRecord req.proposal.id x.workflowID x.runID
        (.named phase) verdict req.proposal detail th.now th.auditSeq))
        (if th.dispatching then claimCtx else bookCtx)
  | none, some target =>
      .activity (.advanceExecutionClaim
        { decisionID := req.ingressDecisionID, token := th.token, toState := target }) claimCtx
  | none, none =>
      match th.point with
      | .verifyIngress => .activity (.verifyIngressDecision req) bookCtx
      | .rejectRecord rej =>
          .activity (.recordDecision (decisionRecord sdk.toRuntime x req rej.decision th.now)) bookCtx
      | .executionToken => .sideEffect
      | .claimExecution =>
          .activity (.claimExecution { decisionID := req.ingressDecisionID, token := th.token }) bookCtx
      | .evaluateExecution => .activity (.evaluateExecution req) bookCtx
      | .recordDecision dec =>
          .activity (.recordDecision (decisionRecord sdk.toRuntime x req dec th.now)) bookCtx
      | .dispatchConfig => .activity (.dispatchConfig (fencedDispatch req th.token)) activityOpts
      | .reconcile _ _ => .activity (.reconcileDispatch (dispatchRequest req)) bookCtx
      | .reconcileSleep _ wait _ => .sleep wait
      | .compensate _ => .activity (.revertStateCompensation (dispatchRequest req)) compCtx
      | _ => .nothing

/-! ## How it goes on -/

namespace Reply

/-- `Get(ctx, nil)`: the error, if any. -/
def error? : Reply → Option ActivityError
  | .failed e => some e
  | _ => none

/-- `Get(ctx, &v)` for an ingress verification. -/
def getVerification : Reply → Except ActivityError IngressVerification
  | .verified v => .ok v
  | .failed e => .error e
  | _ => .error .undecodable

def getText : Reply → Except ActivityError GoString
  | .text t => .ok t
  | .failed e => .error e
  | _ => .error .undecodable

def getClaim : Reply → Except ActivityError ClaimResult
  | .claimed r => .ok r
  | .failed e => .error e
  | _ => .error .undecodable

def getDecision : Reply → Except ActivityError Decision
  | .decided d => .ok d
  | .failed e => .error e
  | _ => .error .undecodable

def getOutcome : Reply → Except ActivityError DispatchOutcome
  | .outcome o => .ok o
  | .failed e => .error e
  | _ => .error .undecodable

end Reply

/-- A non-retryable application error of the workflow. -/
def applicationError (type : ErrorTypeName) (message cause : GoString) (details : List GoString) :
    WorkflowResult :=
  some (.application (.named type) message cause details)

namespace Thread

def goto (th : Thread) (point : Point) : Thread := { th with point }

/-- Go to a point that writes an audit row. -/
def audit (th : Thread) (point : Point) : Thread :=
  { th with point, auditSeq := th.auditSeq + 1 }

/-- Return `result`, through the deferred release. -/
def exit (th : Thread) (result : WorkflowResult) : Thread :=
  if th.mayHoldClaim && !th.dispatching then th.goto (.releaseOnExit result)
  else th.goto (.closed result)

/-- Go on with a confirmed outcome. -/
def settle (th : Thread) (o : DispatchOutcome) : Thread :=
  if o.status = .failure then th.goto (.markFailed o) else th.goto .markCompleted

end Thread

def reconcileFirstWait : Duration := 10 * 10 ^ 9
def reconcileMaxWait : Duration := 30 * 60 * 10 ^ 9
def reconcileWindow : Duration := 24 * 60 * 60 * 10 ^ 9

/-- The outcome the workflow makes of an answer to `DispatchConfig` that is no
fence error. -/
def dispatchOutcome (sdk : Sdk) : Except ActivityError DispatchOutcome → DispatchOutcome
  | .ok o => o.checked
  | .error err =>
      (unknownOutcome (ascii "dispatch activity returned no outcome: " ++ sdk.errorText err)).checked

/-- The outcome `reconcileDispatch` makes of an answer to `ReconcileDispatch`. -/
def reconcileOutcome (sdk : Sdk) : Except ActivityError DispatchOutcome → DispatchOutcome
  | .ok o => o.checked
  | .error err =>
      (unknownOutcome
        (ascii "reconciliation activity returned no outcome: " ++ sdk.errorText err)).checked

/-- The answer to the dispatch step. -/
def resumeDispatch (sdk : Sdk) (th : Thread) (answer : Except ActivityError DispatchOutcome) :
    Thread :=
  match answer with
  | .ok o => th.audit (.auditDispatch (dispatchOutcome sdk (.ok o)))
  | .error err =>
      match fenceFailure err with
      | some fence => th.goto (.releaseFenced fence err)
      | none => th.audit (.auditDispatch (dispatchOutcome sdk (.error err)))

/-- The answer to the release after a fence error. -/
def resumeReleaseFenced (sdk : Sdk) (th : Thread) (fence : ErrorTypeName)
    (dispatchErr : ActivityError) (releaseErr : Option ActivityError) : Thread :=
  if releaseErr.isNone ∨ fence = .executionFenceRejected then
    th.audit (.auditFenceRejected releaseErr.isNone dispatchErr)
  else
    th.audit (.auditFenceUnknown (unknownOutcome
      (ascii "execution fence may have committed; adapter not called: " ++
        sdk.errorText dispatchErr)))

/-- The answer to one `ReconcileDispatch` of the reconciliation loop. -/
def resumeReconcile (sdk : Sdk) (th : Thread) (start : Time) (wait : Duration)
    (answer : Except ActivityError DispatchOutcome) : Thread :=
  let o := reconcileOutcome sdk answer
  if o.status ≠ .unknown ∨ addDuration (th.now.sub start) wait > reconcileWindow then
    th.audit (.auditReconciliation o)
  else th.goto (.reconcileSleep start wait o)

/-- The answer to the FAILED transition: compensate only what partly took effect. -/
def resumeMarkFailed (th : Thread) (o : DispatchOutcome) : Thread :=
  if o.partiallyApplied then th.goto (.compensate o)
  else th.audit (.auditWorkflowFailed (ascii "dispatch failed: " ++ o.detail))

/-- The answer to the compensation. -/
def resumeCompensate (sdk : Sdk) (th : Thread) (o : DispatchOutcome) :
    Option ActivityError → Thread
  | some err =>
      th.audit (.auditCompensation (some (sdk.errorText err))
        (ascii "dispatch partly applied and compensation failed: " ++ sdk.errorText err))
  | none =>
      th.audit (.auditCompensation none
        (ascii "dispatch partly applied and compensation ran: " ++ o.detail))

/-- The workflow goes on with the answer it was waiting for. -/
def resume (sdk : Sdk) (req : ExecutionRequest) (prior : Thread) (e : Event) : Thread :=
  let th := { prior with now := e.now }
  match th.point with
  | .verifyIngress =>
      match e.reply.getVerification with
      | .error err =>
          th.exit (applicationError .ingressDecisionInvalid
            (ascii "ingress decision could not be verified; proposal not executed")
            (sdk.errorText err) [])
      | .ok v =>
          if v.valid then th.goto .executionToken
          else th.goto (.rejectRecord ⟨.ingressDecisionInvalid, reasonField v.reason, v.detail⟩)
  | .rejectRecord rej => th.audit (.rejectAudit rej)
  | .rejectAudit rej =>
      th.exit (applicationError rej.errType (ascii "execution rejected: " ++ rej.reason.text) []
        [rej.reason.text])
  | .executionToken =>
      match e.reply.getText with
      | .error err =>
          th.exit (applicationError .executionClaimRejected
            (ascii "execution token unavailable; proposal not executed") (sdk.errorText err) [])
      | .ok token => { th with point := .claimExecution, token, mayHoldClaim := true }
  | .claimExecution =>
      match e.reply.getClaim with
      | .error err =>
          th.exit (applicationError .executionClaimRejected
            (ascii "execution claim could not be acquired; proposal not executed")
            (sdk.errorText err) [])
      | .ok r =>
          if r.claimed then th.goto .evaluateExecution
          else { th with point := .rejectRecord ⟨.executionClaimRejected, reasonField r.reason, r.detail⟩,
                         mayHoldClaim := false }
  | .evaluateExecution =>
      match e.reply.getDecision with
      | .error err =>
          th.exit (applicationError .revalidationDenied
            (ascii "re-validation unavailable; proposal not executed") (sdk.errorText err) [])
      | .ok dec => th.goto (.recordDecision dec)
  | .recordDecision dec =>
      if dec.verdict ≠ .allow then th.audit (.auditDenied dec)
      else match e.reply.error? with
        | some err => th.exit (some (.auditPersistFailed (sdk.errorText err)))
        | none => th.audit (.auditPassed dec)
  | .auditDenied dec =>
      th.exit (applicationError .revalidationDenied
        (ascii "proposal denied at workflow re-validation: " ++ dec.verdict.text ++ ascii " " ++
          joinReasons dec.reasons) [] [])
  | .auditPassed _ =>
      match e.reply.error? with
      | some err => th.exit (some (.auditPersistFailed (sdk.errorText err)))
      | none => { th with point := .dispatchConfig, dispatching := true }
  | .dispatchConfig => resumeDispatch sdk th e.reply.getOutcome
  | .releaseFenced fence err => resumeReleaseFenced sdk th fence err e.reply.error?
  | .auditFenceRejected _ err =>
      th.exit (applicationError .executionClaimRejected
        (ascii "execution fence not acquired; proposal not executed") (sdk.errorText err) [])
  | .auditFenceUnknown _ =>
      { th with point := .requireReconciliation, auditErr := e.reply.error?.map sdk.errorText }
  | .auditDispatch o =>
      let th := { th with auditErr := e.reply.error?.map sdk.errorText }
      if o.status = .unknown then th.goto .requireReconciliation else th.settle o
  | .requireReconciliation => th.goto (.reconcile th.now reconcileFirstWait)
  | .reconcile start wait => resumeReconcile sdk th start wait e.reply.getOutcome
  | .reconcileSleep start wait last =>
      match e.reply.error? with
      | some _ => th.audit (.auditReconciliation last)
      | none => th.goto (.reconcile start (min (2 * wait) reconcileMaxWait))
  | .auditReconciliation o =>
      let th := { th with auditErr := e.reply.error?.map sdk.errorText }
      if o.status = .unknown then
        th.exit (applicationError .dispatchOutcomeUnknown
          (ascii "dispatch outcome unknown after reconciliation; " ++
            ascii "execution claim left in RECONCILIATION_REQUIRED") []
          [executionKey req.ingressDecisionID])
      else th.settle o
  | .markFailed o => resumeMarkFailed th o
  | .compensate o => resumeCompensate sdk th o e.reply.error?
  | .auditCompensation _ failure => th.audit (.auditWorkflowFailed failure)
  | .auditWorkflowFailed failure => th.exit (applicationError .dispatchFailed failure [] [])
  | .markCompleted =>
      match e.reply.error?.map sdk.errorText, th.auditErr with
      | some err, _ => th.exit (some (.auditPersistFailed err))
      | none, some err => th.exit (some (.auditPersistFailed err))
      | none, none => th.audit .auditComplete
  | .auditComplete =>
      match e.reply.error? with
      | some err => th.exit (some (.auditPersistFailed (sdk.errorText err)))
      | none => th.exit none
  | .releaseOnExit result => th.goto (.closed result)
  | .closed _ => prior

/-- Replay a history from the start of the run. -/
def replay (sdk : Sdk) (req : ExecutionRequest) (startedAt : Time) (history : List Event) : Thread :=
  history.foldl (resume sdk req) (Thread.initial startedAt)

end SentryGate.Workflows
