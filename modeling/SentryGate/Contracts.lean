/-
# Contracts -- the types the proxy, the worker and the stores share

`shared/contracts`, type for type.  String types with named constants are `Open`
enumerations, so a record, an outcome or a target state can still carry any text
the Go type can.  Times are instants (`Time`): Go's `UTC()` changes how a time is
shown, not which instant it is.  JSON tags are left out; no modelled function
reads them.
-/
import Mathlib.Algebra.Order.Ring.Int
import SentryGate.Theory.Text

namespace SentryGate.Contracts

open Theory.Text

set_option autoImplicit false

/-- What the model takes from Go's standard library without opening it: SHA-256
and the quoting of `%q`. -/
structure Runtime where
  sha256 : GoString → GoString
  quote : GoString → GoString

/-- A runtime for sample runs: each text is its own hash and its own quotation. -/
def Runtime.plain : Runtime where
  sha256 := id
  quote := id

/-- SHA-256 does not collide on these strings. -/
def Runtime.Separates (go : Runtime) (strings : List GoString) : Prop :=
  ∀ x ∈ strings, ∀ y ∈ strings, go.sha256 x = go.sha256 y → x = y

/-- An instant, in nanoseconds since Go's zero time 0001-01-01T00:00:00Z. -/
structure Time where
  ns : Int
  deriving DecidableEq

def Time.isZero (t : Time) : Bool := t.ns == 0

/-- A length of time in nanoseconds. -/
abbrev Duration := Int

/-- `t.Sub(u)`, which saturates at the bounds of an int64. -/
def Time.sub (t u : Time) : Duration := max (-2 ^ 63) (min (2 ^ 63 - 1) (t.ns - u.ns))

/-- The sum of two durations as Go computes it, wrapping around at 64 bits. -/
def addDuration (d e : Duration) : Duration := Int.bmod (d + e) (2 ^ 64)

/-! ## Proposals -/

/-- The set of commands is defined by the policy's catalogue, not by this type. -/
abbrev CommandType := GoString

structure AgentProposal where
  id : GoString
  type : CommandType
  targetID : GoString
  payload : GoString
  deriving DecidableEq

def failingNodeID : GoString := ascii "FAILING_NODE"
def lostResponseNodeID : GoString := ascii "LOST_RESPONSE_NODE"
def unreachableNodeID : GoString := ascii "UNREACHABLE_NODE"
def partitionedNodeID : GoString := ascii "PARTITIONED_NODE"

/-! ## Decisions -/

inductive VerdictName where
  | allow | deny | requireApproval
  deriving DecidableEq

instance : Wire VerdictName where
  text
    | .allow => ascii "ALLOW"
    | .deny => ascii "DENY"
    | .requireApproval => ascii "REQUIRE_APPROVAL"
  values := [.allow, .deny, .requireApproval]
  complete a := by cases a <;> decide
  distinct := by decide

abbrev Verdict := Open VerdictName

@[match_pattern] abbrev Verdict.allow : Verdict := .named .allow
@[match_pattern] abbrev Verdict.deny : Verdict := .named .deny
@[match_pattern] abbrev Verdict.requireApproval : Verdict := .named .requireApproval

inductive ReasonName where
  | agentUnknown | commandUnknown | commandNotPermitted | targetUnregistered
  | targetProtected | environmentDenied | approvalRequired | environmentAllowed
  | policyUnavailable | requestHashMismatch | ingressDecisionNotFound
  | ingressDecisionWrongStage | ingressDecisionNotAllow | ingressAgentMismatch
  | ingressHashMismatch | ingressIdentityMismatch | ingressDecisionAlreadyClaimed
  deriving DecidableEq

instance : Wire ReasonName where
  text
    | .agentUnknown => ascii "AGENT_UNKNOWN"
    | .commandUnknown => ascii "COMMAND_UNKNOWN"
    | .commandNotPermitted => ascii "COMMAND_NOT_PERMITTED_FOR_AGENT"
    | .targetUnregistered => ascii "TARGET_UNREGISTERED"
    | .targetProtected => ascii "TARGET_PROTECTED"
    | .environmentDenied => ascii "ENVIRONMENT_DENIED"
    | .approvalRequired => ascii "APPROVAL_REQUIRED"
    | .environmentAllowed => ascii "ENVIRONMENT_ALLOWED"
    | .policyUnavailable => ascii "POLICY_UNAVAILABLE"
    | .requestHashMismatch => ascii "REQUEST_HASH_MISMATCH"
    | .ingressDecisionNotFound => ascii "INGRESS_DECISION_NOT_FOUND"
    | .ingressDecisionWrongStage => ascii "INGRESS_DECISION_WRONG_STAGE"
    | .ingressDecisionNotAllow => ascii "INGRESS_DECISION_NOT_ALLOW"
    | .ingressAgentMismatch => ascii "INGRESS_DECISION_AGENT_MISMATCH"
    | .ingressHashMismatch => ascii "INGRESS_DECISION_HASH_MISMATCH"
    | .ingressIdentityMismatch => ascii "INGRESS_DECISION_IDENTITY_MISMATCH"
    | .ingressDecisionAlreadyClaimed => ascii "INGRESS_DECISION_ALREADY_CLAIMED"
  values := [.agentUnknown, .commandUnknown, .commandNotPermitted, .targetUnregistered,
    .targetProtected, .environmentDenied, .approvalRequired, .environmentAllowed,
    .policyUnavailable, .requestHashMismatch, .ingressDecisionNotFound,
    .ingressDecisionWrongStage, .ingressDecisionNotAllow, .ingressAgentMismatch,
    .ingressHashMismatch, .ingressIdentityMismatch, .ingressDecisionAlreadyClaimed]
  complete a := by cases a <;> decide
  distinct := by decide

abbrev ReasonCode := Open ReasonName

inductive StageName where
  | ingress | workflowRevalidation
  deriving DecidableEq

instance : Wire StageName where
  text
    | .ingress => ascii "INGRESS"
    | .workflowRevalidation => ascii "WORKFLOW_REVALIDATION"
  values := [.ingress, .workflowRevalidation]
  complete a := by cases a <;> decide
  distinct := by decide

abbrev DecisionStage := Open StageName

@[match_pattern] abbrev DecisionStage.ingress : DecisionStage := .named .ingress
@[match_pattern] abbrev DecisionStage.workflowRevalidation : DecisionStage :=
  .named .workflowRevalidation

/-- The result of evaluating one proposal against one policy snapshot. -/
structure Decision where
  verdict : Verdict
  reasons : List ReasonCode
  environment : GoString
  policyVersion : GoString
  policyDigest : GoString
  deriving DecidableEq

/-- The persisted evidence of a single decision. -/
structure DecisionRecord where
  decisionID : GoString
  stage : DecisionStage
  proposalID : GoString
  agentID : GoString
  requestHash : GoString
  command : CommandType
  targetID : GoString
  environment : GoString
  verdict : Verdict
  reasons : List ReasonCode
  policyVersion : GoString
  policyDigest : GoString
  workflowID : GoString
  traceID : GoString
  recordedAt : Time
  deriving DecidableEq

namespace DecisionRecord

/-- `Validate`: the fields every record must carry are present. -/
def validate (r : DecisionRecord) : Bool :=
  !(r.decisionID == [] || r.stage.text == [] || r.proposalID == [] ||
    r.verdict.text == [] || r.requestHash == [] || r.recordedAt.isZero)

/-- `Equal`: the two records carry identical content. -/
def equal (r o : DecisionRecord) : Bool :=
  r.decisionID == o.decisionID &&
  r.stage == o.stage &&
  r.proposalID == o.proposalID &&
  r.agentID == o.agentID &&
  r.requestHash == o.requestHash &&
  r.command == o.command &&
  r.targetID == o.targetID &&
  r.environment == o.environment &&
  r.verdict == o.verdict &&
  r.reasons == o.reasons &&
  r.policyVersion == o.policyVersion &&
  r.policyDigest == o.policyDigest &&
  r.workflowID == o.workflowID &&
  r.traceID == o.traceID &&
  r.recordedAt == o.recordedAt

@[simp] theorem equal_iff (r o : DecisionRecord) : r.equal o = true ↔ r = o := by
  cases r
  cases o
  simp [equal, and_assoc]

end DecisionRecord

/-- The workflow input. -/
structure ExecutionRequest where
  agentID : GoString
  proposal : AgentProposal
  ingressDecisionID : GoString
  requestHash : GoString
  deriving DecidableEq

/-- The result of checking a request against its recorded ingress decision. -/
structure IngressVerification where
  valid : Bool
  reason : Option ReasonCode
  detail : GoString
  deriving DecidableEq

/-! ## Execution claims -/

inductive ClaimStateName where
  | claimed | executing | reconciliationRequired | completed | failed | released
  deriving DecidableEq

instance : Wire ClaimStateName where
  text
    | .claimed => ascii "CLAIMED"
    | .executing => ascii "EXECUTING"
    | .reconciliationRequired => ascii "RECONCILIATION_REQUIRED"
    | .completed => ascii "COMPLETED"
    | .failed => ascii "FAILED"
    | .released => ascii "RELEASED"
  values := [.claimed, .executing, .reconciliationRequired, .completed, .failed, .released]
  complete a := by cases a <;> decide
  distinct := by decide

abbrev ClaimState := Open ClaimStateName

namespace ClaimState

@[match_pattern] abbrev claimed : ClaimState := .named .claimed
@[match_pattern] abbrev executing : ClaimState := .named .executing
@[match_pattern] abbrev reconciliationRequired : ClaimState := .named .reconciliationRequired
@[match_pattern] abbrev completed : ClaimState := .named .completed
@[match_pattern] abbrev failed : ClaimState := .named .failed
@[match_pattern] abbrev released : ClaimState := .named .released

end ClaimState

/-- The single workflow execution that holds a claim. -/
structure ClaimOwner where
  workflowID : GoString
  runID : GoString
  token : GoString
  deriving DecidableEq

/-- `Valid`: every owner field is set. -/
def ClaimOwner.valid (o : ClaimOwner) : Bool :=
  o.workflowID != [] && o.runID != [] && o.token != []

/-- The stored claim on one ingress decision. -/
structure ExecutionClaim where
  decisionID : GoString
  owner : ClaimOwner
  state : ClaimState
  claimedAt : Time
  updatedAt : Time
  deriving DecidableEq

structure ClaimRequest where
  decisionID : GoString
  token : GoString
  deriving DecidableEq

structure ClaimResult where
  claimed : Bool
  reason : Option ReasonCode
  detail : GoString
  deriving DecidableEq

structure ClaimTransition where
  decisionID : GoString
  token : GoString
  toState : ClaimState
  deriving DecidableEq

/-! ## Outcomes -/

inductive OutcomeName where
  | success | failure | unknown
  deriving DecidableEq

instance : Wire OutcomeName where
  text
    | .success => ascii "SUCCESS"
    | .failure => ascii "FAILURE"
    | .unknown => ascii "UNKNOWN"
  values := [.success, .failure, .unknown]
  complete a := by cases a <;> decide
  distinct := by decide

abbrev OutcomeStatus := Open OutcomeName

namespace OutcomeStatus

@[match_pattern] abbrev success : OutcomeStatus := .named .success
@[match_pattern] abbrev failure : OutcomeStatus := .named .failure
@[match_pattern] abbrev unknown : OutcomeStatus := .named .unknown

end OutcomeStatus

structure DispatchOutcome where
  status : OutcomeStatus
  partiallyApplied : Bool
  detail : GoString
  deriving DecidableEq

/-- `UnknownOutcome`: an UNKNOWN outcome carrying detail. -/
def unknownOutcome (detail : GoString) : DispatchOutcome :=
  { status := .unknown, partiallyApplied := false, detail }

namespace DispatchOutcome

/-- `Checked`: an unrecognised status becomes UNKNOWN, and `partiallyApplied` is
kept only with FAILURE. -/
def checked (o : DispatchOutcome) : DispatchOutcome :=
  match o.status with
  | .success => { o with partiallyApplied := false }
  | .unknown => { o with partiallyApplied := false }
  | .failure => o
  | .other s _ => unknownOutcome
      (ascii "adapter reported unrecognised status " ++ s ++ ascii ": " ++ o.detail)

/-- Part of the change took effect before the target refused the rest. -/
def partialFailure (o : DispatchOutcome) : Bool :=
  o.status == .failure && o.partiallyApplied

theorem checked_status (o : DispatchOutcome) :
    o.checked.status = .success ∨ o.checked.status = .failure ∨ o.checked.status = .unknown := by
  obtain ⟨status, flag, detail⟩ := o
  cases status with
  | named n => cases n <;> simp [checked]
  | other s unnamed => simp [checked, unknownOutcome]

@[simp] theorem checked_checked (o : DispatchOutcome) : o.checked.checked = o.checked := by
  obtain ⟨status, flag, detail⟩ := o
  cases status with
  | named n => cases n <;> rfl
  | other s unnamed => rfl

/-- A confirmed outcome keeps its status through the check. -/
theorem status_of_checked {o : DispatchOutcome} (certain : o.checked.status ≠ .unknown) :
    o.status = o.checked.status := by
  obtain ⟨status, flag, detail⟩ := o
  cases status with
  | named n => cases n <;> rfl
  | other s unnamed => exact absurd rfl certain

theorem checked_of_failure {o : DispatchOutcome} (failure : o.checked.status = .failure) :
    o.checked = o := by
  obtain ⟨status, flag, detail⟩ := o
  have same := status_of_checked (o := ⟨status, flag, detail⟩) (by rw [failure]; simp)
  rw [failure] at same
  simp only at same
  subst same
  rfl

end DispatchOutcome

structure DispatchRequest where
  idempotencyKey : GoString
  proposal : AgentProposal
  deriving DecidableEq

structure FencedDispatch where
  decisionID : GoString
  token : GoString
  dispatch : DispatchRequest
  deriving DecidableEq

/-! ## Audit records -/

inductive PhaseName where
  | revalidation | executionFence | dispatch | reconciliation | compensation
  | workflowComplete | workflowFailed
  deriving DecidableEq

instance : Wire PhaseName where
  text
    | .revalidation => ascii "WORKFLOW_REVALIDATION"
    | .executionFence => ascii "EXECUTION_FENCE"
    | .dispatch => ascii "DISPATCH_CONFIG"
    | .reconciliation => ascii "DISPATCH_RECONCILIATION"
    | .compensation => ascii "COMPENSATION_ROLLBACK"
    | .workflowComplete => ascii "WORKFLOW_COMPLETE"
    | .workflowFailed => ascii "WORKFLOW_FAILED"
  values := [.revalidation, .executionFence, .dispatch, .reconciliation, .compensation,
    .workflowComplete, .workflowFailed]
  complete a := by cases a <;> decide
  distinct := by decide

abbrev AuditPhase := Open PhaseName

inductive AuditVerdictName where
  | pass | fail | unknown
  deriving DecidableEq

instance : Wire AuditVerdictName where
  text
    | .pass => ascii "PASS"
    | .fail => ascii "FAIL"
    | .unknown => ascii "UNKNOWN"
  values := [.pass, .fail, .unknown]
  complete a := by cases a <;> decide
  distinct := by decide

abbrev AuditVerdict := Open AuditVerdictName

/-- An append-only row describing one workflow phase. -/
structure AuditRecord where
  recordID : GoString
  proposalID : GoString
  workflowID : GoString
  runID : GoString
  phase : AuditPhase
  verdict : AuditVerdict
  targetID : GoString
  command : CommandType
  detail : GoString
  recordedAt : Time
  deriving DecidableEq

/-! ## Error types -/

/-- The Temporal application error types the workflow and its activities raise. -/
inductive ErrorTypeName where
  | ingressDecisionInvalid | executionClaimRejected | revalidationDenied
  | dispatchFailed | dispatchOutcomeUnknown | executionFenceRejected | executionFenceUnknown
  deriving DecidableEq

instance : Wire ErrorTypeName where
  text
    | .ingressDecisionInvalid => ascii "INGRESS_DECISION_INVALID"
    | .executionClaimRejected => ascii "EXECUTION_CLAIM_REJECTED"
    | .revalidationDenied => ascii "REVALIDATION_DENIED"
    | .dispatchFailed => ascii "DISPATCH_FAILED"
    | .dispatchOutcomeUnknown => ascii "DISPATCH_OUTCOME_UNKNOWN"
    | .executionFenceRejected => ascii "EXECUTION_FENCE_REJECTED"
    | .executionFenceUnknown => ascii "EXECUTION_FENCE_UNKNOWN"
  values := [.ingressDecisionInvalid, .executionClaimRejected, .revalidationDenied,
    .dispatchFailed, .dispatchOutcomeUnknown, .executionFenceRejected, .executionFenceUnknown]
  complete a := by cases a <;> decide
  distinct := by decide

abbrev ErrorType := Open ErrorTypeName

end SentryGate.Contracts
