/-
# Decision.Ingress -- does a recorded decision authorize this execution?

`internal/decision/ingress.go`.  `verifyIngress` returns the first check that
fails, in the source's order, or `none` for nil; `verifyIngress_eq_none_iff` says
what a record that passes all of them guarantees.
-/
import SentryGate.Decision.Evaluate
import SentryGate.Decision.Store

namespace SentryGate.Decision

open Theory.Text Contracts

set_option autoImplicit false

/-- Which half of an execution's identity a record fails to match. -/
inductive IdentityPart where
  | proposalID | workflowID
  deriving DecidableEq

/-- The `ErrIngress*` failures, with what their texts report. -/
inductive IngressError where
  | decisionNotFound
  | wrongStage (got : DecisionStage)
  | notAllowed (got : Verdict)
  | agentMismatch
  | hashMismatch
  | identityMismatch (part : IdentityPart)
  deriving DecidableEq

namespace IngressError

/-- `err.Error()`. -/
def text : IngressError → GoString
  | .decisionNotFound => ascii "ingress decision not found"
  | .wrongStage got => ascii "ingress decision has wrong stage: got " ++ got.text
  | .notAllowed got => ascii "ingress decision verdict is not ALLOW: got " ++ got.text
  | .agentMismatch => ascii "ingress decision agent does not match execution agent"
  | .hashMismatch => ascii "ingress decision request hash does not match proposal"
  | .identityMismatch .proposalID =>
      ascii "ingress decision identity does not match execution: proposal ID"
  | .identityMismatch .workflowID =>
      ascii "ingress decision identity does not match execution: workflow ID"

/-- The reason code of a verification failure. -/
def reason : IngressError → ReasonCode
  | .decisionNotFound => .named .ingressDecisionNotFound
  | .wrongStage _ => .named .ingressDecisionWrongStage
  | .notAllowed _ => .named .ingressDecisionNotAllow
  | .agentMismatch => .named .ingressAgentMismatch
  | .hashMismatch => .named .ingressHashMismatch
  | .identityMismatch _ => .named .ingressIdentityMismatch

end IngressError

/-- `VerifyIngress`: is `rec` a recorded ingress ALLOW for exactly this execution? -/
def verifyIngress (go : Runtime) (rec : DecisionRecord) (req : ExecutionRequest)
    (workflowID : GoString) : Option IngressError :=
  if rec.decisionID = [] ∨ rec.decisionID ≠ req.ingressDecisionID then some .decisionNotFound
  else if rec.stage ≠ .ingress then some (.wrongStage rec.stage)
  else if rec.verdict ≠ .allow then some (.notAllowed rec.verdict)
  else if rec.agentID ≠ req.agentID then some .agentMismatch
  else if rec.requestHash ≠ requestHash go req.proposal then some .hashMismatch
  else if rec.proposalID ≠ req.proposal.id then some (.identityMismatch .proposalID)
  else if rec.workflowID = [] ∨ rec.workflowID ≠ workflowID then
    some (.identityMismatch .workflowID)
  else none

/-- A record passes exactly if every bound field agrees with the execution. -/
theorem verifyIngress_eq_none_iff (go : Runtime) (rec : DecisionRecord) (req : ExecutionRequest)
    (workflowID : GoString) :
    verifyIngress go rec req workflowID = none ↔
      rec.decisionID ≠ [] ∧ rec.decisionID = req.ingressDecisionID ∧ rec.stage = .ingress ∧
      rec.verdict = .allow ∧ rec.agentID = req.agentID ∧
      rec.requestHash = requestHash go req.proposal ∧ rec.proposalID = req.proposal.id ∧
      rec.workflowID ≠ [] ∧ rec.workflowID = workflowID := by
  unfold verifyIngress
  simp only [ite_eq_right_iff, reduceCtorEq, imp_false, ite_eq_iff, not_or, not_not, and_false,
    false_or, ne_eq, and_assoc]

/-- Only a recorded ALLOW authorizes anything. -/
theorem verifyIngress_of_not_allow {go : Runtime} {rec : DecisionRecord}
    (refused : rec.verdict ≠ .allow) (req : ExecutionRequest) (workflowID : GoString) :
    verifyIngress go rec req workflowID ≠ none := by
  intro passed
  obtain ⟨-, -, -, allowed, -⟩ := (verifyIngress_eq_none_iff go rec req workflowID).mp passed
  exact refused allowed

/-- One record authorizes one execution: where SHA-256 does not collide, the requests
that pass carry the same agent and proposal and run under the same workflow ID. -/
theorem verifyIngress_unique {go : Runtime} {rec : DecisionRecord} {req req' : ExecutionRequest}
    {workflowID workflowID' : GoString} (free : Separates go req.proposal)
    (sized : Sized req.proposal) (sized' : Sized req'.proposal)
    (first : verifyIngress go rec req workflowID = none)
    (second : verifyIngress go rec req' workflowID' = none) :
    req'.agentID = req.agentID ∧ req'.proposal = req.proposal ∧ workflowID' = workflowID := by
  obtain ⟨-, -, -, -, agent, hash, -, -, workflow⟩ := (verifyIngress_eq_none_iff ..).mp first
  obtain ⟨-, -, -, -, agent', hash', -, -, workflow'⟩ := (verifyIngress_eq_none_iff ..).mp second
  exact ⟨agent'.symm.trans agent,
    requestHash_identifies free sized sized' (hash'.symm.trans hash),
    workflow'.symm.trans workflow⟩

/-- Why `CheckIngress` refuses: a failed check, or a decision it could not load. -/
inductive CheckError where
  | invalid (e : IngressError)
  | load (e : StoreError)
  deriving DecidableEq

/-- `err.Error()`. -/
def CheckError.text (go : Runtime) : CheckError → GoString
  | .invalid e => e.text
  | .load e => ascii "load ingress decision: " ++ e.text go

/-- `CheckIngress`, given how the store answers `GetDecision`. -/
def checkIngress (go : Runtime) (getDecision : GoString → Except StoreError DecisionRecord)
    (req : ExecutionRequest) (workflowID : GoString) : Option CheckError :=
  if req.ingressDecisionID = [] then some (.invalid .decisionNotFound)
  else match getDecision req.ingressDecisionID with
    | .error .decisionNotFound => some (.invalid .decisionNotFound)
    | .error e => some (.load e)
    | .ok rec => (verifyIngress go rec req workflowID).map .invalid

/-- `IngressReason`: the reason code, for a verification failure. -/
def ingressReason : CheckError → Option ReasonCode
  | .invalid e => some e.reason
  | .load _ => none

/-- A verification fails for a reason of the contract. -/
theorem ingressReason_named {e : CheckError} {r : ReasonCode} (known : ingressReason e = some r) :
    ∃ name, r = .named name := by
  cases e with
  | load e => cases known
  | invalid e =>
      cases e <;> cases known <;> exact ⟨_, rfl⟩

/-- A request that passes was checked against the decision it names. -/
theorem checkIngress_eq_none {go : Runtime} {req : ExecutionRequest} {workflowID : GoString}
    {getDecision : GoString → Except StoreError DecisionRecord}
    (passed : checkIngress go getDecision req workflowID = none) :
    ∃ rec, getDecision req.ingressDecisionID = .ok rec ∧
      verifyIngress go rec req workflowID = none := by
  unfold checkIngress at passed
  split at passed
  · cases passed
  · split at passed
    · cases passed
    · cases passed
    · rename_i rec found
      exact ⟨rec, found, by simpa using passed⟩

/-- A request that names a recorded decision is checked against that record. -/
theorem checkIngress_recorded {go : Runtime} {m : MemoryStore} {rec : DecisionRecord}
    {req : ExecutionRequest} (workflowID : GoString) (member : rec ∈ m.records)
    (present : rec.decisionID ≠ []) (named : req.ingressDecisionID = rec.decisionID) :
    checkIngress go (m.getDecision none) req workflowID =
      (verifyIngress go rec req workflowID).map .invalid := by
  have known : m.record? req.ingressDecisionID = some rec :=
    (m.record?_eq_some_iff _ _).mpr ⟨member, named.symm⟩
  have found : m.getDecision none req.ingressDecisionID = .ok rec := by
    simp only [MemoryStore.getDecision, known]
  rw [checkIngress, if_neg (by rw [named]; exact present), found]

end SentryGate.Decision
