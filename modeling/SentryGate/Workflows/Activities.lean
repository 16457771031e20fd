/-
# Workflows.Activities -- the activity bodies, statement by statement

`workflows/activities.go`, `decisions.go` and the activity of `audit.go`.  A body
runs on a worker against what all workers share (`Backend`): the decision and
claim store, the audit rows, the active policy and the infrastructure target.
`perform` runs a body up to its next atomic action; between two of them anything
else may happen.  `Conditions` holds what the environment decides for one action:
a database fault before or after the statement committed, what `ctx.Err()`
reports, the clock.

`Change` says once everything one action can do to the backend and `Report` what
an answer guarantees about it; `perform_performed` is the only proof that opens a
body.
-/
import SentryGate.Audit.Statements
import SentryGate.Decision.Ingress

namespace SentryGate.Workflows

open Theory.Text Contracts Policy Decision Audit

set_option autoImplicit false

/-! ## Activities and their answers -/

/-- An activity with its argument. -/
inductive Activity where
  | verifyIngressDecision (req : ExecutionRequest)
  | claimExecution (req : ClaimRequest)
  | evaluateExecution (req : ExecutionRequest)
  | recordDecision (rec : DecisionRecord)
  | recordAuditTrail (rec : AuditRecord)
  | advanceExecutionClaim (t : ClaimTransition)
  | dispatchConfig (req : FencedDispatch)
  | reconcileDispatch (req : DispatchRequest)
  | revertStateCompensation (req : DispatchRequest)
  deriving DecidableEq

/-- The error a workflow gets from an activity: a non-retryable application error
with its type, any other error the body returned, or an error of Temporal's own. -/
inductive ActivityError where
  | application (type : ErrorType) (message cause : GoString)
  | returned (message : GoString)
  | timedOut
  | canceled
  | undecodable
  deriving DecidableEq

/-- What an activity, a side effect or a timer answers. -/
inductive Reply where
  | verified (v : IngressVerification)
  | claimed (r : ClaimResult)
  | decided (d : Decision)
  | done
  | outcome (o : DispatchOutcome)
  | text (t : GoString)
  | failed (e : ActivityError)
  deriving DecidableEq

/-- The Go runtime with Temporal's rendering of an activity error. -/
structure Sdk extends Runtime where
  errorText : ActivityError → GoString

/-- The execution info an activity reads: `activity.GetInfo(ctx).WorkflowExecution`. -/
structure Execution where
  workflowID : GoString
  runID : GoString
  deriving DecidableEq

/-- `claimOwner`: the calling workflow run with its token. -/
def claimOwner (x : Execution) (token : GoString) : ClaimOwner :=
  { workflowID := x.workflowID, runID := x.runID, token }

/-! ## What the workers share -/

/-- An infrastructure adapter over a target in state `α`. -/
structure Adapter (α : Type) where
  dispatch : Context → DispatchRequest → α → α × DispatchOutcome
  reconcile : Context → DispatchRequest → α → α × DispatchOutcome
  compensate : Context → DispatchRequest → α → α × Option GoString

/-- How the activities of a worker are configured; a Boolean says whether the
field is set. -/
structure Worker (α : Type) where
  sdk : Sdk
  adapter : Option (Adapter α)
  infraClaims : Bool
  policy : Bool
  store : Bool
  claims : Bool
  audit : Bool

inductive AdapterMethod where
  | dispatch | reconcile | compensate
  deriving DecidableEq

/-- A call an activity made to the adapter. -/
structure AdapterCall where
  method : AdapterMethod
  caller : Execution
  request : DispatchRequest
  deriving DecidableEq

structure Backend (α : Type) where
  store : MemoryStore
  audits : List AuditRecord
  policy : Option Snapshot
  target : α
  calls : List AdapterCall

/-! ## One atomic action -/

/-- Whether the database fails, before or after the statement took effect. -/
inductive Fault where
  | absent | unwritten | written
  deriving DecidableEq

structure Conditions where
  fault : Fault
  ctx : Context
  now : Time
  message : GoString
  deriving DecidableEq

namespace Conditions

/-- Run a writing statement: its effect, and its result unless the database fails. -/
def write {σ ρ : Type} (c : Conditions) (s : σ) (statement : σ × ρ) : σ × Except StoreError ρ :=
  match c.fault with
  | .absent => (statement.1, .ok statement.2)
  | .unwritten => (s, .error (.unavailable c.message))
  | .written => (statement.1, .error (.unavailable c.message))

/-- Run a reading statement. -/
def read {ρ : Type} (c : Conditions) (result : Except StoreError ρ) : Except StoreError ρ :=
  match c.fault with
  | .absent => result
  | _ => .error (.unavailable c.message)

end Conditions

/-- Where a body stands: not begun, between the statements of a claim, between a
refused fence and the read that explains it, with the fence acquired, returned. -/
inductive Body where
  | start
  | readClaim
  | readFence (err : StoreError)
  | callAdapter
  | finished (r : Reply)
  deriving DecidableEq

def Body.fails (e : ActivityError) : Body := .finished (.failed e)

variable {α : Type}

/-- `VerifyIngressDecision`. -/
def verifyIngressDecision (w : Worker α) (x : Execution) (req : ExecutionRequest)
    (c : Conditions) (b : Backend α) : Body :=
  if !w.store then .fails (.returned (ascii "decision store not configured"))
  else
    let getDecision := fun id => c.read (b.store.getDecision none id)
    match checkIngress w.sdk.toRuntime getDecision req x.workflowID with
    | none => .finished (.verified { valid := true, reason := none, detail := [] })
    | some e =>
        match ingressReason e with
        | some reason =>
            .finished (.verified
              { valid := false, reason := some reason, detail := e.text w.sdk.toRuntime })
        | none => .fails (.returned (e.text w.sdk.toRuntime))

/-- `ClaimExecution` up to and including the upsert. -/
def claimExecution (w : Worker α) (x : Execution) (req : ClaimRequest) (c : Conditions)
    (b : Backend α) : Backend α × Body :=
  let owner := claimOwner x req.token
  if !w.claims then
    (b, .fails (.returned (ascii "execution claim store not configured")))
  else if req.decisionID = [] ∨ req.token = [] then
    (b, .fails (.application (.named .executionClaimRejected)
      (ascii "claim request is missing the decision ID or token") []))
  else if !owner.valid then
    (b, .fails (.returned ((StoreError.invalidClaim req.decisionID).text w.sdk.toRuntime)))
  else
    let (store, result) := c.write b.store (upsertClaim b.store req.decisionID owner c.now)
    ({ b with store },
      match result with
      | .error e => .fails (.returned (ascii "claim execution: " ++ e.text w.sdk.toRuntime))
      | .ok (.error e) => .fails (.returned (e.text w.sdk.toRuntime))
      | .ok (.ok true) => .finished (.claimed { claimed := true, reason := none, detail := [] })
      | .ok (.ok false) => .readClaim)

/-- `ClaimExecution` after an upsert that changed nothing. -/
def claimExecutionRead (w : Worker α) (x : Execution) (req : ClaimRequest) (c : Conditions)
    (b : Backend α) : Body :=
  match c.read (b.store.getClaim none req.decisionID) with
  | .error e => .fails (.returned (ascii "read existing claim: " ++ e.text w.sdk.toRuntime))
  | .ok held =>
      match reportHeld (claimOwner x req.token) held with
      | none => .finished (.claimed { claimed := true, reason := none, detail := [] })
      | some e =>
          .finished (.claimed
            { claimed := false, reason := some (.named .ingressDecisionAlreadyClaimed),
              detail := e.text w.sdk.toRuntime })

/-- `EvaluateExecution`. -/
def evaluateExecution (w : Worker α) (req : ExecutionRequest) (c : Conditions)
    (b : Backend α) : Body :=
  match c.ctx with
  | some err => .fails (.returned err)
  | none =>
      let snap := if w.policy then b.policy else none
      .finished (.decided (revalidate w.sdk.toRuntime snap req))

/-- `RecordDecision`. -/
def recordDecision (w : Worker α) (rec : DecisionRecord) (c : Conditions) (b : Backend α) :
    Backend α × Body :=
  if !w.store then (b, .fails (.returned (ascii "decision store not configured")))
  else
    let (store, result) := c.write b.store (b.store.appendDecision none rec)
    ({ b with store },
      match result with
      | .error e => .fails (.returned (ascii "insert decision: " ++ e.text w.sdk.toRuntime))
      | .ok (some e) => .fails (.returned (e.text w.sdk.toRuntime))
      | .ok none => .finished .done)

/-- `RecordAuditTrail`. -/
def recordAuditTrail (w : Worker α) (rec : AuditRecord) (c : Conditions) (b : Backend α) :
    Backend α × Body :=
  if !w.audit then (b, .fails (.returned auditPersistFailedText))
  else
    let (audits, result) := c.write b.audits (appendAudit b.audits rec c.now)
    ({ b with audits },
      match result with
      | .error e =>
          .fails (.returned (auditPersistFailedText ++ ascii ": " ++ e.text w.sdk.toRuntime))
      | .ok (some e) => .fails (.returned e.text)
      | .ok none => .finished .done)

/-- `AdvanceExecutionClaim`. -/
def advanceExecutionClaim (w : Worker α) (x : Execution) (t : ClaimTransition) (c : Conditions)
    (b : Backend α) : Backend α × Body :=
  let owner := claimOwner x t.token
  if !w.claims then
    (b, .fails (.returned (ascii "execution claim store not configured")))
  else if t.toState = .executing then
    (b, .fails (.application (.named .executionClaimRejected)
      (ascii "EXECUTING is entered only by the dispatch activity") []))
  else
    let (store, result) :=
      c.write b.store (b.store.advanceClaim none t.decisionID owner t.toState c.now)
    ({ b with store },
      match result with
      | .error e => .fails (.returned (ascii "advance claim: " ++ e.text w.sdk.toRuntime))
      | .ok (some e) =>
          let text := e.text w.sdk.toRuntime
          if e.isClaimNotHeld then
            .fails (.application (.named .executionClaimRejected) text text)
          else .fails (.returned text)
      | .ok none => .finished .done)

/-- `fenceRejected`. -/
def fenceRejected (message : String) (cause : GoString) : Body :=
  .fails (.application (.named .executionFenceRejected)
    (ascii "adapter not called: " ++ ascii message) cause)

/-- `fenceUnknown`. -/
def fenceUnknown (message : String) (cause : GoString) : Body :=
  .fails (.application (.named .executionFenceUnknown)
    (ascii "adapter not called: " ++ ascii message) cause)

/-- `DispatchConfig` up to and including the execution fence. -/
def dispatchConfig (w : Worker α) (x : Execution) (req : FencedDispatch) (c : Conditions)
    (b : Backend α) : Backend α × Body :=
  let owner := claimOwner x req.token
  if w.adapter.isNone then (b, fenceRejected "no infrastructure adapter configured" [])
  else if !w.infraClaims then (b, fenceRejected "execution claim store not configured" [])
  else if req.decisionID = [] ∨ req.token = [] then
    (b, fenceRejected "request is missing the decision ID or claim token" [])
  else if req.dispatch.idempotencyKey ≠ executionKey req.decisionID then
    (b, fenceRejected "idempotency key does not belong to the fenced decision" [])
  else
    let (store, result) :=
      c.write b.store (b.store.advanceClaim none req.decisionID owner .executing c.now)
    ({ b with store },
      match result with
      | .error e =>
          fenceUnknown "execution fence write failed and may have committed"
            (e.text w.sdk.toRuntime)
      | .ok (some e) =>
          if e.isClaimNotHeld then .readFence e
          else fenceUnknown "execution fence write failed and may have committed"
            (e.text w.sdk.toRuntime)
      | .ok none => .callAdapter)

/-- `DispatchConfig` after a fence it was refused with `err`. -/
def dispatchConfigRead (w : Worker α) (x : Execution) (req : FencedDispatch) (err : StoreError)
    (c : Conditions) (b : Backend α) : Body :=
  match c.read (b.store.getClaim none req.decisionID) with
  | .error .claimNotFound =>
      fenceRejected "execution fence is not held by this run" (err.text w.sdk.toRuntime)
  | .error e =>
      fenceUnknown "execution fence rejected and the claim could not be read"
        (e.text w.sdk.toRuntime)
  | .ok held =>
      if held.owner = claimOwner x req.token ∧ held.state ≠ .released then
        fenceUnknown "this run already acquired the execution fence" (err.text w.sdk.toRuntime)
      else fenceRejected "execution fence is not held by this run" (err.text w.sdk.toRuntime)

/-- Note a call of an adapter method, with the target after it. -/
def Backend.called (b : Backend α) (method : AdapterMethod) (caller : Execution)
    (request : DispatchRequest) (target : α) : Backend α :=
  { b with target, calls := b.calls ++ [{ method, caller, request }] }

/-- `DispatchConfig` with the fence acquired: the adapter call. -/
def dispatchConfigCall (adapter : Adapter α) (x : Execution) (req : FencedDispatch)
    (c : Conditions) (b : Backend α) : Backend α × Body :=
  let (target, o) := adapter.dispatch c.ctx req.dispatch b.target
  (b.called .dispatch x req.dispatch target, .finished (.outcome o.checked))

/-- `ReconcileDispatch`. -/
def reconcileDispatch (w : Worker α) (x : Execution) (req : DispatchRequest) (c : Conditions)
    (b : Backend α) : Backend α × Body :=
  match w.adapter with
  | none =>
      (b, .finished (.outcome (unknownOutcome
        (ascii "cannot reconcile: no infrastructure adapter configured"))))
  | some adapter =>
      if req.idempotencyKey = [] then
        (b, .finished (.outcome (unknownOutcome
          (ascii "cannot reconcile: request has no idempotency key"))))
      else
        let (target, o) := adapter.reconcile c.ctx req b.target
        (b.called .reconcile x req target, .finished (.outcome o.checked))

/-- `RevertStateCompensation`. -/
def revertStateCompensation (w : Worker α) (x : Execution) (req : DispatchRequest)
    (c : Conditions) (b : Backend α) : Backend α × Body :=
  match w.adapter with
  | none =>
      (b, .fails (.returned (ascii "cannot compensate: no infrastructure adapter configured")))
  | some adapter =>
      let (target, err) := adapter.compensate c.ctx req b.target
      (b.called .compensate x req target,
        match err with
        | some message => .fails (.returned message)
        | none => .finished .done)

/-- The next atomic action of a body; `none` once it has returned. -/
def perform (w : Worker α) (x : Execution) (act : Activity) (body : Body) (c : Conditions)
    (b : Backend α) : Option (Backend α × Body) :=
  match act, body with
  | .verifyIngressDecision req, .start => some (b, verifyIngressDecision w x req c b)
  | .claimExecution req, .start => some (claimExecution w x req c b)
  | .claimExecution req, .readClaim => some (b, claimExecutionRead w x req c b)
  | .evaluateExecution req, .start => some (b, evaluateExecution w req c b)
  | .recordDecision rec, .start => some (recordDecision w rec c b)
  | .recordAuditTrail rec, .start => some (recordAuditTrail w rec c b)
  | .advanceExecutionClaim t, .start => some (advanceExecutionClaim w x t c b)
  | .dispatchConfig req, .start => some (dispatchConfig w x req c b)
  | .dispatchConfig req, .readFence err => some (b, dispatchConfigRead w x req err c b)
  | .dispatchConfig req, .callAdapter =>
      w.adapter.map fun adapter => dispatchConfigCall adapter x req c b
  | .reconcileDispatch req, .start => some (reconcileDispatch w x req c b)
  | .revertStateCompensation req, .start => some (revertStateCompensation w x req c b)
  | _, _ => none

/-! ## What an action does -/

/-- Everything one action of a body can do: nothing, one write, or one adapter
call.  Only a won fence leads to the call, and only the call leads on from it. -/
inductive Change (w : Worker α) (x : Execution) (b : Backend α) :
    Activity → Body → Backend α → Body → Prop where
  | same (act : Activity) (body body' : Body) (before : body ≠ .callAdapter)
      (after : body' ≠ .callAdapter) : Change w x b act body b body'
  | acquired (req : ClaimRequest) (store : MemoryStore) (r : Reply)
      (writes : Writes b.store req.decisionID (.acquired (claimOwner x req.token)) store) :
      Change w x b (.claimExecution req) .start { b with store } (.finished r)
  | recorded (rec : DecisionRecord) (r : Reply) :
      Change w x b (.recordDecision rec) .start
        { b with store := (b.store.appendDecision none rec).1 } (.finished r)
  | audited (rec : AuditRecord) (now : Time) (r : Reply) :
      Change w x b (.recordAuditTrail rec) .start
        { b with audits := (appendAudit b.audits rec now).1 } (.finished r)
  | advanced (t : ClaimTransition) (store : MemoryStore) (r : Reply)
      (unfenced : t.toState ≠ .executing)
      (writes : Writes b.store t.decisionID (.advanced (claimOwner x t.token) t.toState) store) :
      Change w x b (.advanceExecutionClaim t) .start { b with store } (.finished r)
  | fenced (req : FencedDispatch) (store : MemoryStore) (body' : Body)
      (keyed : req.dispatch.idempotencyKey = executionKey req.decisionID)
      (writes : Writes b.store req.decisionID (.advanced (claimOwner x req.token) .executing) store)
      (after : body' = .callAdapter ∨
        ∃ cause, body' = fenceUnknown "execution fence write failed and may have committed" cause) :
      Change w x b (.dispatchConfig req) .start { b with store } body'
  | dispatched (req : FencedDispatch) (adapter : Adapter α) (ctx : Context)
      (configured : w.adapter = some adapter) :
      Change w x b (.dispatchConfig req) .callAdapter
        (b.called .dispatch x req.dispatch (adapter.dispatch ctx req.dispatch b.target).1)
        (.finished (.outcome (adapter.dispatch ctx req.dispatch b.target).2.checked))
  | reconciled (req : DispatchRequest) (adapter : Adapter α) (ctx : Context)
      (configured : w.adapter = some adapter) :
      Change w x b (.reconcileDispatch req) .start
        (b.called .reconcile x req (adapter.reconcile ctx req b.target).1)
        (.finished (.outcome (adapter.reconcile ctx req b.target).2.checked))
  | compensated (req : DispatchRequest) (adapter : Adapter α) (ctx : Context) (r : Reply)
      (configured : w.adapter = some adapter) :
      Change w x b (.revertStateCompensation req) .start
        (b.called .compensate x req (adapter.compensate ctx req b.target).1) (.finished r)

/-- What an answer guarantees about the backend at the moment it is given. -/
def Report (w : Worker α) (x : Execution) (b : Backend α) : Activity → Reply → Prop
  | .verifyIngressDecision req, .verified v =>
      v.valid = true → ∃ rec ∈ b.store.records,
        verifyIngress w.sdk.toRuntime rec req x.workflowID = none
  | .claimExecution req, .claimed r =>
      r.claimed = true →
        b.store.holding? req.decisionID = some ⟨claimOwner x req.token, .claimed⟩
  | .evaluateExecution req, .decided d =>
      ∃ snap, (snap = b.policy ∨ snap = none) ∧ d = revalidate w.sdk.toRuntime snap req
  | .recordDecision rec, r => r = .done → rec ∈ b.store.records
  | .recordAuditTrail rec, r => r = .done → ∃ now, stamped rec now ∈ b.audits
  | .advanceExecutionClaim t, r =>
      r = .done → b.store.holding? t.decisionID = some ⟨claimOwner x t.token, t.toState⟩
  | .dispatchConfig req, .outcome o =>
      ∃ adapter ctx target, w.adapter = some adapter ∧
        b.target = (adapter.dispatch ctx req.dispatch target).1 ∧
        o = (adapter.dispatch ctx req.dispatch target).2.checked
  | .reconcileDispatch req, .outcome o =>
      o.status = .unknown ∨ ∃ adapter ctx target, w.adapter = some adapter ∧
        b.target = (adapter.reconcile ctx req target).1 ∧
        o = (adapter.reconcile ctx req target).2.checked
  | _, _ => True

/-- The activity returns only an error. -/
def Activity.plain : Activity → Bool
  | .recordDecision _ | .recordAuditTrail _ | .advanceExecutionClaim _
  | .revertStateCompensation _ => true
  | _ => false

/-- What an action did, with what its answer guarantees. -/
structure Performed (w : Worker α) (x : Execution) (b : Backend α) (act : Activity) (body : Body)
    (b' : Backend α) (body' : Body) : Prop where
  change : Change w x b act body b' body'
  report : ∀ r, body' = .finished r → Report w x b' act r
  plain : ∀ r, body' = .finished r → act.plain = true → r = .done ∨ ∃ e, r = .failed e

section Inversion

variable {w : Worker α} {x : Execution} {c : Conditions} {b b' : Backend α} {body' : Body}

/-- A statement under faults: it ran or it did not, and only a statement that ran
reports its result. -/
theorem write_cases {σ ρ : Type} (c : Conditions) (s : σ) (statement : σ × ρ) :
    c.write s statement = (statement.1, .ok statement.2) ∨
    (∃ e, c.write s statement = (s, .error e)) ∨
    (∃ e, c.write s statement = (statement.1, .error e)) := by
  unfold Conditions.write
  cases c.fault with
  | absent => exact Or.inl rfl
  | unwritten => exact Or.inr (Or.inl ⟨_, rfl⟩)
  | written => exact Or.inr (Or.inr ⟨_, rfl⟩)

theorem read_ok {ρ : Type} {c : Conditions} {result : Except StoreError ρ} {r : ρ}
    (read : c.read result = .ok r) : result = .ok r := by
  unfold Conditions.read at read
  split at read
  · exact read
  · cases read

/-- An action that fails without having changed anything. -/
theorem Performed.refused (act : Activity) (body : Body) (e : ActivityError)
    (before : body ≠ .callAdapter) : Performed w x b act body b (.fails e) where
  change := .same act body _ before (by simp [Body.fails])
  report r finished := by
    cases finished
    cases act <;> simp [Report]
  plain r finished _ := by
    cases finished
    exact Or.inr ⟨e, rfl⟩

theorem verifyIngressDecision_performed (req : ExecutionRequest) :
    Performed w x b (.verifyIngressDecision req) .start b (verifyIngressDecision w x req c b) := by
  unfold verifyIngressDecision
  split
  · exact .refused _ _ _ (by simp)
  · simp only
    split
    · rename_i passed
      refine ⟨.same _ _ _ (by simp) (by simp), ?_, by simp [Activity.plain]⟩
      intro r finished
      cases finished
      intro _
      obtain ⟨rec, loaded, verified⟩ := checkIngress_eq_none passed
      exact ⟨rec, (b.store.getDecision_ok (read_ok loaded)).1, verified⟩
    · split
      · refine ⟨.same _ _ _ (by simp) (by simp), ?_, by simp [Activity.plain]⟩
        intro r finished
        cases finished
        simp [Report]
      · exact .refused _ _ _ (by simp)

theorem claimExecution_performed (req : ClaimRequest) :
    Performed w x b (.claimExecution req) .start (claimExecution w x req c b).1
      (claimExecution w x req c b).2 := by
  unfold claimExecution
  simp only
  split
  · exact .refused _ _ _ (by simp)
  split
  · exact .refused _ _ _ (by simp)
  split
  · exact .refused _ _ _ (by simp)
  rcases upsertClaim_cases b.store req.decisionID (claimOwner x req.token) c.now with
    ⟨store, upsert, writes⟩ | ⟨upsert, taken⟩ | ⟨upsert, absent⟩ <;> rw [upsert]
  · rcases write_cases c b.store (store, (Except.ok true : Except StoreError Bool)) with
      ran | ⟨e, ran⟩ | ⟨e, ran⟩ <;> rw [ran]
    · refine ⟨.acquired _ _ _ writes, ?_, by simp [Activity.plain]⟩
      intro r finished
      cases finished
      intro _
      exact writes.row.of_acquired.2
    · exact .refused _ _ _ (by simp)
    · refine ⟨.acquired _ _ _ writes, ?_, by simp [Activity.plain]⟩
      intro r finished
      cases finished
      simp [Report]
  · rcases write_cases c b.store (b.store, (Except.ok false : Except StoreError Bool)) with
      ran | ⟨e, ran⟩ | ⟨e, ran⟩ <;> rw [ran]
    · exact ⟨.same _ _ _ (by simp) (by simp), by simp, by simp⟩
    · exact .refused _ _ _ (by simp)
    · exact .refused _ _ _ (by simp)
  · rcases write_cases c b.store
        (b.store, (Except.error .decisionNotFound : Except StoreError Bool)) with
      ran | ⟨e, ran⟩ | ⟨e, ran⟩ <;> rw [ran] <;> exact .refused _ _ _ (by simp)

theorem claimExecutionRead_performed (req : ClaimRequest) :
    Performed w x b (.claimExecution req) .readClaim b (claimExecutionRead w x req c b) := by
  unfold claimExecutionRead
  split
  · exact .refused _ _ _ (by simp)
  · rename_i held loaded
    split
    · rename_i mine
      refine ⟨.same _ _ _ (by simp) (by simp), ?_, by simp [Activity.plain]⟩
      intro r finished
      cases finished
      intro _
      unfold reportHeld at mine
      split at mine
      · rename_i same
        rw [b.store.holding?_of_getClaim (read_ok loaded), holding, same.1, same.2]
      · cases mine
    · refine ⟨.same _ _ _ (by simp) (by simp), ?_, by simp [Activity.plain]⟩
      intro r finished
      cases finished
      simp [Report]

theorem evaluateExecution_performed (req : ExecutionRequest) :
    Performed w x b (.evaluateExecution req) .start b (evaluateExecution w req c b) := by
  unfold evaluateExecution
  split
  · exact .refused _ _ _ (by simp)
  · refine ⟨.same _ _ _ (by simp) (by simp), ?_, by simp [Activity.plain]⟩
    intro r finished
    cases finished
    refine ⟨_, ?_, rfl⟩
    cases w.policy <;> simp

theorem recordDecision_performed (rec : DecisionRecord) :
    Performed w x b (.recordDecision rec) .start (recordDecision w rec c b).1
      (recordDecision w rec c b).2 := by
  unfold recordDecision
  split
  · exact .refused _ _ _ (by simp)
  rcases write_cases c b.store (b.store.appendDecision none rec) with
    ran | ⟨e, ran⟩ | ⟨e, ran⟩ <;> rw [ran]
  · cases accepted : (b.store.appendDecision none rec).2 with
    | some e =>
        refine ⟨.recorded rec _, ?_, ?_⟩ <;> intro r finished <;> cases finished
        · simp [Report]
        · exact fun _ => Or.inr ⟨_, rfl⟩
    | none =>
        refine ⟨.recorded rec _, ?_, ?_⟩ <;> intro r finished <;> cases finished
        · exact fun _ => b.store.appendDecision_mem accepted
        · exact fun _ => Or.inl rfl
  · exact .refused _ _ _ (by simp)
  · refine ⟨.recorded rec _, ?_, ?_⟩ <;> intro r finished <;> cases finished
    · simp [Report]
    · exact fun _ => Or.inr ⟨_, rfl⟩

theorem recordAuditTrail_performed (rec : AuditRecord) :
    Performed w x b (.recordAuditTrail rec) .start (recordAuditTrail w rec c b).1
      (recordAuditTrail w rec c b).2 := by
  unfold recordAuditTrail
  split
  · exact .refused _ _ _ (by simp)
  rcases write_cases c b.audits (appendAudit b.audits rec c.now) with
    ran | ⟨e, ran⟩ | ⟨e, ran⟩ <;> rw [ran]
  · cases accepted : (appendAudit b.audits rec c.now).2 with
    | some e =>
        refine ⟨.audited rec c.now _, ?_, ?_⟩ <;> intro r finished <;> cases finished
        · simp [Report]
        · exact fun _ => Or.inr ⟨_, rfl⟩
    | none =>
        refine ⟨.audited rec c.now _, ?_, ?_⟩ <;> intro r finished <;> cases finished
        · exact fun _ => ⟨c.now, appendAudit_mem accepted⟩
        · exact fun _ => Or.inl rfl
  · exact .refused _ _ _ (by simp)
  · refine ⟨.audited rec c.now _, ?_, ?_⟩ <;> intro r finished <;> cases finished
    · simp [Report]
    · exact fun _ => Or.inr ⟨_, rfl⟩

theorem advanceExecutionClaim_performed (t : ClaimTransition) :
    Performed w x b (.advanceExecutionClaim t) .start (advanceExecutionClaim w x t c b).1
      (advanceExecutionClaim w x t c b).2 := by
  unfold advanceExecutionClaim
  simp only
  split
  · exact .refused _ _ _ (by simp)
  split
  · exact .refused _ _ _ (by simp)
  rename_i unfenced
  rcases advanceClaim_cases b.store t.decisionID (claimOwner x t.token) t.toState c.now with
    ⟨store, _, update, _, _, _, writes⟩ | ⟨e, update, notHeld, _⟩ <;> rw [update]
  · rcases write_cases c b.store (store, (none : Option StoreError)) with
      ran | ⟨e, ran⟩ | ⟨e, ran⟩ <;> rw [ran]
    · refine ⟨.advanced t store _ unfenced writes, ?_, ?_⟩ <;> intro r finished <;> cases finished
      · intro _
        obtain ⟨_, _, _, after⟩ := writes.row.of_advanced
        exact after
      · exact fun _ => Or.inl rfl
    · exact .refused _ _ _ (by simp)
    · refine ⟨.advanced t store _ unfenced writes, ?_, ?_⟩ <;> intro r finished <;> cases finished
      · simp [Report]
      · exact fun _ => Or.inr ⟨_, rfl⟩
  · rcases write_cases c b.store (b.store, some e) with ran | ⟨e', ran⟩ | ⟨e', ran⟩ <;> rw [ran]
    · simp only [notHeld, if_true]
      exact .refused _ _ _ (by simp)
    · exact .refused _ _ _ (by simp)
    · exact .refused _ _ _ (by simp)

theorem dispatchConfig_performed (req : FencedDispatch) :
    Performed w x b (.dispatchConfig req) .start (dispatchConfig w x req c b).1
      (dispatchConfig w x req c b).2 := by
  unfold dispatchConfig
  simp only
  split
  · exact .refused _ _ _ (by simp)
  split
  · exact .refused _ _ _ (by simp)
  split
  · exact .refused _ _ _ (by simp)
  split
  · exact .refused _ _ _ (by simp)
  rename_i keyed
  rw [not_not] at keyed
  rcases advanceClaim_cases b.store req.decisionID (claimOwner x req.token) .executing c.now with
    ⟨store, _, update, _, _, _, writes⟩ | ⟨e, update, notHeld, _⟩ <;> rw [update]
  · rcases write_cases c b.store (store, (none : Option StoreError)) with
      ran | ⟨e, ran⟩ | ⟨e, ran⟩ <;> rw [ran]
    · exact ⟨.fenced req store _ keyed writes (Or.inl rfl), by simp, by simp⟩
    · exact .refused _ _ _ (by simp)
    · refine ⟨.fenced req store _ keyed writes (Or.inr ⟨_, rfl⟩), ?_, by simp [Activity.plain]⟩
      intro r finished
      cases finished
      simp [Report]
  · rcases write_cases c b.store (b.store, some e) with ran | ⟨e', ran⟩ | ⟨e', ran⟩ <;> rw [ran]
    · simp only [notHeld, if_true]
      exact ⟨.same _ _ _ (by simp) (by simp), by simp, by simp⟩
    · exact .refused _ _ _ (by simp)
    · exact .refused _ _ _ (by simp)

theorem dispatchConfigRead_performed (req : FencedDispatch) (err : StoreError) :
    Performed w x b (.dispatchConfig req) (.readFence err) b
      (dispatchConfigRead w x req err c b) := by
  unfold dispatchConfigRead
  split
  · exact .refused _ _ _ (by simp)
  · exact .refused _ _ _ (by simp)
  · split <;> exact .refused _ _ _ (by simp)

theorem reconcileDispatch_performed (req : DispatchRequest) :
    Performed w x b (.reconcileDispatch req) .start (reconcileDispatch w x req c b).1
      (reconcileDispatch w x req c b).2 := by
  have unknown : ∀ detail : GoString, Performed w x b (.reconcileDispatch req) .start b
      (.finished (.outcome (unknownOutcome detail))) := by
    intro detail
    refine ⟨.same _ _ _ (by simp) (by simp), ?_, by simp [Activity.plain]⟩
    intro r finished
    cases finished
    exact Or.inl rfl
  unfold reconcileDispatch
  split
  · exact unknown _
  · rename_i adapter configured
    split
    · exact unknown _
    · refine ⟨.reconciled req adapter c.ctx configured, ?_, by simp [Activity.plain]⟩
      intro r finished
      cases finished
      exact Or.inr ⟨adapter, c.ctx, b.target, configured, rfl, rfl⟩

theorem revertStateCompensation_performed (req : DispatchRequest) :
    Performed w x b (.revertStateCompensation req) .start (revertStateCompensation w x req c b).1
      (revertStateCompensation w x req c b).2 := by
  unfold revertStateCompensation
  split
  · exact .refused _ _ _ (by simp)
  · rename_i adapter configured
    rcases called : adapter.compensate c.ctx req b.target with ⟨target, err⟩
    have change : ∀ r, Change w x b (.revertStateCompensation req) .start
        (b.called .compensate x req target) (.finished r) := by
      intro r
      have change := Change.compensated (x := x) (b := b) req adapter c.ctx r configured
      rwa [called] at change
    cases err with
    | some message =>
        refine ⟨change _, by simp [Report], ?_⟩
        intro r finished _
        cases finished
        exact Or.inr ⟨_, rfl⟩
    | none =>
        refine ⟨change _, by simp [Report], ?_⟩
        intro r finished _
        cases finished
        exact Or.inl rfl

/-- **What one action of a body can do.** -/
theorem perform_performed {act : Activity} {body : Body}
    (ran : perform w x act body c b = some (b', body')) :
    Performed w x b act body b' body' := by
  have pair : ∀ r : Backend α × Body, Performed w x b act body r.1 r.2 →
      some r = some (b', body') → Performed w x b act body b' body' := by
    intro r performed same
    cases same
    exact performed
  unfold perform at ran
  split at ran
  · exact pair _ (verifyIngressDecision_performed _) ran
  · exact pair _ (claimExecution_performed _) ran
  · exact pair _ (claimExecutionRead_performed _) ran
  · exact pair _ (evaluateExecution_performed _) ran
  · exact pair _ (recordDecision_performed _) ran
  · exact pair _ (recordAuditTrail_performed _) ran
  · exact pair _ (advanceExecutionClaim_performed _) ran
  · exact pair _ (dispatchConfig_performed _) ran
  · exact pair _ (dispatchConfigRead_performed _ _) ran
  · rename_i req
    obtain ⟨adapter, configured, called⟩ := Option.map_eq_some_iff.mp ran
    cases called
    refine ⟨.dispatched req adapter c.ctx configured, ?_, by simp [Activity.plain]⟩
    intro r finished
    cases finished
    exact ⟨adapter, c.ctx, b.target, configured, rfl, rfl⟩
  · exact pair _ (reconcileDispatch_performed _) ran
  · exact pair _ (revertStateCompensation_performed _) ran
  · cases ran

/-- Without a fault, a run that does not own the claim is told that the fence was
rejected. -/
theorem dispatchConfig_refused {req : FencedDispatch} {body : Body} {r : Reply}
    (ran : perform w x (.dispatchConfig req) body c b = some (b', .finished r))
    (calm : c.fault = .absent) (idle : body ≠ .callAdapter)
    (foreign : ∀ h, b.store.holding? req.decisionID = some h → h.owner ≠ claimOwner x req.token) :
    ∃ message cause, r = .failed (.application (.named .executionFenceRejected) message cause) := by
  have rejected : ∀ (b₀ : Backend α) (message : String) (cause : GoString),
      some (b₀, fenceRejected message cause) = some (b', .finished r) →
      ∃ message cause,
        r = .failed (.application (.named .executionFenceRejected) message cause) := by
    intro b₀ message cause same
    cases same
    exact ⟨_, _, rfl⟩
  cases body with
  | start =>
      simp only [perform, dispatchConfig] at ran
      split at ran
      · exact rejected _ _ _ ran
      split at ran
      · exact rejected _ _ _ ran
      split at ran
      · exact rejected _ _ _ ran
      split at ran
      · exact rejected _ _ _ ran
      rcases advanceClaim_cases b.store req.decisionID (claimOwner x req.token) .executing c.now with
        ⟨store, claim, update, held, owner, -⟩ | ⟨e, update, notHeld, -⟩
      · exact absurd owner (foreign (holding claim) (by simp [MemoryStore.holding?, held]))
      · simp [update, Conditions.write, calm, notHeld] at ran
  | readFence err =>
      simp only [perform, dispatchConfigRead, Conditions.read, calm] at ran
      cases held : b.store.claims req.decisionID with
      | none =>
          simp only [MemoryStore.getClaim, held] at ran
          exact rejected _ _ _ ran
      | some claim =>
          have other := foreign (holding claim) (by simp [MemoryStore.holding?, held])
          have refused : ¬ (claim.owner = claimOwner x req.token ∧ claim.state ≠ .released) :=
            fun mine => other mine.1
          simp only [MemoryStore.getClaim, held, if_neg refused] at ran
          exact rejected _ _ _ ran
  | callAdapter => exact absurd rfl idle
  | readClaim => cases ran
  | finished r => cases ran

/-- `DispatchConfig` returns an outcome only by calling the adapter: it is the one the
adapter gave, checked. -/
theorem dispatchConfig_outcome {req : FencedDispatch} {body : Body} {o : DispatchOutcome}
    (ran : perform w x (.dispatchConfig req) body c b = some (b', .finished (.outcome o))) :
    ∃ adapter, w.adapter = some adapter ∧
      b' = b.called .dispatch x req.dispatch (adapter.dispatch c.ctx req.dispatch b.target).1 ∧
      o = (adapter.dispatch c.ctx req.dispatch b.target).2.checked := by
  have failed : ∀ (b₀ : Backend α) (e : ActivityError),
      some (b₀, Body.fails e) ≠ some (b', .finished (.outcome o)) := by
    intro b₀ e same
    cases same
  cases body with
  | callAdapter =>
      obtain ⟨adapter, configured, called⟩ := Option.map_eq_some_iff.mp ran
      cases called
      exact ⟨adapter, configured, rfl, rfl⟩
  | start =>
      exfalso
      simp only [perform, dispatchConfig] at ran
      split at ran
      · exact failed _ _ ran
      split at ran
      · exact failed _ _ ran
      split at ran
      · exact failed _ _ ran
      split at ran
      · exact failed _ _ ran
      have finished := congrArg Prod.snd (Option.some.inj ran)
      simp only at finished
      split at finished
      · cases finished
      · split at finished <;> cases finished
      · cases finished
  | readFence err =>
      exfalso
      simp only [perform, dispatchConfigRead] at ran
      split at ran
      · exact failed _ _ ran
      · exact failed _ _ ran
      · split at ran <;> exact failed _ _ ran
  | readClaim => cases ran
  | finished r => cases ran

/-- `ReconcileDispatch` returns UNKNOWN, or what the adapter gave, checked. -/
theorem reconcileDispatch_outcome {req : DispatchRequest} {body : Body} {o : DispatchOutcome}
    (ran : perform w x (.reconcileDispatch req) body c b = some (b', .finished (.outcome o))) :
    o.status = .unknown ∨ ∃ adapter, w.adapter = some adapter ∧
      b' = b.called .reconcile x req (adapter.reconcile c.ctx req b.target).1 ∧
      o = (adapter.reconcile c.ctx req b.target).2.checked := by
  cases body with
  | start =>
      simp only [perform, reconcileDispatch] at ran
      split at ran
      · cases ran
        exact Or.inl rfl
      · rename_i adapter configured
        split at ran
        · cases ran
          exact Or.inl rfl
        · cases ran
          exact Or.inr ⟨adapter, configured, rfl, rfl⟩
  | _ => cases ran

/-- `RevertStateCompensation` returns nil only if the adapter did. -/
theorem revertStateCompensation_done {req : DispatchRequest} {body : Body}
    (ran : perform w x (.revertStateCompensation req) body c b = some (b', .finished .done)) :
    ∃ adapter, w.adapter = some adapter ∧
      b' = b.called .compensate x req (adapter.compensate c.ctx req b.target).1 ∧
      (adapter.compensate c.ctx req b.target).2 = none := by
  cases body with
  | start =>
      simp only [perform, revertStateCompensation] at ran
      split at ran
      · cases ran
      · rename_i adapter configured
        split at ran
        · cases ran
        · rename_i fine
          cases ran
          exact ⟨adapter, configured, rfl, fine⟩
  | _ => cases ran

/-- The compensation is one action. -/
theorem revertStateCompensation_once {req : DispatchRequest} {body : Body}
    (ran : perform w x (.revertStateCompensation req) body c b = some (b', body')) :
    body = .start ∧ ∃ r, body' = .finished r := by
  cases body with
  | start =>
      refine ⟨rfl, ?_⟩
      simp only [perform, revertStateCompensation] at ran
      split at ran
      · cases ran
        exact ⟨_, rfl⟩
      · split at ran <;> cases ran <;> exact ⟨_, rfl⟩
  | _ => cases ran

end Inversion

/-! ## What a change keeps -/

/-- Which body may write a row so: the claim acquires, the fence enters EXECUTING,
a transition enters any other state, each under the owner of its own execution. -/
def Author (x : Execution) (act : Activity) (decisionID : GoString) : ClaimWrite → Prop
  | .nothing => True
  | .acquired owner =>
      ∃ req, act = .claimExecution req ∧ req.decisionID = decisionID ∧
        owner = claimOwner x req.token
  | .advanced owner next =>
      (∃ t, act = .advanceExecutionClaim t ∧ t.decisionID = decisionID ∧
        owner = claimOwner x t.token ∧ next = t.toState ∧ next ≠ .executing) ∨
      (∃ req, act = .dispatchConfig req ∧ req.decisionID = decisionID ∧
        owner = claimOwner x req.token ∧ next = .executing)

namespace Change

variable {w : Worker α} {x : Execution} {b b' : Backend α} {act : Activity} {body body' : Body}

theorem holding?_appendDecision (m : MemoryStore) (ctx : Context) (rec : DecisionRecord)
    (decisionID : GoString) :
    (m.appendDecision ctx rec).1.holding? decisionID = m.holding? decisionID := by
  simp [MemoryStore.holding?]

/-- An action changes the row of a decision only as its author may. -/
theorem row (change : Change w x b act body b' body') (decisionID : GoString) :
    ∃ wr, RowChange (b.store.holding? decisionID) wr (b'.store.holding? decisionID) ∧
      (wr ≠ .nothing → body = .start) ∧ Author x act decisionID wr := by
  have written : ∀ {store : MemoryStore} {d : GoString} {wr : ClaimWrite},
      Writes b.store d wr store → (d = decisionID → Author x act decisionID wr) →
      ∃ wr, RowChange (b.store.holding? decisionID) wr (store.holding? decisionID) ∧
        (wr ≠ .nothing → Body.start = .start) ∧ Author x act decisionID wr := by
    intro store d wr writes author
    by_cases here : d = decisionID
    · subst here
      exact ⟨wr, writes.row, fun _ => rfl, author rfl⟩
    · refine ⟨.nothing, ?_, fun _ => rfl, trivial⟩
      rw [writes.holding_elsewhere (Ne.symm here)]
      exact .nothing
  cases change with
  | acquired req store r writes => exact written writes fun here => ⟨req, rfl, here, rfl⟩
  | advanced t store r unfenced writes =>
      exact written writes fun here => Or.inl ⟨t, rfl, here, rfl, rfl, unfenced⟩
  | fenced req store body' keyed writes after =>
      exact written writes fun here => Or.inr ⟨req, rfl, here, rfl, rfl⟩
  | recorded rec r =>
      refine ⟨.nothing, ?_, by simp, trivial⟩
      rw [holding?_appendDecision]
      exact .nothing
  | same => exact ⟨.nothing, .nothing, by simp, trivial⟩
  | audited => exact ⟨.nothing, .nothing, by simp, trivial⟩
  | dispatched => exact ⟨.nothing, .nothing, by simp, trivial⟩
  | reconciled => exact ⟨.nothing, .nothing, by simp, trivial⟩
  | compensated => exact ⟨.nothing, .nothing, by simp, trivial⟩

/-- Decision records are never removed. -/
theorem records (change : Change w x b act body b' body') {rec : DecisionRecord}
    (member : rec ∈ b.store.records) : rec ∈ b'.store.records := by
  cases change with
  | acquired req store r writes => rwa [writes.records]
  | advanced t store r unfenced writes => rwa [writes.records]
  | fenced req store body' keyed writes after => rwa [writes.records]
  | recorded rec r => exact b.store.mem_appendDecision member
  | same => exact member
  | audited => exact member
  | dispatched => exact member
  | reconciled => exact member
  | compensated => exact member

/-- Audit rows are never removed. -/
theorem audits (change : Change w x b act body b' body') {row : AuditRecord}
    (member : row ∈ b.audits) : row ∈ b'.audits := by
  cases change with
  | audited rec now r => exact mem_appendAudit member
  | same => exact member
  | acquired => exact member
  | advanced => exact member
  | fenced => exact member
  | recorded => exact member
  | dispatched => exact member
  | reconciled => exact member
  | compensated => exact member

end Change

end SentryGate.Workflows
