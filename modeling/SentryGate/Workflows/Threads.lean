/-
# Workflows.Threads -- how a saga thread got where it is

`Origin` reads `resume` backwards: for the point a thread is at after an answer,
where it was before and what the answer was.  `resume_origin` is the one proof
that goes through the workflow code; everything about histories follows from it.

* `Point.place` -- the points up to the dispatch step each have one place in a
  history: the claim is answered third, the dispatch step seventh.
* `Point.afterDispatch` -- once the dispatch step has an answer that is not a fence
  error, a thread stays among the points that settle it.
-/
import SentryGate.Workflows.Saga
import Mathlib.Data.List.Induction

namespace SentryGate.Workflows

open Theory.Text Contracts Decision

set_option autoImplicit false

/-- The result is an application error of this type. -/
def HasType (type : ErrorTypeName) (result : WorkflowResult) : Prop :=
  ∃ message cause details, result = applicationError type message cause details

/-- The result is `ErrAuditPersistFailed`. -/
def PersistFailed (result : WorkflowResult) : Prop :=
  ∃ cause, result = some (.auditPersistFailed cause)

/-- A thread at this point returns `result` on the answer `r`. -/
def Leaves (auditErr : Option GoString) (r : Reply) (result : WorkflowResult) : Point → Prop
  | .verifyIngress => HasType .ingressDecisionInvalid result
  | .rejectAudit rej => HasType rej.errType result
  | .executionToken => HasType .executionClaimRejected result
  | .claimExecution => HasType .executionClaimRejected result
  | .evaluateExecution => HasType .revalidationDenied result
  | .recordDecision _ => PersistFailed result
  | .auditDenied _ => HasType .revalidationDenied result
  | .auditPassed _ => PersistFailed result
  | .auditFenceRejected _ _ => HasType .executionClaimRejected result
  | .auditReconciliation o => o.status = .unknown ∧ HasType .dispatchOutcomeUnknown result
  | .auditWorkflowFailed _ => HasType .dispatchFailed result
  | .markCompleted => (r.error? ≠ none ∨ auditErr ≠ none) ∧ PersistFailed result
  | .auditComplete =>
      (r.error? = none ∧ result = none) ∨ (r.error? ≠ none ∧ PersistFailed result)
  | _ => False

/-- Where a thread that is at a point now was before the answer `r`. -/
def Origin (sdk : Sdk) (prior : Thread) (r : Reply) : Point → Prop
  | .verifyIngress => False
  | .rejectRecord rej =>
      (prior.point = .verifyIngress ∧ ∃ v, r = .verified v ∧ v.valid = false ∧
        rej = ⟨.ingressDecisionInvalid, reasonField v.reason, v.detail⟩) ∨
      (prior.point = .claimExecution ∧ ∃ c, r = .claimed c ∧ c.claimed = false ∧
        rej = ⟨.executionClaimRejected, reasonField c.reason, c.detail⟩)
  | .rejectAudit rej => prior.point = .rejectRecord rej
  | .executionToken => prior.point = .verifyIngress ∧ ∃ v, r = .verified v ∧ v.valid = true
  | .claimExecution => prior.point = .executionToken ∧ ∃ t, r = .text t
  | .evaluateExecution => prior.point = .claimExecution ∧ ∃ c, r = .claimed c ∧ c.claimed = true
  | .recordDecision dec => prior.point = .evaluateExecution ∧ r = .decided dec
  | .auditDenied dec => prior.point = .recordDecision dec ∧ dec.verdict ≠ .allow
  | .auditPassed dec =>
      prior.point = .recordDecision dec ∧ dec.verdict = .allow ∧ r.error? = none
  | .dispatchConfig => (∃ dec, prior.point = .auditPassed dec) ∧ r.error? = none
  | .releaseFenced fence err =>
      prior.point = .dispatchConfig ∧ r = .failed err ∧ fenceFailure err = some fence
  | .auditFenceRejected released err =>
      ∃ fence, prior.point = .releaseFenced fence err ∧ released = r.error?.isNone ∧
        (r.error? = none ∨ fence = .executionFenceRejected)
  | .auditFenceUnknown o =>
      ∃ fence err, prior.point = .releaseFenced fence err ∧ r.error? ≠ none ∧
        fence ≠ .executionFenceRejected ∧ o.status = .unknown
  | .auditDispatch o =>
      prior.point = .dispatchConfig ∧ o = dispatchOutcome sdk r.getOutcome ∧
        (∀ err, r = .failed err → fenceFailure err = none)
  | .requireReconciliation =>
      (∃ o, prior.point = .auditFenceUnknown o) ∨
      (∃ o, prior.point = .auditDispatch o ∧ o.status = .unknown)
  | .reconcile start wait =>
      prior.point = .requireReconciliation ∨
      (∃ wait' last, prior.point = .reconcileSleep start wait' last ∧
        wait = min (2 * wait') reconcileMaxWait)
  | .reconcileSleep start wait last =>
      prior.point = .reconcile start wait ∧ last = reconcileOutcome sdk r.getOutcome ∧
        last.status = .unknown
  | .auditReconciliation o =>
      (∃ start wait, prior.point = .reconcile start wait ∧ o = reconcileOutcome sdk r.getOutcome) ∨
      (∃ start wait, prior.point = .reconcileSleep start wait o)
  | .markFailed o =>
      (prior.point = .auditDispatch o ∨ prior.point = .auditReconciliation o) ∧ o.status = .failure
  | .compensate o => prior.point = .markFailed o ∧ o.partiallyApplied = true
  | .auditCompensation _ _ => ∃ o, prior.point = .compensate o
  | .auditWorkflowFailed _ =>
      (∃ o, prior.point = .markFailed o ∧ o.partiallyApplied = false) ∨
      (∃ err failure, prior.point = .auditCompensation err failure)
  | .markCompleted =>
      ∃ o, (prior.point = .auditDispatch o ∨ prior.point = .auditReconciliation o) ∧
        o.status ≠ .unknown ∧ o.status ≠ .failure
  | .auditComplete => prior.point = .markCompleted ∧ r.error? = none ∧ prior.auditErr = none
  | .releaseOnExit result =>
      Leaves prior.auditErr r result prior.point ∧ prior.mayHoldClaim = true ∧
        prior.dispatching = false
  | .closed result =>
      prior.point = .closed result ∨ prior.point = .releaseOnExit result ∨
      (Leaves prior.auditErr r result prior.point ∧
        (prior.mayHoldClaim = false ∨ prior.dispatching = true))

/-! ## Reading an answer -/

namespace Reply

variable {r : Reply}

theorem getVerification_ok {v : IngressVerification} (read : r.getVerification = .ok v) :
    r = .verified v := by
  cases r <;> simp [getVerification] at read
  rw [read]

theorem getText_ok {t : GoString} (read : r.getText = .ok t) : r = .text t := by
  cases r <;> simp [getText] at read
  rw [read]

theorem getClaim_ok {c : ClaimResult} (read : r.getClaim = .ok c) : r = .claimed c := by
  cases r <;> simp [getClaim] at read
  rw [read]

theorem getDecision_ok {d : Decision} (read : r.getDecision = .ok d) : r = .decided d := by
  cases r <;> simp [getDecision] at read
  rw [read]

theorem getOutcome_ok {o : DispatchOutcome} (read : r.getOutcome = .ok o) : r = .outcome o := by
  cases r <;> simp [getOutcome] at read
  rw [read]

/-- An error of `Get` is the one the activity failed with, or a decoding error. -/
theorem getOutcome_error {err : ActivityError} (read : r.getOutcome = .error err) :
    r = .failed err ∨ err = .undecodable := by
  cases r <;> simp [getOutcome] at read <;> simp [read]

end Reply

theorem dispatchOutcome_checked (sdk : Sdk) (a : Except ActivityError DispatchOutcome) :
    (dispatchOutcome sdk a).checked = dispatchOutcome sdk a := by
  cases a <;> simp [dispatchOutcome]

/-! ## The inversion -/

section Inversion

variable {sdk : Sdk} {req : ExecutionRequest} {prior th : Thread} {r : Reply} {e : Event}

theorem origin_exit {result : WorkflowResult} (holds : th.mayHoldClaim = prior.mayHoldClaim)
    (flag : th.dispatching = prior.dispatching)
    (leaves : Leaves prior.auditErr r result prior.point) :
    Origin sdk prior r (th.exit result).point := by
  unfold Thread.exit
  rw [holds, flag]
  split
  · rename_i held
    simp only [Bool.and_eq_true, Bool.not_eq_true'] at held
    exact ⟨leaves, held.1, held.2⟩
  · rename_i free
    refine Or.inr (Or.inr ⟨leaves, ?_⟩)
    cases may : prior.mayHoldClaim with
    | false => exact Or.inl rfl
    | true => simpa [may] using free

theorem hasType (type : ErrorTypeName) (message cause : GoString) (details : List GoString) :
    HasType type (applicationError type message cause details) :=
  ⟨message, cause, details, rfl⟩

theorem origin_settle {o : DispatchOutcome} (known : o.status ≠ .unknown)
    (here : prior.point = .auditDispatch o ∨ prior.point = .auditReconciliation o) :
    Origin sdk prior r (th.settle o).point := by
  unfold Thread.settle
  split
  · rename_i failure
    exact ⟨here, failure⟩
  · rename_i success
    exact ⟨o, here, known, success⟩

theorem origin_resumeDispatch (here : prior.point = .dispatchConfig) :
    Origin sdk prior r (resumeDispatch sdk th r.getOutcome).point := by
  unfold resumeDispatch
  split
  · rename_i o read
    refine ⟨here, by rw [read], ?_⟩
    intro err failed
    rw [Reply.getOutcome_ok read] at failed
    cases failed
  · rename_i err read
    have failed := Reply.getOutcome_error read
    split
    · rename_i fence found
      refine ⟨here, ?_, found⟩
      rcases failed with same | rfl
      · exact same
      · cases found
    · rename_i absent
      refine ⟨here, by rw [read], ?_⟩
      intro err' same
      rw [same] at read
      cases read
      exact absent

theorem origin_resumeReleaseFenced {fence : ErrorTypeName} {err : ActivityError}
    (here : prior.point = .releaseFenced fence err) :
    Origin sdk prior r (resumeReleaseFenced sdk th fence err r.error?).point := by
  unfold resumeReleaseFenced
  split
  · rename_i told
    refine ⟨fence, here, rfl, ?_⟩
    simpa using told
  · rename_i unknown
    simp only [not_or, Option.isNone_iff_eq_none] at unknown
    exact ⟨fence, err, here, unknown.1, unknown.2, rfl⟩

theorem origin_resumeReconcile {start : Time} {wait : Duration}
    (here : prior.point = .reconcile start wait) :
    Origin sdk prior r (resumeReconcile sdk th start wait r.getOutcome).point := by
  unfold resumeReconcile
  simp only
  split
  · exact Or.inl ⟨start, wait, here, rfl⟩
  · rename_i unsettled
    simp only [not_or, not_not] at unsettled
    exact ⟨here, rfl, unsettled.1⟩

/-- **Where a thread comes from.** -/
theorem resume_origin (sdk : Sdk) (req : ExecutionRequest) (prior : Thread) (e : Event) :
    Origin sdk prior e.reply (resume sdk req prior e).point := by
  cases here : prior.point with
  | verifyIngress =>
      simp only [resume, here]
      split
      · exact origin_exit rfl rfl (by rw [here]; exact hasType _ _ _ _)
      · rename_i v read
        have said := Reply.getVerification_ok read
        split
        · rename_i valid
          exact ⟨here, v, said, valid⟩
        · rename_i invalid
          exact Or.inl ⟨here, v, said, by simpa using invalid, rfl⟩
  | rejectRecord rej =>
      simp only [resume, here]
      exact here
  | rejectAudit rej =>
      simp only [resume, here]
      exact origin_exit rfl rfl (by rw [here]; exact hasType _ _ _ _)
  | executionToken =>
      simp only [resume, here]
      split
      · exact origin_exit rfl rfl (by rw [here]; exact hasType _ _ _ _)
      · rename_i t read
        exact ⟨here, t, Reply.getText_ok read⟩
  | claimExecution =>
      simp only [resume, here]
      split
      · exact origin_exit rfl rfl (by rw [here]; exact hasType _ _ _ _)
      · rename_i c read
        have said := Reply.getClaim_ok read
        split
        · rename_i claimed
          exact ⟨here, c, said, claimed⟩
        · rename_i refused
          exact Or.inr ⟨here, c, said, by simpa using refused, rfl⟩
  | evaluateExecution =>
      simp only [resume, here]
      split
      · exact origin_exit rfl rfl (by rw [here]; exact hasType _ _ _ _)
      · rename_i dec read
        exact ⟨here, Reply.getDecision_ok read⟩
  | recordDecision dec =>
      simp only [resume, here]
      split
      · rename_i denied
        exact ⟨here, denied⟩
      · rename_i allowed
        split
        · exact origin_exit rfl rfl (by rw [here]; exact ⟨_, rfl⟩)
        · rename_i fine
          exact ⟨here, by simpa using allowed, fine⟩
  | auditDenied dec =>
      simp only [resume, here]
      exact origin_exit rfl rfl (by rw [here]; exact hasType _ _ _ _)
  | auditPassed dec =>
      simp only [resume, here]
      split
      · exact origin_exit rfl rfl (by rw [here]; exact ⟨_, rfl⟩)
      · rename_i fine
        exact ⟨⟨dec, here⟩, fine⟩
  | dispatchConfig =>
      simp only [resume, here]
      exact origin_resumeDispatch here
  | releaseFenced fence err =>
      simp only [resume, here]
      exact origin_resumeReleaseFenced here
  | auditFenceRejected released err =>
      simp only [resume, here]
      exact origin_exit rfl rfl (by rw [here]; exact hasType _ _ _ _)
  | auditFenceUnknown o =>
      simp only [resume, here]
      exact Or.inl ⟨o, here⟩
  | auditDispatch o =>
      simp only [resume, here]
      split
      · rename_i unknown
        exact Or.inr ⟨o, here, unknown⟩
      · rename_i known
        exact origin_settle known (Or.inl here)
  | requireReconciliation =>
      simp only [resume, here]
      exact Or.inl here
  | reconcile start wait =>
      simp only [resume, here]
      exact origin_resumeReconcile here
  | reconcileSleep start wait last =>
      simp only [resume, here]
      split
      · exact Or.inr ⟨start, wait, here⟩
      · exact Or.inr ⟨wait, last, here, rfl⟩
  | auditReconciliation o =>
      simp only [resume, here]
      split
      · rename_i unknown
        exact origin_exit rfl rfl (by rw [here]; exact ⟨unknown, hasType _ _ _ _⟩)
      · rename_i known
        exact origin_settle known (Or.inr here)
  | markFailed o =>
      simp only [resume, here, resumeMarkFailed]
      split
      · rename_i applied
        exact ⟨here, applied⟩
      · rename_i clean
        exact Or.inl ⟨o, here, by simpa using clean⟩
  | compensate o =>
      simp only [resume, here, resumeCompensate]
      split <;> exact ⟨o, here⟩
  | auditCompensation err failure =>
      simp only [resume, here]
      exact Or.inr ⟨err, failure, here⟩
  | auditWorkflowFailed failure =>
      simp only [resume, here]
      exact origin_exit rfl rfl (by rw [here]; exact hasType _ _ _ _)
  | markCompleted =>
      simp only [resume, here]
      split
      · rename_i failed
        refine origin_exit rfl rfl ?_
        rw [here]
        refine ⟨Or.inl fun fine => ?_, _, rfl⟩
        rw [fine] at failed
        cases failed
      · rename_i failed
        refine origin_exit rfl rfl ?_
        rw [here]
        refine ⟨Or.inr fun fine => ?_, _, rfl⟩
        rw [fine] at failed
        cases failed
      · rename_i fine clean
        exact ⟨here, by simpa using fine, clean⟩
  | auditComplete =>
      simp only [resume, here]
      split
      · rename_i err failed
        refine origin_exit rfl rfl ?_
        rw [here]
        exact Or.inr ⟨by simp [failed], _, rfl⟩
      · rename_i fine
        refine origin_exit rfl rfl ?_
        rw [here]
        exact Or.inl ⟨fine, rfl⟩
  | releaseOnExit result =>
      simp only [resume, here]
      exact Or.inr (Or.inl here)
  | closed result =>
      simp only [resume, here]
      exact Or.inl here

end Inversion

/-! ## Reading a wait -/

/-- At which point a thread waits for an activity, and with which argument. -/
def Asks (sdk : Sdk) (x : Execution) (req : ExecutionRequest) (th : Thread) (opts : Options) :
    Activity → Prop
  | .verifyIngressDecision r => th.point = .verifyIngress ∧ r = req
  | .claimExecution r =>
      th.point = .claimExecution ∧ r = { decisionID := req.ingressDecisionID, token := th.token }
  | .evaluateExecution r => th.point = .evaluateExecution ∧ r = req
  | .recordDecision rec =>
      (∃ dec, th.point = .recordDecision dec ∧ rec = decisionRecord sdk.toRuntime x req dec th.now) ∨
      (∃ rej, th.point = .rejectRecord rej ∧
        rec = decisionRecord sdk.toRuntime x req rej.decision th.now)
  | .recordAuditTrail rec =>
      ∃ phase verdict detail, auditRow sdk req th.point = some (phase, verdict, detail) ∧
        rec = newAuditRecord req.proposal.id x.workflowID x.runID (.named phase) verdict
          req.proposal detail th.now th.auditSeq
  | .advanceExecutionClaim t =>
      transition th.point = some t.toState ∧ t.decisionID = req.ingressDecisionID ∧
        t.token = th.token
  | .dispatchConfig f =>
      th.point = .dispatchConfig ∧ f = fencedDispatch req th.token ∧ opts = activityOpts
  | .reconcileDispatch d => (∃ start wait, th.point = .reconcile start wait) ∧ d = dispatchRequest req
  | .revertStateCompensation d =>
      (∃ o, th.point = .compensate o) ∧ d = dispatchRequest req ∧ opts = compCtx

theorem await_asks {sdk : Sdk} {x : Execution} {req : ExecutionRequest} {th : Thread}
    {act : Activity} {opts : Options} (waits : await sdk x req th = .activity act opts) :
    Asks sdk x req th opts act := by
  unfold await at waits
  split at waits
  · rename_i phase verdict detail row
    cases waits
    exact ⟨phase, verdict, detail, row, rfl⟩
  · rename_i target none_row change
    cases waits
    exact ⟨change, rfl, rfl⟩
  · split at waits <;> cases waits <;> rename_i here <;> simp [Asks, here]

/-! ## The local variables -/

/-- The points whose audit error is kept for the end of the run. -/
def Point.setsAuditErr : Point → Bool
  | .auditFenceUnknown _ | .auditDispatch _ | .auditReconciliation _ => true
  | _ => false

/-- What an answer does to the local variables. -/
structure Locals (sdk : Sdk) (prior : Thread) (r : Reply) (th : Thread) : Prop where
  token : th.point ≠ .claimExecution → th.token = prior.token
  holding : th.point = .claimExecution → th.mayHoldClaim = true
  refused : ∀ rej, prior.point = .claimExecution → th.point = .rejectRecord rej →
    th.mayHoldClaim = false
  holds : th.point ≠ .claimExecution →
    (prior.point = .claimExecution → ∀ rej, th.point ≠ .rejectRecord rej) →
    th.mayHoldClaim = prior.mayHoldClaim
  dispatches : th.point = .dispatchConfig → th.dispatching = true
  dispatching : th.point ≠ .dispatchConfig → th.dispatching = prior.dispatching
  auditErr : th.auditErr =
    if prior.point.setsAuditErr then r.error?.map sdk.errorText else prior.auditErr

theorem resume_locals (sdk : Sdk) (req : ExecutionRequest) (prior : Thread) (e : Event) :
    Locals sdk prior e.reply (resume sdk req prior e) := by
  unfold resume resumeDispatch resumeReleaseFenced resumeReconcile resumeMarkFailed
    resumeCompensate Thread.settle Thread.exit
  simp only
  split <;> rename_i here <;> (repeat' split) <;> constructor <;>
    simp [Thread.goto, Thread.audit, Point.setsAuditErr, here]

/-- Where the flags of the deferred release stand at each point. -/
def FlagsAt (holds dispatching : Bool) : Point → Prop
  | .verifyIngress | .executionToken | .rejectRecord _ | .rejectAudit _ =>
      holds = false ∧ dispatching = false
  | .claimExecution | .evaluateExecution | .recordDecision _ | .auditDenied _ | .auditPassed _
  | .releaseOnExit _ => holds = true ∧ dispatching = false
  | .closed _ => True
  | _ => dispatching = true

def Thread.Flags (th : Thread) : Prop := FlagsAt th.mayHoldClaim th.dispatching th.point

theorem Thread.Flags.resume {sdk : Sdk} {req : ExecutionRequest} {prior : Thread} {e : Event}
    (flags : prior.Flags) : (resume sdk req prior e).Flags := by
  have locals := resume_locals sdk req prior e
  have origin := resume_origin sdk req prior e
  unfold Thread.Flags at flags ⊢
  generalize Workflows.resume sdk req prior e = th at locals origin ⊢
  obtain ⟨-, holding, refused, holds, dispatches, dispatching, -⟩ := locals
  cases here : th.point <;> rw [here] at origin holding refused holds dispatches dispatching <;>
    simp only [Origin] at origin <;> grind [FlagsAt, Leaves]

/-! ## Along a history -/

theorem replay_append (sdk : Sdk) (req : ExecutionRequest) (startedAt : Time)
    (history : List Event) (e : Event) :
    replay sdk req startedAt (history ++ [e]) =
      resume sdk req (replay sdk req startedAt history) e := by
  simp [replay]

/-- **Run lemma for threads**: what holds at the start and is kept by every answer
holds after every history. -/
theorem replay_induction {P : List Event → Thread → Prop} (sdk : Sdk) (req : ExecutionRequest)
    (startedAt : Time) (begins : P [] (Thread.initial startedAt))
    (keeps : ∀ history th e, P history th → P (history ++ [e]) (resume sdk req th e))
    (history : List Event) : P history (replay sdk req startedAt history) := by
  induction history using List.reverseRecOn with
  | nil => exact begins
  | append_singleton history e ih =>
      rw [replay_append]
      exact keeps history _ e ih

theorem replay_flags (sdk : Sdk) (req : ExecutionRequest) (startedAt : Time)
    (history : List Event) : (replay sdk req startedAt history).Flags :=
  replay_induction (P := fun _ th => th.Flags) sdk req startedAt ⟨rfl, rfl⟩
    (fun _ _ _ flags => flags.resume) history

/-- The place in a history of the points up to the dispatch step. -/
def Point.place : Point → Option Nat
  | .verifyIngress => some 0
  | .executionToken => some 1
  | .claimExecution => some 2
  | .evaluateExecution => some 3
  | .recordDecision _ => some 4
  | .auditDenied _ | .auditPassed _ => some 5
  | .dispatchConfig => some 6
  | .releaseFenced _ _ => some 7
  | _ => none

theorem resume_place {sdk : Sdk} {req : ExecutionRequest} {prior : Thread} {e : Event} {n : Nat}
    (placed : (resume sdk req prior e).point.place = some n) :
    ∃ m, n = m + 1 ∧ prior.point.place = some m := by
  have origin := resume_origin sdk req prior e
  generalize (resume sdk req prior e).point = p at origin placed
  cases p <;> simp only [Point.place, Option.some.injEq, reduceCtorEq] at placed <;> subst placed <;>
    simp only [Origin] at origin <;> grind [Point.place]

/-- A thread at a placed point has heard exactly that many answers. -/
theorem replay_place {sdk : Sdk} {req : ExecutionRequest} {startedAt : Time}
    {history : List Event} {n : Nat}
    (placed : (replay sdk req startedAt history).point.place = some n) : history.length = n := by
  refine replay_induction (P := fun history th => ∀ n, th.point.place = some n → history.length = n)
    sdk req startedAt ?_ ?_ history n placed
  · intro n placed
    cases placed
    rfl
  · intro history th e ih n placed
    obtain ⟨m, rfl, before⟩ := resume_place placed
    simp [ih m before]

/-- The points that settle an outcome of the dispatch step. -/
def Point.afterDispatch : Point → Bool
  | .auditFenceUnknown _ | .auditDispatch _ | .requireReconciliation | .reconcile _ _
  | .reconcileSleep _ _ _ | .auditReconciliation _ | .markFailed _ | .compensate _
  | .auditCompensation _ _ | .auditWorkflowFailed _ | .markCompleted | .auditComplete => true
  | _ => false

/-- The results of a run whose dispatch step may have called the adapter. -/
def Settling (result : WorkflowResult) : Prop :=
  result = none ∨ HasType .dispatchFailed result ∨ HasType .dispatchOutcomeUnknown result ∨
    PersistFailed result

/-- The points that settle an outcome, and those they lead to. -/
def Point.Settles : Point → Prop
  | .releaseOnExit result | .closed result => Settling result
  | p => p.afterDispatch = true

theorem Leaves.settling {auditErr : Option GoString} {r : Reply} {result : WorkflowResult}
    {p : Point} (leaves : Leaves auditErr r result p) (settles : p.Settles) : Settling result := by
  cases p <;> simp only [Leaves, Point.Settles, Point.afterDispatch, Bool.false_eq_true] at * <;>
    grind [Settling]

/-- A thread that settles an outcome goes on doing so. -/
theorem Point.Settles.resume {sdk : Sdk} {req : ExecutionRequest} {prior : Thread} {e : Event}
    (settles : prior.point.Settles) : (resume sdk req prior e).point.Settles := by
  have origin := resume_origin sdk req prior e
  generalize (Workflows.resume sdk req prior e).point = p at origin ⊢
  have exits : ∀ result, Leaves prior.auditErr e.reply result prior.point → Settling result :=
    fun result leaves => leaves.settling settles
  cases p <;> simp only [Origin] at origin <;> grind [Point.Settles, Point.afterDispatch]

/-- An answer to the dispatch step that is no fence error has to be settled. -/
theorem dispatch_settles {sdk : Sdk} {req : ExecutionRequest} {prior : Thread} {e : Event}
    (here : prior.point = .dispatchConfig)
    (unfenced : ∀ err, e.reply = .failed err → fenceFailure err = none) :
    (resume sdk req prior e).point.Settles := by
  have origin := resume_origin sdk req prior e
  generalize (Workflows.resume sdk req prior e).point = p at origin ⊢
  cases p <;> simp only [Origin, here] at origin <;>
    grind [Point.Settles, Point.afterDispatch, Leaves]

/-- The points from which a run only ends: the fence was rejected, or it is leaving. -/
def Point.gaveUp : Point → Bool
  | .releaseFenced fence _ => fence = .executionFenceRejected
  | .auditFenceRejected _ _ | .releaseOnExit _ | .closed _ => true
  | _ => false

theorem gaveUp_resume {sdk : Sdk} {req : ExecutionRequest} {prior : Thread} {e : Event}
    (gone : prior.point.gaveUp = true) : (resume sdk req prior e).point.gaveUp = true := by
  have origin := resume_origin sdk req prior e
  generalize (Workflows.resume sdk req prior e).point = p at origin ⊢
  cases p <;> simp only [Origin] at origin <;> grind [Point.gaveUp, Leaves]

/-- The points behind the compensation. -/
def Point.compensated : Point → Bool
  | .auditCompensation _ _ | .auditWorkflowFailed _ | .releaseOnExit _ | .closed _ => true
  | _ => false

theorem compensated_resume {sdk : Sdk} {req : ExecutionRequest} {prior : Thread} {e : Event}
    (done : prior.point.compensated = true ∨ ∃ o, prior.point = .compensate o) :
    (resume sdk req prior e).point.compensated = true := by
  have origin := resume_origin sdk req prior e
  generalize (Workflows.resume sdk req prior e).point = p at origin ⊢
  cases p <;> simp only [Origin] at origin <;> grind [Point.compensated, Leaves]

/-- Once a run has scheduled its dispatch it never forgets. -/
theorem dispatching_resume {sdk : Sdk} {req : ExecutionRequest} {prior : Thread} {e : Event}
    (flag : prior.dispatching = true) : (resume sdk req prior e).dispatching = true := by
  have locals := resume_locals sdk req prior e
  by_cases here : (Workflows.resume sdk req prior e).point = .dispatchConfig
  · exact locals.dispatches here
  · rw [locals.dispatching here]
    exact flag

/-- How a run gets to settle an outcome: an answer to its dispatch step that is no fence
error, or a fence that may have committed and a release that failed. -/
theorem afterDispatch_origin {sdk : Sdk} {req : ExecutionRequest} {prior : Thread} {e : Event}
    (after : (resume sdk req prior e).point.afterDispatch = true) :
    prior.point.afterDispatch = true ∨
    (prior.point = .dispatchConfig ∧ ∀ err, e.reply = .failed err → fenceFailure err = none) ∨
    (∃ fence err, prior.point = .releaseFenced fence err ∧ fence ≠ .executionFenceRejected ∧
      ∃ err', e.reply = .failed err') := by
  have origin := resume_origin sdk req prior e
  have failed : e.reply.error? ≠ none → ∃ err', e.reply = .failed err' := by
    intro wrong
    cases said : e.reply with
    | failed err' => exact ⟨err', rfl⟩
    | _ => exact absurd (by rw [said]; rfl) wrong
  generalize (Workflows.resume sdk req prior e).point = p at origin after
  cases p <;> simp only [Point.afterDispatch, Bool.false_eq_true] at after <;>
    simp only [Origin] at origin <;> grind [Point.afterDispatch]

end SentryGate.Workflows
