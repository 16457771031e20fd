/-
# Workflows.Rejection -- is every rejected execution on record?

`reject` in `workflows/saga.go` writes a DENY decision record and a FAIL audit row, logs an
error of either write and returns the rejection.  Both stores validate what they are
given, and both fields they insist on are copied from the workflow's input.

* `rejection_unrecorded` -- a request with an empty proposal ID is rejected and leaves
  neither a record nor a row, although both stores work.
* `Recordable` -- steps that exclude this and what else can keep a write out: a write that
  fails or is given up, a clock at Go's zero time, and an ID that is already taken.
* `rejection_recorded` -- along such steps a rejected run ends with its reason, and has
  exactly one record and exactly one row.
-/
import SentryGate.Workflows.Fence
import SentryGate.Workflows.Authorized
import SentryGate.Workflows.Identifiers

namespace SentryGate.Workflows

open Theory.Text Theory.Bytes Theory.Machine Theory.Counting Contracts Decision Audit

set_option autoImplicit false

variable {α : Type} {w : Worker α} {G : System α → Label → Prop} {s s' : System α} {l : Label}

/-- The decision records of a run. -/
def System.recordsOf (s : System α) (x : Execution) : List DecisionRecord :=
  s.backend.store.records.filter (·.decisionID = workflowDecisionID x)

/-- The audit rows of a run. -/
def System.rowsOf (s : System α) (runID : GoString) : List AuditRecord :=
  s.backend.audits.filter (·.runID = runID)

/-! ## A rejection without a trace -/

/-- A request with no proposal ID, for a decision that does not exist. -/
def anonymousRequest : ExecutionRequest :=
  { demoRequest (ascii "n") with proposal := { demoProposal (ascii "n") with id := [] } }

/-- Attempt `i` is launched and runs in one action. -/
def attempted (i : Nat) : List Label := [.launch (ascii "r"), .exec i calm]

/-- The request is submitted to Temporal.  Each of the two writes is tried three times,
and the database fails none of them. -/
def anonymousRun : List Label :=
  [.start (ascii "r") (ascii "w") anonymousRequest ⟨1⟩] ++ round (ascii "r") 0 ++
  attempted 1 ++ attempted 2 ++ attempted 3 ++ [.deliver (ascii "r") (.attempt 3) ⟨1⟩] ++
  attempted 4 ++ attempted 5 ++ attempted 6 ++ [.deliver (ascii "r") (.attempt 6) ⟨1⟩]

/-- **A rejection that goes unrecorded**: the run ends with INGRESS_DECISION_INVALID for
INGRESS_DECISION_NOT_FOUND and leaves no decision record and no audit row. -/
theorem rejection_unrecorded :
    Reachable (worker plainSdk) (demo anonymousRun) ∧
    ((demo anonymousRun).runs (ascii "r")).map (fun run => (run.thread plainSdk).point) =
      some (.closed (applicationError .ingressDecisionInvalid
        (ascii "execution rejected: INGRESS_DECISION_NOT_FOUND") []
        [ascii "INGRESS_DECISION_NOT_FOUND"])) ∧
    (demo anonymousRun).recordsOf ⟨ascii "w", ascii "r"⟩ = [] ∧
    (demo anonymousRun).rowsOf (ascii "r") = [] := by
  exact ⟨demo_reachable _, by decide +kernel, by decide +kernel, by decide +kernel⟩

/-! ## Recordable steps -/

/-- The activity writes a record or a row. -/
def Activity.writesRecord : Activity → Bool
  | .recordDecision _ | .recordAuditTrail _ => true
  | _ => false

/-- The run waits for an activity that writes a record or a row. -/
def Run.recording (sdk : Sdk) (runID : GoString) (run : Run) : Bool :=
  match run.awaits sdk runID run.history.length with
  | .activity act _ => act.writesRecord
  | _ => false

/-- Steps that leave every rejection recordable.  Requests name their proposal, run IDs
are of one length and no other record is named like a workflow's; the clock is past Go's
zero time; the stores fail no write of a record or a row, and no run gives up waiting for
one. -/
def Recordable (w : Worker α) (n : Nat) (s : System α) : Label → Bool
  | .append _ rec => ¬ ascii "wf_" <+: rec.decisionID
  | .start runID _ req now => runID.length = n ∧ req.proposal.id ≠ [] ∧ now.isZero = false
  | .reset runID _ _ _ => runID.length = n
  | .exec i c =>
      match s.attempts[i]? with
      | some a => a.activity.writesRecord → c.fault = .absent
      | none => true
  | .deliver runID source now =>
      !now.isZero && (s.runs runID).all fun run => !run.recording w.sdk runID || source.isAttempt
  | _ => true

namespace Recordable

variable {n : Nat}

theorem started {runID workflowID : GoString} {req : ExecutionRequest} {now : Time}
    (fits : admits (Recordable w n) s (.start runID workflowID req now)) :
    runID.length = n ∧ req.proposal.id ≠ [] ∧ now.isZero = false := by
  simpa [admits, Recordable] using fits

theorem reset {runID base : GoString} {k : Nat} {canceled : Bool}
    (fits : admits (Recordable w n) s (.reset runID base k canceled)) : runID.length = n := by
  simpa [admits, Recordable] using fits

theorem apart : Apart n (admits (Recordable w n)) where
  foreign s ctx rec fits := by simpa [admits, Recordable] using fits
  started s runID workflowID req now fits := (Recordable.started fits).1
  reset s runID base k canceled fits := Recordable.reset fits

theorem calm {i : Nat} {c : Conditions} {a : Attempt}
    (fits : admits (Recordable w n) s (.exec i c)) (found : s.attempts[i]? = some a)
    (writes : a.activity.writesRecord = true) : c.fault = .absent := by
  simpa [admits, Recordable, found, writes] using fits

theorem clock {runID : GoString} {source : Source} {now : Time}
    (fits : admits (Recordable w n) s (.deliver runID source now)) : now.isZero = false := by
  simp only [admits, Recordable, Bool.and_eq_true, Bool.not_eq_true'] at fits
  exact fits.1

theorem answered {runID : GoString} {source : Source} {now : Time} {run : Run} {act : Activity}
    {opts : Options} (fits : admits (Recordable w n) s (.deliver runID source now))
    (known : s.runs runID = some run)
    (waits : run.awaits w.sdk runID run.history.length = .activity act opts)
    (writes : act.writesRecord = true) : ∃ i, source = .attempt i := by
  have answers : source.isAttempt = true := by
    simp only [admits, Recordable, Bool.and_eq_true, known, Option.all_some] at fits
    simpa [Run.recording, waits, writes] using fits.2
  cases source with
  | attempt i => exact ⟨i, rfl⟩
  | _ => cases answers

end Recordable

/-! ## What runs along recordable steps have -/

/-- `workflow.Now` has not shown Go's zero time to the run. -/
structure Run.Clocked (run : Run) : Prop where
  began : run.startedAt.isZero = false
  clock : ∀ e ∈ run.history, e.now.isZero = false

/-- The ID of the run has the common length, its request names a proposal, and its clock
never stood at Go's zero time. -/
structure Run.Fits (n : Nat) (runID : GoString) (run : Run) : Prop extends Run.Clocked run where
  sized : runID.length = n
  proposed : run.req.proposal.id ≠ []

theorem Reaches.fits {n : Nat} (reached : Reaches w (admits (Recordable w n)) s) :
    ∀ runID run, s.runs runID = some run → run.Fits n runID := by
  refine reached.induction (P := fun s => ∀ runID run, s.runs runID = some run →
    run.Fits n runID) ?_ ?_
  · intro policy target runID run known
    cases known
  intro s l s' _ fits admitted move runID run' known
  cases move.runStep known with
  | kept run run' before later same =>
      have prior := fits runID run before
      refine ⟨⟨?_, ?_⟩, prior.sized, ?_⟩
      · rw [later.startedAt]
        exact prior.began
      · rw [same]
        exact prior.clock
      · rw [later.req]
        exact prior.proposed
  | heard run source reply now label before said =>
      subst label
      have prior := fits runID run before
      refine ⟨⟨prior.began, ?_⟩, prior.sized, prior.proposed⟩
      intro e member
      rcases List.mem_append.mp member with old | new
      · exact prior.clock e old
      · rw [List.mem_singleton.mp new]
        exact Recordable.clock admitted
  | started workflowID req now fresh =>
      obtain rfl := move.started fresh known
      obtain ⟨sized, proposed, began⟩ := Recordable.started admitted
      exact ⟨⟨began, by simp [Run.started]⟩, sized, proposed⟩
  | reset base run k canceled label fresh found inside =>
      subst label
      have prior := fits base run found
      refine ⟨⟨prior.began, ?_⟩, Recordable.reset admitted, prior.proposed⟩
      intro e member
      exact prior.clock e (List.mem_of_mem_take member)

/-- The clock of a thread is that of its last answer. -/
theorem resume_now (sdk : Sdk) (req : ExecutionRequest) (prior : Thread) (e : Event) :
    (resume sdk req prior e).now = e.now ∨ (resume sdk req prior e).now = prior.now := by
  unfold resume resumeDispatch resumeReleaseFenced resumeReconcile resumeMarkFailed
    resumeCompensate Thread.settle Thread.exit
  simp only
  split <;> (repeat' split) <;> simp [Thread.goto, Thread.audit]

theorem Run.Clocked.now {run : Run} (clocked : run.Clocked) (sdk : Sdk) {k : Nat}
    (within : k ≤ run.history.length) : (run.threadAt sdk k).now.isZero = false := by
  refine Run.threadAt_induction (P := fun _ th => th.now.isZero = false) clocked.began ?_ within
  intro k e heard before
  rcases resume_now sdk run.req (run.threadAt sdk k) e with same | same <;> rw [same]
  · exact clocked.clock e (List.mem_of_getElem? heard)
  · exact before

/-! ## The stores accept what such runs write -/

theorem recordDecision_accepts {x : Execution} {rec : DecisionRecord} {body : Body} {r : Reply}
    {c : Conditions} {b b' : Backend α} (configured : w.store = true)
    (ran : perform w x (.recordDecision rec) body c b = some (b', .finished r))
    (calm : c.fault = .absent) (valid : rec.validate = true)
    (alone : ∀ rec' ∈ b.store.records, rec'.decisionID = rec.decisionID → rec' = rec) :
    r = .done := by
  have accepted := b.store.appendDecision_accepts valid alone
  cases body with
  | start =>
      simp only [perform, recordDecision, configured, Conditions.write, calm, accepted] at ran
      cases ran
      rfl
  | _ => cases ran

theorem recordAuditTrail_accepts {x : Execution} {rec : AuditRecord} {body : Body} {r : Reply}
    {c : Conditions} {b b' : Backend α} (configured : w.audit = true)
    (ran : perform w x (.recordAuditTrail rec) body c b = some (b', .finished r))
    (calm : c.fault = .absent) (identified : rec.recordID ≠ []) (proposed : rec.proposalID ≠ [])
    (phased : rec.phase.text ≠ [])
    (alone : ∀ row ∈ b.audits, row.recordID = rec.recordID → row = stamped rec c.now) :
    r = .done := by
  have accepted := appendAudit_accepts identified proposed phased alone
  cases body with
  | start =>
      simp only [perform, recordAuditTrail, configured, Conditions.write, calm, accepted] at ran
      cases ran
      rfl
  | _ => cases ran

section Stored

variable {n : Nat} {past : List (System α)}

/-- **Every DENY and every re-validation row is accepted**, along recordable steps. -/
theorem Visits.accepted (stores : w.store = true) (audits : w.audit = true)
    (hashes : ∀ p, w.sdk.sha256 (hashInput p) ≠ [])
    (visits : Visits w (admits (Recordable w n)) past s) :
    ∀ a ∈ s.attempts, ∀ r, a.body = .finished r →
      (∀ rec, a.activity = .recordDecision rec → rec.verdict = .deny → r = .done) ∧
      (∀ rec, a.activity = .recordAuditTrail rec → rec.phase = .named .revalidation →
        r = .done) := by
  refine finished_facts (F := fun _ _ _ act r =>
    (∀ rec, act = .recordDecision rec → rec.verdict = .deny → r = .done) ∧
    (∀ rec, act = .recordAuditTrail rec → rec.phase = .named .revalidation → r = .done))
    ?_ ?_ visits
  · intro past s l s' x act r _ _ _ accepted
    exact accepted
  · intro past s i c a run b' r prior fits found placed ran
    have reached := prior.reaches
    have proposed := (reached.fits _ _ placed.known).proposed
    have clock := (reached.fits _ _ placed.known).now w.sdk placed.within
    constructor
    · intro rec act deny
      have alone := reached.record_alone Recordable.apart (placed.awaited act)
      have calm := Recordable.calm fits found (by rw [act]; rfl)
      rw [act] at ran
      refine recordDecision_accepts stores ran calm ?_ alone
      obtain ⟨dec, -, rfl⟩ := (placed.awaited act).recordDecision
      have hashed : requestHash w.sdk.toRuntime run.req.proposal ≠ [] := hex_ne_nil (hashes _)
      have verdict : dec.verdict = .deny := deny
      simp [DecisionRecord.validate, decisionRecord, workflowDecisionID, proposed, hashed, clock,
        verdict, Open.text, Wire.text, ascii]
    · intro rec act phased
      have timed : rec.recordedAt.isZero = false := by
        obtain ⟨phase, verdict, detail, -, rfl⟩ := (placed.awaited act).recordAuditTrail
        exact clock
      have alone : ∀ row ∈ s.backend.audits, row.recordID = rec.recordID →
          row = stamped rec c.now := by
        intro row member same
        obtain ⟨now, rfl⟩ := reached.row_alone Recordable.apart (placed.awaited act) row member same
        rw [stamped_timed timed, stamped_timed timed]
      have calm := Recordable.calm fits found (by rw [act]; rfl)
      rw [act] at ran
      obtain ⟨phase, verdict, detail, -, rfl⟩ := (placed.awaited act).recordAuditTrail
      refine recordAuditTrail_accepts audits ran calm ?_ proposed ?_ alone
      · simp [newAuditRecord, ascii]
      · rw [phased]
        decide

/-- A run that has its answer to a DENY record has the record. -/
theorem Reaches.told_record (stores : w.store = true) (audits : w.audit = true)
    (hashes : ∀ p, w.sdk.sha256 (hashInput p) ≠ [])
    (reached : Reaches w (admits (Recordable w n)) s) :
    ∀ runID run k e, s.runs runID = some run → run.inherited ≤ k → run.history[k]? = some e →
      ∀ rec opts, run.awaits w.sdk runID k = .activity (.recordDecision rec) opts →
        rec.verdict = .deny → rec ∈ s.backend.store.records := by
  refine told_facts (Q := fun s runID run k _ => ∀ rec opts,
    run.awaits w.sdk runID k = .activity (.recordDecision rec) opts → rec.verdict = .deny →
      rec ∈ s.backend.store.records) ?_ ?_ reached
  · intro s l s' runID run run' k reply _ move later within stored rec opts waits deny
    rw [later.awaits w.sdk runID within] at waits
    exact move.records (stored rec opts waits deny)
  · intro s runID run source reply now prior fits known said rec opts waits deny
    obtain ⟨i, rfl⟩ := Recordable.answered fits known waits rfl
    obtain ⟨a, member, own, index, finished⟩ := answer_attempt said
    obtain ⟨-, act⟩ := prior.attempt_activity known member own index waits
    obtain ⟨past, visits⟩ := prior.visits
    obtain rfl := (visits.accepted stores audits hashes a member reply finished).1 rec act deny
    have lasting := visits.lasting a member _ finished
    rw [act] at lasting
    exact lasting rfl

/-- A run that has its answer to a re-validation row has the row. -/
theorem Reaches.told_row (stores : w.store = true) (audits : w.audit = true)
    (hashes : ∀ p, w.sdk.sha256 (hashInput p) ≠ [])
    (reached : Reaches w (admits (Recordable w n)) s) :
    ∀ runID run k e, s.runs runID = some run → run.inherited ≤ k → run.history[k]? = some e →
      ∀ rec opts, run.awaits w.sdk runID k = .activity (.recordAuditTrail rec) opts →
        rec.phase = .named .revalidation → ∃ stamp, stamped rec stamp ∈ s.backend.audits := by
  refine told_facts (Q := fun s runID run k _ => ∀ rec opts,
    run.awaits w.sdk runID k = .activity (.recordAuditTrail rec) opts →
      rec.phase = .named .revalidation → ∃ stamp, stamped rec stamp ∈ s.backend.audits) ?_ ?_ reached
  · intro s l s' runID run run' k reply _ move later within stored rec opts waits phased
    rw [later.awaits w.sdk runID within] at waits
    obtain ⟨stamp, row⟩ := stored rec opts waits phased
    exact ⟨stamp, move.audits row⟩
  · intro s runID run source reply now prior fits known said rec opts waits phased
    obtain ⟨i, rfl⟩ := Recordable.answered fits known waits rfl
    obtain ⟨a, member, own, index, finished⟩ := answer_attempt said
    obtain ⟨-, act⟩ := prior.attempt_activity known member own index waits
    obtain ⟨past, visits⟩ := prior.visits
    obtain rfl := (visits.accepted stores audits hashes a member reply finished).2 rec act phased
    have lasting := visits.lasting a member _ finished
    rw [act] at lasting
    exact lasting rfl

end Stored

/-! ## Rejected runs -/

/-- Answer number `k` rejects the execution for `reason`: the ingress verification found
it invalid, or the claim is held by another execution. -/
def Run.Rejected (sdk : Sdk) (runID : GoString) (run : Run) (k : Nat) (type : ErrorTypeName)
    (reason : ReasonCode) : Prop :=
  (∃ req opts v now, run.awaits sdk runID k = .activity (.verifyIngressDecision req) opts ∧
    run.history[k]? = some ⟨.verified v, now⟩ ∧ v.valid = false ∧ v.reason = some reason ∧
    type = .ingressDecisionInvalid) ∨
  (∃ req opts c now, run.awaits sdk runID k = .activity (.claimExecution req) opts ∧
    run.history[k]? = some ⟨.claimed c, now⟩ ∧ c.claimed = false ∧ c.reason = some reason ∧
    type = .executionClaimRejected)

/-- The error a rejected run ends with. -/
def rejectionError (type : ErrorTypeName) (reason : ReasonCode) : WorkflowResult :=
  applicationError type (ascii "execution rejected: " ++ reason.text) [] [reason.text]

section Rejected

variable {sdk : Sdk} {runID : GoString} {run : Run} {k : Nat} {type : ErrorTypeName}
  {reason : ReasonCode}

/-- A rejected run goes to its two writes; what lies behind it writes nothing. -/
theorem Run.Rejected.records (rejected : run.Rejected sdk runID k type reason) :
    ∃ detail, (run.threadAt sdk (k + 1)).point = .rejectRecord ⟨type, reason, detail⟩ ∧
      ∀ j ≤ k, auditRow sdk run.req (run.threadAt sdk j).point = none := by
  have early : ∀ {n : Nat}, n ≤ 2 → k ≤ run.history.length →
      (run.threadAt sdk k).point.place = some n →
      ∀ j ≤ k, auditRow sdk run.req (run.threadAt sdk j).point = none := by
    intro n first within placed j before
    obtain rfl : k = n := Run.threadAt_place within placed
    have place := Run.threadAt_chain within placed before
    have small : j ≤ 2 := before.trans first
    cases here : (run.threadAt sdk j).point <;> rw [here] at place <;>
      simp only [Point.place, Option.some.injEq, reduceCtorEq] at place <;> first | rfl | omega
  rcases rejected with ⟨req, opts, v, now, waits, heard, invalid, told, rfl⟩ |
    ⟨req, opts, c, now, waits, heard, refused, told, rfl⟩
  · obtain ⟨here, -⟩ := await_asks waits
    have within : k ≤ run.history.length := (List.getElem?_eq_some_iff.mp heard).1.le
    refine ⟨v.detail, ?_, early (n := 0) (by omega) within (by rw [here]; rfl)⟩
    rw [Run.threadAt_succ sdk run heard]
    simp [resume, here, Reply.getVerification, invalid, told, reasonField, Thread.goto]
  · obtain ⟨here, -⟩ := await_asks waits
    have within : k ≤ run.history.length := (List.getElem?_eq_some_iff.mp heard).1.le
    refine ⟨c.detail, ?_, early (n := 2) (by omega) within (by rw [here]; rfl)⟩
    rw [Run.threadAt_succ sdk run heard]
    simp [resume, here, Reply.getClaim, refused, told, reasonField]

theorem threadAt_closed {j : Nat} {result : WorkflowResult} (before : k ≤ j)
    (within : j ≤ run.history.length) (ended : (run.threadAt sdk k).point = .closed result) :
    (run.threadAt sdk j).point = .closed result := by
  refine Run.threadAt_stays (P := fun th => th.point = .closed result) ?_ ended before within
  intro th e here
  simp [resume, here]

/-- A rejected run writes its record, then its row, and has ended two answers later. -/
theorem Run.Rejected.ends (rejected : run.Rejected sdk runID k type reason)
    (answered : k + 3 ≤ run.history.length) :
    ∃ detail, (run.threadAt sdk (k + 1)).point = .rejectRecord ⟨type, reason, detail⟩ ∧
      (run.threadAt sdk (k + 2)).point = .rejectAudit ⟨type, reason, detail⟩ ∧
      ∀ j, k + 3 ≤ j → j ≤ run.history.length →
        (run.threadAt sdk j).point = .closed (rejectionError type reason) := by
  obtain ⟨detail, records, -⟩ := rejected.records
  have audits : (run.threadAt sdk (k + 2)).point = .rejectAudit ⟨type, reason, detail⟩ := by
    rw [Run.threadAt_succ sdk run (List.getElem?_eq_getElem (by omega : k + 1 < run.history.length))]
    simp [resume, records, Thread.audit]
  refine ⟨detail, records, audits, ?_⟩
  intro j after within
  refine threadAt_closed after within ?_
  -- a rejected run holds no claim, so nothing is released on the way out
  have flags := replay_flags sdk run.req run.startedAt (run.history.take (k + 2))
  change FlagsAt (run.threadAt sdk (k + 2)).mayHoldClaim _ (run.threadAt sdk (k + 2)).point at flags
  rw [audits] at flags
  rw [Run.threadAt_succ sdk run (List.getElem?_eq_getElem (by omega : k + 2 < run.history.length))]
  simp [resume, audits, Thread.exit, flags.1, Thread.goto, rejectionError]

end Rejected

/-- Every row of a rejected run is the one it wrote last. -/
theorem Reaches.rejected_rows {n : Nat} (reached : Reaches w (admits (Recordable w n)) s)
    {runID : GoString} {run : Run} {k : Nat} {type : ErrorTypeName} {reason : ReasonCode}
    (known : s.runs runID = some run) (rejected : run.Rejected w.sdk runID k type reason)
    (answered : k + 3 ≤ run.history.length) {opts : Options} {rec : AuditRecord}
    (waits : run.awaits w.sdk runID (k + 2) = .activity (.recordAuditTrail rec) opts)
    {row : AuditRecord} (member : row ∈ s.backend.audits) (own : row.runID = runID) :
    row = rec := by
  obtain ⟨detail, records, audited, ended⟩ := rejected.ends answered
  obtain ⟨-, -, silent⟩ := rejected.records
  obtain ⟨a, launched, rec', stamp, act, rfl⟩ := reached.row_source row member
  obtain ⟨run', placed⟩ := reached.placed a launched
  obtain ⟨phase, verdict, detail', row, rfl⟩ := (placed.awaited act).recordAuditTrail
  obtain rfl : a.caller.runID = runID := (stamped_fields _ stamp).1.symm.trans own
  cases known.symm.trans placed.known
  have index : a.index = k + 2 := by
    by_contra other
    have nothing : auditRow w.sdk run.req (run.threadAt w.sdk a.index).point = none := by
      have elsewhere : a.index ≤ k ∨ a.index = k + 1 ∨ k + 3 ≤ a.index := by omega
      rcases elsewhere with before | next | after
      · exact silent _ before
      · rw [next, records]
        rfl
      · rw [ended _ after placed.within]
        rfl
    rw [nothing] at row
    cases row
  obtain ⟨opts', waits'⟩ := placed.waits
  rw [index, act] at waits'
  cases waits.symm.trans waits'
  have clock := (reached.fits _ _ known).now w.sdk placed.within
  simp [stamped, newAuditRecord, clock]

/-- **A rejected execution is on record**, along recordable steps: once its two writes are
answered, the run has ended with the reason, and the stores hold exactly one DENY record
with that single reason and exactly one FAIL row of the run. -/
theorem rejection_recorded (stores : w.store = true) (audits : w.audit = true)
    (hashes : ∀ p, w.sdk.sha256 (hashInput p) ≠ []) {n : Nat}
    (reached : Reaches w (admits (Recordable w n)) s) {runID : GoString} {run : Run} {k : Nat}
    {type : ErrorTypeName} {reason : ReasonCode} (known : s.runs runID = some run)
    (own : run.inherited ≤ k + 1) (rejected : run.Rejected w.sdk runID k type reason)
    (answered : k + 3 ≤ run.history.length) :
    (run.thread w.sdk).point = .closed (rejectionError type reason) ∧
    (∃ rec, s.recordsOf ⟨run.workflowID, runID⟩ = [rec] ∧ rec.stage = .workflowRevalidation ∧
      rec.verdict = .deny ∧ rec.reasons = [reason]) ∧
    (∃ row, s.rowsOf runID = [row] ∧ row.phase = .named .revalidation ∧
      row.verdict = .named .fail) := by
  obtain ⟨detail, records, audited, ended⟩ := rejected.ends answered
  obtain ⟨-, -, silent⟩ := rejected.records
  refine ⟨ended _ answered (Nat.le_refl _), ?_, ?_⟩
  · have waits : run.awaits w.sdk runID (k + 1) = .activity (.recordDecision
        (decisionRecord w.sdk.toRuntime ⟨run.workflowID, runID⟩ run.req
          (Rejection.decision ⟨type, reason, detail⟩) (run.threadAt w.sdk (k + 1)).now)) bookCtx :=
      Run.awaits_eq _ records
    have stored := reached.told_record stores audits hashes runID run (k + 1) _ known own
      (List.getElem?_eq_getElem (by omega)) _ _ waits rfl
    refine ⟨_, filter_eq_singleton s.backend.store.records_nodup stored (by simp [decisionRecord]) ?_,
      rfl, rfl, rfl⟩
    intro rec member same
    have first := (s.backend.store.record?_eq_some_iff _ rec).mpr ⟨member, of_decide_eq_true same⟩
    have second := (s.backend.store.record?_eq_some_iff _ _).mpr ⟨stored, rfl⟩
    exact Option.some.inj (first.symm.trans second)
  · have waits : run.awaits w.sdk runID (k + 2) = .activity (.recordAuditTrail
        (newAuditRecord run.req.proposal.id run.workflowID runID (.named .revalidation)
          (.named .fail) run.req.proposal
          (Rejection.auditDetail w.sdk.toRuntime run.req ⟨type, reason, detail⟩)
          (run.threadAt w.sdk (k + 2)).now (run.threadAt w.sdk (k + 2)).auditSeq))
        (if (run.threadAt w.sdk (k + 2)).dispatching then claimCtx else bookCtx) :=
      Run.awaits_eq _ audited
    obtain ⟨stamp, stored⟩ := reached.told_row stores audits hashes runID run (k + 2) _ known
      (by omega) (List.getElem?_eq_getElem (by omega)) _ _ waits rfl
    have rows : ∀ row ∈ s.backend.audits, row.runID = runID → row = _ :=
      fun row member own => reached.rejected_rows known rejected answered waits member own
    rw [rows _ stored (stamped_fields _ stamp).1] at stored
    refine ⟨_, filter_eq_singleton (List.Nodup.of_map _ reached.rows_distinct) stored
      (by simp [newAuditRecord]) ?_, rfl, rfl⟩
    intro row member own
    exact rows row member (of_decide_eq_true own)

/-- A request with a name, for a decision that does not exist, to the end of its run. -/
def rejectedRun : List Label :=
  [.start (ascii "r") (ascii "w") (demoRequest (ascii "n")) ⟨1⟩] ++ round (ascii "r") 0 ++
  round (ascii "r") 1 ++ round (ascii "r") 2

theorem rejection_recorded_demo :
    ∃ rec row, (demo rejectedRun).recordsOf ⟨ascii "w", ascii "r"⟩ = [rec] ∧
      rec.verdict = .deny ∧ rec.reasons = [.named .ingressDecisionNotFound] ∧
      (demo rejectedRun).rowsOf (ascii "r") = [row] ∧ row.verdict = .named .fail := by
  have reached : Reaches (worker plainSdk) (admits (Recordable (worker plainSdk) 1))
      (demo rejectedRun) := ⟨_, _, runFrom_guarded (by decide +kernel)⟩
  have heard : ((demo rejectedRun).runs (ascii "r")).map (fun run =>
      (run.workflowID, run.inherited, run.history.length, run.history[0]?)) =
      some (ascii "w", 0, 3, some ⟨.verified ⟨false, some (.named .ingressDecisionNotFound),
        ascii "ingress decision not found"⟩, ⟨1⟩⟩) := by decide +kernel
  obtain ⟨run, known, here⟩ := Option.map_eq_some_iff.mp heard
  simp only [Prod.mk.injEq] at here
  obtain ⟨workflow, fresh, length, first⟩ := here
  have rejected : run.Rejected plainSdk (ascii "r") 0 .ingressDecisionInvalid
      (.named .ingressDecisionNotFound) := by
    refine Or.inl ⟨run.req, bookCtx, _, _, ?_, first, rfl, rfl, rfl⟩
    unfold Run.awaits
    rw [Run.threadAt_zero]
    rfl
  obtain ⟨-, ⟨rec, records, -, deny, reasons⟩, row, rows, -, fails⟩ :=
    rejection_recorded rfl rfl (fun p => by
      simp [worker, plainSdk, Runtime.plain, hashInput, requestHashDomain, ascii])
      reached known (by omega) rejected (by omega)
  rw [workflow] at records
  exact ⟨rec, row, records, deny, reasons, rows, fails⟩

end SentryGate.Workflows
