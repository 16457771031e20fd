/-
# Workflows.Course -- the saga as a sequential program, target by target

What a run is for, once everything that can go wrong around it does not: its target is
changed, or refuses, or stays silent, and the run ends accordingly.  The simulated targets
go five ways (`Course`); `Course.ending` is what a run against such a target comes to, with
the claim, the number of changes and the audit trail it leaves.

A run sees four things of the shared state (`View`): its claim, what the target has
recorded under its key, how often that was compensated, and its own audit rows.  `Hears` is
the saga as a sequential program over a view: what a run that nothing disturbs is answered at
each point, and what has become of its view by then.  `OnCourse` says which view belongs to
which point.

* `OnCourse.resume` -- an answer of the sequential program keeps the run on its course.
* `OnCourse.nearer` -- and, with a suitable clock, brings it nearer to its end.
-/
import SentryGate.Workflows.Threads
import SentryGate.Workflows.Simulated

namespace SentryGate.Workflows

open Theory.Text Contracts Decision Audit

set_option autoImplicit false

/-! ## The five kinds of target -/

/-- How a change of a simulated target goes. -/
inductive Course where
  | applied | partlyApplied | lostResponse | unreachable | partitioned
  deriving DecidableEq

/-- The kind of a target, by the IDs that `simulated.go` knows. -/
def courseOf (targetID : GoString) : Course :=
  if targetID = failingNodeID then .partlyApplied
  else if targetID = lostResponseNodeID then .lostResponse
  else if targetID = unreachableNodeID then .unreachable
  else if targetID = partitionedNodeID then .partitioned
  else .applied

/-- What a run leaves behind. -/
structure Ending where
  result : WorkflowResult
  claim : ClaimState
  mutations : Nat
  compensations : Nat
  trail : List (AuditPhase × AuditVerdict)

namespace Course

def fencedDetail : GoString :=
  ascii "simulated: target has no record of this key; " ++
    ascii "key fenced so it cannot take effect later"

/-- The first row of every trail. -/
def passed : AuditPhase × AuditVerdict := (.named .revalidation, .named .pass)

/-- **What a run comes to**, by the kind of its target. -/
def ending (key : GoString) : Course → Ending
  | .applied =>
      { result := none, claim := .completed, mutations := 1, compensations := 0,
        trail := [passed, (.named .dispatch, .named .pass), (.named .workflowComplete, .named .pass)] }
  | .partlyApplied =>
      { result := applicationError .dispatchFailed
          (ascii "dispatch partly applied and compensation ran: " ++
            ascii "simulated: change partly applied, then rejected by target") [] [],
        claim := .failed, mutations := 1, compensations := 1,
        trail := [passed, (.named .dispatch, .named .fail), (.named .compensation, .named .pass),
          (.named .workflowFailed, .named .fail)] }
  | .lostResponse =>
      { result := none, claim := .completed, mutations := 1, compensations := 0,
        trail := [passed, (.named .dispatch, .named .unknown), (.named .reconciliation, .named .pass),
          (.named .workflowComplete, .named .pass)] }
  | .unreachable =>
      { result := applicationError .dispatchFailed (ascii "dispatch failed: " ++ fencedDetail) [] [],
        claim := .failed, mutations := 0, compensations := 0,
        trail := [passed, (.named .dispatch, .named .unknown), (.named .reconciliation, .named .fail),
          (.named .workflowFailed, .named .fail)] }
  | .partitioned =>
      { result := applicationError .dispatchOutcomeUnknown
          (ascii "dispatch outcome unknown after reconciliation; " ++
            ascii "execution claim left in RECONCILIATION_REQUIRED") [] [key],
        claim := .reconciliationRequired, mutations := 0, compensations := 0,
        trail := [passed, (.named .dispatch, .named .unknown),
          (.named .reconciliation, .named .unknown)] }

/-! ## The way there -/

/-- The target's answer to the dispatch. -/
def told : Course → DispatchOutcome
  | .applied => SimulatedAdapter.appliedEffect
  | .partlyApplied => SimulatedAdapter.partlyAppliedEffect
  | .lostResponse => unknownOutcome (ascii "simulated: change applied but the response was lost")
  | .unreachable | .partitioned => unknownOutcome (ascii "simulated: no response from target")

/-- What the target has recorded after it. -/
def effect : Course → Option DispatchOutcome
  | .applied | .lostResponse => some SimulatedAdapter.appliedEffect
  | .partlyApplied => some SimulatedAdapter.partlyAppliedEffect
  | .unreachable | .partitioned => none

/-- The outcome the run goes by in the end: that of the dispatch, or of a reconciliation. -/
def learnt : Course → DispatchOutcome
  | .lostResponse => SimulatedAdapter.appliedEffect
  | .unreachable => { status := .failure, partiallyApplied := false, detail := fencedDetail }
  | .partitioned => unknownOutcome (ascii "simulated: target not reachable for status queries")
  | c => c.told

/-- What the target has recorded in the end. -/
def settled : Course → Option DispatchOutcome
  | .partitioned => none
  | c => some c.learnt

/-- The claim when the outcome is known. -/
def unsettled (c : Course) : ClaimState :=
  if c.told.status = .unknown then .reconciliationRequired else .executing

/-- The rows after the dispatch. -/
def dispatched (c : Course) : List (AuditPhase × AuditVerdict) :=
  [passed, (.named .dispatch, auditVerdict c.told)]

/-- The rows when the outcome is known. -/
def learned (c : Course) : List (AuditPhase × AuditVerdict) :=
  if c.told.status = .unknown then
    c.dispatched ++ [(.named .reconciliation, auditVerdict c.learnt)]
  else c.dispatched

/-- What is written after the outcome, before the last row. -/
def reverted : Course → List (AuditPhase × AuditVerdict)
  | .partlyApplied => [(.named .compensation, .named .pass)]
  | _ => []

/-- The failure a run reports. -/
def failure : Course → GoString
  | .partlyApplied =>
      ascii "dispatch partly applied and compensation ran: " ++ Course.partlyApplied.learnt.detail
  | c => ascii "dispatch failed: " ++ c.learnt.detail

end Course

/-! ## The sequential program -/

/-- What a run sees of the shared state. -/
structure View where
  claim : Option Holding
  effect : Option DispatchOutcome
  compensations : Nat
  trail : List (AuditPhase × AuditVerdict)

/-- A run that nothing disturbs hears `reply`, and its view is `after` by then. -/
def Course.Hears (c : Course) (sdk : Sdk) (x : Execution) (req : ExecutionRequest) (th : Thread)
    (before : View) (reply : Reply) (after : View) : Prop :=
  match auditRow sdk req th.point, transition th.point with
  | some (phase, verdict, _), _ =>
      reply = .done ∧ after = { before with trail := before.trail ++ [(.named phase, verdict)] }
  | none, some target =>
      reply = .done ∧ after = { before with claim := some ⟨claimOwner x th.token, target⟩ }
  | none, none =>
      match th.point with
      | .verifyIngress => (∃ v, reply = .verified v ∧ v.valid = true) ∧ after = before
      | .executionToken => (∃ text, reply = .text text ∧ text ≠ []) ∧ after = before
      | .claimExecution =>
          (∃ r, reply = .claimed r ∧ r.claimed = true) ∧
            after = { before with claim := some ⟨claimOwner x th.token, .claimed⟩ }
      | .evaluateExecution => (∃ dec, reply = .decided dec ∧ dec.verdict = .allow) ∧ after = before
      | .recordDecision _ | .reconcileSleep _ _ _ => reply = .done ∧ after = before
      | .dispatchConfig =>
          reply = .outcome c.told ∧ after = { before with
            claim := some ⟨claimOwner x th.token, .executing⟩, effect := c.effect }
      | .reconcile _ _ => reply = .outcome c.learnt ∧ after = { before with effect := c.settled }
      | .compensate _ =>
          reply = .done ∧ after = { before with compensations := before.compensations + 1 }
      | _ => False

/-- The view at each point of a run that is owner of its claim and began when the key had
been compensated `n` times. -/
def Course.At (c : Course) (owner : ClaimOwner) (key : GoString) (n : Nat) (v : View) : Point → Prop
  | .verifyIngress | .executionToken | .claimExecution => v = ⟨none, none, n, []⟩
  | .evaluateExecution => v = ⟨some ⟨owner, .claimed⟩, none, n, []⟩
  | .recordDecision dec | .auditPassed dec =>
      dec.verdict = .allow ∧ v = ⟨some ⟨owner, .claimed⟩, none, n, []⟩
  | .dispatchConfig => v = ⟨some ⟨owner, .claimed⟩, none, n, [passed]⟩
  | .auditDispatch o => o = c.told ∧ v = ⟨some ⟨owner, .executing⟩, c.effect, n, [passed]⟩
  | .requireReconciliation =>
      c.told.status = .unknown ∧ v = ⟨some ⟨owner, .executing⟩, c.effect, n, c.dispatched⟩
  | .reconcile _ wait =>
      c.told.status = .unknown ∧ 0 < wait ∧ wait ≤ reconcileMaxWait ∧
        v = ⟨some ⟨owner, .reconciliationRequired⟩, c.effect, n, c.dispatched⟩
  | .reconcileSleep _ wait _ =>
      c = .partitioned ∧ 0 < wait ∧ wait ≤ reconcileMaxWait ∧
        v = ⟨some ⟨owner, .reconciliationRequired⟩, c.effect, n, c.dispatched⟩
  | .auditReconciliation o =>
      c.told.status = .unknown ∧ o = c.learnt ∧
        v = ⟨some ⟨owner, .reconciliationRequired⟩, c.settled, n, c.dispatched⟩
  | .markFailed o =>
      c.learnt.status = .failure ∧ o = c.learnt ∧
        v = ⟨some ⟨owner, c.unsettled⟩, c.settled, n, c.learned⟩
  | .compensate o =>
      c = .partlyApplied ∧ o = c.learnt ∧ v = ⟨some ⟨owner, .failed⟩, c.settled, n, c.learned⟩
  | .auditCompensation err failure =>
      c = .partlyApplied ∧ err = none ∧ failure = c.failure ∧
        v = ⟨some ⟨owner, .failed⟩, c.settled, n + 1, c.learned⟩
  | .auditWorkflowFailed failure =>
      c.learnt.status = .failure ∧ failure = c.failure ∧
        v = ⟨some ⟨owner, .failed⟩, c.settled, n + (c.ending key).compensations,
          c.learned ++ c.reverted⟩
  | .markCompleted =>
      c.learnt.status = .success ∧ v = ⟨some ⟨owner, c.unsettled⟩, c.settled, n, c.learned⟩
  | .auditComplete =>
      c.learnt.status = .success ∧ v = ⟨some ⟨owner, .completed⟩, c.settled, n, c.learned⟩
  | .closed result =>
      result = (c.ending key).result ∧
        v = ⟨some ⟨owner, (c.ending key).claim⟩, c.settled, n + (c.ending key).compensations,
          (c.ending key).trail⟩
  | _ => False

/-- The run is where its course takes it, with this view. -/
structure OnCourse (c : Course) (x : Execution) (key : GoString) (n : Nat) (th : Thread) (v : View) :
    Prop where
  here : c.At (claimOwner x th.token) key n v th.point
  flags : th.Flags
  silent : th.auditErr = none
  token : th.point = .verifyIngress ∨ th.point = .executionToken ∨ th.token ≠ []

/-! ## The course is kept -/

section Course

variable {c : Course} {sdk : Sdk} {x : Execution} {req : ExecutionRequest} {key : GoString} {n : Nat}
  {th : Thread} {v v' : View} {r : Reply}

theorem Course.told_checked (c : Course) : c.told.checked = c.told := by
  cases c <;> rfl

theorem Course.learnt_checked (c : Course) : c.learnt.checked = c.learnt := by
  cases c <;> rfl

/-- A run that knows its outcome settles its claim. -/
theorem Course.At.settle {owner : ClaimOwner} (known : c.learnt.status ≠ .unknown)
    (here : v = ⟨some ⟨owner, c.unsettled⟩, c.settled, n, c.learned⟩) :
    c.At owner key n v (th.settle c.learnt).point := by
  subst here
  cases c with
  | partitioned => exact absurd rfl known
  | partlyApplied | unreachable => exact ⟨rfl, rfl, rfl⟩
  | applied | lostResponse => exact ⟨rfl, rfl⟩

theorem Course.At.resume (on : OnCourse c x (executionKey req.ingressDecisionID) n th v)
    (hears : c.Hears sdk x req th v r v') (now : Time) :
    c.At (claimOwner x (resume sdk req th ⟨r, now⟩).token) (executionKey req.ingressDecisionID) n v'
      (resume sdk req th ⟨r, now⟩).point := by
  obtain ⟨here, flags, silent, -⟩ := on
  rcases th with ⟨point, token, seq, holds, dispatching, auditErr, clock⟩
  unfold Thread.Flags at flags
  cases point with
  | verifyIngress =>
      obtain ⟨⟨u, rfl, valid⟩, rfl⟩ := hears
      simpa [resume, Reply.getVerification, valid, Thread.goto, Course.At] using here
  | executionToken =>
      obtain ⟨⟨text, rfl, -⟩, rfl⟩ := hears
      exact here
  | claimExecution =>
      obtain ⟨⟨u, rfl, claimed⟩, rfl⟩ := hears
      simp only [Course.At] at here
      subst here
      simp [resume, Reply.getClaim, claimed, Thread.goto, Course.At]
  | evaluateExecution =>
      obtain ⟨⟨dec, rfl, allowed⟩, rfl⟩ := hears
      exact ⟨allowed, here⟩
  | recordDecision dec =>
      obtain ⟨rfl, rfl⟩ := hears
      simpa [resume, Reply.error?, here.1, Thread.audit, Course.At] using here
  | auditPassed dec =>
      obtain ⟨rfl, rfl⟩ := hears
      obtain ⟨-, rfl⟩ := here
      rfl
  | dispatchConfig =>
      obtain ⟨rfl, rfl⟩ := hears
      simp only [Course.At] at here
      subst here
      exact ⟨c.told_checked, rfl⟩
  | auditDispatch o =>
      obtain ⟨rfl, rfl⟩ := hears
      obtain ⟨rfl, rfl⟩ := here
      cases c with
      | lostResponse | unreachable | partitioned => exact ⟨rfl, rfl⟩
      | applied => exact Course.At.settle (c := .applied) (by decide) rfl
      | partlyApplied => exact Course.At.settle (c := .partlyApplied) (by decide) rfl
  | requireReconciliation =>
      obtain ⟨rfl, rfl⟩ := hears
      obtain ⟨unknown, rfl⟩ := here
      exact ⟨unknown, by decide, by decide, rfl⟩
  | reconcile start wait =>
      obtain ⟨rfl, rfl⟩ := hears
      obtain ⟨unknown, pos, bounded, rfl⟩ := here
      simp only [Workflows.resume, Reply.getOutcome, resumeReconcile, reconcileOutcome, c.learnt_checked]
      split
      · exact ⟨unknown, rfl, rfl⟩
      · rename_i more
        have still : c.learnt.status = .unknown := by
          by_contra known
          exact more (Or.inl known)
        cases c with
        | partitioned => exact ⟨rfl, pos, bounded, rfl⟩
        | _ => cases still
  | reconcileSleep start wait last =>
      obtain ⟨rfl, rfl⟩ := hears
      obtain ⟨rfl, pos, bounded, rfl⟩ := here
      refine ⟨rfl, ?_, Int.min_le_right _ _, rfl⟩
      have positive : (0 : Int) < reconcileMaxWait := by decide
      exact lt_min (Int.mul_pos (by decide) pos) positive
  | auditReconciliation o =>
      obtain ⟨rfl, rfl⟩ := hears
      obtain ⟨unknown, rfl, rfl⟩ := here
      cases c with
      | applied | partlyApplied => cases unknown
      | lostResponse => exact Course.At.settle (c := .lostResponse) (by decide) rfl
      | unreachable => exact Course.At.settle (c := .unreachable) (by decide) rfl
      | partitioned =>
          have flag : dispatching = true := flags
          subst flag
          cases holds <;> exact ⟨rfl, rfl⟩
  | markFailed o =>
      obtain ⟨rfl, rfl⟩ := hears
      obtain ⟨failed, rfl, rfl⟩ := here
      cases c with
      | partlyApplied | unreachable => exact ⟨rfl, rfl, rfl⟩
      | _ => cases failed
  | compensate o =>
      obtain ⟨rfl, rfl⟩ := hears
      obtain ⟨rfl, rfl, rfl⟩ := here
      exact ⟨rfl, rfl, rfl, rfl⟩
  | auditCompensation err failure =>
      obtain ⟨rfl, rfl, rfl, rfl⟩ := here
      obtain ⟨rfl, rfl⟩ := hears
      exact ⟨rfl, rfl, rfl⟩
  | auditWorkflowFailed failure =>
      obtain ⟨rfl, rfl⟩ := hears
      obtain ⟨failed, rfl, rfl⟩ := here
      have flag : dispatching = true := flags
      subst flag
      cases c with
      | partlyApplied | unreachable => cases holds <;> exact ⟨rfl, rfl⟩
      | _ => cases failed
  | markCompleted =>
      obtain ⟨rfl, rfl⟩ := hears
      obtain ⟨success, rfl⟩ := here
      have silent : auditErr = none := silent
      subst silent
      exact ⟨success, rfl⟩
  | auditComplete =>
      obtain ⟨rfl, rfl⟩ := hears
      obtain ⟨success, rfl⟩ := here
      have flag : dispatching = true := flags
      subst flag
      cases c with
      | applied | lostResponse => cases holds <;> exact ⟨rfl, rfl⟩
      | _ => cases success
  | closed result => cases hears
  | _ => cases here

/-- A run that nothing disturbs hears of no error. -/
theorem Course.Hears.fine (hears : c.Hears sdk x req th v r v') : r.error? = none := by
  unfold Course.Hears at hears
  split at hears
  · rw [hears.1]; rfl
  · rw [hears.1]; rfl
  split at hears
  · obtain ⟨⟨u, rfl, -⟩, -⟩ := hears; rfl
  · obtain ⟨⟨text, rfl, -⟩, -⟩ := hears; rfl
  · obtain ⟨⟨u, rfl, -⟩, -⟩ := hears; rfl
  · obtain ⟨⟨dec, rfl, -⟩, -⟩ := hears; rfl
  · rw [hears.1]; rfl
  · rw [hears.1]; rfl
  · rw [hears.1]; rfl
  · rw [hears.1]; rfl
  · rw [hears.1]; rfl
  · cases hears

/-- **An answer keeps a run on its course.** -/
theorem OnCourse.resume (on : OnCourse c x (executionKey req.ingressDecisionID) n th v)
    (hears : c.Hears sdk x req th v r v') (now : Time) :
    OnCourse c x (executionKey req.ingressDecisionID) n (resume sdk req th ⟨r, now⟩) v' where
  here := Course.At.resume on hears now
  flags := on.flags.resume
  silent := by
    rw [(resume_locals sdk req th ⟨r, now⟩).auditErr, hears.fine, on.silent]
    simp
  token := by
    by_cases first : th.point = .verifyIngress
    · unfold Course.Hears at hears
      rw [first] at hears
      obtain ⟨⟨u, rfl, valid⟩, -⟩ := hears
      right; left
      simp [Workflows.resume, first, Reply.getVerification, valid, Thread.goto]
    by_cases second : th.point = .executionToken
    · unfold Course.Hears at hears
      rw [second] at hears
      obtain ⟨⟨text, rfl, some⟩, -⟩ := hears
      right; right
      simpa [Workflows.resume, second, Reply.getText] using some
    · have token := on.token.resolve_left first |>.resolve_left second
      have origin := resume_origin sdk req th ⟨r, now⟩
      right; right
      rw [(resume_locals sdk req th ⟨r, now⟩).token]
      · exact token
      · intro claims
        rw [claims] at origin
        exact second origin.1

/-! ## The way to the end -/

/-- How far a point is from the end, if no reconciliation sleeps. -/
def Point.distance : Point → Nat
  | .verifyIngress => 16
  | .executionToken => 15
  | .claimExecution => 14
  | .evaluateExecution => 13
  | .recordDecision _ => 12
  | .auditPassed _ => 11
  | .dispatchConfig => 10
  | .auditDispatch _ => 9
  | .requireReconciliation => 8
  | .reconcileSleep _ _ _ => 7
  | .reconcile _ _ => 6
  | .auditReconciliation _ => 5
  | .markFailed _ => 4
  | .compensate _ => 3
  | .auditCompensation _ _ | .markCompleted => 2
  | .auditWorkflowFailed _ | .auditComplete => 1
  | _ => 0

/-- A clock at which a reconciliation from `start` is out of its window. -/
theorem exists_beyond (start : Time) {wait : Int} (pos : 0 < wait)
    (bounded : wait ≤ reconcileMaxWait) :
    ∃ now : Time, now.isZero = false ∧ addDuration (now.sub start) wait > reconcileWindow := by
  -- the window after `start`, or a nanosecond later where that is Go's zero time
  have later : ∀ d : Int, 86400000000000 ≤ d → d ≤ 86400000000001 →
      addDuration (Time.sub ⟨start.ns + d⟩ start) wait > reconcileWindow := by
    intro d low high
    have longest : wait ≤ 1800000000000 := bounded
    have elapsed : Time.sub ⟨start.ns + d⟩ start = d := by
      show (max (-2 ^ 63) (min (2 ^ 63 - 1) (start.ns + d - start.ns)) : Int) = d
      omega
    rw [elapsed, addDuration, Int.bmod_eq_of_le (by omega) (by omega)]
    show (86400000000000 : Int) < d + wait
    omega
  by_cases zero : start.ns + 86400000000000 = 0
  · refine ⟨⟨start.ns + 86400000000001⟩, ?_, later _ (by omega) le_rfl⟩
    simp only [Time.isZero, beq_eq_false_iff_ne]
    omega
  · exact ⟨⟨start.ns + 86400000000000⟩, by simpa [Time.isZero] using zero,
      later _ le_rfl (by omega)⟩

theorem Course.At.distance_pos {owner : ClaimOwner} {p : Point} (here : c.At owner key n v p)
    (running : ∀ result, p ≠ .closed result) : 0 < p.distance := by
  cases p with
  | closed result => exact absurd rfl (running result)
  | rejectRecord | rejectAudit | auditDenied | releaseFenced | auditFenceRejected
  | auditFenceUnknown | releaseOnExit => cases here
  | _ => simp [Point.distance]

/-- A run that hears an answer has not ended. -/
theorem Course.Hears.running (hears : c.Hears sdk x req th v r v') (result : WorkflowResult) :
    th.point ≠ .closed result := by
  intro closed
  unfold Course.Hears at hears
  rw [closed] at hears
  exact hears

/-- Except from a reconciliation, the run comes nearer at any clock. -/
theorem OnCourse.distance_resume (on : OnCourse c x (executionKey req.ingressDecisionID) n th v)
    (hears : c.Hears sdk x req th v r v') (now : Time)
    (other : ∀ start wait, th.point ≠ .reconcile start wait) :
    (Workflows.resume sdk req th ⟨r, now⟩).point.distance < th.point.distance := by
  have next := (on.resume hears now).here
  have origin := resume_origin sdk req th ⟨r, now⟩
  cases point : (Workflows.resume sdk req th ⟨r, now⟩).point with
  | closed result => exact on.here.distance_pos hears.running
  | verifyIngress => rw [point] at origin; cases origin
  | executionToken | claimExecution | evaluateExecution | recordDecision | auditPassed
  | auditDispatch | compensate | auditComplete =>
      rw [point] at origin
      simp [origin.1, Point.distance]
  | dispatchConfig =>
      rw [point] at origin
      obtain ⟨⟨dec, here⟩, -⟩ := origin
      simp [here, Point.distance]
  | requireReconciliation =>
      rw [point] at origin
      rcases origin with ⟨o, here⟩ | ⟨o, here, -⟩
      · have prior := on.here
        rw [here] at prior
        cases prior
      · simp [here, Point.distance]
  | reconcile start wait =>
      rw [point] at origin
      rcases origin with here | ⟨wait', last, here, -⟩ <;> simp [here, Point.distance]
  | reconcileSleep start wait last =>
      rw [point] at origin
      exact absurd origin.1 (other start wait)
  | auditReconciliation o =>
      rw [point] at origin
      rcases origin with ⟨start, wait, here, -⟩ | ⟨start, wait, here⟩ <;> simp [here, Point.distance]
  | markFailed o =>
      rw [point] at origin
      rcases origin.1 with here | here <;> simp [here, Point.distance]
  | auditCompensation err failure =>
      rw [point] at origin
      obtain ⟨o, here⟩ := origin
      simp [here, Point.distance]
  | auditWorkflowFailed failure =>
      rw [point] at origin
      rcases origin with ⟨o, here, -⟩ | ⟨err, failure, here⟩ <;> simp [here, Point.distance]
  | markCompleted =>
      rw [point] at origin
      obtain ⟨o, here | here, -⟩ := origin <;> simp [here, Point.distance]
  | _ => rw [point] at next; cases next

/-- **Some clock brings a run on its course nearer to its end.** -/
theorem OnCourse.nearer (on : OnCourse c x (executionKey req.ingressDecisionID) n th v)
    (hears : c.Hears sdk x req th v r v') :
    ∃ now : Time, now.isZero = false ∧
      (Workflows.resume sdk req th ⟨r, now⟩).point.distance < th.point.distance := by
  by_cases reconciles : ∃ start wait, th.point = .reconcile start wait
  · obtain ⟨start, wait, here⟩ := reconciles
    have prior := on.here
    rw [here] at prior
    obtain ⟨-, pos, bounded, -⟩ := prior
    obtain ⟨now, running, beyond⟩ := exists_beyond start pos bounded
    refine ⟨now, running, ?_⟩
    simp [Workflows.resume, here, resumeReconcile, beyond, Thread.audit, Point.distance]
  · refine ⟨⟨1⟩, rfl, on.distance_resume hears ⟨1⟩ ?_⟩
    intro start wait here
    exact reconciles ⟨start, wait, here⟩

end Course

end SentryGate.Workflows
