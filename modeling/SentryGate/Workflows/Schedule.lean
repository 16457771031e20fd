/-
# Workflows.Schedule -- what a run schedules, whatever its activities answer

A run is its history, and its thread is the replay of it, so everything here is about
every run and every list of answers: outcomes with any status and flag, errors, timeouts,
cancelled waits, in any order and number.

* `Run.Schedules` -- the run asks for an activity after its first `k` answers.
* `Run.outcomeAt`, `Run.lastOutcome` -- the outcome, after `Checked`, that the run takes
  from an answer to its dispatch or to a reconciliation, and the last of them.
* `Run.EndedUnknown` -- the dispatch step ended UNKNOWN.
* `Learnt` -- at each point of the workflow, what the last outcome was and whether the
  compensation is behind the run.  `Learnt.resume` is the one case analysis.

`saga_schedules` puts the rules together.  An unknown outcome is not a failure: a run that
only ever hears UNKNOWN, an unrecognised status or an error asks for no compensation and
for no COMPLETED or FAILED claim.
-/
import SentryGate.Workflows.Compensation

namespace SentryGate.Workflows

open Theory.Text Contracts Decision

set_option autoImplicit false

variable {sdk : Sdk} {runID : GoString} {run : Run}

/-- After its first `k` answers the run schedules this activity. -/
def Run.Schedules (sdk : Sdk) (runID : GoString) (run : Run) (k : Nat) (act : Activity) : Prop :=
  k ≤ run.history.length ∧ ∃ opts, run.awaits sdk runID k = .activity act opts

/-! ## Outcomes -/

/-- The outcome, after `Checked`, that the workflow takes from an answer. -/
def outcomeOf (sdk : Sdk) : Await → Reply → Option DispatchOutcome
  | .activity (.dispatchConfig _) _, r => some (dispatchOutcome sdk r.getOutcome)
  | .activity (.reconcileDispatch _) _, r => some (reconcileOutcome sdk r.getOutcome)
  | _, _ => none

/-- The outcome the run takes from its answer number `k`. -/
def Run.outcomeAt (sdk : Sdk) (runID : GoString) (run : Run) (k : Nat) : Option DispatchOutcome :=
  (run.history[k]?).bind fun e => outcomeOf sdk (run.awaits sdk runID k) e.reply

/-- The last outcome among the first `k` answers. -/
def Run.lastOutcome (sdk : Sdk) (runID : GoString) (run : Run) : Nat → Option DispatchOutcome
  | 0 => none
  | k + 1 => (run.outcomeAt sdk runID k).or (run.lastOutcome sdk runID k)

/-- The dispatch step, answered by answer number `k`, ended UNKNOWN: with an unknown
outcome, or with a fence that may have committed and a release that failed. -/
def Run.EndedUnknown (sdk : Sdk) (run : Run) (k : Nat) : Prop :=
  ∃ e, run.history[k]? = some e ∧
    (((∀ err, e.reply = .failed err → fenceFailure err = none) ∧
        (dispatchOutcome sdk e.reply.getOutcome).status = .unknown) ∨
      (∃ err, e.reply = .failed err ∧ fenceFailure err = some .executionFenceUnknown ∧
        ∃ e', run.history[k + 1]? = some e' ∧ e'.reply.error? ≠ none))

/-- `outcomeOf` by the point of the thread. -/
def Point.hears (sdk : Sdk) (r : Reply) : Point → Option DispatchOutcome
  | .dispatchConfig => some (dispatchOutcome sdk r.getOutcome)
  | .reconcile _ _ => some (reconcileOutcome sdk r.getOutcome)
  | _ => none

theorem outcomeOf_await (sdk : Sdk) (x : Execution) (req : ExecutionRequest) (th : Thread)
    (r : Reply) : outcomeOf sdk (await sdk x req th) r = th.point.hears sdk r := by
  unfold await
  cases here : th.point with
  | auditCompensation err failure => cases err <;> rfl
  | _ => rfl

theorem Run.outcomeAt_eq {k : Nat} {e : Event} (heard : run.history[k]? = some e) :
    run.outcomeAt sdk runID k = (run.threadAt sdk k).point.hears sdk e.reply := by
  unfold Run.outcomeAt Run.awaits
  rw [heard, Option.bind_some, outcomeOf_await]

/-- The last outcome is one of the outcomes. -/
theorem Run.lastOutcome_mem {k : Nat} {o : DispatchOutcome}
    (last : run.lastOutcome sdk runID k = some o) : ∃ j < k, run.outcomeAt sdk runID j = some o := by
  induction k with
  | zero => cases last
  | succ k ih =>
      rcases Option.or_eq_some_iff.mp last with here | ⟨-, before⟩
      · exact ⟨k, Nat.lt_succ_self k, here⟩
      · obtain ⟨j, earlier, there⟩ := ih before
        exact ⟨j, Nat.lt_succ_of_lt earlier, there⟩

/-- A confirmed outcome was reported: it is an answer, checked. -/
theorem Run.outcomeAt_confirmed {k : Nat} {o : DispatchOutcome}
    (taken : run.outcomeAt sdk runID k = some o) (certain : o.status ≠ .unknown) :
    ∃ e reported, run.history[k]? = some e ∧ e.reply = .outcome reported ∧ reported.checked = o ∧
      ((∃ f, run.Schedules sdk runID k (.dispatchConfig f)) ∨
        ∃ d, run.Schedules sdk runID k (.reconcileDispatch d)) := by
  obtain ⟨e, heard, here⟩ := Option.bind_eq_some_iff.mp taken
  have within : k ≤ run.history.length := (List.getElem?_eq_some_iff.mp heard).1.le
  unfold outcomeOf at here
  split at here
  · rename_i f opts waits
    cases read : e.reply.getOutcome with
    | error err =>
        rw [read] at here
        cases here
        exact absurd rfl certain
    | ok reported =>
        rw [read] at here
        exact ⟨e, reported, heard, Reply.getOutcome_ok read, Option.some.inj here,
          Or.inl ⟨f, within, opts, waits⟩⟩
  · rename_i d opts waits
    cases read : e.reply.getOutcome with
    | error err =>
        rw [read] at here
        cases here
        exact absurd rfl certain
    | ok reported =>
        rw [read] at here
        exact ⟨e, reported, heard, Reply.getOutcome_ok read, Option.some.inj here,
          Or.inr ⟨d, within, opts, waits⟩⟩
  · cases here

/-! ## What a run has learnt -/

/-- The last outcome, and whether the compensation is behind the run, at each point. -/
def Learnt (last : Option DispatchOutcome) (compensated : Prop) : Point → Prop
  | .auditDispatch o | .auditReconciliation o => last = some o ∧ ¬ compensated
  | .reconcileSleep _ _ o => last = some o ∧ o.status = .unknown ∧ ¬ compensated
  | .markFailed o => last = some o ∧ o.status = .failure ∧ ¬ compensated
  | .compensate o => last = some o ∧ o.status = .failure ∧ o.partiallyApplied = true
  | .markCompleted =>
      ∃ o, last = some o ∧ o.status ≠ .unknown ∧ o.status ≠ .failure ∧ ¬ compensated
  | .auditCompensation _ _ => last.any (·.partialFailure) = true ∧ compensated
  | .auditWorkflowFailed _ | .releaseOnExit _ | .closed _ =>
      compensated ↔ last.any (·.partialFailure) = true
  | _ => last.any (·.partialFailure) = false ∧ ¬ compensated

theorem partialFailure_eq_false {o : DispatchOutcome} (known : o.status ≠ .failure) :
    o.partialFailure = false := by
  simp [DispatchOutcome.partialFailure, known]

/-- A run that ends has compensated exactly if its last outcome asks for it. -/
theorem Learnt.leaves {last : Option DispatchOutcome} {compensated : Prop} {p : Point}
    {auditErr : Option GoString} {r : Reply} {result : WorkflowResult}
    (learnt : Learnt last compensated p) (leaves : Leaves auditErr r result p) :
    compensated ↔ last.any (·.partialFailure) = true := by
  have neither : last.any (·.partialFailure) = false → ¬ compensated →
      (compensated ↔ last.any (·.partialFailure) = true) := by
    intro clean before
    simp [clean, before]
  cases p with
  | auditReconciliation o =>
      obtain ⟨rfl, before⟩ := learnt
      refine neither (partialFailure_eq_false ?_) before
      rw [leaves.1]
      simp
  | markCompleted =>
      obtain ⟨o, rfl, -, succeeds, before⟩ := learnt
      exact neither (partialFailure_eq_false succeeds) before
  | auditWorkflowFailed failure => exact learnt
  | _ => first | exact neither learnt.1 learnt.2 | cases leaves

/-- **One answer**: what the run takes from it is the last outcome from then on. -/
theorem Learnt.resume {req : ExecutionRequest} {prior : Thread} {e : Event}
    {last : Option DispatchOutcome} {compensated : Prop}
    (learnt : Learnt last compensated prior.point) :
    Learnt ((prior.point.hears sdk e.reply).or last)
      (compensated ∨ ∃ o, prior.point = .compensate o) (resume sdk req prior e).point := by
  have origin := resume_origin sdk req prior e
  generalize (Workflows.resume sdk req prior e).point = p at origin ⊢
  generalize point : prior.point = before at learnt origin ⊢
  have ends : ∀ result, Leaves prior.auditErr e.reply result before →
      (compensated ∨ (∃ o, before = .compensate o) ↔
        ((before.hears sdk e.reply).or last).any (·.partialFailure) = true) := by
    intro result leaves
    have same := learnt.leaves leaves
    cases before <;> first | simpa [Point.hears] using same | cases leaves
  cases p with
  | verifyIngress => cases origin
  | releaseFenced fence err =>
      -- a fence error is no outcome, so the last one is unknown
      simp only [Origin, point] at origin
      obtain ⟨rfl, failed, -⟩ := origin
      rw [failed]
      exact ⟨rfl, by simpa using learnt.2⟩
  | _ =>
      simp only [Origin, point] at origin
      grind [Learnt, Point.hears, DispatchOutcome.partialFailure]

/-- What a run has learnt at each of its waits. -/
theorem Run.learnt (sdk : Sdk) (runID : GoString) (run : Run) {k : Nat}
    (within : k ≤ run.history.length) :
    Learnt (run.lastOutcome sdk runID k)
      (∃ j < k, ∃ o, (run.threadAt sdk j).point = .compensate o) (run.threadAt sdk k).point := by
  refine Run.threadAt_induction (P := fun k th => Learnt (run.lastOutcome sdk runID k)
    (∃ j < k, ∃ o, (run.threadAt sdk j).point = .compensate o) th.point) ?_ ?_ within
  · exact ⟨rfl, by simp⟩
  · intro k e heard learnt
    have taken : run.outcomeAt sdk runID k = (run.threadAt sdk k).point.hears sdk e.reply :=
      Run.outcomeAt_eq heard
    have grown : (∃ j < k + 1, ∃ o, (run.threadAt sdk j).point = .compensate o) ↔
        (∃ j < k, ∃ o, (run.threadAt sdk j).point = .compensate o) ∨
          ∃ o, (run.threadAt sdk k).point = .compensate o := by
      simp only [Nat.lt_succ_iff_lt_or_eq, or_and_right, exists_or, exists_eq_left]
    rw [grown, Run.lastOutcome, taken]
    exact learnt.resume

/-! ## How the dispatch step ended -/

/-- At the points between the dispatch step and the end of the reconciliation: the
dispatch step is behind the run, and what its answer was. -/
def Ended (sdk : Sdk) (run : Run) : Point → Prop
  | .auditDispatch o =>
      (run.threadAt sdk 6).point = .dispatchConfig ∧
      ∃ e, run.history[6]? = some e ∧ o = dispatchOutcome sdk e.reply.getOutcome ∧
        ∀ err, e.reply = .failed err → fenceFailure err = none
  | .releaseFenced fence err =>
      (run.threadAt sdk 6).point = .dispatchConfig ∧
      (∃ now, run.history[6]? = some ⟨.failed err, now⟩) ∧ fenceFailure err = some fence
  | .auditFenceUnknown _ | .requireReconciliation | .reconcile _ _ | .reconcileSleep _ _ _ =>
      (run.threadAt sdk 6).point = .dispatchConfig ∧ run.EndedUnknown sdk 6
  | _ => True

theorem fenceFailure_unknown {err : ActivityError} {fence : ErrorTypeName}
    (fenced : fenceFailure err = some fence) (unrejected : fence ≠ .executionFenceRejected) :
    fence = .executionFenceUnknown := by
  unfold fenceFailure at fenced
  split at fenced <;> cases fenced
  · exact absurd rfl unrejected
  · rfl

theorem Run.ended (sdk : Sdk) (run : Run) {k : Nat} (within : k ≤ run.history.length) :
    Ended sdk run (run.threadAt sdk k).point := by
  refine Run.threadAt_induction (P := fun _ th => Ended sdk run th.point) trivial ?_ within
  intro k e heard ended
  have inside : k ≤ run.history.length := (List.getElem?_eq_some_iff.mp heard).1.le
  have placed : ∀ {n : Nat}, (run.threadAt sdk k).point.place = some n → k = n :=
    fun place => Run.threadAt_place inside place
  have origin := resume_origin sdk run.req (run.threadAt sdk k) e
  generalize (resume sdk run.req (run.threadAt sdk k) e).point = p at origin ⊢
  cases p with
  | auditDispatch o =>
      obtain ⟨here, rfl, unfenced⟩ := origin
      obtain rfl := placed (by rw [here]; rfl)
      exact ⟨here, e, heard, rfl, unfenced⟩
  | releaseFenced fence err =>
      obtain ⟨here, failed, fenced⟩ := origin
      obtain rfl := placed (by rw [here]; rfl)
      exact ⟨here, ⟨e.now, by rw [heard, ← failed]⟩, fenced⟩
  | auditFenceUnknown o =>
      obtain ⟨fence, err, here, failed, unrejected, -⟩ := origin
      obtain rfl := placed (by rw [here]; rfl)
      rw [here] at ended
      obtain ⟨dispatches, ⟨now, dispatched⟩, fenced⟩ := ended
      rw [fenceFailure_unknown fenced unrejected] at fenced
      exact ⟨dispatches, _, dispatched, Or.inr ⟨err, rfl, fenced, e, heard, failed⟩⟩
  | requireReconciliation =>
      rcases origin with ⟨o, here⟩ | ⟨o, here, unknown⟩
      · rw [here] at ended
        exact ended
      · rw [here] at ended
        obtain ⟨dispatches, e', dispatched, rfl, unfenced⟩ := ended
        exact ⟨dispatches, e', dispatched, Or.inl ⟨unfenced, unknown⟩⟩
  | reconcile start wait =>
      rcases origin with here | ⟨wait', last, here, -⟩ <;> rw [here] at ended <;> exact ended
  | reconcileSleep start wait last =>
      rw [origin.1] at ended
      exact ended
  | _ => trivial

/-! ## The rules -/

section Asked

variable {k : Nat}

theorem Run.Schedules.dispatch {f : FencedDispatch}
    (asked : run.Schedules sdk runID k (.dispatchConfig f)) :
    k = 6 ∧ (run.threadAt sdk 6).point = .dispatchConfig ∧ f.dispatch = dispatchRequest run.req := by
  obtain ⟨within, opts, waits⟩ := asked
  obtain ⟨here, rfl, -⟩ := await_asks waits
  obtain rfl : k = 6 := Run.threadAt_place within (by rw [here]; rfl)
  exact ⟨rfl, here, rfl⟩

theorem Run.Schedules.compensation {d : DispatchRequest}
    (asked : run.Schedules sdk runID k (.revertStateCompensation d)) :
    ∃ o, (run.threadAt sdk k).point = .compensate o := by
  obtain ⟨-, opts, waits⟩ := asked
  exact (await_asks waits).1

theorem Run.compensate_schedules {o : DispatchOutcome} (within : k ≤ run.history.length)
    (here : (run.threadAt sdk k).point = .compensate o) :
    run.Schedules sdk runID k (.revertStateCompensation (dispatchRequest run.req)) := by
  refine ⟨within, compCtx, ?_⟩
  exact Run.awaits_eq _ here

/-- A run that asks to reconcile has scheduled its dispatch, for the same request, and the
dispatch step ended UNKNOWN. -/
theorem Run.Schedules.reconciles {d : DispatchRequest}
    (asked : run.Schedules sdk runID k (.reconcileDispatch d)) :
    6 < k ∧ run.EndedUnknown sdk 6 ∧
      ∃ f, run.Schedules sdk runID 6 (.dispatchConfig f) ∧ f.dispatch = d := by
  obtain ⟨within, opts, waits⟩ := asked
  obtain ⟨⟨start, wait, here⟩, rfl⟩ := await_asks waits
  have late : 7 ≤ k := Run.threadAt_afterDispatch within (by rw [here]; rfl)
  have ended := run.ended sdk within
  rw [here] at ended
  obtain ⟨dispatches, unknown⟩ := ended
  refine ⟨late, unknown, fencedDispatch run.req (run.threadAt sdk 6).token, ?_, rfl⟩
  refine ⟨by omega, activityOpts, ?_⟩
  exact Run.awaits_eq _ dispatches

/-- A release that follows the dispatch is the answer to a fence error. -/
theorem Run.Schedules.fenced {t : ClaimTransition}
    (asked : run.Schedules sdk runID k (.advanceExecutionClaim t)) (release : t.toState = .released)
    (dispatches : (run.threadAt sdk 6).point = .dispatchConfig) (after : 6 < k) :
    ∃ err now fence, run.history[6]? = some ⟨.failed err, now⟩ ∧ fenceFailure err = some fence := by
  obtain ⟨within, opts, waits⟩ := asked
  obtain ⟨change, -, -⟩ := await_asks waits
  rw [release] at change
  cases here : (run.threadAt sdk k).point with
  | releaseFenced fence err =>
      have ended := run.ended sdk within
      rw [here] at ended
      obtain ⟨-, ⟨now, heard⟩, fenced⟩ := ended
      exact ⟨err, now, fence, heard, fenced⟩
  | releaseOnExit result =>
      -- the deferred release is skipped once the run is dispatching
      exfalso
      have flagged := replay_flags sdk run.req run.startedAt (run.history.take 6)
      change FlagsAt _ (run.threadAt sdk 6).dispatching (run.threadAt sdk 6).point at flagged
      rw [dispatches] at flagged
      have still := Run.threadAt_stays (P := fun th => th.dispatching = true)
        (fun _ _ flag => dispatching_resume flag) flagged after.le within
      have exiting := replay_flags sdk run.req run.startedAt (run.history.take k)
      change FlagsAt _ (run.threadAt sdk k).dispatching (run.threadAt sdk k).point at exiting
      rw [here, still] at exiting
      cases exiting.2
  | _ =>
      rw [here] at change
      simp [transition] at change

/-- A run at one of these points has a confirmed outcome. -/
theorem Run.Schedules.confirmed {act : Activity} (asked : run.Schedules sdk runID k act)
    (settles : (∃ d, act = .revertStateCompensation d) ∨
      ∃ t, act = .advanceExecutionClaim t ∧ (t.toState = .completed ∨ t.toState = .failed)) :
    ∃ o, run.lastOutcome sdk runID k = some o ∧ o.status ≠ .unknown := by
  obtain ⟨within, opts, waits⟩ := asked
  have learnt := run.learnt sdk runID within
  rcases settles with ⟨d, rfl⟩ | ⟨t, rfl, target⟩
  · obtain ⟨⟨o, here⟩, -, -⟩ := await_asks waits
    rw [here] at learnt
    exact ⟨o, learnt.1, by rw [learnt.2.1]; simp⟩
  · obtain ⟨change, -, -⟩ := await_asks waits
    cases here : (run.threadAt sdk k).point with
    | markFailed o =>
        rw [here] at learnt
        exact ⟨o, learnt.1, by rw [learnt.2.1]; simp⟩
    | markCompleted =>
        rw [here] at learnt
        obtain ⟨o, last, certain, -⟩ := learnt
        exact ⟨o, last, certain⟩
    | _ =>
        rw [here] at change
        rcases target with target | target <;> rw [target] at change <;> simp [transition] at change

/-- A confirmed outcome is audited next. -/
theorem resume_confirmed {req : ExecutionRequest} {prior : Thread} {e : Event}
    {o : DispatchOutcome} (taken : prior.point.hears sdk e.reply = some o)
    (certain : o.status ≠ .unknown) :
    (resume sdk req prior e).point = .auditDispatch o ∨
      (resume sdk req prior e).point = .auditReconciliation o := by
  cases here : prior.point with
  | dispatchConfig =>
      rw [here] at taken
      obtain rfl := Option.some.inj taken
      simp only [resume, here, resumeDispatch]
      cases read : e.reply.getOutcome with
      | ok reported => exact Or.inl rfl
      | error err =>
          rw [read] at certain
          exact absurd rfl certain
  | reconcile start wait =>
      rw [here] at taken
      obtain rfl := Option.some.inj taken
      simp only [resume, here, resumeReconcile]
      rw [if_pos (Or.inl certain)]
      exact Or.inr rfl
  | _ =>
      rw [here] at taken
      cases taken

/-- A partial FAILURE is compensated three answers later: the outcome is audited, the
claim marked FAILED, and the compensation scheduled. -/
theorem Run.partial_compensates {j : Nat} {o : DispatchOutcome}
    (taken : run.outcomeAt sdk runID j = some o) (failure : o.status = .failure)
    (applied : o.partiallyApplied = true) (within : j + 3 ≤ run.history.length) :
    (run.threadAt sdk (j + 3)).point = .compensate o := by
  have known : o.status ≠ .unknown := by rw [failure]; simp
  have hears : ∀ i, i < run.history.length → ∃ e, run.history[i]? = some e :=
    fun i inside => ⟨_, List.getElem?_eq_getElem inside⟩
  obtain ⟨e₀, heard₀⟩ := hears j (by omega)
  obtain ⟨e₁, heard₁⟩ := hears (j + 1) (by omega)
  obtain ⟨e₂, heard₂⟩ := hears (j + 2) (by omega)
  rw [Run.outcomeAt_eq heard₀] at taken
  have audits : (run.threadAt sdk (j + 1)).point = .auditDispatch o ∨
      (run.threadAt sdk (j + 1)).point = .auditReconciliation o := by
    rw [Run.threadAt_succ sdk run heard₀]
    exact resume_confirmed taken known
  have marks : (run.threadAt sdk (j + 2)).point = .markFailed o := by
    rw [Run.threadAt_succ sdk run heard₁]
    rcases audits with here | here <;> simp [resume, here, Thread.settle, failure, Thread.goto]
  rw [Run.threadAt_succ sdk run heard₂]
  simp [resume, marks, resumeMarkFailed, applied, Thread.goto]

end Asked

/-- The run has returned. -/
def Run.Returned (sdk : Sdk) (run : Run) : Prop := ∃ result, (run.thread sdk).point = .closed result

/-- No answer to the dispatch or to a reconciliation reported SUCCESS or FAILURE: each was
UNKNOWN, unrecognised, or an error. -/
def Run.OnlyUnknown (sdk : Sdk) (runID : GoString) (run : Run) : Prop :=
  ∀ k e reported, run.history[k]? = some e → e.reply = .outcome reported →
    ((∃ f, run.Schedules sdk runID k (.dispatchConfig f)) ∨
      ∃ d, run.Schedules sdk runID k (.reconcileDispatch d)) →
    reported.status ≠ .success ∧ reported.status ≠ .failure

/-- What a run may schedule from its dispatch onwards. -/
structure Disciplined (sdk : Sdk) (runID : GoString) (run : Run) : Prop where
  /-- DispatchConfig is scheduled at most once. -/
  dispatches_once : ∀ j k f g, run.Schedules sdk runID j (.dispatchConfig f) →
    run.Schedules sdk runID k (.dispatchConfig g) → j = k
  /-- ReconcileDispatch follows a dispatch step that ended UNKNOWN, and is about the same
  idempotency key and proposal. -/
  reconciles : ∀ k d, run.Schedules sdk runID k (.reconcileDispatch d) →
    ∃ j < k, ∃ f, run.Schedules sdk runID j (.dispatchConfig f) ∧ f.dispatch = d ∧
      run.EndedUnknown sdk j
  /-- A release that follows the dispatch answers one of the two fence errors. -/
  releases : ∀ j k f t, run.Schedules sdk runID j (.dispatchConfig f) → j < k →
    run.Schedules sdk runID k (.advanceExecutionClaim t) → t.toState = .released →
    ∃ err now fence, run.history[j]? = some ⟨.failed err, now⟩ ∧ fenceFailure err = some fence
  /-- RevertStateCompensation is scheduled at most once. -/
  compensates_once : ∀ j k d d', run.Schedules sdk runID j (.revertStateCompensation d) →
    run.Schedules sdk runID k (.revertStateCompensation d') → j = k
  /-- It is scheduled only if the last outcome is a partly applied FAILURE. -/
  compensates : ∀ k d, run.Schedules sdk runID k (.revertStateCompensation d) →
    ∃ o, run.lastOutcome sdk runID k = some o ∧ o.status = .failure ∧ o.partiallyApplied = true
  /-- Such an outcome is followed by it three answers later. -/
  compensates_next : ∀ j o, run.outcomeAt sdk runID j = some o → o.status = .failure →
    o.partiallyApplied = true → j + 3 ≤ run.history.length →
    ∃ d, run.Schedules sdk runID (j + 3) (.revertStateCompensation d)
  /-- So a run that has returned scheduled it exactly if that was its last outcome. -/
  compensates_iff : run.Returned sdk →
    ((∃ k d, run.Schedules sdk runID k (.revertStateCompensation d)) ↔
      ∃ o, run.lastOutcome sdk runID run.history.length = some o ∧ o.status = .failure ∧
        o.partiallyApplied = true)
  /-- A run that hears of no SUCCESS and no FAILURE compensates nothing and marks its claim
  neither COMPLETED nor FAILED. -/
  unknown : run.OnlyUnknown sdk runID → ∀ k act, run.Schedules sdk runID k act →
    (∀ d, act ≠ .revertStateCompensation d) ∧
    ∀ t, act = .advanceExecutionClaim t → t.toState ≠ .completed ∧ t.toState ≠ .failed

theorem partialFailure_iff {last : Option DispatchOutcome} :
    last.any (·.partialFailure) = true ↔
      ∃ o, last = some o ∧ o.status = .failure ∧ o.partiallyApplied = true := by
  cases last with
  | none => simp
  | some o => simp [DispatchOutcome.partialFailure]

/-- **Every run schedules its activities by these rules**, whatever they answer. -/
theorem saga_schedules (sdk : Sdk) (runID : GoString) (run : Run) : Disciplined sdk runID run where
  dispatches_once := by
    intro j k f g first second
    rw [first.dispatch.1, second.dispatch.1]
  reconciles := by
    intro k d asked
    obtain ⟨after, unknown, f, dispatched, same⟩ := asked.reconciles
    exact ⟨6, after, f, dispatched, same, unknown⟩
  releases := by
    intro j k f t dispatched after asked release
    obtain ⟨rfl, here, -⟩ := dispatched.dispatch
    exact asked.fenced release here after
  compensates_once := by
    intro j k d d' first second
    obtain ⟨o, here⟩ := first.compensation
    obtain ⟨o', there⟩ := second.compensation
    exact Run.compensate_once first.1 second.1 here there
  compensates := by
    intro k d asked
    obtain ⟨o, here⟩ := asked.compensation
    have learnt := run.learnt sdk runID asked.1
    rw [here] at learnt
    exact ⟨o, learnt⟩
  compensates_next := by
    intro j o taken failure applied within
    exact ⟨_, Run.compensate_schedules within (Run.partial_compensates taken failure applied within)⟩
  compensates_iff := by
    rintro ⟨result, returned⟩
    have learnt := run.learnt sdk runID (Nat.le_refl run.history.length)
    rw [← Run.thread, returned] at learnt
    simp only [Learnt] at learnt
    rw [← partialFailure_iff, ← learnt]
    constructor
    · rintro ⟨k, d, asked⟩
      obtain ⟨o, here⟩ := asked.compensation
      refine ⟨k, Nat.lt_of_le_of_ne asked.1 ?_, o, here⟩
      rintro rfl
      cases returned.symm.trans here
    · rintro ⟨k, before, o, here⟩
      exact ⟨k, _, Run.compensate_schedules before.le here⟩
  unknown := by
    intro only k act asked
    have never : ¬ ((∃ d, act = .revertStateCompensation d) ∨
        ∃ t, act = .advanceExecutionClaim t ∧ (t.toState = .completed ∨ t.toState = .failed)) := by
      intro settles
      obtain ⟨o, last, certain⟩ := asked.confirmed settles
      obtain ⟨j, -, taken⟩ := Run.lastOutcome_mem last
      obtain ⟨e, reported, heard, said, rfl, source⟩ := Run.outcomeAt_confirmed taken certain
      obtain ⟨no_success, no_failure⟩ := only j e reported heard said source
      rw [DispatchOutcome.status_of_checked certain] at no_success no_failure
      rcases reported.checked_status with success | failure | unknown
      · exact no_success success
      · exact no_failure failure
      · exact certain unknown
    refine ⟨fun d same => never (Or.inl ⟨d, same⟩), fun t same => ⟨fun target => ?_, fun target => ?_⟩⟩
    · exact never (Or.inr ⟨t, same, Or.inl target⟩)
    · exact never (Or.inr ⟨t, same, Or.inr target⟩)

/-- The target applies the change in part: the answer to the dispatch says so, and three answers
later the run schedules the compensation. -/
example : ((demo failedRun).runs (ascii "r")).map (fun run =>
      ((run.outcomeAt plainSdk (ascii "r") 6).map (·.partialFailure),
        decide (9 ≤ run.history.length), run.awaits plainSdk (ascii "r") 9)) =
    some (some true, true, .activity
      (.revertStateCompensation (dispatchRequest (demoRequest failingNodeID))) compCtx) := by
  decide +kernel

end SentryGate.Workflows
