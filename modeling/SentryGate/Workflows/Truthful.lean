/-
# Workflows.Truthful -- what a run reports is true of the target

The deployed worker over one shared `SimulatedAdapter`.  Whatever a run concluded, it
concluded from a confirmed answer, and a confirmed answer is the effect the target
recorded once and for all (`TruthAt`).  Only a partly applied FAILURE is ever
compensated (`compensated_failure`).  A run that stopped before the dispatch step, or at
a fence error, never called the adapter: the one attempt of its dispatch step is the only
thing that could have, and a call leaves an outcome that is no fence error.
-/
import SentryGate.Workflows.Fence
import SentryGate.Workflows.History

namespace SentryGate.Workflows

open Theory.Text Theory.Machine Theory.Counting Contracts Policy Decision Audit

set_option autoImplicit false

variable {w : Worker SimulatedAdapter} {G : System SimulatedAdapter → Label → Prop}
  {past : List (System SimulatedAdapter)} {s s' : System SimulatedAdapter} {l : Label}

/-! ## The target -/

/-- A recorded effect stays. -/
theorem Move.effects (simulated : w.adapter = some simulatedAdapter) (move : Move w s l s')
    {key : GoString} {e : DispatchOutcome} (known : s.backend.target.effects key = some e) :
    s'.backend.target.effects key = some e := by
  rcases move.quiet_or_exec with quiet | ⟨i, a, c, b', body', -, found, performed, rfl⟩
  · rw [quiet.target]
    exact known
  obtain ⟨change, -, -⟩ := performed
  generalize a.activity = act, a.body = body at change
  cases change with
  | same => exact known
  | acquired => exact known
  | recorded => exact known
  | audited => exact known
  | advanced => exact known
  | fenced => exact known
  | dispatched req adapter ctx configured =>
      cases simulated.symm.trans configured
      exact (SimulatedAdapter.dispatch_answers ctx req.dispatch _).kept key e known
  | reconciled req adapter ctx configured =>
      cases simulated.symm.trans configured
      exact (SimulatedAdapter.reconcile_answers ctx req _).kept key e known
  | compensated req adapter ctx r configured =>
      cases simulated.symm.trans configured
      have same := SimulatedAdapter.compensate_effects ctx req s.backend.target
      exact (congrFun same key).trans known

theorem Move.confirms (simulated : w.adapter = some simulatedAdapter) (move : Move w s l s')
    {key : GoString} {o : DispatchOutcome} (confirms : s.backend.target.Confirms key o) :
    s'.backend.target.Confirms key o := by
  obtain ⟨e, known, same⟩ := confirms
  exact ⟨e, move.effects simulated known, same⟩

/-- Only a compensation of the key counts up its compensations. -/
theorem Move.compensations (simulated : w.adapter = some simulatedAdapter) (move : Move w s l s')
    (key : GoString) :
    s'.backend.target.compensations key = s.backend.target.compensations key ∨
    ∃ a ∈ s.attempts, ∃ req, a.activity = .revertStateCompensation req ∧
      req.idempotencyKey = key := by
  rcases move.quiet_or_exec with quiet | ⟨i, a, c, b', body', -, found, performed, rfl⟩
  · exact Or.inl (by rw [quiet.target])
  obtain ⟨change, -, -⟩ := performed
  generalize acts : a.activity = act, a.body = body at change
  cases change with
  | same => exact Or.inl rfl
  | acquired => exact Or.inl rfl
  | recorded => exact Or.inl rfl
  | audited => exact Or.inl rfl
  | advanced => exact Or.inl rfl
  | fenced => exact Or.inl rfl
  | dispatched req adapter ctx configured =>
      cases simulated.symm.trans configured
      exact Or.inl (congrFun (SimulatedAdapter.dispatch_answers ctx req.dispatch _).compensations key)
  | reconciled req adapter ctx configured =>
      cases simulated.symm.trans configured
      exact Or.inl (congrFun (SimulatedAdapter.reconcile_answers ctx req _).compensations key)
  | compensated req adapter ctx r configured =>
      cases simulated.symm.trans configured
      by_cases here : req.idempotencyKey = key
      · exact Or.inr ⟨a, List.mem_of_getElem? found, req, acts, here⟩
      · exact Or.inl (SimulatedAdapter.compensate_elsewhere ctx req _ (Ne.symm here))

/-- A confirmed outcome of a dispatch or a reconciliation is the recorded effect. -/
def TrueOutcome (target : SimulatedAdapter) : Activity → Reply → Prop
  | .dispatchConfig req, .outcome o =>
      o.status ≠ .unknown → target.Confirms req.dispatch.idempotencyKey o
  | .reconcileDispatch req, .outcome o =>
      o.status ≠ .unknown → target.Confirms req.idempotencyKey o
  | _, _ => True

theorem Visits.outcomes (simulated : w.adapter = some simulatedAdapter) (visits : Visits w G past s) :
    ∀ a ∈ s.attempts, ∀ r, a.body = .finished r → TrueOutcome s.backend.target a.activity r := by
  refine finished_facts (F := fun _ s _ act r => TrueOutcome s.backend.target act r) ?_ ?_ visits
  · intro past s l s' x act r _ _ move told
    unfold TrueOutcome at told ⊢
    split
    · exact fun certain => move.confirms simulated (told certain)
    · exact fun certain => move.confirms simulated (told certain)
    · trivial
  · intro past s i c a run b' r _ _ _ _ ran
    have report := (perform_performed ran).report r rfl
    generalize a.activity = act at report ⊢
    unfold TrueOutcome
    split
    · rename_i req o
      intro certain
      obtain ⟨adapter, ctx, target, configured, after, rfl⟩ := report
      cases simulated.symm.trans configured
      have answers := SimulatedAdapter.dispatch_answers ctx req.dispatch target
      rw [after]
      exact answers.confirms certain
    · rename_i req o
      intro certain
      rcases report with unknown | ⟨adapter, ctx, target, configured, after, rfl⟩
      · exact absurd unknown certain
      · cases simulated.symm.trans configured
        have answers := SimulatedAdapter.reconcile_answers ctx req target
        rw [after]
        exact answers.confirms certain
    · trivial

/-! ## What a thread concludes -/

/-- The thread was blocked in the compensation at one of its first `k` waits. -/
def Compensated (sdk : Sdk) (run : Run) (k : Nat) : Prop :=
  ∃ j, j < k ∧ j ≤ run.history.length ∧ ∃ o, (run.threadAt sdk j).point = .compensate o

/-- The target recorded a FAILURE; a partly applied one has been compensated for. -/
def Failed (sdk : Sdk) (target : SimulatedAdapter) (run : Run) (k : Nat) : Prop :=
  ∃ e, target.effects (executionKey run.req.ingressDecisionID) = some e ∧ e.status = .failure ∧
    (e.partiallyApplied = true → Compensated sdk run k)

/-- The target recorded a SUCCESS. -/
def Succeeded (target : SimulatedAdapter) (run : Run) : Prop :=
  ∃ e, target.effects (executionKey run.req.ingressDecisionID) = some e ∧ e.status = .success

/-- What is true of the target when a thread is at a point. -/
def TruthAt (sdk : Sdk) (target : SimulatedAdapter) (run : Run) (k : Nat) : Point → Prop
  | .rejectRecord rej | .rejectAudit rej => rej.errType ≠ .dispatchFailed
  | .auditDispatch o | .auditReconciliation o | .reconcileSleep _ _ o =>
      o.status ≠ .unknown → target.Confirms (executionKey run.req.ingressDecisionID) o
  | .markFailed o =>
      target.effects (executionKey run.req.ingressDecisionID) = some o ∧ o.status = .failure
  | .compensate o =>
      target.effects (executionKey run.req.ingressDecisionID) = some o ∧ o.status = .failure ∧
        o.partiallyApplied = true
  | .auditCompensation _ _ | .auditWorkflowFailed _ => Failed sdk target run k
  | .markCompleted | .auditComplete => Succeeded target run
  | .releaseOnExit result | .closed result =>
      (result = none → Succeeded target run) ∧
        (HasType .dispatchFailed result → Failed sdk target run k)
  | _ => True

theorem Compensated.later {sdk : Sdk} {run run' : Run} {k : Nat} (done : Compensated sdk run k)
    (later : run.Extends run') : Compensated sdk run' k := by
  obtain ⟨j, before, within, o, here⟩ := done
  exact ⟨j, before, within.trans later.history.length_le, o, by rw [later.threadAt sdk within, here]⟩

theorem Failed.succ {sdk : Sdk} {target : SimulatedAdapter} {run : Run} {k : Nat}
    (failed : Failed sdk target run k) : Failed sdk target run (k + 1) := by
  obtain ⟨e, known, failure, compensated⟩ := failed
  refine ⟨e, known, failure, fun applied => ?_⟩
  obtain ⟨j, before, rest⟩ := compensated applied
  exact ⟨j, Nat.lt_succ_of_lt before, rest⟩

/-- A run that ends without DISPATCH_FAILED or nil says nothing about the target. -/
theorem Leaves.truth {sdk : Sdk} {target : SimulatedAdapter} {run : Run} {k : Nat}
    {auditErr : Option GoString} {r : Reply} {result : WorkflowResult} {p : Point}
    (leaves : Leaves auditErr r result p) (truth : TruthAt sdk target run k p) :
    (result = none → Succeeded target run) ∧
      (HasType .dispatchFailed result → Failed sdk target run (k + 1)) := by
  -- each point leaves with one type of error, so most of them leave with neither
  have other : ∀ type, HasType type result → type ≠ .dispatchFailed →
      (result = none → Succeeded target run) ∧
        (HasType .dispatchFailed result → Failed sdk target run (k + 1)) := by
    rintro type ⟨message, cause, details, rfl⟩ different
    refine ⟨by simp [applicationError], ?_⟩
    rintro ⟨_, _, _, same⟩
    simp only [applicationError, Option.some.injEq, WorkflowError.application.injEq,
      Open.named.injEq] at same
    exact absurd same.1 different
  have persist : PersistFailed result →
      (result = none → Succeeded target run) ∧
        (HasType .dispatchFailed result → Failed sdk target run (k + 1)) := by
    rintro ⟨cause, rfl⟩
    refine ⟨by simp, ?_⟩
    rintro ⟨_, _, _, same⟩
    simp [applicationError] at same
  cases p with
  | verifyIngress => exact other _ leaves (by simp)
  | rejectAudit rej => exact other _ leaves truth
  | executionToken => exact other _ leaves (by simp)
  | claimExecution => exact other _ leaves (by simp)
  | evaluateExecution => exact other _ leaves (by simp)
  | recordDecision d => exact persist leaves
  | auditDenied d => exact other _ leaves (by simp)
  | auditPassed d => exact persist leaves
  | auditFenceRejected released err => exact other _ leaves (by simp)
  | auditReconciliation o => exact other _ leaves.2 (by simp)
  | auditWorkflowFailed failure =>
      obtain ⟨message, cause, details, rfl⟩ := leaves
      exact ⟨by simp [applicationError], fun _ => truth.succ⟩
  | markCompleted => exact persist leaves.2
  | auditComplete =>
      rcases leaves with ⟨-, rfl⟩ | ⟨-, failed⟩
      · exact ⟨fun _ => truth, by rintro ⟨_, _, _, same⟩; cases same⟩
      · exact persist failed
  | _ => cases leaves

/-- What is true stays true while effects are only added and the run only grows. -/
theorem TruthAt.mono {sdk : Sdk} {target target' : SimulatedAdapter} {run run' : Run} {k : Nat}
    {p : Point} (truth : TruthAt sdk target run k p) (same : run'.req = run.req)
    (kept : ∀ key e, target.effects key = some e → target'.effects key = some e)
    (grown : Compensated sdk run k → Compensated sdk run' k) : TruthAt sdk target' run' k p := by
  have failed : Failed sdk target run k → Failed sdk target' run' k := by
    rintro ⟨e, known, failure, compensated⟩
    refine ⟨e, kept _ _ ?_, failure, fun applied => grown (compensated applied)⟩
    rw [same]
    exact known
  have succeeded : Succeeded target run → Succeeded target' run' := by
    rintro ⟨e, known, success⟩
    refine ⟨e, kept _ _ ?_, success⟩
    rw [same]
    exact known
  unfold TruthAt at truth ⊢
  rw [same]
  have confirmed : ∀ o, (o.status ≠ .unknown →
      target.Confirms (executionKey run.req.ingressDecisionID) o) → o.status ≠ .unknown →
      target'.Confirms (executionKey run.req.ingressDecisionID) o := by
    intro o told certain
    obtain ⟨e, known, here⟩ := told certain
    exact ⟨e, kept _ _ known, here⟩
  split
  · exact truth
  · exact truth
  · exact confirmed _ truth
  · exact confirmed _ truth
  · exact confirmed _ truth
  · exact ⟨kept _ _ truth.1, truth.2⟩
  · exact ⟨kept _ _ truth.1, truth.2⟩
  · exact failed truth
  · exact failed truth
  · exact succeeded truth
  · exact succeeded truth
  · exact ⟨fun nil => succeeded (truth.1 nil), fun type => failed (truth.2 type)⟩
  · exact ⟨fun nil => succeeded (truth.1 nil), fun type => failed (truth.2 type)⟩
  · trivial

/-- A confirmed outcome that a run makes of an answer is the recorded effect. -/
theorem Visits.answered_outcome (simulated : w.adapter = some simulatedAdapter)
    (visits : Visits w G past s) {runID : GoString} {run : Run} {reply : Reply}
    (known : s.runs runID = some run) (answered : Answered w s runID run reply)
    {act : Activity} {opts : Options} {key : GoString}
    (waits : run.awaits w.sdk runID run.history.length = .activity act opts)
    (told : ∀ o, TrueOutcome s.backend.target act (.outcome o) → o.status ≠ .unknown →
      s.backend.target.Confirms key o)
    {o : DispatchOutcome} (said : reply = .outcome o) (certain : o.checked.status ≠ .unknown) :
    s.backend.target.Confirms key o.checked := by
  rcases visits.reaches.answered_activity known answered waits with
    ⟨a, member, -, -, rfl, finished⟩ | ⟨e, failed, -⟩
  · have outcome := visits.outcomes simulated a member reply finished
    rw [said] at outcome
    have status := DispatchOutcome.status_of_checked certain
    obtain ⟨e, recorded, same⟩ := told o outcome (by rw [status]; exact certain)
    exact ⟨e, recorded, by rw [same, DispatchOutcome.checked_checked]⟩
  · rw [said] at failed
    cases failed

/-- **Every conclusion of a thread is true of the target.** -/
theorem Visits.truth (simulated : w.adapter = some simulatedAdapter) (visits : Visits w G past s) :
    ∀ runID run k, s.runs runID = some run → k ≤ run.history.length →
      TruthAt w.sdk s.backend.target run k (run.threadAt w.sdk k).point := by
  refine run_facts (F := fun _ s _ run k th => TruthAt w.sdk s.backend.target run k th.point)
    ?_ ?_ ?_ ?_ ?_ visits
  · intro past s runID workflowID req now
    trivial
  · intro past s l s' runID run k th _ _ move _ truth
    exact truth.mono rfl (fun _ _ known => move.effects simulated known) id
  · intro past s runID run run' k th later truth
    exact truth.mono later.req (fun _ _ known => known) fun done => done.later later
  · intro past s runID run source reply now visits _ known said truth
    have answered := answer_answered said
    have origin := resume_origin w.sdk run.req (run.thread w.sdk) { reply, now }
    generalize (resume w.sdk run.req (run.thread w.sdk) { reply, now }).point = p at origin ⊢
    generalize point : (run.thread w.sdk).point = prior at truth
    cases p with
    | rejectRecord rej =>
        rcases origin with ⟨-, v, -, -, rfl⟩ | ⟨-, c, -, -, rfl⟩ <;> simp [TruthAt]
    | rejectAudit rej =>
        cases point.symm.trans origin
        exact truth
    | auditDispatch o =>
        obtain ⟨here, rfl, -⟩ := origin
        intro certain
        cases read : reply.getOutcome with
        | error err =>
            rw [read] at certain
            exact absurd rfl certain
        | ok o =>
            rw [read] at certain
            have waits : run.awaits w.sdk runID run.history.length = .activity (.dispatchConfig
                (fencedDispatch run.req (run.thread w.sdk).token)) activityOpts :=
              Run.awaits_eq _ here
            exact visits.answered_outcome simulated known answered waits (fun _ told => told)
              (Reply.getOutcome_ok read) certain
    | reconcileSleep start wait last =>
        obtain ⟨-, -, unknown⟩ := origin
        exact fun certain => absurd unknown certain
    | auditReconciliation o =>
        rcases origin with ⟨start, wait, here, rfl⟩ | ⟨start, wait, here⟩
        · intro certain
          cases read : reply.getOutcome with
          | error err =>
              rw [read] at certain
              exact absurd rfl certain
          | ok o =>
              rw [read] at certain
              have waits : run.awaits w.sdk runID run.history.length =
                  .activity (.reconcileDispatch (dispatchRequest run.req)) bookCtx :=
                Run.awaits_eq _ here
              exact visits.answered_outcome simulated known answered waits (fun _ told => told)
                (Reply.getOutcome_ok read) certain
        · cases point.symm.trans here
          exact truth
    | markFailed o =>
        obtain ⟨here, failure⟩ := origin
        have certain : o.status ≠ .unknown := by rw [failure]; simp
        rcases here with here | here <;> cases point.symm.trans here <;>
          exact ⟨(truth certain).failure failure, failure⟩
    | compensate o =>
        obtain ⟨here, applied⟩ := origin
        cases point.symm.trans here
        exact ⟨truth.1, truth.2, applied⟩
    | auditCompensation err failure =>
        obtain ⟨o, here⟩ := origin
        cases point.symm.trans here
        exact ⟨o, truth.1, truth.2.1, fun _ =>
          ⟨run.history.length, Nat.lt_succ_self _, Nat.le_refl _, o, here⟩⟩
    | auditWorkflowFailed failure =>
        rcases origin with ⟨o, here, clean⟩ | ⟨err, text, here⟩ <;> cases point.symm.trans here
        · exact ⟨o, truth.1, truth.2, fun applied => by rw [clean] at applied; cases applied⟩
        · exact truth.succ
    | markCompleted =>
        obtain ⟨o, here, certain, succeeds⟩ := origin
        rcases here with here | here <;> cases point.symm.trans here <;>
          exact (truth certain).success certain succeeds
    | auditComplete =>
        cases point.symm.trans origin.1
        exact truth
    | releaseOnExit result =>
        obtain ⟨leaves, -⟩ := origin
        rw [point] at leaves
        exact leaves.truth truth
    | closed result =>
        simp only [Origin, point] at origin
        rcases origin with rfl | rfl | ⟨leaves, -⟩
        · exact ⟨truth.1, fun type => (truth.2 type).succ⟩
        · exact ⟨truth.1, fun type => (truth.2 type).succ⟩
        · exact leaves.truth truth
    | _ => trivial
  · intro past s runID base run k j canceled within before truth
    refine truth.mono rfl (fun _ _ known => known) ?_
    rintro ⟨i, earlier, inside, o, here⟩
    refine ⟨i, earlier, ?_, o, ?_⟩
    · simp only [Run.reset, List.length_take]
      omega
    · rw [Run.threadAt_reset w.sdk run base canceled within (by omega), here]

/-- **Only a partly applied FAILURE is compensated**, on a target that is new at the
start. -/
theorem compensated_failure (simulated : w.adapter = some simulatedAdapter)
    {policy : Option Snapshot} (steps : Steps (step w) G (.initial policy .new) s)
    (key : GoString) :
    s.backend.target.compensations key = 0 ∨
    ∃ e, s.backend.target.effects key = some e ∧ e.status = .failure ∧
      e.partiallyApplied = true := by
  refine steps.induction (P := fun s => s.backend.target.compensations key = 0 ∨
    ∃ e, s.backend.target.effects key = some e ∧ e.status = .failure ∧
      e.partiallyApplied = true) (Or.inl rfl) ?_
  intro s l s' prior before _ taken
  have move := step_move taken
  have stays : (∃ e, s.backend.target.effects key = some e ∧ e.status = .failure ∧
      e.partiallyApplied = true) → ∃ e, s'.backend.target.effects key = some e ∧
      e.status = .failure ∧ e.partiallyApplied = true := by
    rintro ⟨e, known, rest⟩
    exact ⟨e, move.effects simulated known, rest⟩
  rcases move.compensations simulated key with same | ⟨a, member, req, act, rfl⟩
  · rw [same]
    exact before.imp_right stays
  · -- the run that compensates was told of a partly applied FAILURE
    have reached : Reaches w G s := ⟨policy, .new, prior⟩
    obtain ⟨past, visits⟩ := reached.visits
    obtain ⟨run, placed⟩ := reached.placed a member
    obtain ⟨opts, waits⟩ := placed.waits
    rw [act] at waits
    obtain ⟨⟨o, here⟩, rfl, -⟩ := await_asks waits
    have truth := visits.truth simulated _ run a.index placed.known placed.within
    rw [here] at truth
    exact Or.inr (stays ⟨o, truth⟩)

/-! ## What a run returns -/

theorem not_settling {type : ErrorTypeName} {result : WorkflowResult}
    (rejected : type = .ingressDecisionInvalid ∨ type = .executionClaimRejected ∨
      type = .revalidationDenied) (typed : HasType type result) : ¬ Settling result := by
  obtain ⟨message, cause, details, rfl⟩ := typed
  rintro (nil | ⟨_, _, _, same⟩ | ⟨_, _, _, same⟩ | ⟨_, same⟩)
  · cases nil
  · simp only [applicationError, Option.some.injEq, WorkflowError.application.injEq,
      Open.named.injEq] at same
    rcases rejected with rfl | rfl | rfl <;> simp at same
  · simp only [applicationError, Option.some.injEq, WorkflowError.application.injEq,
      Open.named.injEq] at same
    rcases rejected with rfl | rfl | rfl <;> simp at same
  · simp [applicationError] at same

/-- **What a run reports is true of the target**, from then on.  Nil: the change took
effect once and is never compensated.  DISPATCH_FAILED: nothing took effect and nothing
will, or the change took effect in part and the run went through the compensation.  A
rejection: its dispatch step never calls the adapter. -/
theorem reports_true (simulated : w.adapter = some simulatedAdapter) {policy : Option Snapshot}
    (reached : Steps (step w) anyStep (.initial policy .new) s) {runID : GoString} {run : Run}
    {result : WorkflowResult} (known : s.runs runID = some run)
    (ended : (run.thread w.sdk).point = .closed result) :
    (result = none → ∀ t, Steps (step w) anyStep s t →
      t.backend.target.mutations (executionKey run.req.ingressDecisionID) = 1 ∧
      t.backend.target.compensations (executionKey run.req.ingressDecisionID) = 0) ∧
    (HasType .dispatchFailed result →
      (∀ t, Steps (step w) anyStep s t →
        t.backend.target.mutations (executionKey run.req.ingressDecisionID) = 0) ∨
      (∃ e, s.backend.target.effects (executionKey run.req.ingressDecisionID) = some e ∧
        e.status = .failure ∧ e.partiallyApplied = true ∧
        s.backend.target.mutations (executionKey run.req.ingressDecisionID) = 1 ∧
        ∃ k < run.history.length, run.awaits w.sdk runID k =
          .activity (.revertStateCompensation (dispatchRequest run.req)) compCtx)) ∧
    (∀ type, (type = .ingressDecisionInvalid ∨ type = .executionClaimRejected ∨
        type = .revalidationDenied) → HasType type result →
      ∀ t, Steps (step w) anyStep s t → ∀ call ∈ t.backend.calls, call.method = .dispatch →
        call.caller.runID ≠ runID) := by
  have here : Reachable w s := ⟨policy, .new, reached⟩
  obtain ⟨past, visits⟩ := Reaches.visits here
  have truth := visits.truth simulated runID run _ known (Nat.le_refl _)
  rw [← Run.thread, ended] at truth
  have kept : ∀ t, Steps (step w) anyStep s t → ∀ key e,
      s.backend.target.effects key = some e → t.backend.target.effects key = some e := by
    intro t steps key e recorded
    exact steps.invariant (P := fun t => t.backend.target.effects key = some e)
      (fun _ _ _ before _ taken => (step_move taken).effects simulated before) recorded
  refine ⟨fun nil t steps => ?_, fun failed => ?_, fun type rejected typed t steps call made
    dispatch own => ?_⟩
  · obtain ⟨e, recorded, success⟩ := truth.1 nil
    have later := kept t steps _ e recorded
    refine ⟨(t.backend.target.mutations_eq later).1 success, ?_⟩
    rcases compensated_failure simulated (reached.trans steps)
      (executionKey run.req.ingressDecisionID) with none_yet | ⟨e', other, failure, -⟩
    · exact none_yet
    · cases later.symm.trans other
      rw [success] at failure
      cases failure
  · obtain ⟨e, recorded, failure, compensated⟩ := truth.2 failed
    cases applied : e.partiallyApplied with
    | false =>
        refine Or.inl fun t steps => ?_
        have count := (t.backend.target.mutations_eq (kept t steps _ e recorded)).2 failure
        simpa [applied] using count
    | true =>
        have count := (s.backend.target.mutations_eq recorded).2 failure
        obtain ⟨k, before, -, o, compensates⟩ := compensated applied
        refine Or.inr ⟨e, recorded, failure, applied, by simpa [applied] using count, k, before, ?_⟩
        exact Run.awaits_eq _ compensates
  · obtain ⟨reached', run', known', later, same⟩ := here.closed_steps steps known ended
    have still : (run'.thread w.sdk).point = .closed result := by
      rw [Run.thread, same, later.threadAt w.sdk (Nat.le_refl _)]
      exact ended
    rcases Reaches.dispatched_settles reached' made dispatch (own ▸ known') with waiting | settles
    · rw [still] at waiting
      cases waiting
    · rw [still] at settles
      exact not_settling rejected typed settles

/-- The run on a target that works, to its end. -/
def completedRun : List Label :=
  dispatchedRun (ascii "n") ++ round (ascii "r") 6 ++ round (ascii "r") 7 ++ round (ascii "r") 8

/-- The run on a target that applies the change in part, to its end. -/
def failedRun : List Label :=
  dispatchedRun failingNodeID ++ round (ascii "r") 6 ++ round (ascii "r") 7 ++
    round (ascii "r") 8 ++ round (ascii "r") 9 ++ round (ascii "r") 10

theorem reports_true_demo :
    (∃ run, (demo completedRun).runs (ascii "r") = some run ∧
      (run.thread plainSdk).point = .closed none ∧
      (demo completedRun).backend.target.mutations (executionKey (ascii "d")) = 1 ∧
      (demo completedRun).backend.target.compensations (executionKey (ascii "d")) = 0) ∧
    (∃ run result, (demo failedRun).runs (ascii "r") = some run ∧
      (run.thread plainSdk).point = .closed result ∧ HasType .dispatchFailed result ∧
      (demo failedRun).backend.target.mutations (executionKey (ascii "d")) = 1 ∧
      ∃ k < run.history.length, run.awaits plainSdk (ascii "r") k =
        .activity (.revertStateCompensation (dispatchRequest run.req)) compCtx) := by
  constructor
  · have ended : ((demo completedRun).runs (ascii "r")).map (fun run =>
        ((run.thread plainSdk).point, run.req.ingressDecisionID)) =
        some (.closed none, ascii "d") := by decide +kernel
    obtain ⟨run, known, here⟩ := Option.map_eq_some_iff.mp ended
    obtain ⟨closed, decision⟩ := Prod.mk.inj here
    have told := (reports_true rfl (demo_steps completedRun) known closed).1 rfl _ (Steps.refl _)
    rw [decision] at told
    exact ⟨run, known, closed, told⟩
  · have ended : ((demo failedRun).runs (ascii "r")).map (fun run =>
        ((run.thread plainSdk).point, run.req.ingressDecisionID)) =
        some (.closed (applicationError .dispatchFailed
          (ascii "dispatch partly applied and compensation ran: " ++
            SimulatedAdapter.partlyAppliedEffect.detail) [] []), ascii "d") := by decide +kernel
    obtain ⟨run, known, here⟩ := Option.map_eq_some_iff.mp ended
    obtain ⟨closed, decision⟩ := Prod.mk.inj here
    have applied : (demo failedRun).backend.target.mutations (executionKey (ascii "d")) = 1 := by
      decide +kernel
    have typed := hasType .dispatchFailed (ascii "dispatch partly applied and compensation ran: " ++
      SimulatedAdapter.partlyAppliedEffect.detail) [] []
    rcases (reports_true rfl (demo_steps failedRun) known closed).2.1 typed with
      nothing | ⟨e, -, -, -, -, compensates⟩
    · have never := nothing _ (Steps.refl _)
      rw [decision, applied] at never
      cases never
    · exact ⟨run, _, known, closed, typed, applied, compensates⟩

end SentryGate.Workflows
