/-
# Workflows.AuditRows -- the audit rows of a run never claim more than happened

Two things are said about the rows a run writes or tries to write.

Their order: `AuditWord` is the language of complete audit trails, and the rows of a run,
at any moment, are an initial part of one of its words.  A reconciliation row stands
behind an UNKNOWN row and nowhere else.  `Trail` says at each point of the workflow which
rows are behind it.

Their truth, for a run that inherits nothing: a fence row means that the run never calls
`Dispatch`; a confirmed dispatch or reconciliation row repeats what the adapter returned;
a completion row means that the claim is COMPLETED under the run's owner; a passed
compensation row means that `Compensate` returned nil.  `Happened` is what an answer of
an activity says about the adapter and the claim for ever after.

`audit_rows_true` puts the two together, over every run of the system.
-/
import SentryGate.Workflows.Schedule
import SentryGate.Workflows.Release
import SentryGate.Workflows.Rejection

namespace SentryGate.Workflows

open Theory.Text Theory.Machine Contracts Policy Decision Audit

set_option autoImplicit false

/-! ## The language of audit trails -/

/-- A row, without its detail. -/
abbrev Row := PhaseName × AuditVerdict

/-- A row that leaves open what the dispatch step did. -/
def Undecided (row : Row) : Prop :=
  row = (.dispatch, .named .unknown) ∨ row = (.executionFence, .named .unknown)

/-- The rows of a run up to the outcome it settles: a confirmed dispatch, or an undecided
row and its reconciliation. -/
inductive Settled : List Row → Prop where
  | confirmed (v : AuditVerdict) (certain : v ≠ .named .unknown) :
      Settled [(.revalidation, .named .pass), (.dispatch, v)]
  | reconciled (first : Row) (undecided : Undecided first) (v : AuditVerdict) :
      Settled [(.revalidation, .named .pass), first, (.reconciliation, v)]

/-- At most one compensation row. -/
def Compensates (rows : List Row) : Prop := rows = [] ∨ ∃ v, rows = [(.compensation, v)]

/-- At most one row that concludes the run. -/
def Concludes (rows : List Row) : Prop :=
  rows = [] ∨ rows = [(.workflowComplete, .named .pass)] ∨ rows = [(.workflowFailed, .named .fail)]

/-- The complete audit trails. -/
inductive AuditWord : List Row → Prop where
  | rejected : AuditWord [(.revalidation, .named .fail)]
  | unfenced : AuditWord [(.revalidation, .named .pass), (.executionFence, .named .fail)]
  | settled (rows compensation conclusion : List Row) (settles : Settled rows)
      (compensates : Compensates compensation) (concludes : Concludes conclusion) :
      AuditWord (rows ++ compensation ++ conclusion)

/-- An initial part of a complete audit trail. -/
def OnWord (rows : List Row) : Prop := ∃ word, AuditWord word ∧ rows <+: word

theorem AuditWord.onWord {rows : List Row} (word : AuditWord rows) : OnWord rows :=
  ⟨rows, word, List.prefix_rfl⟩

theorem Settled.onWord {rows : List Row} (settles : Settled rows) : OnWord rows := by
  have word := AuditWord.settled rows [] [] settles (Or.inl rfl) (Or.inl rfl)
  simp only [List.append_nil] at word
  exact word.onWord

/-- An undecided row waits for its reconciliation. -/
theorem Undecided.onWord {row : Row} (undecided : Undecided row) :
    OnWord [(.revalidation, .named .pass), row] := by
  obtain ⟨word, complete, part⟩ := (Settled.reconciled row undecided (.named .unknown)).onWord
  refine ⟨word, complete, List.IsPrefix.trans ?_ part⟩
  exact ⟨[(.reconciliation, .named .unknown)], rfl⟩

/-! ## The rows of a run -/

/-- The row a point writes. -/
def rowOf (sdk : Sdk) (req : ExecutionRequest) (p : Point) : Option Row :=
  (auditRow sdk req p).map fun (phase, verdict, _) => (phase, verdict)

/-- The rows among the first `k` waits of a run. -/
def Run.rowsBefore (sdk : Sdk) (run : Run) (k : Nat) : List Row :=
  (List.range k).filterMap fun j => rowOf sdk run.req (run.threadAt sdk j).point

/-- Every row the run has tried to write. -/
def Run.attemptedRows (sdk : Sdk) (run : Run) : List Row :=
  run.rowsBefore sdk (run.history.length + 1)

theorem Run.rowsBefore_succ (sdk : Sdk) (run : Run) (k : Nat) :
    run.rowsBefore sdk (k + 1) =
      run.rowsBefore sdk k ++ (rowOf sdk run.req (run.threadAt sdk k).point).toList := by
  unfold Run.rowsBefore
  rw [List.range_succ, List.filterMap_append]
  cases written : rowOf sdk run.req (run.threadAt sdk k).point <;> simp [written]

theorem Run.mem_attemptedRows {sdk : Sdk} {run : Run} {row : Row} :
    row ∈ run.attemptedRows sdk ↔
      ∃ k ≤ run.history.length, rowOf sdk run.req (run.threadAt sdk k).point = some row := by
  unfold Run.attemptedRows Run.rowsBefore
  simp only [List.mem_filterMap, List.mem_range, Nat.lt_succ_iff]

/-- The rows behind a thread at each point. -/
def Trail (rows : List Row) : Point → Prop
  | .dispatchConfig | .releaseFenced _ _ | .auditFenceRejected _ _ | .auditFenceUnknown _ =>
      rows = [(.revalidation, .named .pass)]
  | .auditDispatch o => rows = [(.revalidation, .named .pass)] ∧ o.checked = o
  | .requireReconciliation | .reconcile _ _ | .reconcileSleep _ _ _ | .auditReconciliation _ =>
      ∃ row, Undecided row ∧ rows = [(.revalidation, .named .pass), row]
  | .markFailed _ | .compensate _ | .auditCompensation _ _ | .markCompleted | .auditComplete =>
      Settled rows
  | .auditWorkflowFailed _ =>
      ∃ before compensation, Settled before ∧ Compensates compensation ∧
        rows = before ++ compensation
  | .releaseOnExit _ | .closed _ => OnWord rows
  | _ => rows = []

/-- A checked outcome is UNKNOWN exactly if its row is. -/
theorem auditVerdict_unknown_iff {o : DispatchOutcome} (checked : o.checked = o) :
    auditVerdict o = .named .unknown ↔ o.status = .unknown := by
  have status := o.checked_status
  rw [checked] at status
  rcases status with status | status | status <;> simp [auditVerdict, status]

/-- The rows up to a dispatch row: its verdict says whether they are settled. -/
theorem dispatch_settled {o : DispatchOutcome} (checked : o.checked = o)
    (known : o.status ≠ .unknown) :
    Settled [(.revalidation, .named .pass), (.dispatch, auditVerdict o)] :=
  .confirmed _ fun unknown => known ((auditVerdict_unknown_iff checked).mp unknown)

/-- **At every point the rows of a run, with the one it is writing, are on a word.** -/
theorem Trail.onWord {sdk : Sdk} {req : ExecutionRequest} {rows : List Row} {p : Point}
    (trail : Trail rows p) : OnWord (rows ++ (rowOf sdk req p).toList) := by
  have start : OnWord [] := ⟨_, .rejected, List.nil_prefix⟩
  have passed : OnWord [(.revalidation, .named .pass)] :=
    ⟨_, .unfenced, [(.executionFence, .named .fail)], rfl⟩
  cases p with
  | verifyIngress | rejectRecord rej | executionToken | claimExecution | evaluateExecution
  | recordDecision dec =>
      obtain rfl : rows = [] := trail
      exact start
  | rejectAudit rej =>
      obtain rfl : rows = [] := trail
      exact AuditWord.rejected.onWord
  | auditDenied dec =>
      obtain rfl : rows = [] := trail
      exact AuditWord.rejected.onWord
  | auditPassed dec =>
      obtain rfl : rows = [] := trail
      exact passed
  | dispatchConfig =>
      obtain rfl : rows = [(.revalidation, .named .pass)] := trail
      exact passed
  | releaseFenced fence err =>
      obtain rfl : rows = [(.revalidation, .named .pass)] := trail
      exact passed
  | auditFenceRejected released err =>
      obtain rfl : rows = [(.revalidation, .named .pass)] := trail
      exact AuditWord.unfenced.onWord
  | auditFenceUnknown o =>
      obtain rfl : rows = [(.revalidation, .named .pass)] := trail
      exact Undecided.onWord (Or.inr rfl)
  | auditDispatch o =>
      obtain ⟨rfl, checked⟩ := trail
      by_cases unknown : o.status = .unknown
      · apply Undecided.onWord
        left
        rw [(auditVerdict_unknown_iff checked).mpr unknown]
      · exact (dispatch_settled checked unknown).onWord
  | requireReconciliation | reconcile start wait | reconcileSleep start wait last =>
      obtain ⟨row, undecided, rfl⟩ := trail
      exact undecided.onWord
  | auditReconciliation o =>
      obtain ⟨row, undecided, rfl⟩ := trail
      exact (Settled.reconciled row undecided _).onWord
  | markFailed o | compensate o | markCompleted =>
      simp only [rowOf, auditRow, Option.map_none, Option.toList_none, List.append_nil]
      exact Settled.onWord trail
  | auditCompensation err failure =>
      have word : ∀ v, OnWord (rows ++ [(.compensation, v)]) := by
        intro v
        have complete := AuditWord.settled rows [(.compensation, v)] [] trail (Or.inr ⟨v, rfl⟩)
          (Or.inl rfl)
        rw [List.append_nil] at complete
        exact complete.onWord
      cases err <;> exact word _
  | auditComplete =>
      have complete := AuditWord.settled rows [] _ trail (Or.inl rfl) (Or.inr (Or.inl rfl))
      rw [List.append_nil] at complete
      exact complete.onWord
  | auditWorkflowFailed failure =>
      obtain ⟨before, compensation, settles, compensates, rfl⟩ := trail
      exact (AuditWord.settled before compensation _ settles compensates
        (Or.inr (Or.inr rfl))).onWord
  | releaseOnExit result | closed result =>
      simp only [rowOf, auditRow, Option.map_none, Option.toList_none, List.append_nil]
      exact trail

/-- The rows behind a run that leaves its dispatch or reconciliation row settled. -/
theorem Trail.settled {sdk : Sdk} {req : ExecutionRequest} {rows : List Row} {p : Point}
    {o : DispatchOutcome} (trail : Trail rows p)
    (here : p = .auditDispatch o ∨ p = .auditReconciliation o) (known : o.status ≠ .unknown) :
    Settled (rows ++ (rowOf sdk req p).toList) := by
  rcases here with rfl | rfl
  · obtain ⟨rfl, checked⟩ := trail
    exact dispatch_settled checked known
  · obtain ⟨row, undecided, rfl⟩ := trail
    exact .reconciled row undecided _

/-- **One answer**: the row of the point a thread leaves is behind it. -/
theorem Trail.resume {sdk : Sdk} {req : ExecutionRequest} {prior : Thread} {e : Event}
    {rows : List Row} (trail : Trail rows prior.point) :
    Trail (rows ++ (rowOf sdk req prior.point).toList) (resume sdk req prior e).point := by
  have origin := resume_origin sdk req prior e
  generalize (Workflows.resume sdk req prior e).point = p at origin ⊢
  cases p with
  | verifyIngress => cases origin
  | rejectRecord rej =>
      rcases origin with ⟨here, -⟩ | ⟨here, -⟩ <;> rw [here] at trail ⊢ <;>
        obtain rfl : rows = [] := trail <;> rfl
  | rejectAudit rej =>
      rw [show prior.point = .rejectRecord rej from origin] at trail ⊢
      obtain rfl : rows = [] := trail
      rfl
  | executionToken =>
      rw [origin.1] at trail ⊢
      obtain rfl : rows = [] := trail
      rfl
  | claimExecution =>
      rw [origin.1] at trail ⊢
      obtain rfl : rows = [] := trail
      rfl
  | evaluateExecution =>
      rw [origin.1] at trail ⊢
      obtain rfl : rows = [] := trail
      rfl
  | recordDecision dec =>
      rw [origin.1] at trail ⊢
      obtain rfl : rows = [] := trail
      rfl
  | auditDenied dec =>
      rw [origin.1] at trail ⊢
      obtain rfl : rows = [] := trail
      rfl
  | auditPassed dec =>
      rw [origin.1] at trail ⊢
      obtain rfl : rows = [] := trail
      rfl
  | dispatchConfig =>
      obtain ⟨⟨dec, here⟩, -⟩ := origin
      rw [here] at trail ⊢
      obtain rfl : rows = [] := trail
      rfl
  | releaseFenced fence err =>
      rw [origin.1] at trail ⊢
      obtain rfl : rows = [(.revalidation, .named .pass)] := trail
      rfl
  | auditFenceRejected released err =>
      obtain ⟨fence, here, -⟩ := origin
      rw [here] at trail ⊢
      obtain rfl : rows = [(.revalidation, .named .pass)] := trail
      rfl
  | auditFenceUnknown o =>
      obtain ⟨fence, err, here, -⟩ := origin
      rw [here] at trail ⊢
      obtain rfl : rows = [(.revalidation, .named .pass)] := trail
      rfl
  | auditDispatch o =>
      obtain ⟨here, rfl, -⟩ := origin
      rw [here] at trail ⊢
      obtain rfl : rows = [(.revalidation, .named .pass)] := trail
      exact ⟨rfl, dispatchOutcome_checked sdk _⟩
  | requireReconciliation =>
      rcases origin with ⟨o, here⟩ | ⟨o, here, unknown⟩ <;> rw [here] at trail ⊢
      · obtain rfl : rows = [(.revalidation, .named .pass)] := trail
        exact ⟨_, Or.inr rfl, rfl⟩
      · obtain ⟨rfl, checked⟩ := trail
        refine ⟨(.dispatch, auditVerdict o), Or.inl ?_, rfl⟩
        rw [(auditVerdict_unknown_iff checked).mpr unknown]
  | reconcile start wait =>
      rcases origin with here | ⟨wait', last, here, -⟩ <;> rw [here] at trail ⊢ <;>
        obtain ⟨row, undecided, rfl⟩ := trail <;> exact ⟨row, undecided, rfl⟩
  | reconcileSleep start wait last =>
      rw [origin.1] at trail ⊢
      obtain ⟨row, undecided, rfl⟩ := trail
      exact ⟨row, undecided, rfl⟩
  | auditReconciliation o =>
      rcases origin with ⟨start, wait, here, -⟩ | ⟨start, wait, here⟩ <;> rw [here] at trail ⊢ <;>
        obtain ⟨row, undecided, rfl⟩ := trail <;> exact ⟨row, undecided, rfl⟩
  | markFailed o =>
      obtain ⟨here, failure⟩ := origin
      exact trail.settled here (by rw [failure]; simp)
  | markCompleted =>
      obtain ⟨o, here, known, -⟩ := origin
      exact trail.settled here known
  | compensate o =>
      rw [origin.1] at trail ⊢
      simp only [rowOf, auditRow, Option.map_none, Option.toList_none, List.append_nil]
      exact trail
  | auditCompensation err failure =>
      obtain ⟨o, here⟩ := origin
      rw [here] at trail ⊢
      simp only [rowOf, auditRow, Option.map_none, Option.toList_none, List.append_nil]
      exact trail
  | auditWorkflowFailed failure =>
      rcases origin with ⟨o, here, -⟩ | ⟨err, text, here⟩ <;> rw [here] at trail ⊢
      · exact ⟨rows, [], trail, Or.inl rfl, rfl⟩
      · refine ⟨rows, _, trail, Or.inr ?_, rfl⟩
        cases err <;> exact ⟨_, rfl⟩
  | auditComplete =>
      rw [origin.1] at trail ⊢
      simp only [rowOf, auditRow, Option.map_none, Option.toList_none, List.append_nil]
      exact trail
  | releaseOnExit result => exact trail.onWord
  | closed result => exact trail.onWord

/-- What is behind a thread at each of its waits. -/
theorem Run.trail (sdk : Sdk) (run : Run) {k : Nat} (within : k ≤ run.history.length) :
    Trail (run.rowsBefore sdk k) (run.threadAt sdk k).point := by
  refine Run.threadAt_induction (P := fun k th => Trail (run.rowsBefore sdk k) th.point) rfl ?_
    within
  intro k e heard trail
  rw [Run.rowsBefore_succ]
  exact trail.resume

/-- The rows of a run are on a word, whatever its activities answer. -/
theorem Run.attempted_onWord (sdk : Sdk) (run : Run) : OnWord (run.attemptedRows sdk) := by
  unfold Run.attemptedRows
  rw [Run.rowsBefore_succ]
  exact (run.trail sdk (Nat.le_refl _)).onWord

/-! ## What an answer says about the adapter and the claim -/

variable {α : Type} {w : Worker α} {G : System α → Label → Prop} {past : List (System α)}
  {s s' : System α} {l : Label}

/-- The log of adapter calls only grows. -/
theorem Move.call_kept (move : Move w s l s') {n : Nat} {call : AdapterCall}
    (made : s.backend.calls[n]? = some call) : s'.backend.calls[n]? = some call := by
  rcases move.calls with same | ⟨_, _, _, _, added⟩
  · rwa [same]
  · rw [added, List.getElem?_append_left (List.getElem?_eq_some_iff.mp made).1]
    exact made

/-- A COMPLETED or FAILED claim stays as it is. -/
theorem Move.final_kept (move : Move w s l s') {decisionID : GoString} {h : Holding}
    (held : s.backend.store.holding? decisionID = some h)
    (final : h.state = .completed ∨ h.state = .failed) :
    s'.backend.store.holding? decisionID = some h := by
  rcases move.quiet_or_exec with quiet | ⟨i, a, c, b', body', -, -, performed, rfl⟩
  · rw [quiet.holding]
    exact held
  · obtain ⟨wr, change, -, -⟩ := performed.change.row decisionID
    exact change.absorbing held final

/-- What the answer of a finished attempt says for ever: which adapter call, made in which
state of the past, returned what; and that the claim is COMPLETED. -/
def Happened (w : Worker α) (past : List (System α)) (s : System α) (x : Execution) :
    Activity → Reply → Prop
  | .dispatchConfig req, .outcome o =>
      ∃ u ∈ past, s.backend.calls[u.backend.calls.length]? = some ⟨.dispatch, x, req.dispatch⟩ ∧
      ∃ adapter ctx, w.adapter = some adapter ∧
        o = (adapter.dispatch ctx req.dispatch u.backend.target).2.checked
  | .reconcileDispatch req, .outcome o =>
      o.status ≠ .unknown →
      ∃ u ∈ past, s.backend.calls[u.backend.calls.length]? = some ⟨.reconcile, x, req⟩ ∧
      ∃ adapter ctx, w.adapter = some adapter ∧
        o = (adapter.reconcile ctx req u.backend.target).2.checked
  | .revertStateCompensation req, .done =>
      ∃ u ∈ past, s.backend.calls[u.backend.calls.length]? = some ⟨.compensate, x, req⟩ ∧
      ∃ adapter ctx, w.adapter = some adapter ∧
        (adapter.compensate ctx req u.backend.target).2 = none
  | .advanceExecutionClaim t, .done =>
      t.toState = .completed →
        s.backend.store.holding? t.decisionID = some ⟨claimOwner x t.token, .completed⟩
  | _, _ => True

theorem Happened.next {x : Execution} {act : Activity} {r : Reply}
    (happened : Happened w past s x act r) (move : Move w s l s') :
    Happened w (past ++ [s]) s' x act r := by
  unfold Happened at happened ⊢
  split
  · obtain ⟨u, visited, made, rest⟩ := happened
    exact ⟨u, List.mem_append_left _ visited, move.call_kept made, rest⟩
  · intro certain
    obtain ⟨u, visited, made, rest⟩ := happened certain
    exact ⟨u, List.mem_append_left _ visited, move.call_kept made, rest⟩
  · obtain ⟨u, visited, made, rest⟩ := happened
    exact ⟨u, List.mem_append_left _ visited, move.call_kept made, rest⟩
  · intro completes
    exact move.final_kept (happened completes) (Or.inl rfl)
  · trivial

/-- **What a finished attempt answered did happen.** -/
theorem Visits.happened (visits : Visits w G past s) :
    ∀ a ∈ s.attempts, ∀ r, a.body = .finished r → Happened w past s a.caller a.activity r := by
  refine finished_facts (F := fun past s x act r => Happened w past s x act r) ?_ ?_ visits
  · intro past s l s' x act r _ _ move happened
    exact happened.next move
  · intro past s i c a run b' r _ _ _ _ ran
    have report := (perform_performed ran).report r rfl
    have visited : s ∈ past ++ [s] := by simp
    generalize a.activity = act at ran report ⊢
    unfold Happened
    split
    · rename_i req o
      obtain ⟨adapter, configured, rfl, rfl⟩ := dispatchConfig_outcome ran
      exact ⟨s, visited, by simp [Backend.called], adapter, c.ctx, configured, rfl⟩
    · rename_i req o
      intro certain
      rcases reconcileDispatch_outcome ran with unknown | ⟨adapter, configured, rfl, rfl⟩
      · exact absurd unknown certain
      · exact ⟨s, visited, by simp [Backend.called], adapter, c.ctx, configured, rfl⟩
    · rename_i req
      obtain ⟨adapter, configured, rfl, fine⟩ := revertStateCompensation_done ran
      exact ⟨s, visited, by simp [Backend.called], adapter, c.ctx, configured, fine⟩
    · rename_i t
      intro completes
      have held := report rfl
      rw [completes] at held
      exact held
    · trivial

/-! ## What a row says -/

/-- The wait before, and what the run made of its answer. -/
theorem Run.origin (sdk : Sdk) (run : Run) {k : Nat} (within : k + 1 ≤ run.history.length) :
    ∃ e, run.history[k]? = some e ∧
      Origin sdk (run.threadAt sdk k) e.reply (run.threadAt sdk (k + 1)).point := by
  have event := List.getElem?_eq_getElem within
  refine ⟨_, event, ?_⟩
  rw [Run.threadAt_succ sdk run event]
  exact resume_origin sdk run.req _ _

/-- A run compensates without an error exactly if that is what it heard. -/
theorem compensate_error {sdk : Sdk} {req : ExecutionRequest} {prior : Thread} {e : Event}
    {o : DispatchOutcome} {failure : GoString} (here : prior.point = .compensate o)
    (passed : (resume sdk req prior e).point = .auditCompensation none failure) :
    e.reply.error? = none := by
  cases said : e.reply.error? with
  | none => rfl
  | some err =>
      simp only [Workflows.resume, here, said] at passed
      cases passed

section Answers

variable {runID : GoString} {run : Run} {k : Nat} {e : Event} {act : Activity} {opts : Options}

/-- An answer that is no error was given by an attempt, and what it says happened. -/
theorem Visits.answer_happened (visits : Visits w G past s) (known : s.runs runID = some run)
    (own : run.inherited ≤ k) (event : run.history[k]? = some e)
    (waits : run.awaits w.sdk runID k = .activity act opts) (fine : e.reply.error? = none) :
    Happened w past s ⟨run.workflowID, runID⟩ act e.reply ∧
      (act.plain = true → e.reply = .done) := by
  rcases visits.reaches.heard runID run k e known own event act opts waits with
    ⟨a, member, caller, -, rfl, finished⟩ | ⟨err, said, -⟩
  · refine ⟨caller ▸ visits.happened a member e.reply finished, ?_⟩
    intro plain
    rcases visits.reaches.plain_reply a member e.reply finished plain with said | ⟨err, said⟩
    · exact said
    · rw [said] at fine
      cases fine
  · rw [said] at fine
    cases fine

end Answers

/-- The verdict is the outcome the adapter returned. -/
def States (v : AuditVerdict) (o : DispatchOutcome) : Prop :=
  (v = .named .pass ∧ o.status = .success) ∨ (v = .named .fail ∧ o.status = .failure)

theorem auditVerdict_states {o : DispatchOutcome}
    (certain : auditVerdict o.checked ≠ .named .unknown) : States (auditVerdict o.checked) o := by
  have known : o.checked.status ≠ .unknown := by
    intro unknown
    exact certain ((auditVerdict_unknown_iff o.checked_checked).mpr unknown)
  have status := DispatchOutcome.status_of_checked known
  rcases o.checked_status with success | failure | unknown
  · exact Or.inl ⟨by simp [auditVerdict, success], status.trans success⟩
  · exact Or.inr ⟨by simp [auditVerdict, failure], status.trans failure⟩
  · exact absurd unknown known

/-- The rows of a run, in a state with the past `past`: their order, and what each says. -/
structure RowsTrue (w : Worker α) (past : List (System α)) (s : System α) (runID : GoString)
    (run : Run) : Prop where
  /-- the rows the run attempts are in order -/
  order : OnWord (run.attemptedRows w.sdk)
  /-- the rows it has written are among them -/
  written : ∀ row ∈ s.rowsOf runID, ∃ phase, row.phase = .named phase ∧
    (phase, row.verdict) ∈ run.attemptedRows w.sdk
  fence : ∀ v, (.executionFence, v) ∈ run.attemptedRows w.sdk →
    ∀ call ∈ s.backend.calls, call.method = .dispatch → call.caller.runID ≠ runID
  dispatch : ∀ v, (.dispatch, v) ∈ run.attemptedRows w.sdk → v ≠ .named .unknown →
    ∃ u ∈ past, s.backend.calls[u.backend.calls.length]? =
        some ⟨.dispatch, ⟨run.workflowID, runID⟩, dispatchRequest run.req⟩ ∧
      ∃ adapter ctx, w.adapter = some adapter ∧
        States v (adapter.dispatch ctx (dispatchRequest run.req) u.backend.target).2
  reconciliation : ∀ v, (.reconciliation, v) ∈ run.attemptedRows w.sdk → v ≠ .named .unknown →
    ∃ u ∈ past, s.backend.calls[u.backend.calls.length]? =
        some ⟨.reconcile, ⟨run.workflowID, runID⟩, dispatchRequest run.req⟩ ∧
      ∃ adapter ctx, w.adapter = some adapter ∧
        States v (adapter.reconcile ctx (dispatchRequest run.req) u.backend.target).2
  complete : ∀ v, (.workflowComplete, v) ∈ run.attemptedRows w.sdk →
    s.backend.store.holding? run.req.ingressDecisionID =
      some ⟨claimOwner ⟨run.workflowID, runID⟩ (run.thread w.sdk).token, .completed⟩
  compensation : (.compensation, .named .pass) ∈ run.attemptedRows w.sdk →
    ∃ u ∈ past, s.backend.calls[u.backend.calls.length]? =
        some ⟨.compensate, ⟨run.workflowID, runID⟩, dispatchRequest run.req⟩ ∧
      ∃ adapter ctx, w.adapter = some adapter ∧
        (adapter.compensate ctx (dispatchRequest run.req) u.backend.target).2 = none

/-- The point that writes a row, by the row's phase. -/
def WrittenAt (v : AuditVerdict) (p : Point) : PhaseName → Prop
  | .executionFence =>
      (∃ released err, p = .auditFenceRejected released err) ∨ ∃ o, p = .auditFenceUnknown o
  | .dispatch => ∃ o, p = .auditDispatch o ∧ v = auditVerdict o
  | .reconciliation => ∃ o, p = .auditReconciliation o ∧ v = auditVerdict o
  | .compensation => ∃ err failure, p = .auditCompensation err failure ∧ (v = .named .pass → err = none)
  | .workflowComplete => p = .auditComplete
  | _ => True

theorem rowOf_writtenAt {sdk : Sdk} {req : ExecutionRequest} {p : Point} {phase : PhaseName}
    {v : AuditVerdict} (row : rowOf sdk req p = some (phase, v)) : WrittenAt v p phase := by
  cases p with
  | auditCompensation err failure =>
      cases err <;> cases row
      · exact ⟨none, failure, rfl, fun _ => rfl⟩
      · exact ⟨_, failure, rfl, nofun⟩
  | auditFenceRejected released err => cases row; exact Or.inl ⟨released, err, rfl⟩
  | auditFenceUnknown o => cases row; exact Or.inr ⟨o, rfl⟩
  | auditDispatch o => cases row; exact ⟨o, rfl, rfl⟩
  | auditReconciliation o => cases row; exact ⟨o, rfl, rfl⟩
  | auditComplete => cases row; rfl
  | _ => cases row <;> trivial

section Rows

variable {sdk : Sdk} {runID : GoString} {run : Run} {v : AuditVerdict}

/-- A row stands behind a wait, and says what the run made of its answer. -/
theorem Run.row_origin {phase : PhaseName} (row : (phase, v) ∈ run.attemptedRows sdk) :
    ∃ k e, k + 1 ≤ run.history.length ∧ run.history[k]? = some e ∧
      WrittenAt v (run.threadAt sdk (k + 1)).point phase ∧
      Origin sdk (run.threadAt sdk k) e.reply (run.threadAt sdk (k + 1)).point := by
  obtain ⟨k, within, here⟩ := Run.mem_attemptedRows.mp row
  cases k with
  | zero => cases here
  | succ k =>
      obtain ⟨e, heard, origin⟩ := run.origin sdk within
      exact ⟨k, e, within, heard, rowOf_writtenAt here, origin⟩

/-- A fence row follows a fence error of the dispatch step. -/
theorem Run.fence_error (row : (.executionFence, v) ∈ run.attemptedRows sdk) :
    ∃ e err fence, run.history[6]? = some e ∧ e.reply = .failed err ∧
      fenceFailure err = some fence := by
  obtain ⟨k, e, within, -, written, origin⟩ := Run.row_origin row
  have released : ∃ fence err, (run.threadAt sdk k).point = .releaseFenced fence err := by
    rcases written with ⟨released, err, here⟩ | ⟨o, here⟩ <;> rw [here] at origin
    · obtain ⟨fence, before, -⟩ := origin
      exact ⟨fence, err, before⟩
    · obtain ⟨fence, err, before, -⟩ := origin
      exact ⟨fence, err, before⟩
  obtain ⟨fence, err, before⟩ := released
  have ended := run.ended sdk (Nat.le_of_succ_le within)
  rw [before] at ended
  obtain ⟨-, ⟨now, heard⟩, fenced⟩ := ended
  exact ⟨_, err, fence, heard, rfl, fenced⟩

/-- A certain verdict was read off the answer it is about, of a dispatch or a reconciliation. -/
theorem outcome_certain {r : Reply} {made : Except ActivityError DispatchOutcome → DispatchOutcome}
    (reads : made = dispatchOutcome sdk ∨ made = reconcileOutcome sdk)
    (certain : auditVerdict (made r.getOutcome) ≠ .named .unknown) :
    ∃ o, r = .outcome o ∧ made r.getOutcome = o.checked := by
  cases read : r.getOutcome with
  | error err =>
      rw [read] at certain
      rcases reads with rfl | rfl <;> exact absurd rfl certain
  | ok o =>
      refine ⟨o, Reply.getOutcome_ok read, ?_⟩
      rcases reads with rfl | rfl <;> rfl

/-- A confirmed reconciliation row repeats the answer of the reconciliation before it. -/
theorem Run.reconciliation_answer (row : (.reconciliation, v) ∈ run.attemptedRows sdk)
    (certain : v ≠ .named .unknown) :
    ∃ k e o, run.history[k]? = some e ∧ e.reply = .outcome o ∧ v = auditVerdict o.checked ∧
      ∃ start wait, (run.threadAt sdk k).point = .reconcile start wait := by
  obtain ⟨k, e, within, heard, ⟨o, here, rfl⟩, origin⟩ := Run.row_origin row
  rw [here] at origin
  rcases origin with ⟨start, wait, before, rfl⟩ | ⟨start, wait, before⟩
  · obtain ⟨reported, said, same⟩ := outcome_certain (.inr rfl) certain
    exact ⟨k, e, reported, heard, said, by rw [same], start, wait, before⟩
  · -- the run gave up on an outcome that is unknown
    have learnt := run.learnt sdk [] (Nat.le_of_succ_le within)
    rw [before] at learnt
    refine absurd ?_ certain
    unfold auditVerdict
    rw [learnt.2.1]

variable (visits : Visits w G past s) (known : s.runs runID = some run)

include visits known

theorem Visits.fence_row (row : (.executionFence, v) ∈ run.attemptedRows w.sdk) :
    ∀ call ∈ s.backend.calls, call.method = .dispatch → call.caller.runID ≠ runID := by
  obtain ⟨e, err, fence, heard, failed, fenced⟩ := Run.fence_error row
  rintro call made dispatch rfl
  rw [visits.reaches.dispatched_unfenced made dispatch known heard failed] at fenced
  cases fenced

/-- The rows a run has written are rows it attempted. -/
theorem Visits.written_row {row : AuditRecord} (written : row ∈ s.rowsOf runID) :
    ∃ phase, row.phase = .named phase ∧ (phase, row.verdict) ∈ run.attemptedRows w.sdk := by
  obtain ⟨member, own⟩ := List.mem_filter.mp written
  obtain ⟨a, there, rec, now, act, rfl⟩ := visits.reaches.row_source row member
  obtain ⟨run', placed⟩ := visits.reaches.placed a there
  obtain ⟨phase, verdict, detail, here, rfl⟩ := (placed.awaited act).recordAuditTrail
  have caller : a.caller.runID = runID := by
    simpa [stamped_fields, newAuditRecord] using own
  subst caller
  cases placed.known.symm.trans known
  refine ⟨phase, by simp [stamped_fields, newAuditRecord], Run.mem_attemptedRows.mpr ?_⟩
  refine ⟨a.index, placed.within, ?_⟩
  simp [rowOf, here, stamped_fields, newAuditRecord]

variable (fresh : run.inherited = 0)

include fresh

theorem Visits.dispatch_row (row : (.dispatch, v) ∈ run.attemptedRows w.sdk)
    (certain : v ≠ .named .unknown) :
    ∃ u ∈ past, s.backend.calls[u.backend.calls.length]? =
        some ⟨.dispatch, ⟨run.workflowID, runID⟩, dispatchRequest run.req⟩ ∧
      ∃ adapter ctx, w.adapter = some adapter ∧
        States v (adapter.dispatch ctx (dispatchRequest run.req) u.backend.target).2 := by
  obtain ⟨k, -, within, -, ⟨o, here, rfl⟩, -⟩ := Run.row_origin row
  have ended := run.ended w.sdk within
  rw [here] at ended
  obtain ⟨dispatches, e, heard, rfl, -⟩ := ended
  obtain ⟨reported, said, same⟩ := outcome_certain (.inl rfl) certain
  have waits : run.awaits w.sdk runID 6 =
      .activity (.dispatchConfig (fencedDispatch run.req (run.threadAt w.sdk 6).token))
        activityOpts :=
    Run.awaits_eq _ dispatches
  have happened := (visits.answer_happened known (by omega) heard waits (by rw [said]; rfl)).1
  rw [said] at happened
  obtain ⟨u, visited, made, adapter, ctx, configured, rfl⟩ := happened
  rw [same, DispatchOutcome.checked_checked] at certain ⊢
  exact ⟨u, visited, made, adapter, ctx, configured, auditVerdict_states certain⟩

theorem Visits.reconciliation_row (row : (.reconciliation, v) ∈ run.attemptedRows w.sdk)
    (certain : v ≠ .named .unknown) :
    ∃ u ∈ past, s.backend.calls[u.backend.calls.length]? =
        some ⟨.reconcile, ⟨run.workflowID, runID⟩, dispatchRequest run.req⟩ ∧
      ∃ adapter ctx, w.adapter = some adapter ∧
        States v (adapter.reconcile ctx (dispatchRequest run.req) u.backend.target).2 := by
  obtain ⟨k, e, o, heard, said, rfl, start, wait, here⟩ := Run.reconciliation_answer row certain
  have waits : run.awaits w.sdk runID k =
      .activity (.reconcileDispatch (dispatchRequest run.req)) bookCtx :=
    Run.awaits_eq _ here
  have happened := (visits.answer_happened known (by omega) heard waits (by rw [said]; rfl)).1
  rw [said] at happened
  have decided : o.status ≠ .unknown := by
    rcases auditVerdict_states certain with ⟨-, status⟩ | ⟨-, status⟩ <;> rw [status] <;> decide
  obtain ⟨u, visited, made, adapter, ctx, configured, rfl⟩ := happened decided
  rw [DispatchOutcome.checked_checked] at certain ⊢
  exact ⟨u, visited, made, adapter, ctx, configured, auditVerdict_states certain⟩

theorem Visits.complete_row (row : (.workflowComplete, v) ∈ run.attemptedRows w.sdk) :
    s.backend.store.holding? run.req.ingressDecisionID =
      some ⟨claimOwner ⟨run.workflowID, runID⟩ (run.thread w.sdk).token, .completed⟩ := by
  obtain ⟨k, e, within, heard, here, origin⟩ := Run.row_origin row
  rw [show (run.threadAt w.sdk (k + 1)).point = .auditComplete from here] at origin
  obtain ⟨before, fine, -⟩ := origin
  have late : 7 ≤ k := Run.threadAt_afterDispatch (Nat.le_of_succ_le within) (by rw [before]; rfl)
  have token : (run.thread w.sdk).token = (run.threadAt w.sdk k).token := by
    rw [Run.thread, Run.token_fixed (by omega) (Nat.le_refl _),
      Run.token_fixed (by omega) (Nat.le_of_succ_le within)]
  have waits : run.awaits w.sdk runID k = .activity (.advanceExecutionClaim
      ⟨run.req.ingressDecisionID, (run.threadAt w.sdk k).token, .completed⟩) claimCtx :=
    Run.awaits_eq _ before
  obtain ⟨happened, done⟩ := visits.answer_happened known (by omega) heard waits fine
  rw [done rfl] at happened
  rw [token]
  exact happened rfl

theorem Visits.compensation_row
    (row : (.compensation, .named .pass) ∈ run.attemptedRows w.sdk) :
    ∃ u ∈ past, s.backend.calls[u.backend.calls.length]? =
        some ⟨.compensate, ⟨run.workflowID, runID⟩, dispatchRequest run.req⟩ ∧
      ∃ adapter ctx, w.adapter = some adapter ∧
        (adapter.compensate ctx (dispatchRequest run.req) u.backend.target).2 = none := by
  obtain ⟨k, e, within, heard, ⟨err, failure, here, passed⟩, origin⟩ := Run.row_origin row
  obtain rfl := passed rfl
  have next := here
  rw [Run.threadAt_succ w.sdk run heard] at next
  rw [here] at origin
  obtain ⟨o, before⟩ := origin
  have schedules : run.Schedules w.sdk runID k _ :=
    Run.compensate_schedules (Nat.le_of_succ_le within) before
  obtain ⟨-, opts, waits⟩ := schedules
  obtain ⟨happened, done⟩ :=
    visits.answer_happened known (by omega) heard waits (compensate_error before next)
  rw [done rfl] at happened
  exact happened

end Rows

/-- **The audit rows of a run never claim more than happened**, whatever its activities
answer and whenever it is stopped, unless it was created by a reset. -/
theorem audit_rows_true (visits : Visits w anyStep past s) {runID : GoString} {run : Run}
    (known : s.runs runID = some run) (fresh : run.inherited = 0) :
    RowsTrue w past s runID run where
  order := run.attempted_onWord w.sdk
  written _ := visits.written_row known
  fence _ := visits.fence_row known
  dispatch _ := visits.dispatch_row known fresh
  reconciliation _ := visits.reconciliation_row known fresh
  complete _ := visits.complete_row known fresh
  compensation := visits.compensation_row known fresh

theorem audit_rows_true_demo :
    (∃ past run, Visits (worker plainSdk) anyStep past (demo completedRun) ∧
      (demo completedRun).runs (ascii "r") = some run ∧
      run.attemptedRows plainSdk = [(.revalidation, .named .pass), (.dispatch, .named .pass),
        (.workflowComplete, .named .pass)] ∧
      RowsTrue (worker plainSdk) past (demo completedRun) (ascii "r") run) ∧
    (∃ past run, Visits (worker plainSdk) anyStep past (demo failedRun) ∧
      (demo failedRun).runs (ascii "r") = some run ∧
      run.attemptedRows plainSdk = [(.revalidation, .named .pass), (.dispatch, .named .fail),
        (.compensation, .named .pass), (.workflowFailed, .named .fail)] ∧
      RowsTrue (worker plainSdk) past (demo failedRun) (ascii "r") run) := by
  constructor
  · have rows : ((demo completedRun).runs (ascii "r")).map (fun run =>
        (run.inherited, run.attemptedRows plainSdk)) =
        some (0, [(.revalidation, .named .pass), (.dispatch, .named .pass),
          (.workflowComplete, .named .pass)]) := by decide +kernel
    obtain ⟨run, known, here⟩ := Option.map_eq_some_iff.mp rows
    obtain ⟨fresh, attempted⟩ := Prod.mk.inj here
    obtain ⟨past, visits⟩ := (demo_reachable completedRun).visits
    exact ⟨past, run, visits, known, attempted, audit_rows_true visits known fresh⟩
  · have rows : ((demo failedRun).runs (ascii "r")).map (fun run =>
        (run.inherited, run.attemptedRows plainSdk)) =
        some (0, [(.revalidation, .named .pass), (.dispatch, .named .fail),
          (.compensation, .named .pass), (.workflowFailed, .named .fail)]) := by decide +kernel
    obtain ⟨run, known, here⟩ := Option.map_eq_some_iff.mp rows
    obtain ⟨fresh, attempted⟩ := Prod.mk.inj here
    obtain ⟨past, visits⟩ := (demo_reachable failedRun).visits
    exact ⟨past, run, visits, known, attempted, audit_rows_true visits known fresh⟩

end SentryGate.Workflows
