/-
# Workflows.Agreement -- no write of a workflow contradicts what is stored

Temporal makes an activity again until it is answered, so a record or a row may be written
many times over, by attempts whose earlier answers were lost.  Both stores accept a write
that says what is stored under its ID and refuse any other.

`names_agree` says that no such refusal happens.  The decision IDs and record IDs that the
runs generate are pairwise distinct and unlike those of the ingress, so under each of them
there is nothing but the record or row itself.  It is stated of the stores as the runs leave
them, and of the tables of the database after any calls with what the runs write, in any
order and however often.

The time of a row is `workflow.Now`, the time Temporal gives a workflow task.  At Go's zero
time `Append` would replace it by the time of the call.
-/
import SentryGate.Workflows.Rejection
import SentryGate.Audit.Conflicts
import SentryGate.Decision.Rule

namespace SentryGate.Workflows

open Theory.Text Theory.Machine Contracts Decision Audit

set_option autoImplicit false

variable {α : Type} {w : Worker α} {G : System α → Label → Prop} {s s' : System α} {l : Label}

/-! ## What the runs write -/

/-- The audit rows the runs generate. -/
def System.rowsWritten (sdk : Sdk) (s : System α) : Set AuditRecord :=
  { rec | ∃ x k run, Awaited sdk s x k (.recordAuditTrail rec) run }

/-- The decision records the runs generate. -/
def System.recordsWritten (sdk : Sdk) (s : System α) : Set DecisionRecord :=
  { rec | ∃ x k run, Awaited sdk s x k (.recordDecision rec) run }

/-- Run IDs are of one length, and what is appended besides the records of the workflows
has an ID of the ingress. -/
def Named (n : Nat) (_ : System α) : Label → Bool
  | .append _ rec => ascii "dec_" <+: rec.decisionID
  | .start runID _ _ _ => runID.length = n
  | .reset runID _ _ _ => runID.length = n
  | _ => true

theorem Named.apart {n : Nat} : Apart n (admits (Named n : System α → Label → Bool)) where
  foreign s ctx rec fits := unmarked_of_ingress (by simpa [admits, Named] using fits)
  started s runID workflowID req now fits := by simpa [admits, Named] using fits
  reset s runID base k canceled fits := by simpa [admits, Named] using fits

/-! ## The reasons of a record -/

/-- The reasons in an answer are those of the contract. -/
def Reply.Declared : Reply → Prop
  | .verified v => ∀ r, v.reason = some r → ∃ name, r = .named name
  | .claimed c => ∀ r, c.reason = some r → ∃ name, r = .named name
  | .decided d => ∀ r ∈ d.reasons, ∃ name, r = .named name
  | _ => True

theorem verifyIngressDecision_declared {x : Execution} {req : ExecutionRequest} {c : Conditions}
    {b : Backend α} {r : Reply} (ran : verifyIngressDecision w x req c b = .finished r) :
    r.Declared := by
  unfold verifyIngressDecision at ran
  split at ran
  · cases ran
    trivial
  · dsimp only at ran
    split at ran
    · cases ran
      intro r said
      cases said
    · split at ran
      · rename_i known
        cases ran
        intro r said
        cases said
        exact ingressReason_named known
      · cases ran
        trivial

theorem claimExecution_declared {x : Execution} {req : ClaimRequest} {c : Conditions}
    {b : Backend α} {r : Reply} (ran : (claimExecution w x req c b).2 = .finished r) :
    r.Declared := by
  unfold claimExecution at ran
  dsimp only at ran
  split at ran
  · cases ran
    trivial
  split at ran
  · cases ran
    trivial
  split at ran
  · cases ran
    trivial
  split at ran <;> cases ran
  · trivial
  · trivial
  · intro r said
    cases said

theorem claimExecutionRead_declared {x : Execution} {req : ClaimRequest} {c : Conditions}
    {b : Backend α} {r : Reply} (ran : claimExecutionRead w x req c b = .finished r) :
    r.Declared := by
  unfold claimExecutionRead at ran
  split at ran
  · cases ran
    trivial
  · split at ran <;> cases ran <;> intro r said <;> cases said
    exact ⟨_, rfl⟩

/-- `DispatchConfig` returns an outcome or an error. -/
theorem dispatchConfig_answers {x : Execution} {req : FencedDispatch} {body : Body}
    {c : Conditions} {b b' : Backend α} {r : Reply}
    (ran : perform w x (.dispatchConfig req) body c b = some (b', .finished r)) :
    (∃ o, r = .outcome o) ∨ ∃ e, r = .failed e := by
  cases body with
  | start =>
      simp only [perform, dispatchConfig, fenceRejected, fenceUnknown] at ran
      (repeat' split at ran) <;> cases ran <;> exact Or.inr ⟨_, rfl⟩
  | readFence err =>
      simp only [perform, dispatchConfigRead, fenceRejected, fenceUnknown] at ran
      (repeat' split at ran) <;> cases ran <;> exact Or.inr ⟨_, rfl⟩
  | callAdapter =>
      obtain ⟨adapter, -, called⟩ := Option.map_eq_some_iff.mp ran
      cases called
      exact Or.inl ⟨_, rfl⟩
  | readClaim => cases ran
  | finished r' => cases ran

/-- `ReconcileDispatch` returns an outcome. -/
theorem reconcileDispatch_answers {x : Execution} {req : DispatchRequest} {body : Body}
    {c : Conditions} {b b' : Backend α} {r : Reply}
    (ran : perform w x (.reconcileDispatch req) body c b = some (b', .finished r)) :
    ∃ o, r = .outcome o := by
  cases body with
  | start =>
      simp only [perform, reconcileDispatch] at ran
      (repeat' split at ran) <;> cases ran <;> exact ⟨_, rfl⟩
  | _ => cases ran

/-- The reasons a body returns are those of the contract. -/
theorem perform_declared {x : Execution} {act : Activity} {body : Body} {c : Conditions}
    {b b' : Backend α} {r : Reply} (ran : perform w x act body c b = some (b', .finished r)) :
    r.Declared := by
  have performed := perform_performed ran
  have plain : act.plain = true → r.Declared := by
    intro only
    rcases performed.plain r rfl only with rfl | ⟨e, rfl⟩ <;> trivial
  cases act with
  | recordDecision rec => exact plain rfl
  | recordAuditTrail rec => exact plain rfl
  | advanceExecutionClaim t => exact plain rfl
  | revertStateCompensation req => exact plain rfl
  | verifyIngressDecision req =>
      cases body with
      | start => exact verifyIngressDecision_declared (congrArg Prod.snd (Option.some.inj ran))
      | _ => cases ran
  | claimExecution req =>
      cases body with
      | start => exact claimExecution_declared (congrArg Prod.snd (Option.some.inj ran))
      | readClaim => exact claimExecutionRead_declared (congrArg Prod.snd (Option.some.inj ran))
      | _ => cases ran
  | evaluateExecution req =>
      cases body with
      | start =>
          simp only [perform, evaluateExecution] at ran
          split at ran <;> cases ran
          · trivial
          · exact revalidate_reasons _ _ req
      | _ => cases ran
  | dispatchConfig req => rcases dispatchConfig_answers ran with ⟨o, rfl⟩ | ⟨e, rfl⟩ <;> trivial
  | reconcileDispatch req =>
      obtain ⟨o, rfl⟩ := reconcileDispatch_answers ran
      trivial

/-- Every answer gives reasons of the contract only. -/
theorem Reaches.declared (reached : Reaches w G s) :
    ∀ a ∈ s.attempts, ∀ r, a.body = .finished r → r.Declared := by
  obtain ⟨past, visits⟩ := reached.visits
  refine finished_facts (F := fun _ _ _ _ r => r.Declared) ?_ ?_ visits
  · intro past s l s' x act r _ _ _ declared
    exact declared
  · intro past s i c a run b' r _ _ _ _ ran
    exact perform_declared ran

theorem utf8_reason (name : ReasonName) : Utf8 (Open.named name : ReasonCode).text := by
  cases name <;> exact utf8_ascii (by decide)

theorem utf8_reasonField {reason : Option ReasonCode}
    (declared : ∀ r, reason = some r → ∃ name, r = .named name) :
    Utf8 (reasonField reason).text := by
  cases reason with
  | none => exact ⟨[], rfl⟩
  | some r =>
      obtain ⟨name, rfl⟩ := declared r rfl
      exact utf8_reason name

/-- What the thread is about to record, if anything, has reasons that are UTF-8. -/
def Thread.Readable (th : Thread) : Prop :=
  ∀ dec, th.point.decision = some dec → ∀ r ∈ dec.reasons, Utf8 r.text

theorem Thread.Readable.resume {sdk : Sdk} {req : ExecutionRequest} {prior : Thread} {e : Event}
    (declared : e.reply.Declared) : (resume sdk req prior e).Readable := by
  have origin := resume_origin sdk req prior e
  intro dec here r member
  cases point : (Workflows.resume sdk req prior e).point with
  | recordDecision dec' =>
      rw [point] at origin here
      cases here
      obtain ⟨-, said⟩ := origin
      rw [said] at declared
      obtain ⟨name, rfl⟩ := declared r member
      exact utf8_reason name
  | rejectRecord rej =>
      rw [point] at origin here
      cases here
      obtain rfl := List.mem_singleton.mp member
      rcases origin with ⟨-, v, said, -, rfl⟩ | ⟨-, c, said, -, rfl⟩
      · rw [said] at declared
        exact utf8_reasonField declared
      · rw [said] at declared
        exact utf8_reasonField declared
  | _ =>
      rw [point] at here
      cases here

/-- **Every record a run generates has reasons that are UTF-8.** -/
theorem Reaches.readable (reached : Reaches w G s) :
    ∀ runID run k, s.runs runID = some run → k ≤ run.history.length →
      (run.threadAt w.sdk k).Readable := by
  obtain ⟨past, visits⟩ := reached.visits
  refine run_facts (F := fun _ _ _ _ _ th => th.Readable) ?_ ?_ ?_ ?_ ?_ visits
  · intro past s runID workflowID req now dec here
    cases here
  · intro past s l s' runID run k th _ _ _ _ readable
    exact readable
  · intro past s runID run run' k th _ readable
    exact readable
  · intro past s runID run source reply now prior _ known said _
    refine Thread.Readable.resume ?_
    cases answer_answered said with
    | attempt a r member own here finished => exact prior.reaches.declared a member _ finished
    | interrupted e allowed => trivial
    | token text waits => trivial
    | timer d waits => trivial
  · intro past s runID base run k j canceled within _ readable
    exact readable

/-! ## The result -/

/-- The names the runs generate are pairwise distinct: two waits that write under one ID
are one wait of one run, which writes one thing. -/
structure NamesApart (sdk : Sdk) (s : System α) : Prop where
  rows : ∀ x y j k run run' rec rec', Awaited sdk s x j (.recordAuditTrail rec) run →
    Awaited sdk s y k (.recordAuditTrail rec') run' → rec.recordID = rec'.recordID →
    x = y ∧ j = k ∧ rec = rec'
  records : ∀ x y j k run run' rec rec', Awaited sdk s x j (.recordDecision rec) run →
    Awaited sdk s y k (.recordDecision rec') run' → rec.decisionID = rec'.decisionID →
    x = y ∧ j = k ∧ rec = rec'
  ingress : ∀ rec ∈ s.recordsWritten sdk, ∀ text, rec.decisionID ≠ newDecisionID text

/-- `AppendDecision` reports no conflict for a record the runs write: not on the store as
it is, and not on the database after any calls. -/
structure RecordsAgree (sdk : Sdk) (s : System α) : Prop where
  store : ∀ rec ∈ s.recordsWritten sdk, ∀ ctx,
    (s.backend.store.appendDecision ctx rec).2 ≠ some .decisionConflict
  database : ∀ calls : List StoreCall,
    (∀ ctx rec, .appendDecision ctx rec ∈ calls →
      rec ∈ s.recordsWritten sdk ∨ ascii "dec_" <+: rec.decisionID) →
    ∀ rec ∈ s.recordsWritten sdk, ∀ ctx,
      (((sqliteClaims goCodec).after .new calls).appendDecision goCodec ctx rec).2 ≠
        some .decisionConflict

/-- `Append` reports no conflict for a row the runs write, likewise. -/
structure RowsAgree (sdk : Sdk) (s : System α) : Prop where
  store : ∀ rec ∈ s.rowsWritten sdk, ∀ now id,
    (appendAudit s.backend.audits rec now).2 ≠ some (.conflict id)
  database : ∀ calls : List (Context × AppendCall),
    (∀ call ∈ calls, call.2.1 ∈ s.rowsWritten sdk) →
    ∀ rec ∈ s.rowsWritten sdk, ∀ ctx now id,
      ((AuditTable.after .empty calls).append ctx rec now).2 ≠ some (.append (.conflict id))

/-- Temporal's clock: no run has read Go's zero time from it. -/
def System.Clocked (s : System α) : Prop := ∀ runID run, s.runs runID = some run → run.Clocked

section Apart

variable {n : Nat} (apart : Apart n G) (reached : Reaches w G s)

include apart reached

/-- A record ID determines the row. -/
theorem Reaches.rowsWritten_alone {rec rec' : AuditRecord} (member : rec ∈ s.rowsWritten w.sdk)
    (member' : rec' ∈ s.rowsWritten w.sdk) (same : rec'.recordID = rec.recordID) : rec' = rec := by
  obtain ⟨x, k, run, awaited⟩ := member
  obtain ⟨y, j, run', awaited'⟩ := member'
  exact (reached.row_once apart awaited' awaited same).2.2

/-- A decision ID determines the record. -/
theorem Reaches.recordsWritten_alone {rec rec' : DecisionRecord}
    (member : rec ∈ s.recordsWritten w.sdk) (member' : rec' ∈ s.recordsWritten w.sdk)
    (same : rec'.decisionID = rec.decisionID) : rec' = rec := by
  obtain ⟨x, k, run, awaited⟩ := member
  obtain ⟨y, j, run', awaited'⟩ := member'
  exact (reached.record_once apart awaited' awaited same).2.2

omit apart reached in
theorem recordsWritten_marked {sdk : Sdk} {rec : DecisionRecord} (member : rec ∈ s.recordsWritten sdk) :
    ascii "wf_" <+: rec.decisionID := by
  obtain ⟨x, k, run, awaited⟩ := member
  obtain ⟨dec, -, rfl⟩ := awaited.recordDecision
  exact workflowDecisionID_marked x

omit apart reached in
/-- The time of a row is that of the workflow. -/
theorem rowsWritten_timed {sdk : Sdk} {rec : AuditRecord} (clocked : s.Clocked)
    (member : rec ∈ s.rowsWritten sdk) : rec.recordedAt.isZero = false := by
  obtain ⟨x, k, run, awaited⟩ := member
  obtain ⟨phase, verdict, detail, -, rfl⟩ := awaited.recordAuditTrail
  exact (clocked _ _ awaited.known).now sdk awaited.within

omit apart in
theorem Reaches.recordsWritten_utf8 {rec : DecisionRecord} (member : rec ∈ s.recordsWritten w.sdk) :
    ∀ r ∈ rec.reasons, Utf8 r.text := by
  obtain ⟨x, k, run, awaited⟩ := member
  obtain ⟨dec, here, rfl⟩ := awaited.recordDecision
  exact reached.readable _ _ _ awaited.known awaited.within dec here

theorem Reaches.namesApart : NamesApart w.sdk s where
  rows _ _ _ _ _ _ _ _ first second same := reached.row_once apart first second same
  records _ _ _ _ _ _ _ _ first second same := reached.record_once apart first second same
  ingress rec member text same := by
    refine unmarked_of_ingress ?_ (recordsWritten_marked member)
    rw [same]
    exact List.prefix_append _ _

theorem Reaches.recordsAgree : RecordsAgree w.sdk s where
  store := by
    rintro rec ⟨x, k, run, awaited⟩ ctx
    exact s.backend.store.appendDecision_agrees (reached.record_alone apart awaited) ctx
  database calls members rec member ctx := by
    have empty : Store.WrittenFor goCodec .new
        { rec | rec ∈ s.recordsWritten w.sdk ∨ ascii "dec_" <+: rec.decisionID } := by
      intro row there
      cases there
    refine Store.appendDecision_agrees (empty.after members) ?_ (reached.recordsWritten_utf8 member) ctx
    rintro rec' (member' | ingress) same
    · exact reached.recordsWritten_alone apart member member' same
    · -- an ingress record has no workflow's ID
      rw [same] at ingress
      exact absurd (recordsWritten_marked member) (unmarked_of_ingress ingress)

theorem Reaches.rowsAgree (clocked : s.Clocked) : RowsAgree w.sdk s where
  store := by
    intro rec member now id
    have timed := rowsWritten_timed clocked member
    obtain ⟨x, k, run, awaited⟩ := member
    apply appendAudit_agrees
    intro row there same
    obtain ⟨stamp, rfl⟩ := reached.row_alone apart awaited row there same
    rw [stamped_timed timed, stamped_timed timed]
  database calls members rec member ctx now id := by
    have empty : AuditTable.WrittenFor (s.rowsWritten w.sdk) .empty := by
      intro row there
      cases there
    refine AuditTable.append_agrees (empty.after members) ?_ (rowsWritten_timed clocked member) ctx now id
    intro rec' member' same
    exact reached.rowsWritten_alone apart member member' same

end Apart

/-- **The names the runs generate keep their writes apart**, over any history of runs whose
IDs have one length, whatever the proposal and workflow IDs and however often an activity is
attempted: no two rows and no two records share an ID, and neither `AppendDecision` nor
`Append` reports a conflict for one of them. -/
theorem names_agree {n : Nat} (reached : Reaches w (admits (Named n)) s) :
    NamesApart w.sdk s ∧ RecordsAgree w.sdk s ∧ (s.Clocked → RowsAgree w.sdk s) :=
  ⟨reached.namesApart Named.apart, reached.recordsAgree Named.apart, reached.rowsAgree Named.apart⟩

/-- Two runs of one workflow ID that are rejected; the audit row of the first is written
twice, since the answer to the first attempt is not delivered. -/
def retriedRuns : List Label :=
  [.start (ascii "r") (ascii "w") (demoRequest (ascii "n")) ⟨1⟩] ++ round (ascii "r") 0 ++
  round (ascii "r") 1 ++ attempted 2 ++ attempted 3 ++ [.deliver (ascii "r") (.attempt 3) ⟨1⟩] ++
  [.start (ascii "q") (ascii "w") (demoRequest (ascii "n")) ⟨1⟩] ++ round (ascii "q") 4 ++
  round (ascii "q") 5 ++ round (ascii "q") 6

theorem names_agree_retried :
    (demo retriedRuns).backend.audits.map AuditRecord.recordID =
      [ascii "p-r-WORKFLOW_REVALIDATION-1", ascii "p-q-WORKFLOW_REVALIDATION-1"] ∧
    (demo retriedRuns).backend.store.records.map DecisionRecord.decisionID =
      [ascii "wf_w_r", ascii "wf_w_q"] ∧
    NamesApart plainSdk (demo retriedRuns) ∧ RecordsAgree plainSdk (demo retriedRuns) ∧
    RowsAgree plainSdk (demo retriedRuns) := by
  have reached : Reaches (worker plainSdk) (admits (Named 1)) (demo retriedRuns) :=
    ⟨_, _, runFrom_guarded (by decide +kernel)⟩
  obtain ⟨apart, records, rows⟩ := names_agree reached
  refine ⟨by decide +kernel, by decide +kernel, apart, records, rows ?_⟩
  have recordable : Reaches (worker plainSdk) (admits (Recordable (worker plainSdk) 1))
      (demo retriedRuns) := ⟨_, _, runFrom_guarded (by decide +kernel)⟩
  intro runID run known
  exact (recordable.fits runID run known).toClocked

end SentryGate.Workflows
