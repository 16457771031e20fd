/-
# Workflows.AuditTrail -- a run that returns nil has written its audit rows

After the dispatch an audit error must not stop the saga.  It is kept in `auditErr` and
reported when the claim is COMPLETED.  The row of the dispatch and the row of its
reconciliation share that variable, and the second write overwrites what the first one
left: `audit_failure_lost` is a run whose dispatch row could not be written, whose
outcome was reconciled, and which returns nil.

`Heeded` rules out that step.  Along heeded steps every phase of a run that returns nil
has its row (`Visits.audited`), and the phases are those of the success path
(`audit_trail_complete`).
-/
import SentryGate.Workflows.Authorized

namespace SentryGate.Workflows

open Theory.Text Theory.Machine Contracts Policy Decision Audit

set_option autoImplicit false

variable {α : Type} {w : Worker α} {G : System α → Label → Prop} {s s' : System α} {l : Label}

/-! ## A failure that is lost -/

/-- The run has returned nil. -/
def System.completed (sdk : Sdk) (s : System α) (runID : GoString) : Bool :=
  (s.runs runID).any fun run => (run.thread sdk).point = .closed none

/-- The store cannot be written. -/
def unwritable : Conditions := { calm with fault := .unwritten }

/-- Attempt `i` is launched and fails. -/
def failedAttempt (i : Nat) : List Label := [.launch (ascii "r"), .exec i unwritable]

/-- The response of the dispatch is lost and its row cannot be written, in all three
attempts; then the outcome is reconciled, and everything else is written. -/
def lostAuditRun : List Label :=
  dispatchedRun lostResponseNodeID ++
  failedAttempt 6 ++ failedAttempt 7 ++ failedAttempt 8 ++
  [.deliver (ascii "r") (.attempt 8) ⟨1⟩] ++
  round (ascii "r") 9 ++ round (ascii "r") 10 ++ round (ascii "r") 11 ++ round (ascii "r") 12 ++
  round (ascii "r") 13

/-- **A run can return nil without the row of its dispatch.** -/
theorem audit_failure_lost :
    Reachable (worker plainSdk) (demo lostAuditRun) ∧
    (demo lostAuditRun).completed plainSdk (ascii "r") = true ∧
    (demo lostAuditRun).backend.dispatches (executionKey (ascii "d")) = 1 ∧
    ∀ row ∈ (demo lostAuditRun).backend.audits,
      row.phase ≠ .named .dispatch ∧ row.phase ≠ .named .executionFence :=
  ⟨demo_reachable _, by decide +kernel, by decide +kernel, by decide +kernel⟩

/-! ## The success path -/

/-- The points from which a run can still return nil. -/
def Point.OnTrack : Point → Prop
  | .rejectRecord _ | .rejectAudit _ | .auditDenied _ | .auditFenceRejected _ _ | .markFailed _
  | .compensate _ | .auditCompensation _ _ | .auditWorkflowFailed _ => False
  | .releaseOnExit result | .closed result => result = none
  | _ => True

/-- The points up to the first audit row whose error is kept. -/
def Point.early : Point → Bool
  | .verifyIngress | .executionToken | .claimExecution | .evaluateExecution | .recordDecision _
  | .auditPassed _ | .dispatchConfig | .releaseFenced _ _ | .auditFenceUnknown _
  | .auditDispatch _ => true
  | _ => false

section Thread

variable {sdk : Sdk} {req : ExecutionRequest} {prior : Thread} {e : Event}

/-- Only the last audit row leads to nil, if it was written. -/
theorem Leaves.nil {auditErr : Option GoString} {r : Reply} {p : Point}
    (leaves : Leaves auditErr r none p) : p = .auditComplete ∧ r.error? = none := by
  cases p <;> simp_all [Leaves, HasType, PersistFailed, applicationError]

/-- A run on the success path was on it, and an audit error that is not kept would have
ended it. -/
theorem onTrack_resume (track : (resume sdk req prior e).point.OnTrack) :
    prior.point.OnTrack ∧ (auditRow sdk req prior.point ≠ none →
      prior.point.setsAuditErr = false → e.reply.error? = none) := by
  have origin := resume_origin sdk req prior e
  generalize (resume sdk req prior e).point = p at origin track
  cases p <;> simp only [Point.OnTrack] at track <;> simp only [Origin] at origin <;>
    grind [Point.OnTrack, auditRow, Point.setsAuditErr, Leaves.nil]

/-- Up to the first row whose error is kept, none is kept. -/
theorem early_resume (early : (resume sdk req prior e).point.early = true) :
    prior.point.early = true ∧ prior.point.setsAuditErr = false := by
  have origin := resume_origin sdk req prior e
  generalize (resume sdk req prior e).point = p at origin early
  cases p <;> simp only [Point.early, Bool.false_eq_true] at early <;>
    simp only [Origin] at origin <;> grind [Point.early, Point.setsAuditErr]

theorem replay_early {startedAt : Time} {history : List Event}
    (early : (replay sdk req startedAt history).point.early = true) :
    (replay sdk req startedAt history).auditErr = none := by
  refine replay_induction (P := fun _ th => th.point.early = true → th.auditErr = none)
    sdk req startedAt (fun _ => rfl) ?_ history early
  intro history th e ih early
  obtain ⟨before, keeps⟩ := early_resume early
  rw [(resume_locals sdk req th e).auditErr, keeps]
  exact ih before

/-- The points from which a run returns nil if the last row is written. -/
def Point.Finishing : Point → Prop
  | .auditComplete => True
  | .releaseOnExit result | .closed result => result = none
  | _ => False

theorem finishing_resume (finishing : (resume sdk req prior e).point.Finishing) :
    prior.point.Finishing ∨ prior.point = .markCompleted ∧ prior.auditErr = none := by
  have origin := resume_origin sdk req prior e
  generalize (resume sdk req prior e).point = p at origin finishing
  cases p with
  | auditComplete =>
      obtain ⟨here, -, clean⟩ := origin
      exact Or.inr ⟨here, clean⟩
  | releaseOnExit result =>
      obtain rfl : result = none := finishing
      obtain ⟨leaves, -⟩ := origin
      exact Or.inl (by rw [leaves.nil.1]; trivial)
  | closed result =>
      obtain rfl : result = none := finishing
      rcases origin with here | here | ⟨leaves, -⟩
      · exact Or.inl (by rw [here]; rfl)
      · exact Or.inl (by rw [here]; rfl)
      · exact Or.inl (by rw [leaves.nil.1]; trivial)
  | _ => exact finishing.elim

/-- A run that completes has no audit error to report. -/
theorem replay_finishing {startedAt : Time} {history : List Event}
    (finishing : (replay sdk req startedAt history).point.Finishing) :
    (replay sdk req startedAt history).auditErr = none := by
  refine replay_induction (P := fun _ th => th.point.Finishing → th.auditErr = none)
    sdk req startedAt (fun _ => rfl) ?_ history finishing
  intro history th e ih finishing
  have keeps : th.point.setsAuditErr = false := by
    rcases finishing_resume finishing with before | ⟨before, -⟩
    · cases here : th.point <;> rw [here] at before <;> first | rfl | exact before.elim
    · rw [before]
      rfl
  rw [(resume_locals sdk req th e).auditErr, keeps]
  rcases finishing_resume finishing with before | ⟨-, clean⟩
  · exact ih before
  · exact clean

end Thread

/-! ## Rows of a run -/

/-- The audit store holds a row of run `x` of this workflow. -/
def System.HasRow (s : System α) (run : Run) (x : GoString) (phase : PhaseName)
    (verdict : AuditVerdict) (detail : GoString) : Prop :=
  ∃ row ∈ s.backend.audits, row.runID = x ∧ row.workflowID = run.workflowID ∧
    row.proposalID = run.req.proposal.id ∧ row.phase = .named phase ∧ row.verdict = verdict ∧
    row.detail = detail

/-- The row that the run's wait at `k` was about, if any, is stored: as a row of the run,
or of the one it inherited that wait from. -/
def Audited (sdk : Sdk) (s : System α) (runID : GoString) (run : Run) (k : Nat) : Prop :=
  ∀ phase verdict detail,
    auditRow sdk run.req (run.threadAt sdk k).point = some (phase, verdict, detail) →
    ∃ x ∈ runID :: run.lineage, (run.inherited ≤ k → x = runID) ∧
      s.HasRow run x phase verdict detail

namespace Audited

variable {sdk : Sdk} {runID : GoString} {run run' : Run} {k : Nat}

theorem move (audited : Audited sdk s runID run k) (move : Move w s l s') :
    Audited sdk s' runID run k := by
  intro phase verdict detail here
  obtain ⟨x, known, own, row, member, fields⟩ := audited phase verdict detail here
  exact ⟨x, known, own, row, move.audits member, fields⟩

theorem later (audited : Audited sdk s runID run k) (later : run.Extends run')
    (within : k ≤ run.history.length) : Audited sdk s runID run' k := by
  intro phase verdict detail here
  rw [later.threadAt sdk within, later.req] at here
  obtain ⟨x, known, own, row, member, fields⟩ := audited phase verdict detail here
  refine ⟨x, later.lineage ▸ known, later.inherited ▸ own, row, member, ?_⟩
  rw [later.workflowID, later.req]
  exact fields

/-- A reset keeps the rows of the run it continues. -/
theorem inherit {base : GoString} {j : Nat} {canceled : Bool} {within : j ≤ run.history.length}
    (audited : Audited sdk s base run k) (before : k < j) :
    Audited sdk s runID (run.reset base j canceled within) k := by
  intro phase verdict detail here
  rw [Run.threadAt_reset sdk run base canceled within before.le] at here
  obtain ⟨x, known, -, row⟩ := audited phase verdict detail here
  refine ⟨x, List.mem_cons_of_mem _ known, fun own => ?_, row⟩
  exact absurd own (Nat.not_le_of_lt before)

end Audited

/-- An audit row that a run is told was written is stored. -/
theorem Visits.audit_written {past : List (System α)} (visits : Visits w G past s)
    {runID : GoString} {run : Run} {source : Source} {reply : Reply}
    (known : s.runs runID = some run) (said : answer w s runID run source = some reply)
    (fine : reply.error? = none) : Audited w.sdk s runID run run.history.length := by
  intro phase verdict detail here
  have waits : run.awaits w.sdk runID run.history.length =
      .activity (.recordAuditTrail (newAuditRecord run.req.proposal.id run.workflowID runID
        (.named phase) verdict run.req.proposal detail (run.thread w.sdk).now
        (run.thread w.sdk).auditSeq))
        (if (run.thread w.sdk).dispatching then claimCtx else bookCtx) := by
    unfold Run.awaits await
    rw [here]
    rfl
  obtain ⟨a, member, -, -, act, finished⟩ :=
    visits.reaches.answered_done known (answer_answered said) waits rfl fine
  have lasting := visits.lasting a member _ finished
  rw [act] at lasting
  obtain ⟨stamp, row⟩ := lasting rfl
  exact ⟨runID, List.mem_cons_self, fun _ => rfl, _, row, stamped_fields _ stamp⟩

/-! ## Heeded steps -/

/-- The success of the reconciliation's audit row is not reported to a run that has an
audit error to report. -/
def Heeded (w : Worker α) (s : System α) : Label → Bool
  | .deliver runID source _ =>
      match s.runs runID with
      | none => true
      | some run =>
          match (run.thread w.sdk).point with
          | .auditReconciliation _ =>
              (run.thread w.sdk).auditErr.isNone ||
                (answer w s runID run source).any (·.error?.isSome)
          | _ => true
  | _ => true

theorem Heeded.clean {runID : GoString} {run : Run} {source : Source} {reply : Reply} {now : Time}
    {o : DispatchOutcome} (heeded : admits (Heeded w) s (.deliver runID source now))
    (known : s.runs runID = some run)
    (here : (run.thread w.sdk).point = .auditReconciliation o)
    (said : answer w s runID run source = some reply) (fine : reply.error? = none) :
    (run.thread w.sdk).auditErr = none := by
  simpa [admits, Heeded, known, here, said, fine] using heeded

/-- A run that goes on without an audit error had none before. -/
theorem Heeded.auditErr {runID : GoString} {run : Run} {source : Source} {reply : Reply}
    {now : Time} (heeded : admits (Heeded w) s (.deliver runID source now))
    (known : s.runs runID = some run) (said : answer w s runID run source = some reply)
    (clean : (resume w.sdk run.req (run.thread w.sdk) { reply, now }).auditErr = none) :
    (run.thread w.sdk).auditErr = none ∧
      ((run.thread w.sdk).point.setsAuditErr = true → reply.error? = none) := by
  rw [(resume_locals w.sdk run.req (run.thread w.sdk) { reply, now }).auditErr] at clean
  cases sets : (run.thread w.sdk).point.setsAuditErr with
  | false =>
      rw [sets] at clean
      exact ⟨clean, fun impossible => by cases impossible⟩
  | true =>
      have fine : reply.error? = none := by
        rw [sets] at clean
        simpa using clean
      refine ⟨?_, fun _ => fine⟩
      cases here : (run.thread w.sdk).point with
      | auditReconciliation o => exact Heeded.clean heeded known here said fine
      | auditFenceUnknown o => exact replay_early (by rw [← Run.threadAt, ← Run.thread, here]; rfl)
      | auditDispatch o => exact replay_early (by rw [← Run.threadAt, ← Run.thread, here]; rfl)
      | _ =>
          rw [here] at sets
          cases sets

/-- **Every row of a run that can still return nil is stored**, along heeded steps, unless
it has an audit error to report. -/
theorem Visits.audited {past : List (System α)} (visits : Visits w (admits (Heeded w)) past s)
    {runID : GoString} {run : Run} {k : Nat} (known : s.runs runID = some run)
    (within : k ≤ run.history.length) (track : (run.threadAt w.sdk k).point.OnTrack)
    (clean : (run.threadAt w.sdk k).auditErr = none) :
    ∀ j < k, Audited w.sdk s runID run j := by
  refine (run_facts (F := fun _ s runID run k th => k ≤ run.history.length + 1 ∧
    (th.point.OnTrack → th.auditErr = none → ∀ j < k, Audited w.sdk s runID run j))
    ?_ ?_ ?_ ?_ ?_ visits runID run k known within).2 track clean
  · intro past s runID workflowID req now
    exact ⟨Nat.zero_le _, fun _ _ j before => absurd before (Nat.not_lt_zero j)⟩
  · rintro past s l s' runID run k th _ _ move _ ⟨within, audited⟩
    exact ⟨within, fun track clean j before => (audited track clean j before).move move⟩
  · rintro past s runID run run' k th later ⟨within, audited⟩
    have grown := later.history.length_le
    exact ⟨by omega, fun track clean j before =>
      (audited track clean j before).later later (by omega)⟩
  · rintro past s runID run source reply now visits heeded known said ⟨-, audited⟩
    refine ⟨Nat.le_refl _, fun track clean j before => ?_⟩
    obtain ⟨earlier, unkept⟩ := onTrack_resume track
    obtain ⟨none_kept, kept⟩ := Heeded.auditErr heeded known said clean
    by_cases old : j < run.history.length
    · exact audited earlier none_kept j old
    · obtain rfl : j = run.history.length := by omega
      intro phase verdict detail here
      have writes : auditRow w.sdk run.req (run.thread w.sdk).point ≠ none := by
        rw [Run.thread, here]
        simp
      have fine : reply.error? = none := by
        cases sets : (run.thread w.sdk).point.setsAuditErr with
        | true => exact kept sets
        | false => exact unkept writes sets
      exact visits.audit_written known said fine phase verdict detail here
  · rintro past s runID base run k j canceled within inside ⟨-, audited⟩
    refine ⟨?_, fun track clean i before =>
      (audited track clean i before).inherit (Nat.lt_of_lt_of_le before inside)⟩
    simp only [Run.reset, List.length_take]
    omega

/-! ## The phases of the success path -/

/-- One of the first `k` waits of the run was at such a point. -/
def Run.Saw (sdk : Sdk) (run : Run) (k : Nat) (P : Point → Prop) : Prop :=
  ∃ j < k, P (run.threadAt sdk j).point

/-- The audit rows a run on the success path has behind it. -/
def Behind (saw : (Point → Prop) → Prop) : Point → Prop
  | .dispatchConfig | .releaseFenced _ _ | .auditFenceUnknown _ | .auditDispatch _ =>
      saw fun p => ∃ dec, p = .auditPassed dec
  | .requireReconciliation | .reconcile _ _ | .reconcileSleep _ _ _ | .auditReconciliation _
  | .markCompleted | .auditComplete =>
      (saw fun p => ∃ dec, p = .auditPassed dec) ∧
      (saw fun p => ∃ o, p = .auditDispatch o ∨ p = .auditFenceUnknown o)
  | .releaseOnExit none | .closed none =>
      (saw fun p => ∃ dec, p = .auditPassed dec) ∧
      (saw fun p => ∃ o, p = .auditDispatch o ∨ p = .auditFenceUnknown o) ∧
      (saw fun p => p = .auditComplete)
  | _ => True

theorem Behind.resume {sdk : Sdk} {req : ExecutionRequest} {prior : Thread} {e : Event}
    {old new : (Point → Prop) → Prop} (next : ∀ P, old P → new P)
    (now : ∀ P : Point → Prop, P prior.point → new P) (behind : Behind old prior.point) :
    Behind new (resume sdk req prior e).point := by
  have origin := resume_origin sdk req prior e
  generalize (Workflows.resume sdk req prior e).point = p at origin ⊢
  have ended : ∀ r, Leaves prior.auditErr r none prior.point → Behind new (.closed none) := by
    intro r leaves
    obtain ⟨here, -⟩ := leaves.nil
    rw [here] at behind
    exact ⟨next _ behind.1, next _ behind.2, now _ here⟩
  cases p with
  | dispatchConfig =>
      obtain ⟨passed, -⟩ := origin
      exact now _ passed
  | releaseFenced fence err =>
      obtain ⟨here, -⟩ := origin
      rw [here] at behind
      exact next _ behind
  | auditFenceUnknown o =>
      obtain ⟨fence, err, here, -⟩ := origin
      rw [here] at behind
      exact next _ behind
  | auditDispatch o =>
      obtain ⟨here, -⟩ := origin
      rw [here] at behind
      exact next _ behind
  | requireReconciliation =>
      rcases origin with ⟨o, here⟩ | ⟨o, here, -⟩ <;> rw [here] at behind
      · exact ⟨next _ behind, now _ ⟨o, Or.inr here⟩⟩
      · exact ⟨next _ behind, now _ ⟨o, Or.inl here⟩⟩
  | reconcile start wait =>
      rcases origin with here | ⟨wait', last, here, -⟩ <;> rw [here] at behind <;>
        exact ⟨next _ behind.1, next _ behind.2⟩
  | reconcileSleep start wait last =>
      obtain ⟨here, -⟩ := origin
      rw [here] at behind
      exact ⟨next _ behind.1, next _ behind.2⟩
  | auditReconciliation o =>
      rcases origin with ⟨start, wait, here, -⟩ | ⟨start, wait, here⟩ <;> rw [here] at behind <;>
        exact ⟨next _ behind.1, next _ behind.2⟩
  | markCompleted =>
      obtain ⟨o, here | here, -⟩ := origin <;> rw [here] at behind
      · exact ⟨next _ behind, now _ ⟨o, Or.inl here⟩⟩
      · exact ⟨next _ behind.1, next _ behind.2⟩
  | auditComplete =>
      obtain ⟨here, -⟩ := origin
      rw [here] at behind
      exact ⟨next _ behind.1, next _ behind.2⟩
  | releaseOnExit result =>
      cases result with
      | none => exact ended _ origin.1
      | some err => trivial
  | closed result =>
      cases result with
      | some err => trivial
      | none =>
          rcases origin with here | here | ⟨leaves, -⟩
          · rw [here] at behind
            exact ⟨next _ behind.1, next _ behind.2.1, next _ behind.2.2⟩
          · rw [here] at behind
            exact ⟨next _ behind.1, next _ behind.2.1, next _ behind.2.2⟩
          · exact ended _ leaves
  | _ => trivial

/-- What a run has behind it at every wait. -/
theorem Run.behind (sdk : Sdk) (run : Run) {k : Nat} (within : k ≤ run.history.length) :
    Behind (run.Saw sdk k) (run.threadAt sdk k).point := by
  refine Run.threadAt_induction (P := fun k th => Behind (run.Saw sdk k) th.point) trivial ?_ within
  intro k e _ behind
  refine Behind.resume ?_ ?_ behind
  · rintro P ⟨j, before, here⟩
    exact ⟨j, Nat.lt_succ_of_lt before, here⟩
  · exact fun P here => ⟨k, Nat.lt_succ_self k, here⟩

/-- The reconciliation loop. -/
def Point.reconciling : Point → Bool
  | .reconcile _ _ | .reconcileSleep _ _ _ => true
  | _ => false

theorem reconciling_resume {sdk : Sdk} {req : ExecutionRequest} {prior : Thread} {e : Event}
    (here : prior.point.reconciling = true) :
    (resume sdk req prior e).point.reconciling = true ∨
      ∃ o, (resume sdk req prior e).point = .auditReconciliation o := by
  cases stands : prior.point with
  | reconcile start wait =>
      simp only [resume, stands, resumeReconcile]
      split
      · exact Or.inr ⟨_, rfl⟩
      · exact Or.inl rfl
  | reconcileSleep start wait last =>
      simp only [resume, stands]
      split
      · exact Or.inr ⟨_, rfl⟩
      · exact Or.inl rfl
  | _ =>
      rw [stands] at here
      cases here

/-- A run leaves the reconciliation loop only through its audit row. -/
theorem Run.reconciled {sdk : Sdk} {run : Run} {j k : Nat} (within : k ≤ run.history.length)
    (before : j ≤ k) (here : (run.threadAt sdk j).point.reconciling = true) :
    (run.threadAt sdk k).point.reconciling = true ∨
      ∃ i ≤ k, ∃ o, (run.threadAt sdk i).point = .auditReconciliation o := by
  induction k, before using Nat.le_induction with
  | base => exact Or.inl here
  | succ k before ih =>
      rcases ih (Nat.le_of_succ_le within) with still | ⟨i, earlier, o, audits⟩
      · have event := List.getElem?_eq_getElem within
        rcases reconciling_resume still with again | ⟨o, audits⟩
        · exact Or.inl (by rw [Run.threadAt_succ sdk run event]; exact again)
        · exact Or.inr ⟨k + 1, Nat.le_refl _, o, by rw [Run.threadAt_succ sdk run event]; exact audits⟩
      · exact Or.inr ⟨i, Nat.le_succ_of_le earlier, o, audits⟩

/-- A row of the run or, for a wait it inherited, of a run it continues. -/
def System.RowOf (s : System α) (runID : GoString) (run : Run) (phase : PhaseName)
    (verdict : AuditVerdict) : Prop :=
  ∃ x ∈ runID :: run.lineage, ∃ detail, s.HasRow run x phase verdict detail

theorem Audited.rowOf {sdk : Sdk} {runID : GoString} {run : Run} {k : Nat} {phase : PhaseName}
    {verdict : AuditVerdict} {detail : GoString} (audited : Audited sdk s runID run k)
    (here : auditRow sdk run.req (run.threadAt sdk k).point = some (phase, verdict, detail)) :
    s.RowOf runID run phase verdict := by
  obtain ⟨x, known, -, row⟩ := audited phase verdict detail here
  exact ⟨x, known, detail, row⟩

/-- **A run that returns nil has an audit row for every phase it went through**, in every
state that heeded steps reach: PASS of the re-validation, the row of its dispatch or of
its fence, the row of its reconciliation if it reconciled, and the completion. -/
theorem audit_trail_complete (reached : Reaches w (admits (Heeded w)) s) {runID : GoString}
    {run : Run} (known : s.runs runID = some run)
    (returned : (run.thread w.sdk).point = .closed none) :
    (∀ k < run.history.length, Audited w.sdk s runID run k) ∧
    s.RowOf runID run .revalidation (.named .pass) ∧
    ((∃ o, s.RowOf runID run .dispatch (auditVerdict o)) ∨
      s.RowOf runID run .executionFence (.named .unknown)) ∧
    ((∃ k ≤ run.history.length, ∃ start wait,
        (run.threadAt w.sdk k).point = .reconcile start wait) →
      ∃ o, s.RowOf runID run .reconciliation (auditVerdict o)) ∧
    s.RowOf runID run .workflowComplete (.named .pass) := by
  obtain ⟨past, visits⟩ := reached.visits
  have clean : (run.thread w.sdk).auditErr = none :=
    replay_finishing (by rw [← Run.threadAt, ← Run.thread, returned]; rfl)
  have audited : ∀ k < run.history.length, Audited w.sdk s runID run k :=
    visits.audited known (Nat.le_refl _) (by rw [← Run.thread, returned]; rfl) clean
  have behind := run.behind w.sdk (Nat.le_refl run.history.length)
  rw [← Run.thread, returned] at behind
  obtain ⟨⟨p, passBefore, dec, passed⟩, ⟨d, dispatchBefore, o, dispatched⟩,
    c, completeBefore, completed⟩ := behind
  refine ⟨audited, ?_, ?_, ?_, ?_⟩
  · exact (audited p passBefore).rowOf (by rw [passed]; rfl)
  · rcases dispatched with dispatched | fenced
    · exact Or.inl ⟨o, (audited d dispatchBefore).rowOf (by rw [dispatched]; rfl)⟩
    · exact Or.inr ((audited d dispatchBefore).rowOf (by rw [fenced]; rfl))
  · rintro ⟨k, within, start, wait, here⟩
    rcases Run.reconciled (Nat.le_refl _) within (by rw [here]; rfl) with
      still | ⟨i, earlier, o', audits⟩
    · rw [← Run.thread, returned] at still
      cases still
    · have before : i < run.history.length := by
        refine Nat.lt_of_le_of_ne earlier ?_
        rintro rfl
        cases returned.symm.trans audits
      exact ⟨o', (audited i before).rowOf (by rw [audits]; rfl)⟩
  · exact (audited c completeBefore).rowOf (by rw [completed]; rfl)

/-- The response of the dispatch is lost, the outcome is reconciled, and every row is
written. -/
def reconciledRun : List Label :=
  dispatchedRun lostResponseNodeID ++ round (ascii "r") 6 ++ round (ascii "r") 7 ++
  round (ascii "r") 8 ++ round (ascii "r") 9 ++ round (ascii "r") 10 ++ round (ascii "r") 11

theorem System.completed_iff {sdk : Sdk} {runID : GoString} : s.completed sdk runID = true ↔
    ∃ run, s.runs runID = some run ∧ (run.thread sdk).point = .closed none := by
  simp [System.completed, Option.any_eq_true]

theorem audit_trail_complete_demo :
    ∃ run, (demo reconciledRun).runs (ascii "r") = some run ∧
      (run.thread plainSdk).point = .closed none ∧
      (demo reconciledRun).RowOf (ascii "r") run .revalidation (.named .pass) ∧
      (demo reconciledRun).RowOf (ascii "r") run .workflowComplete (.named .pass) := by
  have reached : Reaches (worker plainSdk) (admits (Heeded (worker plainSdk)))
      (demo reconciledRun) := ⟨_, _, runFrom_guarded (by decide +kernel)⟩
  obtain ⟨run, known, returned⟩ := System.completed_iff.mp
    (show (demo reconciledRun).completed plainSdk (ascii "r") = true by decide +kernel)
  obtain ⟨-, passed, -, -, completed⟩ := audit_trail_complete reached known returned
  exact ⟨run, known, returned, passed, completed⟩

end SentryGate.Workflows
