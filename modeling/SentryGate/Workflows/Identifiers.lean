/-
# Workflows.Identifiers -- what a run writes is found under an ID of its own

A run names its decision record `wf_workflowID_runID` and its audit rows
`proposalID-runID-phase-seq`.  The separators also occur inside the parts, so the names are
read from the right: the counter and the phase hold no hyphen, and the run ID is of known
length.

* `workflowDecisionID_injective`, `recordID_injective` -- among run IDs of one length, a
  name gives back what it was made of.
* `Run.audits_once`, `Run.records_once` -- a run counts its rows and records one decision.
* `Reaches.record_once`, `Reaches.row_once` -- so two waits that write under one ID are one
  wait of one run.
* `Reaches.record_alone`, `Reaches.row_alone` -- and what is stored under the ID a run
  writes is what the run writes there.
-/
import SentryGate.Workflows.History
import SentryGate.Theory.Bytes

namespace SentryGate.Workflows

open Theory.Text Theory.Bytes Theory.Machine Contracts Decision Audit

set_option autoImplicit false

variable {α : Type} {w : Worker α} {G : System α → Label → Prop} {s s' : System α} {l : Label}

/-! ## Names -/

/-- Among run IDs of one length, a record ID names its run. -/
theorem workflowDecisionID_injective {x y : Execution} (sized : x.runID.length = y.runID.length)
    (same : workflowDecisionID x = workflowDecisionID y) : x = y := by
  unfold workflowDecisionID at same
  obtain ⟨front, run⟩ := List.append_inj' same sized
  have workflow := List.append_cancel_left (List.append_cancel_right front)
  cases x
  cases y
  simp only at run workflow
  rw [run, workflow]

/-- Workflow names begin alike, and unlike those of the ingress. -/
theorem workflowDecisionID_marked (x : Execution) : ascii "wf_" <+: workflowDecisionID x :=
  ⟨x.workflowID ++ ascii "_" ++ x.runID, by simp [workflowDecisionID]⟩

theorem unmarked_of_ingress {id : GoString} (ingress : ascii "dec_" <+: id) :
    ¬ ascii "wf_" <+: id := by
  rintro ⟨rest, rfl⟩
  obtain ⟨rest', same⟩ := ingress
  cases (List.cons.inj same).1

/-- The digits of a counter are the ASCII ones. -/
theorem digit_range {n : Nat} {c : Char} (digit : c ∈ Nat.toDigits 10 n) :
    48 ≤ c.toNat ∧ c.toNat ≤ 57 := by
  have isDigit := Nat.isDigit_of_mem_toDigits (by decide) (by decide) digit
  simp only [Char.isDigit, Bool.and_eq_true, decide_eq_true_eq] at isDigit
  exact isDigit

theorem char_of_digit {n : Nat} {c : Char} (digit : c ∈ Nat.toDigits 10 n) :
    Char.ofNat (UInt8.ofNat c.toNat).toNat = c := by
  obtain ⟨-, high⟩ := digit_range digit
  have small : c.toNat % 2 ^ 8 = c.toNat := Nat.mod_eq_of_lt (by omega)
  rw [UInt8.toNat_ofNat', small, Char.ofNat_toNat]

theorem dash_notMem_decimal (n : Nat) : (45 : UInt8) ∉ decimal n := by
  intro member
  obtain ⟨c, digit, same⟩ := List.mem_map.mp member
  obtain ⟨low, high⟩ := digit_range digit
  have value := congrArg UInt8.toNat same
  simp only [UInt8.toNat_ofNat'] at value
  have : (45 : UInt8).toNat = 45 := rfl
  omega

/-- The digits of a counter give back its value. -/
theorem decimal_injective {n m : Nat} (same : decimal n = decimal m) : n = m := by
  have back : ∀ k, (decimal k).map (fun b => Char.ofNat b.toNat) = Nat.toDigits 10 k := by
    intro k
    unfold decimal
    rw [List.map_map]
    conv_rhs => rw [← List.map_id (Nat.toDigits 10 k)]
    exact List.map_congr_left fun c digit => char_of_digit digit
  have digits : Nat.toDigits 10 n = Nat.toDigits 10 m := by
    rw [← back n, ← back m, same]
  rw [← Nat.ofDigitChars_ten_toDigits (n := n), digits, Nat.ofDigitChars_ten_toDigits]

theorem dash_notMem_phase (phase : PhaseName) : (45 : UInt8) ∉ (Open.named phase : AuditPhase).text := by
  cases phase <;> decide

/-- Among run IDs of one length, a row ID names its run, its phase and its number. -/
theorem recordID_injective {p p' r r' : GoString} {phase phase' : PhaseName} {n n' : Nat}
    (sized : r.length = r'.length)
    (same : p ++ ascii "-" ++ r ++ ascii "-" ++ (Open.named phase : AuditPhase).text ++ ascii "-" ++
        decimal n =
      p' ++ ascii "-" ++ r' ++ ascii "-" ++ (Open.named phase' : AuditPhase).text ++ ascii "-" ++
        decimal n') : r = r' ∧ phase = phase' ∧ n = n' := by
  have cut : ∀ {a b c d : GoString}, (45 : UInt8) ∉ b → (45 : UInt8) ∉ d →
      a ++ ascii "-" ++ b = c ++ ascii "-" ++ d → a = c ∧ b = d := by
    intro a b c d behind behind' same
    apply append_cons_injective behind behind'
    simpa [show ascii "-" = [45] from rfl] using same
  -- neither the number nor the phase holds a hyphen, and what is left ends in the run ID
  obtain ⟨front, numbers⟩ := cut (dash_notMem_decimal n) (dash_notMem_decimal n') same
  obtain ⟨identity, phases⟩ := cut (dash_notMem_phase phase) (dash_notMem_phase phase') front
  exact ⟨(List.append_inj' identity sized).2, Wire.injective phases, decimal_injective numbers⟩

/-! ## The counter of audit rows -/

/-- Every answer that leads to an audit row counts it, and no other one does. -/
theorem resume_auditSeq (sdk : Sdk) (req : ExecutionRequest) (prior : Thread) (e : Event) :
    (resume sdk req prior e).auditSeq = prior.auditSeq +
      if (auditRow sdk req (resume sdk req prior e).point).isSome then 1 else 0 := by
  unfold resume resumeDispatch resumeReleaseFenced resumeReconcile resumeMarkFailed
    resumeCompensate Thread.settle Thread.exit
  simp only
  split <;> rename_i here <;> (repeat' split) <;> simp_all [Thread.goto, Thread.audit, auditRow]

theorem Run.auditSeq_le {sdk : Sdk} {run : Run} {i j : Nat} (before : i ≤ j)
    (within : j ≤ run.history.length) :
    (run.threadAt sdk i).auditSeq ≤ (run.threadAt sdk j).auditSeq := by
  refine Run.threadAt_stays (P := fun th => (run.threadAt sdk i).auditSeq ≤ th.auditSeq) ?_
    (Nat.le_refl _) before within
  intro th e reached
  rw [resume_auditSeq]
  exact reached.trans (Nat.le_add_right _ _)

/-- An audit row has a higher number than any before it. -/
theorem Run.auditSeq_lt {sdk : Sdk} {run : Run} {i j : Nat} (before : i < j)
    (within : j ≤ run.history.length)
    (row : (auditRow sdk run.req (run.threadAt sdk j).point).isSome) :
    (run.threadAt sdk i).auditSeq < (run.threadAt sdk j).auditSeq := by
  obtain ⟨k, rfl⟩ := Nat.exists_eq_add_one_of_ne_zero (Nat.ne_zero_of_lt before)
  have reached : (run.threadAt sdk i).auditSeq ≤ (run.threadAt sdk k).auditSeq :=
    Run.auditSeq_le (Nat.le_of_lt_succ before) (Nat.le_of_succ_le within)
  rw [Run.threadAt_succ sdk run (List.getElem?_eq_getElem within)] at row ⊢
  rw [resume_auditSeq, if_pos row]
  exact Nat.lt_succ_of_le reached

/-- A run writes one row under each number. -/
theorem Run.audits_once {sdk : Sdk} {run : Run} {i j : Nat} (inside : i ≤ run.history.length)
    (inside' : j ≤ run.history.length)
    (here : (auditRow sdk run.req (run.threadAt sdk i).point).isSome)
    (there : (auditRow sdk run.req (run.threadAt sdk j).point).isSome)
    (same : (run.threadAt sdk i).auditSeq = (run.threadAt sdk j).auditSeq) : i = j := by
  rcases Nat.lt_trichotomy i j with earlier | equal | later
  · exact absurd same (Run.auditSeq_lt earlier inside' there).ne
  · exact equal
  · exact absurd same.symm (Run.auditSeq_lt later inside here).ne

/-! ## The decision record -/

/-- The points that write the decision record of a run. -/
def Point.records : Point → Bool
  | .rejectRecord _ | .recordDecision _ => true
  | _ => false

/-- The points behind the decision record. -/
def Point.recorded : Point → Bool
  | .verifyIngress | .executionToken | .claimExecution | .evaluateExecution | .rejectRecord _
  | .recordDecision _ => false
  | _ => true

theorem recorded_resume {sdk : Sdk} {req : ExecutionRequest} {prior : Thread} {e : Event}
    (done : prior.point.recorded = true ∨ prior.point.records = true) :
    (resume sdk req prior e).point.recorded = true := by
  have origin := resume_origin sdk req prior e
  generalize (resume sdk req prior e).point = p at origin ⊢
  cases p <;> simp only [Origin] at origin <;> grind [Point.recorded, Point.records]

/-- A run records one decision. -/
theorem Run.records_once {sdk : Sdk} {run : Run} {i j : Nat} (inside : i ≤ run.history.length)
    (inside' : j ≤ run.history.length) (here : (run.threadAt sdk i).point.records = true)
    (there : (run.threadAt sdk j).point.records = true) : i = j := by
  refine Run.point_once Point.records Point.recorded ?_ ?_ ?_ inside inside' here there
  · exact fun th e records => recorded_resume (Or.inr records)
  · exact fun th e done => recorded_resume (Or.inl done)
  · intro p done
    cases p <;> simp [Point.recorded, Point.records] at done ⊢

/-! ## Waits that write -/

/-- The decision a point records. -/
def Point.decision : Point → Option Decision
  | .recordDecision dec => some dec
  | .rejectRecord rej => some rej.decision
  | _ => none

theorem Point.records_of_decision {p : Point} {dec : Decision} (writes : p.decision = some dec) :
    p.records = true := by
  cases p <;> first | rfl | cases writes

/-- A run of `s` waits for the activity after its first `k` answers. -/
structure Awaited (sdk : Sdk) (s : System α) (x : Execution) (k : Nat) (act : Activity)
    (run : Run) : Prop where
  known : s.runs x.runID = some run
  workflowID : x.workflowID = run.workflowID
  within : k ≤ run.history.length
  waits : ∃ opts, run.awaits sdk x.runID k = .activity act opts

/-- An attempt belongs to a wait. -/
theorem Placed.awaited {sdk : Sdk} {a : Attempt} {run : Run} {act : Activity}
    (placed : Placed sdk s a run) (tries : a.activity = act) :
    Awaited sdk s a.caller a.index act run :=
  ⟨placed.known, placed.workflowID, placed.within, tries ▸ placed.waits⟩

namespace Awaited

variable {sdk : Sdk} {x : Execution} {k : Nat} {run : Run}

/-- What a wait for the decision record writes. -/
theorem recordDecision {rec : DecisionRecord}
    (awaited : Awaited sdk s x k (.recordDecision rec) run) :
    ∃ dec, (run.threadAt sdk k).point.decision = some dec ∧
      rec = decisionRecord sdk.toRuntime x run.req dec (run.threadAt sdk k).now := by
  obtain ⟨opts, waits⟩ := awaited.waits
  have caller : (⟨run.workflowID, x.runID⟩ : Execution) = x := by
    rw [← awaited.workflowID]
  unfold Run.awaits at waits
  rw [caller] at waits
  rcases await_asks waits with ⟨dec, here, same⟩ | ⟨rej, here, same⟩
  · exact ⟨dec, by rw [here]; rfl, same⟩
  · exact ⟨rej.decision, by rw [here]; rfl, same⟩

/-- What a wait for an audit row writes. -/
theorem recordAuditTrail {rec : AuditRecord}
    (awaited : Awaited sdk s x k (.recordAuditTrail rec) run) :
    ∃ phase verdict detail,
      auditRow sdk run.req (run.threadAt sdk k).point = some (phase, verdict, detail) ∧
      rec = newAuditRecord run.req.proposal.id x.workflowID x.runID (.named phase) verdict
        run.req.proposal detail (run.threadAt sdk k).now (run.threadAt sdk k).auditSeq := by
  obtain ⟨opts, waits⟩ := awaited.waits
  rw [awaited.workflowID]
  exact await_asks waits

/-- A wait is for one activity. -/
theorem unique {act act' : Activity} {run' : Run} (first : Awaited sdk s x k act run)
    (second : Awaited sdk s x k act' run') : act = act' := by
  cases first.known.symm.trans second.known
  obtain ⟨opts, waits⟩ := first.waits
  obtain ⟨opts', waits'⟩ := second.waits
  cases waits.symm.trans waits'
  rfl

end Awaited

/-! ## Names of one length -/

/-- Steps that keep the names apart: run IDs are of one length, and nothing else is
appended under a workflow's name. -/
structure Apart (n : Nat) (G : System α → Label → Prop) : Prop where
  foreign : ∀ s ctx rec, G s (.append ctx rec) → ¬ ascii "wf_" <+: rec.decisionID
  started : ∀ s runID workflowID req now, G s (.start runID workflowID req now) → runID.length = n
  reset : ∀ s runID base k canceled, G s (.reset runID base k canceled) → runID.length = n

/-- A run that is new and has heard nothing was just started. -/
theorem Move.started (move : Move w s l s') {runID workflowID : GoString} {req : ExecutionRequest}
    {now : Time} (fresh : s.runs runID = none)
    (known : s'.runs runID = some (.started workflowID req now)) :
    l = .start runID workflowID req now := by
  have elsewhere : ∀ {id : GoString} {run : Run},
      (s.setRun id run).runs runID = some (.started workflowID req now) →
      id = runID ∧ run = .started workflowID req now := by
    intro id run found
    rw [System.runs_setRun] at found
    split at found
    · rename_i here
      exact ⟨here.symm, Option.some.inj found⟩
    · cases fresh.symm.trans found
  cases move with
  | start id workflowID' req' now' fresh' =>
      obtain ⟨rfl, same⟩ := elsewhere known
      cases same
      rfl
  | reset id base run k canceled fresh' found within =>
      obtain ⟨-, same⟩ := elsewhere known
      have lineage := congrArg Run.lineage same
      cases lineage
  | cancel id run found =>
      obtain ⟨rfl, -⟩ := elsewhere known
      cases fresh.symm.trans found
  | deliver id run source reply now' found answered =>
      obtain ⟨rfl, -⟩ := elsewhere known
      cases fresh.symm.trans found
  | load => cases fresh.symm.trans known
  | append => cases fresh.symm.trans known
  | launch => cases fresh.symm.trans known
  | exec => cases fresh.symm.trans known

theorem Reaches.sized {n : Nat} (apart : Apart n G) (reached : Reaches w G s) :
    ∀ runID run, s.runs runID = some run → runID.length = n := by
  refine reached.induction (P := fun s => ∀ runID run, s.runs runID = some run →
    runID.length = n) ?_ ?_
  · intro policy target runID run known
    cases known
  intro s l s' _ sized admitted move runID run' known
  cases move.runStep known with
  | kept run run' before later same => exact sized runID run before
  | heard run source reply now label before said => exact sized runID run before
  | started workflowID req now fresh =>
      obtain rfl := move.started fresh known
      exact apart.started _ _ _ _ _ admitted
  | reset base run k canceled label fresh found inside =>
      subst label
      exact apart.reset _ _ _ _ _ admitted

section Apart

variable {n : Nat} {x y : Execution} {j k : Nat} {run run' : Run}

/-- **Two waits that record under one decision ID are one.** -/
theorem Reaches.record_once (apart : Apart n G) (reached : Reaches w G s)
    {rec rec' : DecisionRecord} (first : Awaited w.sdk s x j (.recordDecision rec) run)
    (second : Awaited w.sdk s y k (.recordDecision rec') run')
    (same : rec.decisionID = rec'.decisionID) : x = y ∧ j = k ∧ rec = rec' := by
  obtain ⟨dec, here, written⟩ := first.recordDecision
  obtain ⟨dec', there, written'⟩ := second.recordDecision
  rw [written, written'] at same
  -- one ID, so one run, and a run records one decision
  obtain rfl : x = y := by
    apply workflowDecisionID_injective ?_ same
    rw [reached.sized apart _ _ first.known, reached.sized apart _ _ second.known]
  cases first.known.symm.trans second.known
  obtain rfl : j = k := Run.records_once first.within second.within
    (Point.records_of_decision here) (Point.records_of_decision there)
  exact ⟨rfl, rfl, Activity.recordDecision.inj (first.unique second)⟩

/-- **Two waits that write a row under one record ID are one.** -/
theorem Reaches.row_once (apart : Apart n G) (reached : Reaches w G s)
    {rec rec' : AuditRecord} (first : Awaited w.sdk s x j (.recordAuditTrail rec) run)
    (second : Awaited w.sdk s y k (.recordAuditTrail rec') run')
    (same : rec.recordID = rec'.recordID) : x = y ∧ j = k ∧ rec = rec' := by
  obtain ⟨phase, verdict, detail, here, written⟩ := first.recordAuditTrail
  obtain ⟨phase', verdict', detail', there, written'⟩ := second.recordAuditTrail
  rw [written, written'] at same
  have sized : x.runID.length = y.runID.length := by
    rw [reached.sized apart _ _ first.known, reached.sized apart _ _ second.known]
  -- one ID, so one run and one number, and a run writes one row under each
  obtain ⟨runID, -, number⟩ := recordID_injective sized same
  cases first.known.symm.trans (runID ▸ second.known)
  obtain rfl : x = y := by
    cases x
    cases y
    cases runID
    cases first.workflowID.trans second.workflowID.symm
    rfl
  obtain rfl : j = k := by
    refine Run.audits_once first.within second.within ?_ ?_ number
    · rw [here]
      rfl
    · rw [there]
      rfl
  exact ⟨rfl, rfl, Activity.recordAuditTrail.inj (first.unique second)⟩

end Apart

/-! ## Who wrote what is stored -/

/-- A record after an action was there before, or the action recorded it. -/
theorem Change.mem_records {x : Execution} {b b' : Backend α} {act : Activity} {body body' : Body}
    (change : Change w x b act body b' body') {rec : DecisionRecord}
    (member : rec ∈ b'.store.records) :
    rec ∈ b.store.records ∨ act = .recordDecision rec := by
  cases change with
  | recorded rec' r =>
      rcases b.store.mem_of_mem_appendDecision member with old | rfl
      · exact Or.inl old
      · exact Or.inr rfl
  | acquired req store r writes => exact Or.inl (writes.records ▸ member)
  | advanced t store r unfenced writes => exact Or.inl (writes.records ▸ member)
  | fenced req store body' keyed writes after => exact Or.inl (writes.records ▸ member)
  | same => exact Or.inl member
  | audited => exact Or.inl member
  | dispatched => exact Or.inl member
  | reconciled => exact Or.inl member
  | compensated => exact Or.inl member

/-- The rows after an action are those before, or the action appended one. -/
theorem Change.rows {x : Execution} {b b' : Backend α} {act : Activity} {body body' : Body}
    (change : Change w x b act body b' body') :
    b'.audits = b.audits ∨
      ∃ rec now, act = .recordAuditTrail rec ∧ b'.audits = (appendAudit b.audits rec now).1 := by
  cases change with
  | audited rec now r => exact Or.inr ⟨rec, now, rfl, rfl⟩
  | recorded => exact Or.inl rfl
  | acquired => exact Or.inl rfl
  | advanced => exact Or.inl rfl
  | fenced => exact Or.inl rfl
  | same => exact Or.inl rfl
  | dispatched => exact Or.inl rfl
  | reconciled => exact Or.inl rfl
  | compensated => exact Or.inl rfl

/-- The rows after a step are those before, or an attempt appended one. -/
theorem Move.rows (move : Move w s l s') :
    s'.backend.audits = s.backend.audits ∨
      ∃ a ∈ s.attempts, ∃ rec now, a.activity = .recordAuditTrail rec ∧
        s'.backend.audits = (appendAudit s.backend.audits rec now).1 := by
  rcases move.quiet_or_exec with quiet | ⟨i, a, c, b', body', -, found, performed, rfl⟩
  · exact Or.inl quiet.audits
  · rcases performed.change.rows with same | ⟨rec, now, act, added⟩
    · exact Or.inl same
    · exact Or.inr ⟨a, List.mem_of_getElem? found, rec, now, act, added⟩

/-- **A record named like a workflow's was written by an attempt.** -/
theorem Reaches.record_source {n : Nat} (apart : Apart n G) (reached : Reaches w G s) :
    ∀ rec ∈ s.backend.store.records, ascii "wf_" <+: rec.decisionID →
      ∃ a ∈ s.attempts, a.activity = .recordDecision rec := by
  refine reached.induction (P := fun s => ∀ rec ∈ s.backend.store.records,
    ascii "wf_" <+: rec.decisionID → ∃ a ∈ s.attempts, a.activity = .recordDecision rec) ?_ ?_
  · intro policy target rec member
    cases member
  intro s l s' _ written fits move rec member named
  have kept : (∃ a ∈ s.attempts, a.activity = .recordDecision rec) →
      ∃ a ∈ s'.attempts, a.activity = .recordDecision rec := by
    rintro ⟨a, there, act⟩
    obtain ⟨body, here⟩ := move.attempt_kept there
    exact ⟨_, here, act⟩
  have old : rec ∈ s.backend.store.records → ∃ a ∈ s'.attempts, a.activity = .recordDecision rec :=
    fun before => kept (written rec before named)
  cases move with
  | append ctx rec' =>
      rcases MemoryStore.mem_of_mem_appendDecision _ member with before | rfl
      · exact old before
      · exact absurd named (apart.foreign _ _ _ fits)
  | exec i a c backend body found ran =>
      rcases (perform_performed ran).change.mem_records member with before | act
      · exact old before
      · exact kept ⟨a, List.mem_of_getElem? found, act⟩
  | load => exact old member
  | start => exact old member
  | reset => exact old member
  | cancel => exact old member
  | launch => exact old member
  | deliver => exact old member

/-- **Every audit row was written by an attempt.** -/
theorem Reaches.row_source (reached : Reaches w G s) :
    ∀ row ∈ s.backend.audits, ∃ a ∈ s.attempts, ∃ rec now, a.activity = .recordAuditTrail rec ∧
      row = stamped rec now := by
  refine reached.induction (P := fun s => ∀ row ∈ s.backend.audits, ∃ a ∈ s.attempts,
    ∃ rec now, a.activity = .recordAuditTrail rec ∧ row = stamped rec now) ?_ ?_
  · intro policy target row member
    cases member
  intro s l s' _ written _ move row member
  have kept : (∃ a ∈ s.attempts, ∃ rec now, a.activity = .recordAuditTrail rec ∧
      row = stamped rec now) → ∃ a ∈ s'.attempts, ∃ rec now,
      a.activity = .recordAuditTrail rec ∧ row = stamped rec now := by
    rintro ⟨a, there, rest⟩
    obtain ⟨body, here⟩ := move.attempt_kept there
    exact ⟨_, here, rest⟩
  rcases move.rows with same | ⟨a, there, rec, now, act, added⟩
  · rw [same] at member
    exact kept (written row member)
  · rw [added] at member
    rcases mem_of_mem_appendAudit member with before | rfl
    · exact kept (written row before)
    · exact kept ⟨a, there, rec, now, act, rfl⟩

/-- Audit rows have distinct IDs. -/
theorem Reaches.rows_distinct (reached : Reaches w G s) :
    (s.backend.audits.map AuditRecord.recordID).Nodup := by
  refine reached.induction (P := fun s => (s.backend.audits.map AuditRecord.recordID).Nodup) ?_ ?_
  · intro policy target
    exact List.nodup_nil
  intro s l s' _ distinct _ move
  rcases move.rows with same | ⟨a, -, rec, now, -, added⟩
  · rw [same]
    exact distinct
  · rw [added]
    exact appendAudit_nodup distinct

/-- What is stored under the decision ID of a run is the record the run writes. -/
theorem Reaches.record_alone {n : Nat} (apart : Apart n G) (reached : Reaches w G s)
    {x : Execution} {k : Nat} {run : Run} {rec : DecisionRecord}
    (awaited : Awaited w.sdk s x k (.recordDecision rec) run) :
    ∀ rec' ∈ s.backend.store.records, rec'.decisionID = rec.decisionID → rec' = rec := by
  intro rec' member same
  have marked : ascii "wf_" <+: rec'.decisionID := by
    obtain ⟨dec, -, rfl⟩ := awaited.recordDecision
    rw [same]
    exact workflowDecisionID_marked x
  obtain ⟨a, launched, act⟩ := reached.record_source apart rec' member marked
  obtain ⟨run', placed⟩ := reached.placed a launched
  exact (reached.record_once apart (placed.awaited act) awaited same).2.2

/-- What is stored under a record ID of a run is the row the run writes, with the time of
an attempt if it had none. -/
theorem Reaches.row_alone {n : Nat} (apart : Apart n G) (reached : Reaches w G s)
    {x : Execution} {k : Nat} {run : Run} {rec : AuditRecord}
    (awaited : Awaited w.sdk s x k (.recordAuditTrail rec) run) :
    ∀ row ∈ s.backend.audits, row.recordID = rec.recordID → ∃ now, row = stamped rec now := by
  intro row member same
  obtain ⟨a, launched, rec', now, act, rfl⟩ := reached.row_source row member
  obtain ⟨run', placed⟩ := reached.placed a launched
  rw [stamped_recordID] at same
  obtain ⟨-, -, rfl⟩ := reached.row_once apart (placed.awaited act) awaited same
  exact ⟨now, rfl⟩

end SentryGate.Workflows
