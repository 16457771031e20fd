/-
# Workflows.Authorized -- every dispatch went through every check

`Adapter.Dispatch` is called only after the whole chain of checks, for the very run
that calls it.  The links are facts about the thread of a run, each established by an
answer and kept from then on, also through a reset:

* `Visits.ingress` -- past the first step, the store holds an ingress ALLOW for
  exactly this request under this workflow ID;
* `Visits.claimed` -- past the claim step, a run that claimed by itself held the
  decision at some time;
* `Visits.judged` -- past the evaluation, a policy that was active after that gave
  the verdict;
* `Visits.persisted` -- at the dispatch step, the decision record and the PASS row
  of that verdict are stored.

A run may inherit some of these answers from a run it was reset from.  It cannot
inherit the fence: that takes the row, and the owner of a row claimed it itself
(`Reaches.owned`), so everything after the claim is its own.  `dispatch_authorized`
puts the links together.
-/
import SentryGate.Workflows.Ownership
import SentryGate.Workflows.Fence

namespace SentryGate.Workflows

open Theory.Text Theory.Machine Theory.Counting Contracts Policy Decision Audit

set_option autoImplicit false

variable {α : Type} {w : Worker α} {G : System α → Label → Prop} {past : List (System α)}
  {s s' : System α} {l : Label}

/-! ## What an answer says for ever -/

/-- The part of an answer's report that no later step undoes. -/
def Lasting (w : Worker α) (x : Execution) (s : System α) : Activity → Reply → Prop
  | .verifyIngressDecision req, .verified v =>
      v.valid = true → ∃ rec ∈ s.backend.store.records,
        verifyIngress w.sdk.toRuntime rec req x.workflowID = none
  | .recordDecision rec, r => r = .done → rec ∈ s.backend.store.records
  | .recordAuditTrail rec, r => r = .done → ∃ now, stamped rec now ∈ s.backend.audits
  | _, _ => True

theorem Lasting.move {x : Execution} {act : Activity} {r : Reply} (move : Move w s l s')
    (lasting : Lasting w x s act r) : Lasting w x s' act r := by
  unfold Lasting at lasting ⊢
  split
  · intro valid
    obtain ⟨rec, member, verified⟩ := lasting valid
    exact ⟨rec, move.records member, verified⟩
  · exact fun done => move.records (lasting done)
  · intro done
    obtain ⟨now, member⟩ := lasting done
    exact ⟨now, move.audits member⟩
  · trivial

/-- What a verification or a write reported is still so. -/
theorem Visits.lasting (visits : Visits w G past s) :
    ∀ a ∈ s.attempts, ∀ r, a.body = .finished r → Lasting w a.caller s a.activity r := by
  refine finished_facts (F := fun _ s x act r => Lasting w x s act r) ?_ ?_ visits
  · intro past s l s' x act r _ _ move lasting
    exact lasting.move move
  · intro past s i c a run b' r _ _ _ _ ran
    have report := (perform_performed ran).report r rfl
    unfold Lasting
    unfold Report at report
    split <;> simp_all

/-! ## The ingress decision -/

/-- The store holds an ingress ALLOW for exactly the execution this run asks for. -/
def Bound (go : Runtime) (s : System α) (run : Run) : Prop :=
  ∃ rec ∈ s.backend.store.records, verifyIngress go rec run.req run.workflowID = none

theorem Visits.ingress (visits : Visits w G past s) :
    ∀ runID run k, s.runs runID = some run → k ≤ run.history.length →
      ∀ n, (run.threadAt w.sdk k).point.place = some (n + 1) → Bound w.sdk.toRuntime s run := by
  refine run_facts (F := fun _ s _ run _ th => ∀ n, th.point.place = some (n + 1) →
    Bound w.sdk.toRuntime s run) ?_ ?_ ?_ ?_ ?_ visits
  · intro past s runID workflowID req now n placed
    cases placed
  · intro past s l s' runID run k th _ _ move _ bound n placed
    obtain ⟨rec, member, verified⟩ := bound n placed
    exact ⟨rec, move.records member, verified⟩
  · intro past s runID run run' k th later bound n placed
    obtain ⟨rec, member, verified⟩ := bound n placed
    exact ⟨rec, member, by rw [later.req, later.workflowID]; exact verified⟩
  · intro past s runID run source reply now visits _ known said bound n placed
    have answered := answer_answered said
    have origin := resume_origin w.sdk run.req (run.thread w.sdk) { reply, now }
    obtain ⟨m, same, before⟩ := resume_place placed
    obtain rfl : n = m := Nat.succ.inj same
    cases n with
    | succ m => exact bound m before
    | zero =>
        -- only the verification leads to the second place
        have here : (resume w.sdk run.req (run.thread w.sdk) { reply, now }).point =
            .executionToken := by
          revert placed
          cases (resume w.sdk run.req (run.thread w.sdk) { reply, now }).point <;>
            simp [Point.place]
        rw [here] at origin
        obtain ⟨verify, v, rfl, valid⟩ := origin
        have waits : run.awaits w.sdk runID run.history.length =
            .activity (.verifyIngressDecision run.req) bookCtx :=
          Run.awaits_eq _ verify
        rcases visits.reaches.answered_activity known answered waits with
          ⟨a, member, caller, -, act, finished⟩ | ⟨e, failed, -⟩
        · have lasting := visits.lasting a member _ finished
          rw [act, caller] at lasting
          exact lasting valid
        · cases failed
  · intro past s runID base run k j canceled within _ bound n placed
    exact bound n placed

/-! ## The claim -/

/-- The row of the decision says CLAIMED and names this run. -/
def HeldBy (sdk : Sdk) (runID : GoString) (run : Run) (v : System α) : Prop :=
  v.backend.store.holding? run.req.ingressDecisionID =
    some ⟨claimOwner ⟨run.workflowID, runID⟩ (run.threadAt sdk 2).token, .claimed⟩

theorem HeldBy.later {sdk : Sdk} {runID : GoString} {run run' : Run} {v : System α}
    (held : HeldBy sdk runID run v) (later : run.Extends run') (reached : 2 ≤ run.history.length) :
    HeldBy sdk runID run' v := by
  unfold HeldBy
  rw [later.req, later.workflowID, later.threadAt sdk reached]
  exact held

/-- When a claim is answered with yes, the row says so. -/
theorem Visits.claim_held (visits : Visits w G past s) :
    ∀ a ∈ s.attempts, ∀ r, a.body = .finished r →
      ∀ req c, a.activity = .claimExecution req → r = .claimed c → c.claimed = true →
        ∃ v ∈ past ++ [s], v.backend.store.holding? req.decisionID =
          some ⟨claimOwner a.caller req.token, .claimed⟩ := by
  refine finished_facts (F := fun past s x act r => ∀ req c, act = .claimExecution req →
    r = .claimed c → c.claimed = true → ∃ v ∈ past ++ [s],
      v.backend.store.holding? req.decisionID = some ⟨claimOwner x req.token, .claimed⟩) ?_ ?_ visits
  · intro past s l s' x act r _ _ _ held req c here said yes
    obtain ⟨v, seen, row⟩ := held req c here said yes
    exact ⟨v, List.mem_append_left _ seen, row⟩
  · rintro past s i cond a run b' r _ _ _ _ ran req c here rfl yes
    have report := (perform_performed ran).report _ rfl
    rw [here] at report
    exact ⟨_, List.mem_append_right _ (List.mem_singleton_self _), report yes⟩

/-- **A run past its claim step held the decision**, unless it inherited the claim. -/
theorem Visits.claimed (visits : Visits w G past s) :
    ∀ runID run k, s.runs runID = some run → k ≤ run.history.length →
      ∀ n, (run.threadAt w.sdk k).point.place = some (n + 3) → run.inherited ≤ 2 →
        2 ≤ run.history.length ∧ ∃ v ∈ past ++ [s], HeldBy w.sdk runID run v := by
  refine run_facts (F := fun past s runID run _ th => ∀ n, th.point.place = some (n + 3) →
    run.inherited ≤ 2 → 2 ≤ run.history.length ∧ ∃ v ∈ past ++ [s], HeldBy w.sdk runID run v)
    ?_ ?_ ?_ ?_ ?_ visits
  · intro past s runID workflowID req now n placed
    cases placed
  · intro past s l s' runID run k th _ _ _ _ held n placed own
    obtain ⟨reached, v, seen, row⟩ := held n placed own
    exact ⟨reached, v, List.mem_append_left _ seen, row⟩
  · intro past s runID run run' k th later held n placed own
    rw [later.inherited] at own
    obtain ⟨reached, v, seen, row⟩ := held n placed own
    exact ⟨reached.trans later.history.length_le, v, seen, row.later later reached⟩
  · intro past s runID run source reply now visits _ known said held n placed own
    have answered := answer_answered said
    have origin := resume_origin w.sdk run.req (run.thread w.sdk) { reply, now }
    obtain ⟨m, same, before⟩ := resume_place placed
    obtain rfl : m = n + 2 := (Nat.succ.inj same).symm
    cases n with
    | succ n => exact held n before own
    | zero =>
        -- only a claim that succeeded leads to the fourth place
        have here : (resume w.sdk run.req (run.thread w.sdk) { reply, now }).point =
            .evaluateExecution := by
          revert placed
          cases (resume w.sdk run.req (run.thread w.sdk) { reply, now }).point <;>
            simp [Point.place]
        rw [here] at origin
        obtain ⟨claim, c, rfl, yes⟩ := origin
        have length : run.history.length = 2 := Run.threadAt_place (Nat.le_refl _) before
        have waits : run.awaits w.sdk runID run.history.length = .activity (.claimExecution
            { decisionID := run.req.ingressDecisionID, token := (run.threadAt w.sdk 2).token })
            bookCtx := by
          unfold Run.awaits await
          rw [← Run.thread, claim, ← length]
          rfl
        rcases visits.reaches.answered_activity known answered waits with
          ⟨a, member, caller, -, act, finished⟩ | ⟨e, failed, -⟩
        · obtain ⟨v, seen, row⟩ := visits.claim_held a member _ finished _ c act rfl yes
          rw [caller] at row
          exact ⟨length.ge, v, seen, row⟩
        · cases failed
  · intro past s runID base run k j canceled within before held n placed own
    -- the claim step is the third: a run that inherits no more than two answers has not
    -- inherited it
    have heard := Run.threadAt_place (before.trans within) placed
    simp only [Run.reset] at own
    omega

/-! ## The verdict -/

/-- The policy of a worker in this state, or none, gives the request this verdict. -/
def Judges (go : Runtime) (req : ExecutionRequest) (d : Decision) (u : System α) : Prop :=
  ∃ snap, (snap = u.backend.policy ∨ snap = none) ∧ d = revalidate go snap req

/-- The run held its claim, and then a policy gave its request this verdict. -/
def Judged (sdk : Sdk) (past : List (System α)) (s : System α) (runID : GoString) (run : Run)
    (d : Decision) : Prop :=
  2 ≤ run.history.length ∧
    InOrder (HeldBy sdk runID run) (Judges sdk.toRuntime run.req d) (past ++ [s])

theorem Judged.later {sdk : Sdk} {runID : GoString} {run run' : Run} {d : Decision}
    (judged : Judged sdk past s runID run d) (later : run.Extends run') :
    Judged sdk past s runID run' d := by
  obtain ⟨reached, before, u, after, split, verdict, v, seen, held⟩ := judged
  refine ⟨reached.trans later.history.length_le, before, u, after, split, ?_, v, seen,
    held.later later reached⟩
  rw [later.req]
  exact verdict

theorem Judged.next {sdk : Sdk} {runID : GoString} {run : Run} {d : Decision} {s' : System α}
    (judged : Judged sdk past s runID run d) : Judged sdk (past ++ [s]) s' runID run d :=
  ⟨judged.1, judged.2.append [s']⟩

/-- An evaluation takes place after the claim of the run that asks for it. -/
theorem Visits.evaluated (visits : Visits w G past s) :
    ∀ a ∈ s.attempts, ∀ r, a.body = .finished r →
      ∀ req d, a.activity = .evaluateExecution req → r = .decided d →
        ∃ run, s.runs a.caller.runID = some run ∧
          (run.inherited ≤ 2 → Judged w.sdk past s a.caller.runID run d) := by
  refine finished_facts (F := fun past s x act r => ∀ req d, act = .evaluateExecution req →
    r = .decided d → ∃ run, s.runs x.runID = some run ∧
      (run.inherited ≤ 2 → Judged w.sdk past s x.runID run d)) ?_ ?_ visits
  · intro past s l s' x act r _ _ move judged req d here said
    obtain ⟨run, known, verdict⟩ := judged req d here said
    obtain ⟨run', known', later⟩ := move.run_kept known
    exact ⟨run', known', fun own => (verdict (later.inherited ▸ own)).next.later later⟩
  · rintro past s i cond a run b' r visits _ _ placed ran req d here rfl
    have performed := perform_performed ran
    refine ⟨run, placed.known, fun own => ?_⟩
    obtain ⟨opts, asked⟩ := placed.waits
    rw [here] at asked
    obtain ⟨point, rfl⟩ := await_asks asked
    obtain ⟨reached, v, seen, held⟩ :=
      visits.claimed _ run a.index placed.known placed.within 0 (by rw [point]; rfl) own
    have report := performed.report _ rfl
    rw [here] at report
    obtain ⟨snap, active, verdict⟩ := report
    -- evaluating changes nothing, so the policy it read is the one of the state before
    have same : b'.policy = s.backend.policy := by
      have change := performed.change
      rw [here] at change
      cases change
      rfl
    rw [same] at active
    exact ⟨reached, past, s, _, List.append_assoc _ _ _, ⟨snap, active, verdict⟩, v, seen, held⟩

/-! ## Up to the dispatch step -/

/-- The store holds the decision record of the run for this verdict. -/
def Recorded (go : Runtime) (s : System α) (x : Execution) (req : ExecutionRequest)
    (d : Decision) : Prop :=
  ∃ now, decisionRecord go x req d now ∈ s.backend.store.records

/-- The audit store holds a WORKFLOW_REVALIDATION PASS row of the run. -/
def AuditedPass (s : System α) (x : Execution) (req : ExecutionRequest) : Prop :=
  ∃ detail now seq stamp, stamped (newAuditRecord req.proposal.id x.workflowID x.runID
    (.named .revalidation) (.named .pass) req.proposal detail now seq) stamp ∈ s.backend.audits

/-- What is known of a run at the points between the evaluation and the dispatch. -/
def Checked (sdk : Sdk) (past : List (System α)) (s : System α) (runID : GoString) (run : Run) :
    Point → Prop
  | .recordDecision d => Judged sdk past s runID run d
  | .auditPassed d =>
      Judged sdk past s runID run d ∧ d.verdict = .allow ∧
        Recorded sdk.toRuntime s ⟨run.workflowID, runID⟩ run.req d
  | .dispatchConfig =>
      ∃ d, Judged sdk past s runID run d ∧ d.verdict = .allow ∧
        Recorded sdk.toRuntime s ⟨run.workflowID, runID⟩ run.req d ∧
        AuditedPass s ⟨run.workflowID, runID⟩ run.req
  | _ => True

theorem Checked.later {sdk : Sdk} {runID : GoString} {run run' : Run} {p : Point}
    (checked : Checked sdk past s runID run p) (later : run.Extends run') :
    Checked sdk past s runID run' p := by
  unfold Checked at checked ⊢
  rw [later.workflowID, later.req]
  split
  · exact checked.later later
  · exact ⟨checked.1.later later, checked.2⟩
  · obtain ⟨d, judged, rest⟩ := checked
    exact ⟨d, judged.later later, rest⟩
  · trivial

theorem Recorded.move {go : Runtime} {x : Execution} {req : ExecutionRequest} {d : Decision}
    (recorded : Recorded go s x req d) (move : Move w s l s') : Recorded go s' x req d := by
  obtain ⟨now, member⟩ := recorded
  exact ⟨now, move.records member⟩

theorem Checked.move {sdk : Sdk} {runID : GoString} {run : Run} {p : Point}
    (checked : Checked sdk past s runID run p) (move : Move w s l s') :
    Checked sdk (past ++ [s]) s' runID run p := by
  unfold Checked at checked ⊢
  split
  · exact checked.next
  · obtain ⟨judged, allowed, recorded⟩ := checked
    exact ⟨judged.next, allowed, recorded.move move⟩
  · obtain ⟨d, judged, allowed, recorded, detail, now, seq, stamp, member⟩ := checked
    exact ⟨d, judged.next, allowed, recorded.move move, detail, now, seq, stamp,
      move.audits member⟩
  · trivial

/-- **What a run that claimed by itself has behind it** at the points up to the dispatch. -/
theorem Visits.persisted (visits : Visits w G past s) :
    ∀ runID run k, s.runs runID = some run → k ≤ run.history.length →
      run.inherited ≤ 2 → Checked w.sdk past s runID run (run.threadAt w.sdk k).point := by
  refine run_facts (F := fun past s runID run _ th =>
    run.inherited ≤ 2 → Checked w.sdk past s runID run th.point) ?_ ?_ ?_ ?_ ?_ visits
  · intro past s runID workflowID req now own
    trivial
  · intro past s l s' runID run k th _ _ move _ checked own
    exact (checked own).move move
  · intro past s runID run run' k th later checked own
    exact (checked (later.inherited ▸ own)).later later
  · intro past s runID run source reply now visits _ known said checked own
    have answered := answer_answered said
    have origin := resume_origin w.sdk run.req (run.thread w.sdk) { reply, now }
    generalize (resume w.sdk run.req (run.thread w.sdk) { reply, now }).point = p at origin ⊢
    have reached := visits.reaches
    cases p with
    | recordDecision d =>
        obtain ⟨evaluate, rfl⟩ := origin
        have waits : run.awaits w.sdk runID run.history.length =
            .activity (.evaluateExecution run.req) bookCtx :=
          Run.awaits_eq _ evaluate
        rcases reached.answered_activity known answered waits with
          ⟨a, member, caller, -, act, finished⟩ | ⟨e, failed, -⟩
        · obtain ⟨run', known', judged⟩ := visits.evaluated a member _ finished _ d act rfl
          rw [caller] at known' judged
          cases known.symm.trans known'
          exact judged own
        · cases failed
    | auditPassed d =>
        obtain ⟨record, allowed, fine⟩ := origin
        have judged := checked own
        rw [record] at judged
        have waits : run.awaits w.sdk runID run.history.length =
            .activity (.recordDecision (decisionRecord w.sdk.toRuntime ⟨run.workflowID, runID⟩
              run.req d (run.thread w.sdk).now)) bookCtx :=
          Run.awaits_eq _ record
        obtain ⟨a, member, -, -, act, finished⟩ :=
          reached.answered_done known answered waits rfl fine
        have lasting := visits.lasting a member _ finished
        rw [act] at lasting
        exact ⟨judged, allowed, _, lasting rfl⟩
    | dispatchConfig =>
        obtain ⟨⟨d, pass⟩, fine⟩ := origin
        have before := checked own
        rw [pass] at before
        obtain ⟨judged, allowed, recorded⟩ := before
        have waits : run.awaits w.sdk runID run.history.length =
            .activity (.recordAuditTrail (newAuditRecord run.req.proposal.id run.workflowID runID
              (.named .revalidation) (.named .pass) run.req.proposal (revalidationDetail run.req d)
              (run.thread w.sdk).now (run.thread w.sdk).auditSeq))
              (if (run.thread w.sdk).dispatching then claimCtx else bookCtx) :=
          Run.awaits_eq _ pass
        obtain ⟨a, member, -, -, act, finished⟩ :=
          reached.answered_done known answered waits rfl fine
        have lasting := visits.lasting a member _ finished
        rw [act] at lasting
        obtain ⟨stamp, row⟩ := lasting rfl
        exact ⟨d, judged, allowed, recorded, _, _, _, stamp, row⟩
    | _ => trivial
  · intro past s runID base run k j canceled within before checked own
    -- these points come after the claim step, which the run would have inherited
    have late : ∀ n, (run.threadAt w.sdk j).point.place ≠ some (n + 4) := by
      intro n placed
      have heard := Run.threadAt_place (before.trans within) placed
      simp only [Run.reset] at own
      omega
    cases here : (run.threadAt w.sdk j).point with
    | recordDecision d => exact absurd (by rw [here]; rfl) (late 0)
    | auditPassed d => exact absurd (by rw [here]; rfl) (late 1)
    | dispatchConfig => exact absurd (by rw [here]; rfl) (late 2)
    | _ => trivial

/-! ## The fence -/

/-- A run whose `DispatchConfig` won the fence claimed the decision by itself. -/
theorem Reaches.armed (reached : Reaches w G s) :
    ∀ a ∈ s.attempts, a.body = .callAdapter →
      ∃ run, s.runs a.caller.runID = some run ∧ run.inherited ≤ 2 := by
  refine reached.induction (P := fun s => ∀ a ∈ s.attempts, a.body = .callAdapter →
    ∃ run, s.runs a.caller.runID = some run ∧ run.inherited ≤ 2) ?_ ?_
  · intro policy target a member
    cases member
  intro s l s' prior armed _ move a member ready
  have old : a ∈ s.attempts → ∃ run, s'.runs a.caller.runID = some run ∧ run.inherited ≤ 2 := by
    intro before
    obtain ⟨run, known, own⟩ := armed a before ready
    obtain ⟨run', known', later⟩ := move.run_kept known
    exact ⟨run', known', later.inherited ▸ own⟩
  rcases move.quiet_or_exec with quiet | ⟨i, b, c, b', body', -, found, performed, rfl⟩
  · rcases quiet.attempts with kept | ⟨fresh, unbegun, added⟩
    · exact old (kept ▸ member)
    · rw [added] at member
      rcases List.mem_append.mp member with before | last
      · exact old before
      · obtain rfl := List.mem_singleton.mp last
        rw [unbegun] at ready
        cases ready
  · rcases List.mem_or_eq_of_mem_set member with before | rfl
    · exact old before
    · obtain ⟨caller, index, activity, body⟩ := b
      simp only at ready
      subst ready
      obtain ⟨change, -, -⟩ := performed
      cases change with
      | same _ _ _ _ after => exact absurd rfl after
      | fenced req store _ keyed writes after =>
          obtain ⟨st, held, -, -⟩ := writes.row.of_advanced
          obtain ⟨run, owned⟩ := prior.owned _ _ held
          exact ⟨run, owned.known, owned.own⟩

/-! ## A dispatch -/

/-- What stands behind a call of `Adapter.Dispatch` by `caller` in state `s`, at the end of
`states`. -/
structure Authorized (go : Runtime) (states : List (System α)) (s : System α) (caller : Execution)
    (request : DispatchRequest) (run : Run) : Prop where
  known : s.runs caller.runID = some run
  workflowID : caller.workflowID = run.workflowID
  key : request.idempotencyKey = executionKey run.req.ingressDecisionID
  proposal : request.proposal = run.req.proposal
  /-- An ingress ALLOW for exactly this execution; where SHA-256 does not collide, the
  proposal it was recorded for is the one that is dispatched. -/
  ingress : ∃ rec ∈ s.backend.store.records,
    executionKey rec.decisionID = request.idempotencyKey ∧ rec.stage = .ingress ∧
    rec.verdict = .allow ∧ rec.agentID = run.req.agentID ∧
    rec.proposalID = request.proposal.id ∧ rec.workflowID = caller.workflowID ∧
    rec.requestHash = requestHash go request.proposal ∧
    ∀ allowed, rec.requestHash = requestHash go allowed → Separates go allowed →
      Sized allowed → Sized request.proposal → request.proposal = allowed
  /-- The run held the claim, and from then on there was a policy that allowed the
  proposal. -/
  revalidated : InOrder
    (fun v => ∃ token, v.backend.store.holding? run.req.ingressDecisionID =
      some ⟨claimOwner caller token, .claimed⟩)
    (fun u => (evaluate u.backend.policy run.req.agentID request.proposal).verdict = .allow) states
  recorded : ∃ rec ∈ s.backend.store.records, rec.decisionID = workflowDecisionID caller ∧
    rec.stage = .workflowRevalidation ∧ rec.verdict = .allow ∧ rec.agentID = run.req.agentID ∧
    rec.proposalID = request.proposal.id ∧ rec.workflowID = caller.workflowID ∧
    rec.requestHash = requestHash go request.proposal
  audited : ∃ row ∈ s.backend.audits, row.runID = caller.runID ∧
    row.workflowID = caller.workflowID ∧ row.proposalID = request.proposal.id ∧
    row.phase = .named .revalidation ∧ row.verdict = .named .pass

theorem Bound.authorizes {go : Runtime} {run : Run} (bound : Bound go s run) :
    ∃ rec ∈ s.backend.store.records, rec.decisionID = run.req.ingressDecisionID ∧
      rec.stage = .ingress ∧ rec.verdict = .allow ∧ rec.agentID = run.req.agentID ∧
      rec.proposalID = run.req.proposal.id ∧ rec.workflowID = run.workflowID ∧
      rec.requestHash = requestHash go run.req.proposal := by
  obtain ⟨rec, member, verified⟩ := bound
  obtain ⟨-, decision, stage, verdict, agent, hash, proposal, -, workflow⟩ :=
    (verifyIngress_eq_none_iff _ _ _ _).mp verified
  exact ⟨rec, member, decision, stage, verdict, agent, proposal, workflow, hash⟩

/-- No policy, no ALLOW: a verdict ALLOW was given by the active policy. -/
theorem Judges.allowed {go : Runtime} {req : ExecutionRequest} {d : Decision}
    (judges : Judges go req d s) (allowed : d.verdict = .allow) :
    (evaluate s.backend.policy req.agentID req.proposal).verdict = .allow := by
  obtain ⟨snap, active, rfl⟩ := judges
  obtain ⟨-, verdict⟩ := (revalidate_allow_iff go snap req).mp allowed
  rcases active with rfl | rfl
  · exact verdict
  · cases verdict

/-- A `DispatchConfig` that has won the fence is authorized. -/
theorem Visits.authorized (visits : Visits w G past s) {a : Attempt} (member : a ∈ s.attempts)
    (ready : a.body = .callAdapter) {req : FencedDispatch}
    (act : a.activity = .dispatchConfig req) :
    ∃ run, Authorized w.sdk.toRuntime (past ++ [s]) s a.caller req.dispatch run := by
  have reached := visits.reaches
  obtain ⟨run, placed⟩ := reached.placed a member
  obtain ⟨run', known, own⟩ := reached.armed a member ready
  cases placed.known.symm.trans known
  obtain ⟨opts, waits⟩ := placed.waits
  rw [act] at waits
  obtain ⟨here, rfl, -⟩ := await_asks waits
  have caller : a.caller = ⟨run.workflowID, a.caller.runID⟩ := by rw [← placed.workflowID]
  have bound := visits.ingress _ run a.index known placed.within 5 (by rw [here]; rfl)
  have checked := visits.persisted _ run a.index known placed.within own
  rw [here] at checked
  obtain ⟨d, ⟨-, before, u, after, split, judges, v, seen, held⟩, allowed, ⟨now, record⟩,
    detail, when, seq, stamp, row⟩ := checked
  rw [← caller] at record
  refine ⟨run, known, placed.workflowID, rfl, rfl, ?_, ?_, ?_, ?_⟩
  · obtain ⟨rec, member, decision, stage, verdict, agent, proposal, workflow, hash⟩ :=
      bound.authorizes
    refine ⟨rec, member, congrArg executionKey decision, stage, verdict, agent, proposal,
      workflow.trans placed.workflowID.symm, hash, ?_⟩
    intro p recorded free sized sized'
    exact requestHash_identifies free sized sized' (hash.symm.trans recorded)
  · refine ⟨before, u, after, split, judges.allowed allowed, v, seen,
      (run.threadAt w.sdk 2).token, ?_⟩
    rw [caller]
    exact held
  · exact ⟨_, record, rfl, rfl, allowed, rfl, rfl, rfl, rfl⟩
  · obtain ⟨runID, workflowID, proposalID, phase, verdict, -⟩ := stamped_fields
      (newAuditRecord run.req.proposal.id run.workflowID a.caller.runID (.named .revalidation)
        (.named .pass) run.req.proposal detail when seq) stamp
    exact ⟨_, row, runID, workflowID.trans placed.workflowID.symm, proposalID, phase, verdict⟩

/-- **Every dispatch is authorized.**  For each call of `Adapter.Dispatch` in a reachable
state there is an earlier state, the one it was made in, where the run that makes it
exists and has the ingress ALLOW, a policy's ALLOW given after its claim, its decision
record and its PASS row behind it. -/
theorem dispatch_authorized (visits : Visits w anyStep past s) {earlier later : List AdapterCall}
    {call : AdapterCall} (made : s.backend.calls = earlier ++ call :: later)
    (dispatch : call.method = .dispatch) :
    ∃ before u after run, past = before ++ u :: after ∧ u.backend.calls = earlier ∧
      Authorized w.sdk.toRuntime (before ++ [u]) u call.caller call.request run := by
  refine visits.induction (P := fun past s => ∀ later, s.backend.calls = earlier ++ call :: later →
    ∃ before u after run, past = before ++ u :: after ∧ u.backend.calls = earlier ∧
      Authorized w.sdk.toRuntime (before ++ [u]) u call.caller call.request run) ?_ ?_ later made
  · intro policy target later made
    cases earlier <;> cases made
  intro past s l s' prior authorized _ move later made
  have old : ∀ later, s.backend.calls = earlier ++ call :: later →
      ∃ before u after run, past ++ [s] = before ++ u :: after ∧ u.backend.calls = earlier ∧
        Authorized w.sdk.toRuntime (before ++ [u]) u call.caller call.request run := by
    intro later made
    obtain ⟨before, u, after, run, rfl, calls, behind⟩ := authorized later made
    exact ⟨before, u, after ++ [s], run, by simp, calls, behind⟩
  rcases move.calls with same | ⟨a, member, last, calls, grown⟩
  · exact old later (same ▸ made)
  · rcases split_concat (grown ▸ made) with ⟨later', before⟩ | ⟨first, rfl⟩
    · exact old later' before
    · -- the call is made in this step, by a `DispatchConfig` past the fence
      obtain ⟨caller, calls⟩ := calls
      rw [dispatch] at calls
      obtain ⟨ready, req, act, request⟩ := calls
      obtain ⟨run, behind⟩ := prior.authorized member ready act
      rw [caller, request] at behind
      exact ⟨past, s, [], run, rfl, first, behind⟩

theorem dispatch_authorized_demo :
    ∃ past, Visits (worker plainSdk) anyStep past (demo (dispatchedRun (ascii "n"))) ∧
      (demo (dispatchedRun (ascii "n"))).backend.calls =
        [⟨.dispatch, ⟨ascii "w", ascii "r"⟩, dispatchRequest (demoRequest (ascii "n"))⟩] ∧
      ∃ before u after run, past = before ++ u :: after ∧ u.backend.calls = [] ∧
        Authorized plainSdk.toRuntime (before ++ [u]) u ⟨ascii "w", ascii "r"⟩
          (dispatchRequest (demoRequest (ascii "n"))) run := by
  obtain ⟨past, visits⟩ := (demo_reachable (dispatchedRun (ascii "n"))).visits
  have made : (demo (dispatchedRun (ascii "n"))).backend.calls = [] ++
      [⟨.dispatch, ⟨ascii "w", ascii "r"⟩, dispatchRequest (demoRequest (ascii "n"))⟩] := by decide
  exact ⟨past, visits, made, dispatch_authorized visits made rfl⟩

end SentryGate.Workflows
