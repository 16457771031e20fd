/-
# Workflows.Views -- what the activities of a run do to its own view

`Backend.view` is the part of the shared state that a run's course is about.  Two things
are true of it.  An activity of another run, about another decision, leaves it alone,
whatever it does and however it fails (`Performed.view_foreign`).  And an activity of the
run itself, where the store answers and the context is alive, does what the sequential
program says (`OnCourse.acts`, `OnCourse.calls`); the dispatch step does so in two actions,
with the fence between them.
-/
import SentryGate.Workflows.Course
import SentryGate.Workflows.Effects
import SentryGate.Workflows.Results
import SentryGate.Workflows.Rejection

namespace SentryGate.Workflows

open Theory.Text Theory.Machine Contracts Policy Decision Audit

set_option autoImplicit false

/-- What a run sees of the shared state. -/
def Backend.view (b : Backend SimulatedAdapter) (runID decisionID : GoString) : View where
  claim := b.store.holding? decisionID
  effect := b.target.effects (executionKey decisionID)
  compensations := b.target.compensations (executionKey decisionID)
  trail := (b.audits.filter (·.runID = runID)).map fun row => (row.phase, row.verdict)

section View

variable {b : Backend SimulatedAdapter} {runID decisionID : GoString}

theorem Backend.view_store (store : MemoryStore) :
    Backend.view { b with store } runID decisionID =
      { b.view runID decisionID with claim := store.holding? decisionID } := rfl

theorem Backend.view_target (method : AdapterMethod) (x : Execution) (req : DispatchRequest)
    (target : SimulatedAdapter) :
    (b.called method x req target).view runID decisionID =
      { b.view runID decisionID with
          effect := target.effects (executionKey decisionID)
          compensations := target.compensations (executionKey decisionID) } := rfl

/-- A target that is the same at the key looks the same. -/
theorem Backend.view_sameAt {method : AdapterMethod} {x : Execution} {req : DispatchRequest}
    {target : SimulatedAdapter}
    (same : SimulatedAdapter.SameAt (executionKey decisionID) target b.target) :
    (b.called method x req target).view runID decisionID = b.view runID decisionID := by
  rw [Backend.view_target, same.effects, same.compensations]
  rfl

theorem Backend.view_claims {store : MemoryStore}
    (same : store.holding? decisionID = b.store.holding? decisionID) :
    Backend.view { b with store } runID decisionID = b.view runID decisionID := by
  rw [Backend.view_store, same]
  rfl

end View

/-! ## Activities of other runs -/

/-- A row of another run is none of this run's. -/
theorem filter_appendAudit {rows : List AuditRecord} {rec : AuditRecord} {runID : GoString}
    (foreign : rec.runID ≠ runID) (now : Time) :
    (appendAudit rows rec now).1.filter (·.runID = runID) = rows.filter (·.runID = runID) := by
  have other : (stamped rec now).runID ≠ runID := by
    rw [(stamped_fields rec now).1]
    exact foreign
  unfold appendAudit
  split
  · rfl
  · split
    · simp [other]
    · split <;> rfl

/-- **What another run does about another decision is not seen.** -/
theorem Performed.view_foreign {w : Worker SimulatedAdapter} {x : Execution}
    {b b' : Backend SimulatedAdapter} {act : Activity} {body body' : Body} {req : ExecutionRequest}
    {th : Thread} {opts : Options} {runID decisionID : GoString}
    (simulated : w.adapter = some simulatedAdapter)
    (performed : Performed w x b act body b' body')
    (asks : Asks w.sdk x req th opts act) (foreign : x.runID ≠ runID)
    (other : decisionID ≠ req.ingressDecisionID) :
    b'.view runID decisionID = b.view runID decisionID := by
  have otherKey : executionKey decisionID ≠ executionKey req.ingressDecisionID :=
    fun same => other (executionKey_injective same)
  cases performed.change with
  | same => rfl
  | acquired r store reply writes =>
      obtain ⟨-, rfl⟩ := asks
      exact Backend.view_claims (writes.holding_elsewhere other)
  | recorded rec reply => exact Backend.view_claims (Change.holding?_appendDecision ..)
  | audited rec now reply =>
      obtain ⟨phase, verdict, detail, -, rfl⟩ := asks
      unfold Backend.view
      dsimp only
      rw [filter_appendAudit foreign]
  | advanced t store reply unfenced writes =>
      obtain ⟨-, about, -⟩ := asks
      exact Backend.view_claims (writes.holding_elsewhere (about ▸ other))
  | fenced r store body' keyed writes after =>
      obtain ⟨-, rfl, -⟩ := asks
      exact Backend.view_claims (writes.holding_elsewhere other)
  | dispatched r adapter ctx configured =>
      obtain ⟨-, rfl, -⟩ := asks
      cases simulated.symm.trans configured
      exact Backend.view_sameAt
        (SimulatedAdapter.call_elsewhere b.target (c := .dispatch ctx _) otherKey)
  | reconciled r adapter ctx configured =>
      obtain ⟨-, rfl⟩ := asks
      cases simulated.symm.trans configured
      exact Backend.view_sameAt
        (SimulatedAdapter.call_elsewhere b.target (c := .reconcile ctx _) otherKey)
  | compensated r adapter ctx reply configured =>
      obtain ⟨-, rfl, -⟩ := asks
      cases simulated.symm.trans configured
      exact Backend.view_sameAt
        (SimulatedAdapter.call_elsewhere b.target (c := .compensate ctx _) otherKey)

/-! ## Activities of the run itself -/

section Own

variable {sdk : Sdk} {x : Execution} {k : Conditions} {b b' : Backend SimulatedAdapter} {body' : Body}

theorem verifyIngressDecision_calm {req : ExecutionRequest} (calm : k.fault = .absent)
    (recorded : ∃ rec ∈ b.store.records, verifyIngress sdk.toRuntime rec req x.workflowID = none)
    (ran : perform (worker sdk) x (.verifyIngressDecision req) .start k b = some (b', body')) :
    b' = b ∧ ∃ v, body' = .finished (.verified v) ∧ v.valid = true := by
  obtain ⟨rec, member, passes⟩ := recorded
  obtain ⟨present, named, -⟩ := (verifyIngress_eq_none_iff ..).mp passes
  have checked : checkIngress sdk.toRuntime (b.store.getDecision none) req x.workflowID = none := by
    rw [checkIngress_recorded x.workflowID member present named.symm, passes]
    rfl
  simp only [perform, verifyIngressDecision, worker, Conditions.read, calm, Bool.not_true,
    Bool.false_eq_true, if_false, checked, Option.some.injEq, Prod.mk.injEq] at ran
  obtain ⟨rfl, rfl⟩ := ran
  exact ⟨rfl, _, rfl, rfl⟩

theorem claimExecution_calm {req : ClaimRequest} (calm : k.fault = .absent)
    (recorded : ∃ rec ∈ b.store.records, rec.decisionID = req.decisionID)
    (named : req.decisionID ≠ []) (valid : (claimOwner x req.token).valid = true)
    (free : b.store.holding? req.decisionID = none)
    (ran : perform (worker sdk) x (.claimExecution req) .start k b = some (b', body')) :
    (∃ store, b' = { b with store } ∧
      store.holding? req.decisionID = some ⟨claimOwner x req.token, .claimed⟩) ∧
    ∃ r, body' = .finished (.claimed r) ∧ r.claimed = true := by
  have token : req.token ≠ [] := by
    simp only [ClaimOwner.valid, claimOwner, Bool.and_eq_true, bne_iff_ne] at valid
    exact valid.2
  simp only [perform, claimExecution, worker, named, token, or_self, valid, Conditions.write, calm,
    Bool.not_true, Bool.false_eq_true, if_false, Option.some.injEq] at ran
  rcases upsertClaim_cases b.store req.decisionID (claimOwner x req.token) k.now with
    ⟨store, update, writes⟩ | ⟨-, held⟩ | ⟨update, -⟩
  · rw [update] at ran
    cases ran
    exact ⟨⟨store, rfl, writes.row.of_acquired.2⟩, _, rfl, rfl⟩
  · have unclaimed : Free (b.store.holding? req.decisionID) := by
      rintro h claimed
      cases free.symm.trans claimed
    exact absurd unclaimed held
  · -- the decision is recorded, so the upsert finds it
    obtain ⟨rec, member, same⟩ := recorded
    obtain ⟨i, found⟩ := List.mem_iff_getElem?.mp member
    have known : (b.store.byID req.decisionID).isSome := by
      rw [(b.store.indexed req.decisionID i).mpr ⟨rec, found, same⟩]
      rfl
    have reported := congrArg Prod.snd update
    rw [upsertClaim, dif_pos known] at reported
    split at reported <;> cases reported

theorem evaluateExecution_calm {req : ExecutionRequest} (alive : k.ctx = none)
    (ran : perform (worker sdk) x (.evaluateExecution req) .start k b = some (b', body')) :
    b' = b ∧ body' = .finished (.decided (revalidate sdk.toRuntime b.policy req)) := by
  simp only [perform, evaluateExecution, alive, worker, if_true, Option.some.injEq,
    Prod.mk.injEq] at ran
  exact ⟨ran.1.symm, ran.2.symm⟩

theorem recordDecision_calm {rec : DecisionRecord} (calm : k.fault = .absent)
    (valid : rec.validate = true)
    (alone : ∀ rec' ∈ b.store.records, rec'.decisionID = rec.decisionID → rec' = rec)
    (ran : perform (worker sdk) x (.recordDecision rec) .start k b = some (b', body')) :
    b' = { b with store := (b.store.appendDecision none rec).1 } ∧ body' = .finished .done := by
  have accepted := b.store.appendDecision_accepts valid alone
  simp only [perform, recordDecision, worker, Conditions.write, calm, accepted, Bool.not_true,
    Bool.false_eq_true, if_false, Option.some.injEq, Prod.mk.injEq] at ran
  exact ⟨ran.1.symm, ran.2.symm⟩

/-- A row under a new ID is added to the trail. -/
theorem recordAuditTrail_calm {rec : AuditRecord} (decisionID : GoString)
    (calm : k.fault = .absent) (identified : rec.recordID ≠ []) (proposed : rec.proposalID ≠ [])
    (phased : rec.phase.text ≠ []) (fresh : ∀ row ∈ b.audits, row.recordID ≠ rec.recordID)
    (ran : perform (worker sdk) x (.recordAuditTrail rec) .start k b = some (b', body')) :
    body' = .finished .done ∧
      b'.view rec.runID decisionID = { b.view rec.runID decisionID with
        trail := (b.view rec.runID decisionID).trail ++ [(rec.phase, rec.verdict)] } := by
  have absent : b.audits.find? (·.recordID = rec.recordID) = none := by
    rw [List.find?_eq_none]
    intro row member
    simpa using fresh row member
  have complete : ¬ (rec.recordID = [] ∨ rec.proposalID = [] ∨ rec.phase.text = []) := by
    simp [identified, proposed, phased]
  have added : appendAudit b.audits rec k.now = (b.audits ++ [stamped rec k.now], none) := by
    rw [appendAudit, if_neg complete, absent]
  simp only [perform, recordAuditTrail, worker, Conditions.write, calm, added, Bool.not_true,
    Bool.false_eq_true, if_false, Option.some.injEq, Prod.mk.injEq] at ran
  obtain ⟨rfl, rfl⟩ := ran
  obtain ⟨run, -, -, phase, verdict, -⟩ := stamped_fields rec k.now
  refine ⟨rfl, ?_⟩
  simp [Backend.view, run, phase, verdict]

/-- A transition from a state its owner holds is made. -/
theorem advanceClaim_permitted {m : MemoryStore} {decisionID : GoString} {owner : ClaimOwner}
    {st target : ClaimState} (permitted : Permits st target)
    (held : m.holding? decisionID = some ⟨owner, st⟩) (now : Time) :
    ∃ store, m.advanceClaim none decisionID owner target now = (store, none) ∧
      store.holding? decisionID = some ⟨owner, target⟩ := by
  rcases advanceClaim_cases m decisionID owner target now with
    ⟨store, -, update, -, -, -, writes⟩ | ⟨e, -, -, refused⟩
  · obtain ⟨-, -, -, after⟩ := writes.row.of_advanced
    exact ⟨store, update, after⟩
  · obtain ⟨claim, found, same⟩ := Option.map_eq_some_iff.mp held
    have own : claim.owner = owner := congrArg Holding.owner same
    have state : claim.state = st := congrArg Holding.state same
    exact absurd (state ▸ permitted) (refused claim found own)

theorem advanceExecutionClaim_calm {t : ClaimTransition} {st : ClaimState}
    (calm : k.fault = .absent) (unfenced : t.toState ≠ .executing)
    (permitted : Permits st t.toState)
    (held : b.store.holding? t.decisionID = some ⟨claimOwner x t.token, st⟩)
    (ran : perform (worker sdk) x (.advanceExecutionClaim t) .start k b = some (b', body')) :
    (∃ store, b' = { b with store } ∧
      store.holding? t.decisionID = some ⟨claimOwner x t.token, t.toState⟩) ∧
    body' = .finished .done := by
  obtain ⟨store, update, after⟩ := advanceClaim_permitted permitted held k.now
  simp only [perform, advanceExecutionClaim, worker, unfenced, Conditions.write, calm, update,
    Bool.not_true, Bool.false_eq_true, if_false, Option.some.injEq, Prod.mk.injEq] at ran
  obtain ⟨rfl, rfl⟩ := ran
  exact ⟨⟨store, rfl, after⟩, rfl⟩

/-- The dispatch step acquires its fence. -/
theorem dispatchConfig_calm {req : FencedDispatch} (calm : k.fault = .absent)
    (named : req.decisionID ≠ [] ∧ req.token ≠ [])
    (keyed : req.dispatch.idempotencyKey = executionKey req.decisionID)
    (held : b.store.holding? req.decisionID = some ⟨claimOwner x req.token, .claimed⟩)
    (ran : perform (worker sdk) x (.dispatchConfig req) .start k b = some (b', body')) :
    (∃ store, b' = { b with store } ∧
      store.holding? req.decisionID = some ⟨claimOwner x req.token, .executing⟩) ∧
    body' = .callAdapter := by
  have permitted : Permits .claimed .executing := (permits_iff _ _).mpr (by simp)
  obtain ⟨store, update, after⟩ := advanceClaim_permitted permitted held k.now
  simp only [perform, dispatchConfig, worker, named.1, named.2, keyed, or_self, ne_eq, not_true,
    Conditions.write, calm, update, Option.isNone_some, Bool.not_true, Bool.false_eq_true, if_false,
    Option.some.injEq, Prod.mk.injEq] at ran
  obtain ⟨rfl, rfl⟩ := ran
  exact ⟨⟨store, rfl, after⟩, rfl⟩

end Own

/-! ## The target -/

section Target

variable (req : DispatchRequest) (target : SimulatedAdapter)

/-- The dispatch of a new key goes as its target does. -/
theorem SimulatedAdapter.dispatch_course (fresh : target.effects req.idempotencyKey = none) :
    (target.dispatch none req).2 = (courseOf req.proposal.targetID).told ∧
      (target.dispatch none req).1.effects req.idempotencyKey =
        (courseOf req.proposal.targetID).effect ∧
      (target.dispatch none req).1.compensations = target.compensations := by
  rw [SimulatedAdapter.dispatch_fresh fresh]
  unfold courseOf
  simp only [Option.isSome_none, Bool.false_eq_true, if_false]
  by_cases failing : req.proposal.targetID = failingNodeID
  · simp [failing, SimulatedAdapter.apply, Course.told, Course.effect]
  by_cases lost : req.proposal.targetID = lostResponseNodeID
  · rw [if_neg failing, if_pos lost, if_neg failing, if_pos lost]
    simp [SimulatedAdapter.apply, Course.told, Course.effect]
  rw [if_neg failing, if_neg lost, if_neg failing, if_neg lost]
  by_cases unreachable : req.proposal.targetID = unreachableNodeID
  · simp [unreachable, Course.told, Course.effect, fresh]
  by_cases partitioned : req.proposal.targetID = partitionedNodeID
  · rw [if_pos (Or.inr partitioned), if_neg unreachable, if_pos partitioned]
    exact ⟨rfl, fresh, rfl⟩
  · simp [unreachable, partitioned, SimulatedAdapter.apply, Course.told, Course.effect]

theorem courseOf_partitioned (targetID : GoString) :
    courseOf targetID = .partitioned ↔ targetID = partitionedNodeID := by
  constructor
  · intro kind
    unfold courseOf at kind
    split at kind
    · cases kind
    split at kind
    · cases kind
    split at kind
    · cases kind
    split at kind
    · assumption
    · cases kind
  · rintro rfl
    decide

/-- So does a reconciliation after a dispatch that was not answered. -/
theorem SimulatedAdapter.reconcile_course
    (unknown : (courseOf req.proposal.targetID).told.status = .unknown)
    (recorded : target.effects req.idempotencyKey = (courseOf req.proposal.targetID).effect) :
    (target.reconcile none req).2 = (courseOf req.proposal.targetID).learnt ∧
      (target.reconcile none req).1.effects req.idempotencyKey =
        (courseOf req.proposal.targetID).settled ∧
      (target.reconcile none req).1.compensations = target.compensations := by
  have alive : ¬ (none : Context).isSome := by simp
  have fenced := courseOf_partitioned req.proposal.targetID
  cases kind : courseOf req.proposal.targetID with
  | applied | partlyApplied => rw [kind] at unknown; cases unknown
  | lostResponse =>
      rw [kind] at recorded
      rw [SimulatedAdapter.reconcile_known recorded alive]
      exact ⟨rfl, recorded, rfl⟩
  | unreachable =>
      rw [kind] at recorded fenced
      have reachable : req.proposal.targetID ≠ partitionedNodeID := fun same => by
        cases fenced.mpr same
      rw [SimulatedAdapter.reconcile_fresh recorded alive, if_neg reachable]
      simp [SimulatedAdapter.fence, Course.learnt, Course.settled, Course.fencedDetail]
  | partitioned =>
      rw [kind] at recorded
      rw [SimulatedAdapter.reconcile_fresh recorded alive, if_pos (fenced.mp kind)]
      exact ⟨rfl, recorded, rfl⟩

end Target

section Called

variable {sdk : Sdk} {x : Execution} {req : ExecutionRequest} {runID : GoString} {k : Conditions}
  {b b' : Backend SimulatedAdapter} {body' : Body}

theorem dispatchConfigCall_calm {token : GoString} (alive : k.ctx = none)
    (fresh : (b.view runID req.ingressDecisionID).effect = none)
    (ran : perform (worker sdk) x (.dispatchConfig (fencedDispatch req token)) .callAdapter k b =
      some (b', body')) :
    body' = .finished (.outcome (courseOf req.proposal.targetID).told) ∧
      b'.view runID req.ingressDecisionID = { b.view runID req.ingressDecisionID with
        effect := (courseOf req.proposal.targetID).effect } := by
  obtain ⟨told, effect, compensations⟩ :=
    SimulatedAdapter.dispatch_course (dispatchRequest req) b.target fresh
  simp only [perform, dispatchConfigCall, worker, simulatedAdapter, fencedDispatch, alive, told,
    Option.map_some, Option.some.injEq, Prod.mk.injEq] at ran
  obtain ⟨rfl, rfl⟩ := ran
  refine ⟨congrArg (fun o => Body.finished (.outcome o)) (Course.told_checked _), ?_⟩
  rw [Backend.view_target, compensations]
  exact congrArg (fun effect => { b.view runID req.ingressDecisionID with effect }) effect

theorem reconcileDispatch_calm (alive : k.ctx = none)
    (unknown : (courseOf req.proposal.targetID).told.status = .unknown)
    (recorded : (b.view runID req.ingressDecisionID).effect =
      (courseOf req.proposal.targetID).effect)
    (ran : perform (worker sdk) x (.reconcileDispatch (dispatchRequest req)) .start k b =
      some (b', body')) :
    body' = .finished (.outcome (courseOf req.proposal.targetID).learnt) ∧
      b'.view runID req.ingressDecisionID = { b.view runID req.ingressDecisionID with
        effect := (courseOf req.proposal.targetID).settled } := by
  obtain ⟨told, effect, compensations⟩ :=
    SimulatedAdapter.reconcile_course (dispatchRequest req) b.target unknown recorded
  have keyed : (dispatchRequest req).idempotencyKey ≠ [] := by
    simp [dispatchRequest, executionKey, ascii]
  simp only [perform, reconcileDispatch, worker, simulatedAdapter, keyed, if_false, alive, told,
    Option.some.injEq, Prod.mk.injEq] at ran
  obtain ⟨rfl, rfl⟩ := ran
  refine ⟨congrArg (fun o => Body.finished (.outcome o)) (Course.learnt_checked _), ?_⟩
  rw [Backend.view_target, compensations]
  exact congrArg (fun effect => { b.view runID req.ingressDecisionID with effect }) effect

theorem revertStateCompensation_calm (alive : k.ctx = none)
    (ran : perform (worker sdk) x (.revertStateCompensation (dispatchRequest req)) .start k b =
      some (b', body')) :
    body' = .finished .done ∧
      b'.view runID req.ingressDecisionID = { b.view runID req.ingressDecisionID with
        compensations := (b.view runID req.ingressDecisionID).compensations + 1 } := by
  simp only [perform, revertStateCompensation, worker, simulatedAdapter,
    SimulatedAdapter.compensate, alive, Option.some.injEq, Prod.mk.injEq] at ran
  obtain ⟨rfl, rfl⟩ := ran
  refine ⟨rfl, ?_⟩
  rw [Backend.view_target]
  simp [Backend.view, dispatchRequest]

end Called

/-! ## The course of a run -/

/-- What a run needs around it: its ingress decision is on record and allows it, the policy
still does, and its own texts can be stored. -/
structure Favourable (sdk : Sdk) (x : Execution) (req : ExecutionRequest) (th : Thread)
    (b : Backend SimulatedAdapter) : Prop where
  recorded : ∃ rec ∈ b.store.records, verifyIngress sdk.toRuntime rec req x.workflowID = none
  allowed : (revalidate sdk.toRuntime b.policy req).verdict = .allow
  runID : x.runID ≠ []
  proposed : req.proposal.id ≠ []
  hashed : requestHash sdk.toRuntime req.proposal ≠ []
  clock : th.now.isZero = false

section Acts

variable {sdk : Sdk} {x : Execution} {req : ExecutionRequest} {th : Thread} {n : Nat}
  {b b' : Backend SimulatedAdapter} {act : Activity} {opts : Options} {k : Conditions} {body' : Body}

/-- The decision of a favourable run can be claimed. -/
theorem Favourable.named (favourable : Favourable sdk x req th b) :
    req.ingressDecisionID ≠ [] ∧ x.workflowID ≠ [] ∧
      ∃ rec ∈ b.store.records, rec.decisionID = req.ingressDecisionID := by
  obtain ⟨rec, member, passes⟩ := favourable.recorded
  obtain ⟨present, named, -, -, -, -, -, workflow, same⟩ := (verifyIngress_eq_none_iff ..).mp passes
  exact ⟨named ▸ present, same ▸ workflow, rec, member, named⟩

/-- From its claim on, a run has a token. -/
theorem OnCourse.has_token {c : Course} {key : GoString} {v : View} (on : OnCourse c x key n th v)
    (verified : th.point ≠ .verifyIngress) (drawn : th.point ≠ .executionToken) : th.token ≠ [] :=
  (on.token.resolve_left verified).resolve_left drawn

/-- A transition of a run on its course is one the claim permits. -/
theorem OnCourse.permits {c : Course} {key : GoString} {v : View} {target : ClaimState}
    (on : OnCourse c x key n th v) (wants : transition th.point = some target) (sdk : Sdk)
    (req : ExecutionRequest) : auditRow sdk req th.point = none ∧ target ≠ .executing ∧
      ∃ st, v.claim = some ⟨claimOwner x th.token, st⟩ ∧ Permits st target := by
  have here := on.here
  have either : c.unsettled = .executing ∨ c.unsettled = .reconciliationRequired := by
    unfold Course.unsettled
    split <;> simp
  cases point : th.point <;> rw [point] at wants here <;> cases wants
  case releaseFenced => cases here
  case releaseOnExit => cases here
  case requireReconciliation =>
      obtain ⟨-, rfl⟩ := here
      exact ⟨rfl, by decide, _, rfl, (permits_iff _ _).mpr (by simp)⟩
  case markFailed o =>
      obtain ⟨-, -, rfl⟩ := here
      refine ⟨rfl, by decide, _, rfl, (permits_iff _ _).mpr ?_⟩
      rcases either with state | state <;> simp [state]
  case markCompleted =>
      obtain ⟨-, rfl⟩ := here
      refine ⟨rfl, by decide, _, rfl, (permits_iff _ _).mpr ?_⟩
      rcases either with state | state <;> simp [state]

/-- The run claims its decision, which nobody else has. -/
theorem OnCourse.claims
    (on : OnCourse (courseOf req.proposal.targetID) x (executionKey req.ingressDecisionID) n th
      (b.view x.runID req.ingressDecisionID))
    (favourable : Favourable sdk x req th b) (here : th.point = .claimExecution)
    (calm : k.fault = .absent)
    (ran : perform (worker sdk) x
      (.claimExecution { decisionID := req.ingressDecisionID, token := th.token }) .start k b =
        some (b', body')) :
    ∃ r, body' = .finished r ∧ (courseOf req.proposal.targetID).Hears sdk x req th
      (b.view x.runID req.ingressDecisionID) r (b'.view x.runID req.ingressDecisionID) := by
  obtain ⟨decision, workflow, recorded⟩ := favourable.named
  have at_point := on.here
  rw [here] at at_point
  have token := on.has_token (by simp [here]) (by simp [here])
  have valid : (claimOwner x th.token).valid = true := by
    simp [ClaimOwner.valid, claimOwner, workflow, favourable.runID, token]
  have free : b.store.holding? req.ingressDecisionID = none := congrArg View.claim at_point
  obtain ⟨⟨store, rfl, held⟩, u, rfl, claimed⟩ :=
    claimExecution_calm calm recorded decision valid free ran
  refine ⟨_, rfl, ?_⟩
  unfold Course.Hears
  rw [here, Backend.view_store, held]
  exact ⟨⟨u, rfl, claimed⟩, rfl⟩

/-- The run records that it was allowed. -/
theorem OnCourse.records {dec : Contracts.Decision}
    (on : OnCourse (courseOf req.proposal.targetID) x (executionKey req.ingressDecisionID) n th
      (b.view x.runID req.ingressDecisionID))
    (favourable : Favourable sdk x req th b) (here : th.point = .recordDecision dec)
    (alone : ∀ rec' ∈ b.store.records,
      rec'.decisionID = (decisionRecord sdk.toRuntime x req dec th.now).decisionID →
        rec' = decisionRecord sdk.toRuntime x req dec th.now)
    (calm : k.fault = .absent)
    (ran : perform (worker sdk) x
      (.recordDecision (decisionRecord sdk.toRuntime x req dec th.now)) .start k b =
        some (b', body')) :
    ∃ r, body' = .finished r ∧ (courseOf req.proposal.targetID).Hears sdk x req th
      (b.view x.runID req.ingressDecisionID) r (b'.view x.runID req.ingressDecisionID) := by
  have at_point := on.here
  rw [here] at at_point
  have valid : (decisionRecord sdk.toRuntime x req dec th.now).validate = true := by
    simp [DecisionRecord.validate, decisionRecord, workflowDecisionID, favourable.proposed,
      favourable.hashed, favourable.clock, at_point.1, Open.text, Wire.text, ascii]
  obtain ⟨rfl, rfl⟩ := recordDecision_calm calm valid alone ran
  refine ⟨_, rfl, ?_⟩
  unfold Course.Hears
  rw [here, Backend.view_claims (Change.holding?_appendDecision ..)]
  exact ⟨rfl, rfl⟩

/-- The run passes the fence. -/
theorem OnCourse.fences
    (on : OnCourse (courseOf req.proposal.targetID) x (executionKey req.ingressDecisionID) n th
      (b.view x.runID req.ingressDecisionID))
    (favourable : Favourable sdk x req th b) (here : th.point = .dispatchConfig)
    (calm : k.fault = .absent)
    (ran : perform (worker sdk) x (.dispatchConfig (fencedDispatch req th.token)) .start k b =
      some (b', body')) :
    body' = .callAdapter ∧
      b'.view x.runID req.ingressDecisionID = { b.view x.runID req.ingressDecisionID with
        claim := some ⟨claimOwner x th.token, .executing⟩ } := by
  obtain ⟨decision, -, -⟩ := favourable.named
  have at_point := on.here
  rw [here] at at_point
  have token := on.has_token (by simp [here]) (by simp [here])
  have claimed : b.store.holding? req.ingressDecisionID =
      some ⟨claimOwner x th.token, .claimed⟩ := congrArg View.claim at_point
  obtain ⟨⟨store, rfl, held⟩, rfl⟩ :=
    dispatchConfig_calm calm ⟨decision, token⟩ rfl claimed ran
  refine ⟨rfl, ?_⟩
  rw [Backend.view_store]
  exact congrArg (fun claim => { b.view x.runID req.ingressDecisionID with claim }) held

/-- **What the first action of an activity does to the run's view.** -/
theorem OnCourse.acts
    (on : OnCourse (courseOf req.proposal.targetID) x (executionKey req.ingressDecisionID) n th
      (b.view x.runID req.ingressDecisionID))
    (favourable : Favourable sdk x req th b)
    (waits : await sdk x req th = .activity act opts)
    (alone : ∀ rec, act = .recordDecision rec →
      ∀ rec' ∈ b.store.records, rec'.decisionID = rec.decisionID → rec' = rec)
    (fresh : ∀ rec, act = .recordAuditTrail rec → ∀ row ∈ b.audits, row.recordID ≠ rec.recordID)
    (calm : k.fault = .absent) (alive : k.ctx = none)
    (ran : perform (worker sdk) x act .start k b = some (b', body')) :
    (∃ r, body' = .finished r ∧ (courseOf req.proposal.targetID).Hears sdk x req th
      (b.view x.runID req.ingressDecisionID) r (b'.view x.runID req.ingressDecisionID)) ∨
    (th.point = .dispatchConfig ∧ body' = .callAdapter ∧
      b'.view x.runID req.ingressDecisionID = { b.view x.runID req.ingressDecisionID with
        claim := some ⟨claimOwner x th.token, .executing⟩ }) := by
  have asks := await_asks waits
  have at_point := on.here
  cases act with
  | verifyIngressDecision r =>
      obtain ⟨here, rfl⟩ := asks
      obtain ⟨rfl, v, rfl, valid⟩ := verifyIngressDecision_calm calm favourable.recorded ran
      refine Or.inl ⟨_, rfl, ?_⟩
      unfold Course.Hears
      rw [here]
      exact ⟨⟨v, rfl, valid⟩, rfl⟩
  | claimExecution r =>
      obtain ⟨here, rfl⟩ := asks
      exact Or.inl (on.claims favourable here calm ran)
  | evaluateExecution r =>
      obtain ⟨here, rfl⟩ := asks
      obtain ⟨rfl, rfl⟩ := evaluateExecution_calm alive ran
      refine Or.inl ⟨_, rfl, ?_⟩
      unfold Course.Hears
      rw [here]
      exact ⟨⟨_, rfl, favourable.allowed⟩, rfl⟩
  | recordDecision rec =>
      rcases asks with ⟨dec, here, rfl⟩ | ⟨rej, here, -⟩
      · exact Or.inl (on.records favourable here (alone _ rfl) calm ran)
      · rw [here] at at_point
        cases at_point
  | recordAuditTrail rec =>
      obtain ⟨phase, verdict, detail, row, rfl⟩ := asks
      have phased : (Open.named phase : AuditPhase).text ≠ [] := by cases phase <;> decide
      obtain ⟨rfl, view⟩ := recordAuditTrail_calm req.ingressDecisionID calm
        (by simp [newAuditRecord, ascii]) favourable.proposed phased (fresh _ rfl) ran
      refine Or.inl ⟨_, rfl, ?_⟩
      unfold Course.Hears
      rw [row]
      exact ⟨rfl, view⟩
  | advanceExecutionClaim t =>
      obtain ⟨wants, about, token⟩ := asks
      obtain ⟨silent, unfenced, st, held, permitted⟩ := on.permits wants sdk req
      rw [← about, ← token] at held
      obtain ⟨⟨store, rfl, after⟩, rfl⟩ :=
        advanceExecutionClaim_calm calm unfenced permitted held ran
      rw [about, token] at after
      refine Or.inl ⟨_, rfl, ?_⟩
      unfold Course.Hears
      rw [silent, wants, Backend.view_store, after]
      exact ⟨rfl, rfl⟩
  | dispatchConfig f =>
      obtain ⟨here, rfl, -⟩ := asks
      exact Or.inr ⟨here, on.fences favourable here calm ran⟩
  | reconcileDispatch d =>
      obtain ⟨⟨start, wait, here⟩, rfl⟩ := asks
      rw [here] at at_point
      obtain ⟨unknown, -, -, seen⟩ := at_point
      obtain ⟨rfl, view⟩ := reconcileDispatch_calm alive unknown (congrArg View.effect seen) ran
      refine Or.inl ⟨_, rfl, ?_⟩
      unfold Course.Hears
      rw [here]
      exact ⟨rfl, view⟩
  | revertStateCompensation d =>
      obtain ⟨⟨o, here⟩, rfl, -⟩ := asks
      obtain ⟨rfl, view⟩ := revertStateCompensation_calm alive ran
      refine Or.inl ⟨_, rfl, ?_⟩
      unfold Course.Hears
      rw [here]
      exact ⟨rfl, view⟩

theorem await_dispatchConfig (sdk : Sdk) (x : Execution) (req : ExecutionRequest)
    (here : th.point = .dispatchConfig) : await sdk x req th =
      .activity (.dispatchConfig (fencedDispatch req th.token)) activityOpts := by
  unfold await
  rw [here]
  rfl

/-- **The call behind the fence.** -/
theorem OnCourse.calls {before : View}
    (on : OnCourse (courseOf req.proposal.targetID) x (executionKey req.ingressDecisionID) n th before)
    (here : th.point = .dispatchConfig)
    (fenced : b.view x.runID req.ingressDecisionID =
      { before with claim := some ⟨claimOwner x th.token, .executing⟩ })
    (waits : await sdk x req th = .activity act opts) (alive : k.ctx = none)
    (ran : perform (worker sdk) x act .callAdapter k b = some (b', body')) :
    ∃ r, body' = .finished r ∧ (courseOf req.proposal.targetID).Hears sdk x req th before r
      (b'.view x.runID req.ingressDecisionID) := by
  have at_point := on.here
  rw [here] at at_point
  cases (await_dispatchConfig sdk x req here).symm.trans waits
  have fresh : (b.view x.runID req.ingressDecisionID).effect = none := by
    rw [fenced]
    exact congrArg View.effect at_point
  obtain ⟨rfl, view⟩ := dispatchConfigCall_calm alive fresh ran
  refine ⟨_, rfl, ?_⟩
  unfold Course.Hears
  rw [here, view, fenced]
  exact ⟨rfl, rfl⟩

end Acts

end SentryGate.Workflows
