/-
# Workflows.Results -- the result of a run tells what became of its claim

Nil, DISPATCH_FAILED and DISPATCH_OUTCOME_UNKNOWN stand for a claim that is COMPLETED,
FAILED or RECONCILIATION_REQUIRED, and every other result for a claim that the run does
not hold.  `Faithful` says what this takes of the environment: the claim store answers
what it did, the bodies of a wait return before the run goes on, and what the workflow
schedules on a disconnected context, and `DispatchConfig`, does run.

That is not enough.  When two attempts of one `ClaimExecution` overlap, the later one can
be refused while the earlier one, still running, acquires the claim: the run hears the
refusal, ends with EXECUTION_CLAIM_REJECTED and releases nothing
(`rejected_run_keeps_claim`).  `Sequential` keeps attempts of a claim apart.  Along steps
that are both, `Stands` is what the claim is at each point of a run, and
`result_tells_claim` reads it off where a run ends.
-/
import SentryGate.Workflows.Release
import SentryGate.Workflows.Schedule

namespace SentryGate.Workflows

open Theory.Text Theory.Machine Contracts Policy Decision Audit

set_option autoImplicit false

variable {α : Type} {w : Worker α} {G : System α → Label → Prop} {s s' : System α} {l : Label}

/-! ## The environment -/

/-- The activity works on the claim store. -/
def Activity.usesClaims : Activity → Bool
  | .claimExecution _ | .advanceExecutionClaim _ | .dispatchConfig _ => true
  | _ => false

def Activity.isClaim : Activity → Bool
  | .claimExecution _ => true
  | _ => false

/-- The workflow schedules the activity of this point whether it was cancelled or not; and
the dispatch step, which is taken to run. -/
def Point.runs : Point → Bool
  | .dispatchConfig => true
  | p => (transition p).isSome

/-- Every attempt of the wait has returned. -/
def System.allReturned (s : System α) (runID : GoString) (index : Nat) : Bool :=
  s.attempts.all fun a => !(a.caller.runID = runID ∧ a.index = index) || a.body.isFinished

/-- The claim-store operations of the run `runID` return their true result, and it goes on
when the bodies it scheduled have returned. -/
def Faithful (w : Worker α) (runID : GoString) (s : System α) : Label → Bool
  | .exec i c =>
      match s.attempts[i]? with
      | none => true
      | some a => !(a.caller.runID = runID ∧ a.activity.usesClaims = true) || c.fault = .absent
  | .deliver id _ _ =>
      match s.runs id with
      | none => true
      | some run =>
          !(id = runID) || (s.allReturned runID run.history.length &&
            (!(run.thread w.sdk).point.runs || 0 < s.launched runID run.history.length))
  | _ => true

/-- No attempt of the wait of attempt `i` was started after it. -/
def System.latest (s : System α) (i : Nat) (a : Attempt) : Bool :=
  (s.attempts.drop (i + 1)).all fun b => !(b.caller.runID = a.caller.runID ∧ b.index = a.index)

/-- Of the attempts at a claim of the run `runID` only the one started last acts, and is
heard. -/
def Sequential (runID : GoString) (s : System α) : Label → Bool
  | .exec i _ | .deliver _ (.attempt i) _ =>
      match s.attempts[i]? with
      | none => true
      | some a => !(a.caller.runID = runID ∧ a.activity.isClaim = true) || s.latest i a
  | _ => true

/-! ## A rejected run that keeps the claim -/

/-- Run `q` is cancelled with its claim, and its release has not acted yet.  Run `r`
starts two attempts of its claim; the second is refused, `q` releases, and the first
acquires.  Then `r` hears the refusal. -/
def overlappingRun : List Label :=
  [.append none (demoRecord (ascii "n")),
   .start (ascii "q") (ascii "w") (demoRequest (ascii "n")) ⟨1⟩] ++
  round (ascii "q") 0 ++ [.deliver (ascii "q") (.token (ascii "u")) ⟨1⟩] ++ round (ascii "q") 1 ++
  [.cancel (ascii "q"), .deliver (ascii "q") (.interrupted .canceled) ⟨1⟩, .launch (ascii "q")] ++
  [.start (ascii "r") (ascii "w") (demoRequest (ascii "n")) ⟨1⟩] ++
  round (ascii "r") 3 ++ [.deliver (ascii "r") (.token (ascii "t")) ⟨1⟩] ++
  [.launch (ascii "r"), .launch (ascii "r"), .exec 5 calm, .exec 5 calm, .exec 2 calm,
   .exec 4 calm, .deliver (ascii "r") (.attempt 5) ⟨1⟩] ++
  round (ascii "r") 6 ++ round (ascii "r") 7

/-- **A run that is told it was refused the claim, and ends, may hold it.** -/
theorem rejected_run_keeps_claim :
    Reaches (worker plainSdk) (admits fun s l => Faithful (worker plainSdk) (ascii "r") s l &&
      Faithful (worker plainSdk) (ascii "q") s l) (demo overlappingRun) ∧
    ∃ run result, (demo overlappingRun).runs (ascii "r") = some run ∧ run.inherited = 0 ∧
      (run.thread plainSdk).point = .closed result ∧ HasType .executionClaimRejected result ∧
      (demo overlappingRun).backend.store.holding? (ascii "d") =
        some ⟨claimOwner ⟨ascii "w", ascii "r"⟩ (run.thread plainSdk).token, .claimed⟩ := by
  refine ⟨⟨_, _, runFrom_guarded (by decide +kernel)⟩, ?_⟩
  have ended : ((demo overlappingRun).runs (ascii "r")).map (fun run =>
      (run.inherited, (run.thread plainSdk).point,
        decide ((demo overlappingRun).backend.store.holding? (ascii "d") =
          some ⟨claimOwner ⟨ascii "w", ascii "r"⟩ (run.thread plainSdk).token, .claimed⟩))) =
      some (0, .closed (applicationError .executionClaimRejected
        (ascii "execution rejected: INGRESS_DECISION_ALREADY_CLAIMED") []
        [ascii "INGRESS_DECISION_ALREADY_CLAIMED"]), true) := by decide +kernel
  obtain ⟨run, known, here⟩ := Option.map_eq_some_iff.mp ended
  obtain ⟨fresh, rest⟩ := Prod.mk.inj here
  obtain ⟨closed, held⟩ := Prod.mk.inj rest
  exact ⟨run, _, known, fresh, closed, ⟨_, _, _, rfl⟩, of_decide_eq_true held⟩

/-! ## Orderly steps -/

/-- The steps along which the result of the run is to be trusted. -/
def Orderly (w : Worker α) (runID : GoString) (s : System α) (l : Label) : Bool :=
  Faithful w runID s l && Sequential runID s l

section Guard

variable {i : Nat} {c : Conditions} {a : Attempt} {run : Run} {runID : GoString}
  {source : Source} {now : Time}

theorem Orderly.true_result (orderly : admits (Orderly w a.caller.runID) s (.exec i c))
    (found : s.attempts[i]? = some a) (uses : a.activity.usesClaims = true) :
    c.fault = .absent := by
  simp only [admits, Orderly, Faithful, found, uses, Bool.and_eq_true] at orderly
  simpa using orderly.1

theorem Orderly.returned (orderly : admits (Orderly w runID) s (.deliver runID source now))
    (known : s.runs runID = some run) :
    ∀ a ∈ s.attempts, a.caller.runID = runID → a.index = run.history.length →
      a.body.isFinished = true := by
  simp only [admits, Orderly, Faithful, known, System.allReturned, Bool.and_eq_true,
    decide_true, Bool.not_true, Bool.false_or, List.all_eq_true] at orderly
  intro a member own index
  simpa [own, index] using orderly.1.1 a member

/-- What a run waits for in any case has returned when it goes on. -/
theorem Orderly.ran (orderly : admits (Orderly w runID) s (.deliver runID source now))
    (known : s.runs runID = some run) (runs : (run.thread w.sdk).point.runs = true) :
    ∃ a ∈ s.attempts, a.caller.runID = runID ∧ a.index = run.history.length ∧
      a.body.isFinished = true := by
  have returned := Orderly.returned orderly known
  simp only [admits, Orderly, Faithful, known, runs, Bool.and_eq_true, decide_true, Bool.not_true,
    Bool.false_or] at orderly
  have began : 0 < s.launched runID run.history.length := by simpa using orderly.1.2
  obtain ⟨a, member, there⟩ := List.countP_pos_iff.mp began
  obtain ⟨own, index⟩ := of_decide_eq_true there
  exact ⟨a, member, own, index, returned a member own index⟩

theorem Orderly.acts_last (orderly : admits (Orderly w a.caller.runID) s (.exec i c))
    (found : s.attempts[i]? = some a) (claims : a.activity.isClaim = true) :
    s.latest i a = true := by
  simp only [admits, Orderly, Sequential, found, claims, Bool.and_eq_true] at orderly
  simpa using orderly.2

theorem Orderly.heard_last (orderly : admits (Orderly w a.caller.runID) s (.deliver runID (.attempt i) now))
    (found : s.attempts[i]? = some a) (claims : a.activity.isClaim = true) :
    s.latest i a = true := by
  simp only [admits, Orderly, Sequential, found, claims, Bool.and_eq_true] at orderly
  simpa using orderly.2

end Guard

/-- A body that acts has not returned. -/
theorem perform_unfinished {x : Execution} {act : Activity} {body : Body} {c : Conditions}
    {b : Backend α} {r : Backend α × Body} (ran : perform w x act body c b = some r) :
    body.isFinished = false := by
  cases body with
  | finished r => rw [perform_finished] at ran; cases ran
  | _ => rfl

/-- **The attempts of the waits behind a run have returned.** -/
theorem Reaches.behind_returned {runID : GoString} (reached : Reaches w (admits (Orderly w runID)) s) :
    ∀ a ∈ s.attempts, a.caller.runID = runID → ∀ run, s.runs runID = some run →
      a.index < run.history.length → a.body.isFinished = true := by
  refine reached.induction (P := fun s => ∀ a ∈ s.attempts, a.caller.runID = runID → ∀ run,
    s.runs runID = some run → a.index < run.history.length → a.body.isFinished = true) ?_ ?_
  · intro policy target a member
    cases member
  intro s l s' prior behind orderly move a member own run' known' before
  -- an attempt that was there before the step, with the run it had then
  have old : ∀ a ∈ s.attempts, a.caller.runID = runID → ∀ run', s'.runs runID = some run' →
      a.index < run'.history.length → a.body.isFinished = true := by
    intro a member own run' known' before
    obtain ⟨run, placed⟩ := prior.placed a member
    have known := placed.known
    rw [own] at known
    cases move.runStep known' with
    | started workflowID req now fresh => cases fresh.symm.trans known
    | reset base run k canceled label fresh found within => cases fresh.symm.trans known
    | kept run run' known later same => exact behind a member own run known (same ▸ before)
    | heard run source reply now label known said =>
        subst label
        rcases Nat.lt_succ_iff_lt_or_eq.mp (by simpa [Run.hear] using before) with lower | here
        · exact behind a member own run known lower
        · exact Orderly.returned orderly known a member own here
  cases move with
  | launch id run act opts known waits under =>
      rcases List.mem_append.mp member with there | last
      · exact old a there own run' known' before
      · obtain rfl := List.mem_singleton.mp last
        obtain rfl : id = runID := own
        cases known.symm.trans known'
        exact absurd before (Nat.lt_irrefl _)
  | exec i b c backend body found ran =>
      rcases List.mem_or_eq_of_mem_set member with there | rfl
      · exact old a there own run' known' before
      · have returned := behind b (List.mem_of_getElem? found) own run' known' before
        rw [perform_unfinished ran] at returned
        cases returned
  | _ => exact old a member own run' known' before

/-- An attempt of a run that acts belongs to the wait the run is in. -/
theorem Reaches.acts_here {a : Attempt} (reached : Reaches w (admits (Orderly w a.caller.runID)) s)
    (member : a ∈ s.attempts) (unfinished : a.body.isFinished = false) {run : Run}
    (known : s.runs a.caller.runID = some run) : a.index = run.history.length := by
  obtain ⟨run', placed⟩ := reached.placed a member
  cases known.symm.trans placed.known
  rcases placed.within.lt_or_eq with before | here
  · rw [reached.behind_returned a member rfl run known before] at unfinished
    cases unfinished
  · exact here

/-! ## What the claim is at each point -/

/-- The owner a run claims as. -/
def Run.owner (sdk : Sdk) (runID : GoString) (run : Run) : ClaimOwner :=
  claimOwner ⟨run.workflowID, runID⟩ (run.threadAt sdk 2).token

/-- The run holds its claim, in this state. -/
def Has (sdk : Sdk) (s : System α) (runID : GoString) (run : Run) (st : ClaimState) : Prop :=
  s.backend.store.holding? run.req.ingressDecisionID = some ⟨run.owner sdk runID, st⟩

/-- The run holds no claim but a released one. -/
def Without (s : System α) (runID decisionID : GoString) : Prop :=
  ∀ h, s.backend.store.holding? decisionID = some h → h.owner.runID = runID → h.state = .released

/-- The claim is on its way to `target`, and there once an attempt of the transition has
returned. -/
def Moving (sdk : Sdk) (s : System α) (runID : GoString) (run : Run) (target : ClaimState) : Prop :=
  Has sdk s runID run target ∨
    s.returned runID run.history.length = false ∧
      ∃ st, Has sdk s runID run st ∧ Permits st target

/-- The answer says that the claim was refused. -/
def Body.refuses : Body → Bool
  | .finished (.claimed r) => !r.claimed
  | _ => false

/-- An outcome that the run took from its dispatch or a reconciliation was a success. -/
def Run.Succeeded (sdk : Sdk) (runID : GoString) (run : Run) : Prop :=
  ∃ k o, run.outcomeAt sdk runID k = some o ∧ o.status = .success

/-- A run that returns this has not come to its dispatch. -/
structure Early (sdk : Sdk) (runID : GoString) (run : Run) (result : WorkflowResult) : Prop where
  some : result ≠ none
  unfailed : ¬ HasType .dispatchFailed result
  known : ¬ HasType .dispatchOutcomeUnknown result
  unsucceeded : PersistFailed result → ¬ run.Succeeded sdk runID

/-- What the result of a run tells about its claim. -/
structure Tells (sdk : Sdk) (s : System α) (runID : GoString) (run : Run)
    (result : WorkflowResult) : Prop where
  completed : result = none → Has sdk s runID run .completed
  failed : HasType .dispatchFailed result → Has sdk s runID run .failed
  unknown : HasType .dispatchOutcomeUnknown result → Has sdk s runID run .reconciliationRequired
  persisted : PersistFailed result → run.Succeeded sdk runID → Has sdk s runID run .completed
  unpersisted : PersistFailed result → ¬ run.Succeeded sdk runID →
    Without s runID run.req.ingressDecisionID
  rejected : HasType .ingressDecisionInvalid result ∨ HasType .executionClaimRejected result ∨
    HasType .revalidationDenied result → Without s runID run.req.ingressDecisionID

/-- The claim of a run at each point. -/
def Stands (sdk : Sdk) (s : System α) (runID : GoString) (run : Run) : Point → Prop
  | .verifyIngress | .executionToken => Without s runID run.req.ingressDecisionID
  | .rejectRecord rej | .rejectAudit rej =>
      Without s runID run.req.ingressDecisionID ∧
        (rej.errType = .ingressDecisionInvalid ∨ rej.errType = .executionClaimRejected)
  | .claimExecution =>
      Without s runID run.req.ingressDecisionID ∨
        Has sdk s runID run .claimed ∧ ∀ i a, s.attempts[i]? = some a → a.caller.runID = runID →
          a.index = run.history.length → s.latest i a = true → a.body.refuses = false
  | .evaluateExecution | .recordDecision _ | .auditDenied _ | .auditPassed _ =>
      Has sdk s runID run .claimed
  | .dispatchConfig =>
      (Has sdk s runID run .claimed ∧ ∀ a ∈ s.attempts, a.caller.runID = runID →
        a.index = run.history.length → a.body = .start) ∨
      (Has sdk s runID run .executing ∧ ∃ a ∈ s.attempts, a.caller.runID = runID ∧
        a.index = run.history.length ∧ (a.body = .callAdapter ∨ ∃ o, a.body = .finished (.outcome o)))
  | .releaseFenced _ _ | .auditFenceRejected _ _ | .auditFenceUnknown _ => False
  | .auditDispatch _ => Has sdk s runID run .executing
  | .requireReconciliation => Moving sdk s runID run .reconciliationRequired
  | .reconcile _ _ | .reconcileSleep _ _ _ | .auditReconciliation _ =>
      Has sdk s runID run .reconciliationRequired
  | .markFailed _ => Moving sdk s runID run .failed
  | .compensate _ | .auditCompensation _ _ | .auditWorkflowFailed _ => Has sdk s runID run .failed
  | .markCompleted => Moving sdk s runID run .completed
  | .auditComplete => Has sdk s runID run .completed ∧ run.Succeeded sdk runID
  | .releaseOnExit result =>
      (Without s runID run.req.ingressDecisionID ∨
        s.returned runID run.history.length = false ∧ Has sdk s runID run .claimed) ∧
      Early sdk runID run result
  | .closed result => Tells sdk s runID run result

/-! ## Steps that leave the claim alone -/

section Kept

variable {runID : GoString} {run : Run} {p : Point}

/-- The claim is left alone. -/
structure Keeps (sdk : Sdk) (s s' : System α) (runID : GoString) (run : Run) : Prop where
  without : Without s runID run.req.ingressDecisionID → Without s' runID run.req.ingressDecisionID
  has : ∀ st, st ≠ .released → Has sdk s runID run st → Has sdk s' runID run st

/-- So are the attempts of the wait the run is in, as far as `Stands` reads them. -/
structure Alike (sdk : Sdk) (s s' : System α) (runID : GoString) (run : Run) : Prop
    extends Keeps sdk s s' runID run where
  returned : s.returned runID run.history.length = false →
    s'.returned runID run.history.length = false
  unbegun : (∀ a ∈ s.attempts, a.caller.runID = runID → a.index = run.history.length →
      a.body = .start) →
    ∀ a ∈ s'.attempts, a.caller.runID = runID → a.index = run.history.length → a.body = .start
  begun : ∀ a ∈ s.attempts, a.caller.runID = runID → a.index = run.history.length →
    a.body ≠ .start → a ∈ s'.attempts
  unrefused : (∀ i a, s.attempts[i]? = some a → a.caller.runID = runID →
      a.index = run.history.length → s.latest i a = true → a.body.refuses = false) →
    ∀ i a, s'.attempts[i]? = some a → a.caller.runID = runID →
      a.index = run.history.length → s'.latest i a = true → a.body.refuses = false

theorem Moving.alike {sdk : Sdk} {target : ClaimState} (alike : Alike sdk s s' runID run)
    (unreleased : target ≠ .released) (moving : Moving sdk s runID run target) :
    Moving sdk s' runID run target := by
  rcases moving with there | ⟨unreturned, st, held, permitted⟩
  · exact Or.inl (alike.has target unreleased there)
  · refine Or.inr ⟨alike.returned unreturned, st, alike.has st ?_ held, permitted⟩
    rintro rfl
    have table := (permits_iff _ _).mp permitted
    simp at table
    exact unreleased table

/-- The activity of the point works on the claim store. -/
def Point.touches : Point → Bool
  | .claimExecution => true
  | p => p.runs

/-- Where a run does not work on its claim, only the claim matters. -/
theorem Stands.keeps {sdk : Sdk} (keeps : Keeps sdk s s' runID run) (untouched : p.touches = false)
    (stands : Stands sdk s runID run p) : Stands sdk s' runID run p := by
  cases p with
  | verifyIngress | executionToken => exact keeps.without stands
  | rejectRecord rej | rejectAudit rej => exact ⟨keeps.without stands.1, stands.2⟩
  | evaluateExecution | recordDecision dec | auditDenied dec | auditPassed dec | auditDispatch o
  | reconcile start wait | reconcileSleep start wait last | auditReconciliation o | compensate o
  | auditCompensation err failure | auditWorkflowFailed failure =>
      exact keeps.has _ (by decide) stands
  | auditFenceRejected released err | auditFenceUnknown o => exact stands
  | auditComplete => exact ⟨keeps.has _ (by decide) stands.1, stands.2⟩
  | closed result =>
      exact ⟨fun r => keeps.has _ (by decide) (stands.completed r),
        fun r => keeps.has _ (by decide) (stands.failed r),
        fun r => keeps.has _ (by decide) (stands.unknown r),
        fun r o => keeps.has _ (by decide) (stands.persisted r o),
        fun r o => keeps.without (stands.unpersisted r o),
        fun r => keeps.without (stands.rejected r)⟩
  | claimExecution | dispatchConfig | releaseFenced fence err | requireReconciliation
  | markFailed o | markCompleted | releaseOnExit result => cases untouched

/-- **A point stands as it did.** -/
theorem Stands.alike {sdk : Sdk} (alike : Alike sdk s s' runID run)
    (stands : Stands sdk s runID run p) : Stands sdk s' runID run p := by
  cases p with
  | claimExecution =>
      rcases stands with free | ⟨held, unrefused⟩
      · exact Or.inl (alike.without free)
      · exact Or.inr ⟨alike.has _ (by decide) held, alike.unrefused unrefused⟩
  | dispatchConfig =>
      rcases stands with ⟨held, unbegun⟩ | ⟨held, a, member, own, index, begun⟩
      · exact Or.inl ⟨alike.has _ (by decide) held, alike.unbegun unbegun⟩
      · refine Or.inr ⟨alike.has _ (by decide) held, a, ?_, own, index, begun⟩
        refine alike.begun a member own index ?_
        rcases begun with body | ⟨o, body⟩ <;> rw [body] <;> nofun
  | releaseFenced fence err => exact stands
  | requireReconciliation | markFailed o | markCompleted => exact stands.alike alike (by decide)
  | releaseOnExit result =>
      refine ⟨?_, stands.2⟩
      rcases stands.1 with free | ⟨unreturned, held⟩
      · exact Or.inl (alike.without free)
      · exact Or.inr ⟨alike.returned unreturned, alike.has _ (by decide) held⟩
  | _ => exact stands.keeps alike.toKeeps rfl

/-- A step that runs no body leaves the claim alone. -/
theorem Quiet.alike (sdk : Sdk) (quiet : Quiet s s') (runID : GoString) (run : Run) :
    Alike sdk s s' runID run where
  without free h held := free h (quiet.holding _ ▸ held)
  has st _ held := (quiet.holding _).trans held
  returned := quiet.returned
  unbegun unbegun a member own index := by
    rcases quiet.attempts with same | ⟨fresh, start, added⟩
    · exact unbegun a (same ▸ member) own index
    · rw [added] at member
      rcases List.mem_append.mp member with old | last
      · exact unbegun a old own index
      · obtain rfl := List.mem_singleton.mp last
        exact start
  begun a member _ _ _ := by
    rcases quiet.attempts with same | ⟨fresh, start, added⟩
    · exact same ▸ member
    · rw [added]
      exact List.mem_append_left _ member
  unrefused unrefused i a found own index last := by
    rcases quiet.attempts with same | ⟨fresh, start, added⟩
    · unfold System.latest at last
      rw [same] at found last
      exact unrefused i a found own index last
    · unfold System.latest at last
      rw [added] at found last
      rcases Nat.lt_or_ge i s.attempts.length with inside | beyond
      · rw [List.getElem?_append_left inside] at found
        refine unrefused i a found own index ?_
        rw [List.drop_append_of_le_length inside, List.all_append, Bool.and_eq_true] at last
        exact last.1
      · rw [List.getElem?_append_right beyond] at found
        obtain rfl := List.mem_singleton.mp (List.mem_of_getElem? found)
        rw [start]
        rfl

theorem System.latest_iff {i : Nat} {a : Attempt} : s.latest i a = true ↔
    ∀ j b, i < j → s.attempts[j]? = some b →
      ¬ (b.caller.runID = a.caller.runID ∧ b.index = a.index) := by
  simp only [System.latest, List.all_eq_true, Bool.not_eq_true', decide_eq_false_iff_not]
  constructor
  · intro none j b after found
    refine none b (List.mem_of_getElem? (i := j - (i + 1)) ?_)
    rw [List.getElem?_drop, ← found]
    congr 1
    omega
  · intro none b member
    obtain ⟨j, found⟩ := List.mem_iff_getElem?.mp member
    rw [List.getElem?_drop] at found
    exact none _ b (by omega) found

variable {i : Nat} {a : Attempt} {b' : Backend α} {body' : Body}

/-- Which attempt was started last does not depend on where the bodies stand. -/
theorem System.latest_set {j : Nat} {b : Attempt} (found : s.attempts[i]? = some a) :
    System.latest { s with backend := b', attempts := s.attempts.set i { a with body := body' } } j b =
      s.latest j b := by
  rw [Bool.eq_iff_iff, System.latest_iff, System.latest_iff]
  have inside := (List.getElem?_eq_some_iff.mp found).1
  constructor
  · intro none k d after there
    by_cases same : k = i
    · subst same
      cases found.symm.trans there
      exact none k { a with body := body' } after (by simp [inside])
    · exact none k d after (by simpa [List.getElem?_set_ne (Ne.symm same)] using there)
  · intro none k d after there
    by_cases same : k = i
    · subst same
      simp only [List.getElem?_set_self inside, Option.some.injEq] at there
      subst there
      exact none k a after found
    · simp only [List.getElem?_set_ne (Ne.symm same)] at there
      exact none k d after there

/-- A body of another run leaves the claim alone. -/
theorem Performed.alike (sdk : Sdk) (found : s.attempts[i]? = some a)
    (performed : Performed w a.caller s.backend a.activity a.body b' body')
    (foreign : a.caller.runID ≠ runID) (run : Run) :
    Alike sdk s { s with backend := b', attempts := s.attempts.set i { a with body := body' } }
      runID run where
  without free h held own := by
    obtain ⟨wr, change, -, author⟩ := performed.change.row run.req.ingressDecisionID
    cases wr with
    | nothing => exact free h (change.of_nothing ▸ held) own
    | acquired owner =>
        obtain ⟨-, after⟩ := change.of_acquired
        cases held.symm.trans after
        obtain ⟨req, -, -, rfl⟩ := author
        exact absurd own foreign
    | advanced owner next =>
        obtain ⟨st, -, -, after⟩ := change.of_advanced
        cases held.symm.trans after
        rcases author with ⟨t, -, -, rfl, -⟩ | ⟨req, -, -, rfl, -⟩ <;> exact absurd own foreign
  has st taken held := by
    obtain ⟨wr, change, -, author⟩ := performed.change.row run.req.ingressDecisionID
    cases wr with
    | nothing => exact change.of_nothing.trans held
    | acquired owner => exact absurd (change.of_acquired.1 _ held) taken
    | advanced owner next =>
        obtain ⟨st', before, -, -⟩ := change.of_advanced
        have same := congrArg Holding.owner (Option.some.inj (held.symm.trans before))
        have own : runID = owner.runID := congrArg ClaimOwner.runID same
        rcases author with ⟨t, -, -, rfl, -⟩ | ⟨req, -, -, rfl, -⟩ <;> exact absurd own.symm foreign
  returned silent := by
    rw [System.returned_eq_false_iff] at silent ⊢
    intro b member own index
    rcases List.mem_or_eq_of_mem_set member with old | rfl
    · exact silent b old own index
    · exact absurd own foreign
  unbegun unbegun b member own index := by
    rcases List.mem_or_eq_of_mem_set member with old | rfl
    · exact unbegun b old own index
    · exact absurd own foreign
  begun b member own _ _ := by
    obtain ⟨j, there⟩ := List.mem_iff_getElem?.mp member
    refine List.mem_iff_getElem?.mpr ⟨j, ?_⟩
    have other : i ≠ j := by
      rintro rfl
      cases found.symm.trans there
      exact foreign own
    simpa [List.getElem?_set_ne other] using there
  unrefused unrefused j b there own index last := by
    rw [System.latest_set found] at last
    by_cases same : j = i
    · subst same
      simp only [List.getElem?_set_self (List.getElem?_eq_some_iff.mp found).1,
        Option.some.injEq] at there
      subst there
      exact absurd own foreign
    · simp only [List.getElem?_set_ne (Ne.symm same)] at there
      exact unrefused j b there own index last

end Kept

/-! ## The steps of the run itself -/

/-- What the worker of the run has: an adapter and the claim store. -/
structure Configured (w : Worker α) : Prop where
  adapter : w.adapter.isSome = true
  infraClaims : w.infraClaims = true
  claims : w.claims = true

/-- A claim without a decision or a token is not made. -/
theorem claimExecution_unnamed {x : Execution} {req : ClaimRequest} {c : Conditions}
    {b b' : Backend α} {body' : Body}
    (ran : perform w x (.claimExecution req) .start c b = some (b', body'))
    (unnamed : req.decisionID = [] ∨ req.token = []) : b' = b := by
  simp only [perform, claimExecution, if_pos unnamed, Option.some.injEq] at ran
  split at ran <;> cases ran <;> rfl

/-- **A claim is on a decision, by an owner with a token.** -/
theorem Reaches.held_named (reached : Reaches w G s) :
    ∀ decisionID h, s.backend.store.holding? decisionID = some h →
      decisionID ≠ [] ∧ h.owner.token ≠ [] := by
  refine reached.induction (P := fun s => ∀ decisionID h,
    s.backend.store.holding? decisionID = some h → decisionID ≠ [] ∧ h.owner.token ≠ []) ?_ ?_
  · intro policy target decisionID h held
    cases held
  intro s l s' prior named _ move decisionID h held
  rcases move.quiet_or_ran with quiet | ⟨i, a, c, b', body', -, found, ran, rfl⟩
  · exact named decisionID h (quiet.holding _ ▸ held)
  · obtain ⟨wr, change, start, author⟩ := (perform_performed ran).change.row decisionID
    cases wr with
    | nothing => exact named decisionID h (change.of_nothing ▸ held)
    | acquired owner =>
        obtain ⟨req, act, here, rfl⟩ := author
        obtain ⟨-, after⟩ := change.of_acquired
        by_cases unnamed : req.decisionID = [] ∨ req.token = []
        · rw [act, start (by simp)] at ran
          rw [claimExecution_unnamed ran unnamed] at held
          exact named decisionID h held
        · cases held.symm.trans after
          rw [not_or] at unnamed
          exact ⟨here ▸ unnamed.1, unnamed.2⟩
    | advanced owner next =>
        obtain ⟨st, before, -, after⟩ := change.of_advanced
        cases held.symm.trans after
        exact named decisionID ⟨owner, st⟩ before

/-- The first action of a claim does not refuse it. -/
theorem claimExecution_unrefused {x : Execution} {req : ClaimRequest} {c : Conditions}
    {b b' : Backend α} {body' : Body}
    (ran : perform w x (.claimExecution req) .start c b = some (b', body')) :
    body'.refuses = false := by
  simp only [perform, claimExecution, Option.some.injEq] at ran
  split at ran
  · cases ran; rfl
  split at ran
  · cases ran; rfl
  split at ran
  · cases ran; rfl
  have after := congrArg Prod.snd ran
  simp only at after
  split at after <;> rw [← after] <;> rfl

/-- The read that explains a claim that changed nothing does not refuse the run's own. -/
theorem claimExecutionRead_unrefused {x : Execution} {req : ClaimRequest} {c : Conditions}
    {b b' : Backend α} {body' : Body}
    (ran : perform w x (.claimExecution req) .readClaim c b = some (b', body'))
    (held : b.store.holding? req.decisionID = some ⟨claimOwner x req.token, .claimed⟩) :
    body'.refuses = false := by
  simp only [perform, claimExecutionRead, Option.some.injEq] at ran
  have after := congrArg Prod.snd ran
  simp only at after
  split at after
  · rw [← after]; rfl
  · rename_i claim read
    have there := b.store.holding?_of_getClaim (read_ok read)
    have same := Option.some.inj (there.symm.trans held)
    have own : claim.owner = claimOwner x req.token := congrArg Holding.owner same
    have state : claim.state = .claimed := congrArg Holding.state same
    rw [reportHeld, if_pos ⟨own, state⟩] at after
    rw [← after]; rfl

/-- The fence that the store grants: the claim is EXECUTING and the adapter is next. -/
theorem fence_effective {x : Execution} {req : FencedDispatch} {c : Conditions}
    {b b' : Backend α} {body' : Body} (configured : Configured w)
    (ran : perform w x (.dispatchConfig req) .start c b = some (b', body'))
    (named : req.decisionID ≠ [] ∧ req.token ≠ [])
    (keyed : req.dispatch.idempotencyKey = executionKey req.decisionID)
    (faultless : c.fault = .absent)
    (held : b.store.holding? req.decisionID = some ⟨claimOwner x req.token, .claimed⟩) :
    b'.store.holding? req.decisionID = some ⟨claimOwner x req.token, .executing⟩ ∧
      body' = .callAdapter := by
  obtain ⟨adapter, set⟩ := Option.isSome_iff_exists.mp configured.adapter
  simp only [perform, dispatchConfig, set, configured.infraClaims, named.1, named.2, keyed,
    Option.isNone_some, Bool.not_true, Bool.false_eq_true, if_false, or_self, ne_eq, not_true,
    Conditions.write, faultless, Option.some.injEq] at ran
  rcases advanceClaim_cases b.store req.decisionID (claimOwner x req.token) .executing c.now with
    ⟨store, -, update, -, -, -, writes⟩ | ⟨e, -, -, refused⟩
  · obtain ⟨-, -, -, after⟩ := writes.row.of_advanced
    rw [update] at ran
    cases ran
    exact ⟨after, rfl⟩
  · have permitted : Permits .claimed .executing := (permits_iff _ _).mpr (by simp)
    obtain ⟨claim, found, same⟩ := Option.map_eq_some_iff.mp held
    have own : claim.owner = claimOwner x req.token := congrArg Holding.owner same
    have state : claim.state = .claimed := congrArg Holding.state same
    exact absurd (state ▸ permitted) (refused claim found own)

/-- A point works on the claim store exactly if the activity it asks for does. -/
theorem asks_touches {sdk : Sdk} {x : Execution} {req : ExecutionRequest} {th : Thread}
    {opts : Options} {act : Activity} (asks : Asks sdk x req th opts act) :
    th.point.touches = act.usesClaims := by
  cases act with
  | verifyIngressDecision r => rw [asks.1]; rfl
  | claimExecution r => rw [asks.1]; rfl
  | evaluateExecution r => rw [asks.1]; rfl
  | recordDecision rec =>
      rcases asks with ⟨dec, here, -⟩ | ⟨rej, here, -⟩ <;> rw [here] <;> rfl
  | recordAuditTrail rec =>
      obtain ⟨phase, verdict, detail, here, -⟩ := asks
      cases point : th.point <;> rw [point] at here <;> first | rfl | cases here
  | advanceExecutionClaim t =>
      have wants := asks.1
      cases point : th.point <;> rw [point] at wants <;> first | rfl | cases wants
  | dispatchConfig f => rw [asks.1]; rfl
  | reconcileDispatch d =>
      obtain ⟨⟨start, wait, here⟩, -⟩ := asks
      rw [here]; rfl
  | revertStateCompensation d =>
      obtain ⟨⟨o, here⟩, -⟩ := asks
      rw [here]; rfl

/-- No transition enters EXECUTING. -/
theorem transition_unfenced {p : Point} : transition p ≠ some .executing := by
  cases p <;> simp [transition]

/-- An activity that does not use the claim store leaves the claim alone. -/
theorem Performed.keeps {x : Execution} {act : Activity} {body body' : Body} {b' : Backend α}
    (performed : Performed w x s.backend act body b' body') (free : act.usesClaims = false)
    (attempts : List Attempt) (sdk : Sdk) (runID : GoString) (run : Run) :
    Keeps sdk s { s with backend := b', attempts } runID run := by
  have same : b'.store.holding? run.req.ingressDecisionID =
      s.backend.store.holding? run.req.ingressDecisionID := by
    obtain ⟨wr, change, -, author⟩ := performed.change.row run.req.ingressDecisionID
    cases wr with
    | nothing => exact change.of_nothing
    | acquired owner =>
        obtain ⟨req, rfl, -⟩ := author
        cases free
    | advanced owner next =>
        rcases author with ⟨t, rfl, -⟩ | ⟨req, rfl, -⟩ <;> cases free
  exact ⟨fun without h held => without h (same ▸ held), fun st _ held => same.trans held⟩

section Own

variable {i : Nat} {c : Conditions} {a : Attempt} {run : Run} {b' : Backend α} {body' : Body}

/-- An attempt that acts, with the wait its run is in. -/
structure Acting (w : Worker α) (s : System α) (i : Nat) (c : Conditions) (a : Attempt) (run : Run)
    (b' : Backend α) (body' : Body) : Prop where
  reached : Reaches w (admits (Orderly w a.caller.runID)) s
  orderly : admits (Orderly w a.caller.runID) s (.exec i c)
  found : s.attempts[i]? = some a
  known : s.runs a.caller.runID = some run
  ran : perform w a.caller a.activity a.body c s.backend = some (b', body')

namespace Acting

theorem member (acting : Acting w s i c a run b' body') : a ∈ s.attempts :=
  List.mem_of_getElem? acting.found

theorem placed (acting : Acting w s i c a run b' body') : Placed w.sdk s a run := by
  obtain ⟨run', placed⟩ := acting.reached.placed a acting.member
  cases acting.known.symm.trans placed.known
  exact placed

theorem index (acting : Acting w s i c a run b' body') : a.index = run.history.length :=
  acting.reached.acts_here acting.member (perform_unfinished acting.ran) acting.known

theorem asks (acting : Acting w s i c a run b' body') :
    ∃ opts, run.awaits w.sdk a.caller.runID run.history.length = .activity a.activity opts ∧
      Asks w.sdk ⟨run.workflowID, a.caller.runID⟩ run.req (run.thread w.sdk) opts a.activity := by
  obtain ⟨opts, waits⟩ := acting.placed.waits
  rw [acting.index] at waits
  exact ⟨opts, waits, await_asks waits⟩

theorem performed (acting : Acting w s i c a run b' body') :
    Performed w a.caller s.backend a.activity a.body b' body' :=
  perform_performed acting.ran

/-- The owner under which it acts, once the run has its token. -/
theorem owner (acting : Acting w s i c a run b' body') (claimed : 2 ≤ run.history.length) :
    claimOwner a.caller (run.thread w.sdk).token = run.owner w.sdk a.caller.runID := by
  unfold Run.owner
  rw [Run.thread, Run.token_fixed claimed (Nat.le_refl _), ← acting.placed.workflowID]

/-- An attempt at a claim: what it makes of the claim, it does not deny. -/
theorem claims (acting : Acting w s i c a run b' body')
    (here : (run.thread w.sdk).point = .claimExecution)
    (stands : Stands w.sdk s a.caller.runID run .claimExecution) :
    Stands w.sdk { s with backend := b', attempts := s.attempts.set i { a with body := body' } }
      a.caller.runID run .claimExecution := by
  obtain ⟨opts, waits, -⟩ := acting.asks
  have asked : run.awaits w.sdk a.caller.runID run.history.length = .activity (.claimExecution
      ⟨run.req.ingressDecisionID, (run.thread w.sdk).token⟩) bookCtx :=
    Run.awaits_eq _ here
  have act := (Await.activity.inj (waits.symm.trans asked)).1
  have place : run.history.length = 2 :=
    Run.threadAt_place (Nat.le_refl _) (by rw [← Run.thread, here]; rfl)
  have owner := acting.owner (by omega)
  have ran := acting.ran
  rw [act] at ran
  have last := Orderly.acts_last acting.orderly acting.found (by rw [act]; rfl)
  -- the attempt started last is this one
  have only : body'.refuses = false → ∀ j b,
      (s.attempts.set i { a with body := body' })[j]? = some b → b.caller.runID = a.caller.runID →
      b.index = run.history.length → System.latest { s with
        backend := b', attempts := s.attempts.set i { a with body := body' } } j b = true →
      b.body.refuses = false := by
    intro unrefused j b there own index latest
    rw [System.latest_set acting.found] at latest
    by_cases same : j = i
    · subst same
      simp only [List.getElem?_set_self (List.getElem?_eq_some_iff.mp acting.found).1,
        Option.some.injEq] at there
      subst there
      exact unrefused
    · rw [List.getElem?_set_ne (Ne.symm same)] at there
      rcases Nat.lt_or_gt_of_ne same with before | after
      · exact absurd ⟨own.symm, acting.index.trans index.symm⟩
          (System.latest_iff.mp latest i a before acting.found)
      · exact absurd ⟨own, index.trans acting.index.symm⟩
          (System.latest_iff.mp last j b after there)
  obtain ⟨wr, change, start, author⟩ := acting.performed.change.row run.req.ingressDecisionID
  cases wr with
  | nothing =>
      rcases stands with free | ⟨held, -⟩
      · exact Or.inl fun h held => free h (change.of_nothing ▸ held)
      · refine Or.inr ⟨change.of_nothing.trans held, only ?_⟩
        cases body : a.body with
        | start => exact claimExecution_unrefused (body ▸ ran)
        | readClaim => exact claimExecutionRead_unrefused (body ▸ ran) (owner ▸ held)
        | _ => rw [body] at ran; cases ran
  | acquired _ =>
      obtain ⟨req, same, -, rfl⟩ := author
      cases act.symm.trans same
      rw [start (by simp)] at ran
      have held : Has w.sdk { s with
          backend := b', attempts := s.attempts.set i { a with body := body' } }
          a.caller.runID run .claimed := by
        unfold Has
        rw [← owner]
        exact change.of_acquired.2
      exact Or.inr ⟨held, only (claimExecution_unrefused ran)⟩
  | advanced _ next =>
      rcases author with ⟨t, same, -⟩ | ⟨req, same, -⟩ <;> cases act.symm.trans same

/-- A transition of the run's own claim takes it where the workflow wants it. -/
theorem advances (acting : Acting w s i c a run b' body') (configured : Configured w)
    {t : ClaimTransition} (act : a.activity = .advanceExecutionClaim t) {st : ClaimState}
    (permitted : Permits st t.toState) (held : Has w.sdk s a.caller.runID run st) :
    Has w.sdk { s with backend := b', attempts := s.attempts.set i { a with body := body' } }
      a.caller.runID run t.toState := by
  obtain ⟨opts, -, asks⟩ := acting.asks
  rw [act] at asks
  obtain ⟨target, decision, token⟩ := asks
  obtain ⟨run', owned⟩ := acting.reached.owned _ _ held
  cases acting.known.symm.trans owned.known
  have owner := acting.owner owned.reached
  have unfenced : t.toState ≠ .executing := by
    intro fences
    exact transition_unfenced (fences ▸ target)
  have faultless := Orderly.true_result acting.orderly acting.found (by rw [act]; rfl)
  have ran := acting.ran
  rw [act] at ran
  cases body : a.body with
  | start =>
      rw [body] at ran
      have after := advance_effective ran configured.claims (by rw [faultless]; decide) unfenced
        permitted (by rw [decision, token, owner]; exact held)
      rw [decision, token, owner] at after
      exact after
  | _ => rw [body] at ran; cases ran

/-- The transition that the run waits for. -/
theorem transits (acting : Acting w s i c a run b' body') {target : ClaimState}
    (wants : transition (run.thread w.sdk).point = some target) :
    ∃ t, a.activity = .advanceExecutionClaim t ∧ t.toState = target := by
  obtain ⟨opts, waits, -⟩ := acting.asks
  have asked : run.awaits w.sdk a.caller.runID run.history.length = .activity
      (.advanceExecutionClaim ⟨run.req.ingressDecisionID, (run.thread w.sdk).token, target⟩)
      claimCtx := by
    unfold Run.awaits await
    rw [← Run.thread, wants]
    cases here : (run.thread w.sdk).point <;> rw [here] at wants <;>
      first
      | rfl
      | cases wants
  exact ⟨_, (Await.activity.inj (waits.symm.trans asked)).1, rfl⟩

theorem moves (acting : Acting w s i c a run b' body') (configured : Configured w)
    {target : ClaimState} (wants : transition (run.thread w.sdk).point = some target)
    (again : Permits target target) (moving : Moving w.sdk s a.caller.runID run target) :
    Moving w.sdk { s with backend := b', attempts := s.attempts.set i { a with body := body' } }
      a.caller.runID run target := by
  obtain ⟨t, act, rfl⟩ := acting.transits wants
  rcases moving with held | ⟨-, st, held, permitted⟩
  · exact Or.inl (acting.advances configured act again held)
  · exact Or.inl (acting.advances configured act permitted held)

/-- The release on exit. -/
theorem releases (acting : Acting w s i c a run b' body') (configured : Configured w)
    (wants : transition (run.thread w.sdk).point = some .released)
    (before : Without s a.caller.runID run.req.ingressDecisionID ∨
      Has w.sdk s a.caller.runID run .claimed) :
    Without { s with backend := b', attempts := s.attempts.set i { a with body := body' } }
      a.caller.runID run.req.ingressDecisionID := by
  obtain ⟨t, act, target⟩ := acting.transits wants
  rcases before with free | held
  · intro h held own
    obtain ⟨wr, change, -, author⟩ := acting.performed.change.row run.req.ingressDecisionID
    cases wr with
    | nothing => exact free h (change.of_nothing ▸ held) own
    | acquired owner =>
        obtain ⟨req, same, -⟩ := author
        cases act.symm.trans same
    | advanced owner next =>
        obtain ⟨-, -, -, after⟩ := change.of_advanced
        cases held.symm.trans after
        rcases author with ⟨t', same, -, -, rfl, -⟩ | ⟨req, same, -⟩
        · cases act.symm.trans same
          exact target
        · cases act.symm.trans same
  · have permitted : Permits .claimed t.toState := by
      rw [target]
      exact (permits_iff _ _).mpr (by simp)
    intro h held' _
    cases held'.symm.trans (acting.advances configured act permitted held)
    exact target

/-- The dispatch step passes the fence and calls the adapter. -/
theorem dispatches (acting : Acting w s i c a run b' body') (configured : Configured w)
    (here : (run.thread w.sdk).point = .dispatchConfig)
    (stands : Stands w.sdk s a.caller.runID run .dispatchConfig) :
    Stands w.sdk { s with backend := b', attempts := s.attempts.set i { a with body := body' } }
      a.caller.runID run .dispatchConfig := by
  obtain ⟨opts, waits, -⟩ := acting.asks
  have asked : run.awaits w.sdk a.caller.runID run.history.length = .activity
      (.dispatchConfig (fencedDispatch run.req (run.thread w.sdk).token)) activityOpts :=
    Run.awaits_eq _ here
  obtain ⟨act, rfl⟩ := Await.activity.inj (waits.symm.trans asked)
  have place : run.history.length = 6 :=
    Run.threadAt_place (Nat.le_refl _) (by rw [← Run.thread, here]; rfl)
  have owner := acting.owner (by omega)
  have inside := (List.getElem?_eq_some_iff.mp acting.found).1
  have ran := acting.ran
  rw [act] at ran
  have acted : { a with body := body' } ∈ s.attempts.set i { a with body := body' } :=
    List.mem_of_getElem? (List.getElem?_set_self inside)
  rcases stands with ⟨held, unbegun⟩ | ⟨held, b, there, own, index, begun⟩
  · rw [unbegun a acting.member rfl acting.index] at ran
    obtain ⟨named, tokened⟩ := acting.reached.held_named _ _ held
    have faultless := Orderly.true_result acting.orderly acting.found (by rw [act]; rfl)
    unfold Has at held
    rw [← owner] at held tokened
    obtain ⟨after, rfl⟩ := fence_effective configured ran ⟨named, tokened⟩ rfl faultless held
    refine Or.inr ⟨?_, _, acted, rfl, acting.index, Or.inl rfl⟩
    unfold Has
    rw [← owner]
    exact after
  · -- there is one attempt, and it is the one that acts
    have one := acting.reached.single_attempt acting.member there acting.placed
      (by rw [acting.index]; exact waits) rfl own (index.trans acting.index.symm)
    subst one
    rcases begun with body | ⟨o, body⟩
    · rw [body] at ran
      obtain ⟨adapter, -, called⟩ := Option.map_eq_some_iff.mp ran
      cases called
      exact Or.inr ⟨held, _, acted, rfl, acting.index, Or.inr ⟨_, rfl⟩⟩
    · rw [body] at ran
      cases ran

/-- **An action of the run's own keeps its claim in its place.** -/
theorem stands (acting : Acting w s i c a run b' body') (configured : Configured w)
    (stands : Stands w.sdk s a.caller.runID run (run.thread w.sdk).point) :
    Stands w.sdk { s with backend := b', attempts := s.attempts.set i { a with body := body' } }
      a.caller.runID run (run.thread w.sdk).point := by
  obtain ⟨opts, waits, asks⟩ := acting.asks
  cases uses : a.activity.usesClaims with
  | false =>
      exact stands.keeps (acting.performed.keeps uses _ w.sdk _ run) ((asks_touches asks).trans uses)
  | true =>
      cases here : (run.thread w.sdk).point with
      | claimExecution => exact acting.claims here (here ▸ stands)
      | dispatchConfig => exact acting.dispatches configured here (here ▸ stands)
      | requireReconciliation =>
          rw [here] at stands
          exact acting.moves configured (by rw [here]; rfl) ((permits_iff _ _).mpr (by simp)) stands
      | markFailed o =>
          rw [here] at stands
          exact acting.moves configured (by rw [here]; rfl) ((permits_iff _ _).mpr (by simp)) stands
      | markCompleted =>
          rw [here] at stands
          exact acting.moves configured (by rw [here]; rfl) ((permits_iff _ _).mpr (by simp)) stands
      | releaseOnExit result =>
          rw [here] at stands
          refine ⟨Or.inl (acting.releases configured (by rw [here]; rfl) ?_), stands.2⟩
          exact stands.1.imp id And.right
      | releaseFenced fence err =>
          rw [here] at stands
          cases stands
      | _ =>
          have touched := (asks_touches asks).trans uses
          rw [here] at touched
          cases touched

end Acting

end Own

/-! ## Results -/

theorem HasType.unique {type type' : ErrorTypeName} {result : WorkflowResult}
    (typed : HasType type result) (typed' : HasType type' result) : type = type' := by
  obtain ⟨message, cause, details, rfl⟩ := typed
  obtain ⟨message', cause', details', same⟩ := typed'
  simp only [applicationError, Option.some.injEq, WorkflowError.application.injEq,
    Open.named.injEq] at same
  exact same.1

theorem HasType.not_persistFailed {type : ErrorTypeName} {result : WorkflowResult}
    (typed : HasType type result) : ¬ PersistFailed result := by
  obtain ⟨message, cause, details, rfl⟩ := typed
  rintro ⟨text, same⟩
  cases same

section Told

variable {sdk : Sdk} {runID : GoString} {run : Run} {result : WorkflowResult}

/-- An error type other than the two of the dispatch is returned early. -/
theorem Early.typed {type : ErrorTypeName} (typed : HasType type result)
    (unfailed : type ≠ .dispatchFailed) (known : type ≠ .dispatchOutcomeUnknown) :
    Early sdk runID run result where
  some := by
    obtain ⟨message, cause, details, rfl⟩ := typed
    nofun
  unfailed failed := unfailed (typed.unique failed)
  known unknown := known (typed.unique unknown)
  unsucceeded persist := absurd persist typed.not_persistFailed

theorem Early.persist (failed : PersistFailed result) (never : ¬ run.Succeeded sdk runID) :
    Early sdk runID run result where
  some := by
    obtain ⟨cause, rfl⟩ := failed
    nofun
  unfailed typed := typed.not_persistFailed failed
  known typed := typed.not_persistFailed failed
  unsucceeded _ := never

/-- A run that returns early is without its claim. -/
theorem Early.tells (early : Early sdk runID run result)
    (free : Without s runID run.req.ingressDecisionID) : Tells sdk s runID run result where
  completed none := absurd none early.some
  failed typed := absurd typed early.unfailed
  unknown typed := absurd typed early.known
  persisted failed succeeded := absurd succeeded (early.unsucceeded failed)
  unpersisted _ _ := free
  rejected _ := free

/-- A run whose dispatch succeeded has completed its claim, whatever it returns. -/
theorem Tells.succeeded (held : Has sdk s runID run .completed)
    (succeeded : run.Succeeded sdk runID) (returns : result = none ∨ PersistFailed result) :
    Tells sdk s runID run result := by
  have untyped : ∀ type, ¬ HasType type result := by
    rintro type ⟨message, cause, details, typed⟩
    rcases returns with none | ⟨text, failed⟩
    · cases none.symm.trans typed
    · cases failed.symm.trans typed
  exact ⟨fun _ => held, fun typed => absurd typed (untyped _),
    fun typed => absurd typed (untyped _), fun _ _ => held, fun _ never => absurd succeeded never,
    fun typed => by rcases typed with typed | typed | typed <;> exact absurd typed (untyped _)⟩

/-- A run that returns one of the two types of the dispatch. -/
theorem Tells.dispatched {type : ErrorTypeName} (typed : HasType type result)
    (failed : type = .dispatchFailed ∧ Has sdk s runID run .failed ∨
      type = .dispatchOutcomeUnknown ∧ Has sdk s runID run .reconciliationRequired) :
    Tells sdk s runID run result := by
  have some : result ≠ none := by
    obtain ⟨message, cause, details, rfl⟩ := typed
    nofun
  refine ⟨fun none => absurd none some, ?_, ?_, fun persist => absurd persist typed.not_persistFailed,
    fun persist => absurd persist typed.not_persistFailed, ?_⟩
  · intro typed'
    cases typed.unique typed'
    rcases failed with ⟨-, held⟩ | ⟨other, -⟩
    · exact held
    · cases other
  · intro typed'
    cases typed.unique typed'
    rcases failed with ⟨other, -⟩ | ⟨-, held⟩
    · cases other
    · exact held
  · rintro (typed' | typed' | typed') <;> cases typed.unique typed' <;>
      rcases failed with ⟨other, -⟩ | ⟨other, -⟩ <;> cases other

end Told

section Succeeded

variable {sdk : Sdk} {runID : GoString} {run : Run}

/-- An answer of the past is the same after one more. -/
theorem Run.outcomeAt_hear (e : Event) {k : Nat} (before : k < run.history.length) :
    (run.hear e).outcomeAt sdk runID k = run.outcomeAt sdk runID k := by
  unfold Run.outcomeAt
  rw [(Run.Extends.hear run e).awaits sdk runID before.le]
  simp only [Run.hear, List.getElem?_append_left before]

theorem Run.Succeeded.hear (succeeded : run.Succeeded sdk runID) (e : Event) :
    (run.hear e).Succeeded sdk runID := by
  obtain ⟨k, o, taken, success⟩ := succeeded
  obtain ⟨_, heard, -⟩ := Option.bind_eq_some_iff.mp taken
  exact ⟨k, o, by rw [Run.outcomeAt_hear e (List.getElem?_eq_some_iff.mp heard).1]; exact taken, success⟩

/-- A point that takes no outcome adds none. -/
theorem Run.Succeeded.of_hear {e : Event} (succeeded : (run.hear e).Succeeded sdk runID)
    (deaf : (run.thread sdk).point.hears sdk e.reply = none) : run.Succeeded sdk runID := by
  obtain ⟨k, o, taken, success⟩ := succeeded
  obtain ⟨_, heard, -⟩ := Option.bind_eq_some_iff.mp taken
  have inside := (List.getElem?_eq_some_iff.mp heard).1
  rcases Nat.lt_succ_iff_lt_or_eq.mp (by simpa [Run.hear] using inside) with before | rfl
  · exact ⟨k, o, by rw [← Run.outcomeAt_hear e before]; exact taken, success⟩
  · have last : (run.hear e).history[run.history.length]? = some e := by simp [Run.hear]
    rw [Run.outcomeAt_eq last, (Run.Extends.hear run e).threadAt sdk (Nat.le_refl _),
      ← Run.thread, deaf] at taken
    cases taken

/-- A success is heard after the dispatch step. -/
theorem Run.Succeeded.late (succeeded : run.Succeeded sdk runID) : 6 < run.history.length := by
  obtain ⟨k, o, taken, success⟩ := succeeded
  obtain ⟨e, -, heard, -, -, asked⟩ := Run.outcomeAt_confirmed taken (by rw [success]; decide)
  have inside := (List.getElem?_eq_some_iff.mp heard).1
  rcases asked with ⟨f, asked⟩ | ⟨d, asked⟩
  · have := asked.dispatch.1
    omega
  · have := asked.reconciles.1
    omega

/-- A run that completes its claim has heard of a success. -/
theorem Run.succeeded_of_completes (here : (run.thread sdk).point = .markCompleted) :
    run.Succeeded sdk runID := by
  have learnt := run.learnt sdk runID (Nat.le_refl _)
  rw [← Run.thread, here] at learnt
  obtain ⟨o, last, certain, unfailed, -⟩ := learnt
  obtain ⟨k, -, taken⟩ := Run.lastOutcome_mem last
  obtain ⟨-, reported, -, -, rfl, -⟩ := Run.outcomeAt_confirmed taken certain
  rcases reported.checked_status with success | failure | unknown
  · exact ⟨k, _, taken, success⟩
  · exact absurd failure unfailed
  · exact absurd unknown certain

end Succeeded

/-! ## Answers -/

section Hears

variable {runID : GoString} {run : Run} {source : Source} {reply : Reply} {now : Time}

theorem Run.flags (sdk : Sdk) (run : Run) :
    FlagsAt (run.thread sdk).mayHoldClaim (run.thread sdk).dispatching (run.thread sdk).point :=
  replay_flags sdk run.req run.startedAt (run.history.take run.history.length)

/-- A run that leaves before its dispatch step has heard of no success. -/
theorem Run.unsucceeded {sdk : Sdk} {n : Nat} {e : Event}
    (here : (run.thread sdk).point.place = some n) (before : n ≤ 5) :
    ¬ (run.hear e).Succeeded sdk runID := by
  intro succeeded
  have late := succeeded.late
  have place : run.history.length = n := Run.threadAt_place (Nat.le_refl _) here
  simp only [Run.hear, List.length_append, List.length_singleton] at late
  omega

/-- A run that hears an answer. -/
structure Hearing (w : Worker α) (s : System α) (runID : GoString) (run : Run) (source : Source)
    (reply : Reply) (now : Time) : Prop where
  reached : Reaches w (admits (Orderly w runID)) s
  orderly : admits (Orderly w runID) s (.deliver runID source now)
  known : s.runs runID = some run
  said : answer w s runID run source = some reply

namespace Hearing

theorem has (hearing : Hearing w s runID run source reply now) {st : ClaimState}
    (held : Has w.sdk s runID run st) : Has w.sdk s runID (run.hear { reply, now }) st := by
  obtain ⟨run', owned⟩ := hearing.reached.owned _ _ held
  cases hearing.known.symm.trans owned.known
  have token := (Run.Extends.hear run { reply, now }).threadAt w.sdk owned.reached
  unfold Has Run.owner
  rw [token]
  exact held

/-- The next wait has no attempts yet. -/
theorem unbegun (hearing : Hearing w s runID run source reply now) :
    s.returned runID (run.hear { reply, now }).history.length = false := by
  simpa [Run.hear] using hearing.reached.returned_next hearing.known

/-- What a transition wants is so when the run goes on. -/
theorem there (hearing : Hearing w s runID run source reply now) {target : ClaimState}
    (runs : (run.thread w.sdk).point.runs = true) (moving : Moving w.sdk s runID run target) :
    Has w.sdk s runID (run.hear { reply, now }) target := by
  rcases moving with held | ⟨silent, -⟩
  · exact hearing.has held
  · obtain ⟨a, member, own, index, finished⟩ := Orderly.ran hearing.orderly hearing.known runs
    rw [System.returned_eq_false_iff.mp silent a member own index] at finished
    cases finished

/-- A transition that is asked for next. -/
theorem begins (hearing : Hearing w s runID run source reply now) {st target : ClaimState}
    (held : Has w.sdk s runID run st) (permitted : Permits st target) :
    Moving w.sdk s runID (run.hear { reply, now }) target :=
  Or.inr ⟨hearing.unbegun, st, hearing.has held, permitted⟩

/-- The claim a run was refused is not its own. -/
theorem refused (hearing : Hearing w s runID run source reply now) {r : ClaimResult}
    (here : (run.thread w.sdk).point = .claimExecution)
    (stands : Stands w.sdk s runID run .claimExecution) (heard : reply = .claimed r)
    (no : r.claimed = false) : Without s runID run.req.ingressDecisionID := by
  rcases stands with free | ⟨-, unrefused⟩
  · exact free
  exfalso
  have said := hearing.said
  rw [heard] at said
  cases source with
  | attempt i =>
      obtain ⟨a, found, own, index, finished⟩ := answer_numbered said
      have waits : run.awaits w.sdk runID run.history.length = .activity (.claimExecution
          ⟨run.req.ingressDecisionID, (run.thread w.sdk).token⟩) bookCtx :=
        Run.awaits_eq _ here
      obtain ⟨-, act⟩ := hearing.reached.attempt_activity hearing.known
        (List.mem_of_getElem? found) own index waits
      have last := Orderly.heard_last (own ▸ hearing.orderly) found (by rw [act]; rfl)
      have accepted := unrefused i a found own index last
      rw [finished] at accepted
      simp only [Body.refuses, no] at accepted
      cases accepted
  | interrupted e =>
      simp only [answer] at said
      split at said <;> cases said
  | token text =>
      simp only [answer] at said
      split at said <;> cases said
  | timer =>
      simp only [answer] at said
      split at said <;> cases said

/-- The claim a run was granted is its own. -/
theorem granted (hearing : Hearing w s runID run source reply now) {r : ClaimResult}
    (here : (run.thread w.sdk).point = .claimExecution)
    (stands : Stands w.sdk s runID run .claimExecution) (heard : reply = .claimed r)
    (yes : r.claimed = true) : Has w.sdk s runID run .claimed := by
  rcases stands with free | ⟨held, -⟩
  · exfalso
    have waits : run.awaits w.sdk runID run.history.length = .activity (.claimExecution
        ⟨run.req.ingressDecisionID, (run.thread w.sdk).token⟩) bookCtx :=
      Run.awaits_eq _ here
    rcases hearing.reached.answered_activity hearing.known (answer_answered hearing.said) waits with
      ⟨a, member, caller, -, act, finished⟩ | ⟨e, failed, -⟩
    · have claimed : s.Claimed runID :=
        ⟨a, member, by rw [caller], _, r, act, by rw [finished, heard], yes⟩
      obtain ⟨h, held, own, taken⟩ := hearing.reached.holds_claimed runID run 2 hearing.known
        (by rw [here]; rfl) (by omega) claimed
      exact taken (free h held own)
    · cases heard.symm.trans failed
  · exact held

/-- The dispatch step ends past the fence, and not with an error of the fence. -/
theorem dispatched (hearing : Hearing w s runID run source reply now)
    (here : (run.thread w.sdk).point = .dispatchConfig)
    (stands : Stands w.sdk s runID run .dispatchConfig) :
    Has w.sdk s runID run .executing ∧ ∀ err, reply = .failed err → fenceFailure err = none := by
  obtain ⟨a, member, own, index, finished⟩ :=
    Orderly.ran hearing.orderly hearing.known (by rw [here]; rfl)
  rcases stands with ⟨-, unbegun⟩ | ⟨held, b, there, mine, place, begun⟩
  · rw [unbegun a member own index] at finished
    cases finished
  refine ⟨held, ?_⟩
  rintro err rfl
  have waits : run.awaits w.sdk runID run.history.length = .activity
      (.dispatchConfig (fencedDispatch run.req (run.thread w.sdk).token)) activityOpts :=
    Run.awaits_eq _ here
  rcases hearing.reached.answered_activity hearing.known (answer_answered hearing.said) waits with
    ⟨d, among, caller, number, act, failed⟩ | ⟨e, said, foreign⟩
  · -- the one attempt of the step returned an outcome
    obtain ⟨run', placed⟩ := hearing.reached.placed d among
    have same := placed.known
    rw [caller] at same
    cases hearing.known.symm.trans same
    rw [← act] at waits
    have one := hearing.reached.single_attempt among there placed
      (by rw [caller, number]; exact waits) rfl (by rw [caller, mine]) (place.trans number.symm)
    subst one
    rcases begun with body | ⟨o, body⟩ <;> cases body.symm.trans failed
  · cases said
    exact fenceFailure_foreign foreign

/-- A run that leaves with its claim is about to release it. -/
theorem leaves_holding (hearing : Hearing w s runID run source reply now) {result : WorkflowResult}
    (stands : Stands w.sdk s runID run (run.thread w.sdk).point)
    (leaves : Leaves (run.thread w.sdk).auditErr reply result (run.thread w.sdk).point)
    (holds : (run.thread w.sdk).mayHoldClaim = true)
    (undispatched : (run.thread w.sdk).dispatching = false) :
    Stands w.sdk s runID (run.hear { reply, now }) (.releaseOnExit result) := by
  have flags := run.flags w.sdk
  rw [holds, undispatched] at flags
  have releasing : Has w.sdk s runID run .claimed →
      Without s runID run.req.ingressDecisionID ∨
      s.returned runID (run.hear { reply, now }).history.length = false ∧
        Has w.sdk s runID (run.hear { reply, now }) .claimed :=
    fun held => Or.inr ⟨hearing.unbegun, hearing.has held⟩
  cases here : (run.thread w.sdk).point with
  | claimExecution =>
      rw [here] at stands leaves
      refine ⟨?_, Early.typed leaves (by decide) (by decide)⟩
      rcases stands with free | ⟨held, -⟩
      · exact Or.inl free
      · exact releasing held
  | evaluateExecution =>
      rw [here] at stands leaves
      exact ⟨releasing stands, Early.typed leaves (by decide) (by decide)⟩
  | auditDenied dec =>
      rw [here] at stands leaves
      exact ⟨releasing stands, Early.typed leaves (by decide) (by decide)⟩
  | recordDecision dec =>
      have never : ¬ (run.hear { reply, now }).Succeeded w.sdk runID :=
        Run.unsucceeded (by rw [here]; rfl) (by omega)
      rw [here] at stands leaves
      exact ⟨releasing stands, Early.persist leaves never⟩
  | auditPassed dec =>
      have never : ¬ (run.hear { reply, now }).Succeeded w.sdk runID :=
        Run.unsucceeded (by rw [here]; rfl) (by omega)
      rw [here] at stands leaves
      exact ⟨releasing stands, Early.persist leaves never⟩
  | verifyIngress | executionToken | rejectRecord rej | rejectAudit rej =>
      rw [here] at flags
      cases flags.1
  | releaseOnExit result' | closed result' =>
      rw [here] at leaves
      cases leaves
  | _ =>
      rw [here] at flags
      cases flags

/-- A run that leaves otherwise says what its claim is. -/
theorem leaves_telling (hearing : Hearing w s runID run source reply now) {result : WorkflowResult}
    (stands : Stands w.sdk s runID run (run.thread w.sdk).point)
    (leaves : Leaves (run.thread w.sdk).auditErr reply result (run.thread w.sdk).point)
    (keeps : (run.thread w.sdk).mayHoldClaim = false ∨ (run.thread w.sdk).dispatching = true) :
    Tells w.sdk s runID (run.hear { reply, now }) result := by
  have flags := run.flags w.sdk
  cases here : (run.thread w.sdk).point with
  | verifyIngress | executionToken =>
      rw [here] at stands leaves
      exact (Early.typed leaves (by decide) (by decide)).tells stands
  | rejectAudit rej =>
      rw [here] at stands leaves
      obtain ⟨free, type⟩ := stands
      refine (Early.typed leaves ?_ ?_).tells free <;> rcases type with type | type <;> rw [type] <;>
        decide
  | auditFenceRejected released err =>
      rw [here] at stands
      cases stands
  | auditReconciliation o =>
      rw [here] at stands leaves
      exact .dispatched leaves.2 (Or.inr ⟨rfl, hearing.has stands⟩)
  | auditWorkflowFailed failure =>
      rw [here] at stands leaves
      exact .dispatched leaves (Or.inl ⟨rfl, hearing.has stands⟩)
  | markCompleted =>
      have held := hearing.there (by rw [here]; rfl) (by rw [here] at stands; exact stands)
      rw [here] at leaves
      exact .succeeded held ((Run.succeeded_of_completes here).hear _) (Or.inr leaves.2)
  | auditComplete =>
      rw [here] at stands leaves
      exact .succeeded (hearing.has stands.1) (stands.2.hear _) (leaves.imp And.right And.right)
  | claimExecution | evaluateExecution | recordDecision dec | auditDenied dec | auditPassed dec =>
      rw [here] at flags
      rcases keeps with lost | dispatching
      · cases lost.symm.trans flags.1
      · cases dispatching.symm.trans flags.2
  | _ =>
      rw [here] at leaves
      cases leaves

/-- **An answer leads to a point where the claim is in its place.** -/
theorem stands (hearing : Hearing w s runID run source reply now)
    (stands : Stands w.sdk s runID run (run.thread w.sdk).point) :
    Stands w.sdk s runID (run.hear { reply, now })
      (resume w.sdk run.req (run.thread w.sdk) { reply, now }).point := by
  have origin := resume_origin w.sdk run.req (run.thread w.sdk) { reply, now }
  generalize (Workflows.resume w.sdk run.req (run.thread w.sdk) { reply, now }).point = p
    at origin ⊢
  cases p with
  | verifyIngress => cases origin
  | rejectRecord rej =>
      rcases origin with ⟨here, -, -, -, rfl⟩ | ⟨here, r, heard, no, rfl⟩ <;> rw [here] at stands
      · exact ⟨stands, Or.inl rfl⟩
      · exact ⟨hearing.refused here stands heard no, Or.inr rfl⟩
  | rejectAudit rej =>
      rw [show (run.thread w.sdk).point = .rejectRecord rej from origin] at stands
      exact stands
  | executionToken =>
      rw [origin.1] at stands
      exact stands
  | claimExecution =>
      rw [origin.1] at stands
      exact Or.inl stands
  | evaluateExecution =>
      obtain ⟨here, r, heard, yes⟩ := origin
      rw [here] at stands
      exact hearing.has (hearing.granted here stands heard yes)
  | recordDecision dec =>
      rw [origin.1] at stands
      exact hearing.has stands
  | auditDenied dec =>
      rw [origin.1] at stands
      exact hearing.has stands
  | auditPassed dec =>
      rw [origin.1] at stands
      exact hearing.has stands
  | dispatchConfig =>
      obtain ⟨⟨dec, here⟩, -⟩ := origin
      rw [here] at stands
      refine Or.inl ⟨hearing.has stands, ?_⟩
      intro a member own index
      obtain ⟨run', placed⟩ := hearing.reached.placed a member
      cases hearing.known.symm.trans (own ▸ placed.known)
      have within := placed.within
      simp only [Run.hear, List.length_append, List.length_singleton] at index
      omega
  | releaseFenced fence err =>
      obtain ⟨here, failed, fenced⟩ := origin
      rw [here] at stands
      rw [(hearing.dispatched here stands).2 err failed] at fenced
      cases fenced
  | auditFenceRejected released err =>
      obtain ⟨fence, here, -⟩ := origin
      rw [here] at stands
      exact stands
  | auditFenceUnknown o =>
      obtain ⟨fence, err, here, -⟩ := origin
      rw [here] at stands
      exact stands
  | auditDispatch o =>
      rw [origin.1] at stands
      exact hearing.has (hearing.dispatched origin.1 stands).1
  | requireReconciliation =>
      rcases origin with ⟨o, here⟩ | ⟨o, here, -⟩ <;> rw [here] at stands
      · cases stands
      · exact hearing.begins stands ((permits_iff _ _).mpr (by simp))
  | reconcile start wait =>
      rcases origin with here | ⟨wait', last, here, -⟩
      · exact hearing.there (by rw [here]; rfl) (by rw [here] at stands; exact stands)
      · rw [here] at stands
        exact hearing.has stands
  | reconcileSleep start wait last =>
      rw [origin.1] at stands
      exact hearing.has stands
  | auditReconciliation o =>
      rcases origin with ⟨start, wait, here, -⟩ | ⟨start, wait, here⟩ <;> rw [here] at stands <;>
        exact hearing.has stands
  | markFailed o =>
      rcases origin.1 with here | here <;> rw [here] at stands <;>
        exact hearing.begins stands ((permits_iff _ _).mpr (by simp))
  | markCompleted =>
      obtain ⟨o, here, -⟩ := origin
      rcases here with here | here <;> rw [here] at stands <;>
        exact hearing.begins stands ((permits_iff _ _).mpr (by simp))
  | compensate o =>
      have here := origin.1
      exact hearing.there (by rw [here]; rfl) (by rw [here] at stands; exact stands)
  | auditCompensation err failure =>
      obtain ⟨o, here⟩ := origin
      rw [here] at stands
      exact hearing.has stands
  | auditWorkflowFailed failure =>
      rcases origin with ⟨o, here, -⟩ | ⟨err, text, here⟩
      · exact hearing.there (by rw [here]; rfl) (by rw [here] at stands; exact stands)
      · rw [here] at stands
        exact hearing.has stands
  | auditComplete =>
      have here := origin.1
      exact ⟨hearing.there (by rw [here]; rfl) (by rw [here] at stands; exact stands),
        (Run.succeeded_of_completes here).hear _⟩
  | releaseOnExit result =>
      obtain ⟨leaves, holds, undispatched⟩ := origin
      exact hearing.leaves_holding stands leaves holds undispatched
  | closed result =>
      rcases origin with here | here | ⟨leaves, keeps⟩
      · exact absurd (answer_answered hearing.said)
          (hearing.reached.closed_silent hearing.known here reply)
      · obtain ⟨a, member, own, index, finished⟩ :=
          Orderly.ran hearing.orderly hearing.known (by rw [here]; rfl)
        have deaf : (run.thread w.sdk).point.hears w.sdk reply = none := by rw [here]; rfl
        rw [here] at stands
        obtain ⟨released, some, unfailed, known, unsucceeded⟩ := stands
        have early : Early w.sdk runID (run.hear { reply, now }) result :=
          ⟨some, unfailed, known, fun failed succeeded =>
            unsucceeded failed (succeeded.of_hear deaf)⟩
        rcases released with free | ⟨silent, -⟩
        · exact early.tells free
        · rw [System.returned_eq_false_iff.mp silent a member own index] at finished
          cases finished
      · exact hearing.leaves_telling stands leaves keeps

end Hearing

end Hears

/-! ## The result -/

/-- A step without an answer may cancel a run, no more. -/
theorem Run.Extends.eq_canceled {run run' : Run} (later : run.Extends run')
    (same : run'.history = run.history) : run' = { run with canceled := run'.canceled } := by
  obtain ⟨workflowID, req, startedAt, inherited, lineage, -⟩ := later
  obtain ⟨_, _, _, _, _, _, _, _⟩ := run
  obtain ⟨_, _, _, _, _, _, _, _⟩ := run'
  simp only at workflowID req startedAt inherited lineage same
  subst workflowID req startedAt inherited lineage same
  rfl

theorem Stands.canceled {sdk : Sdk} {runID : GoString} {run : Run} {p : Point}
    (stands : Stands sdk s runID run p) (canceled : Bool) :
    Stands sdk s runID { run with canceled } p := by
  cases p with
  | closed result => exact ⟨stands.1, stands.2, stands.3, stands.4, stands.5, stands.6⟩
  | releaseOnExit result => exact ⟨stands.1, stands.2.1, stands.2.2, stands.2.3, stands.2.4⟩
  | _ => exact stands

/-- **At every point of a run its claim is in its place**, along orderly steps. -/
theorem Reaches.stands (configured : Configured w) {runID : GoString}
    (reached : Reaches w (admits (Orderly w runID)) s) :
    ∀ run, s.runs runID = some run → run.inherited = 0 →
      Stands w.sdk s runID run (run.thread w.sdk).point := by
  refine reached.induction (P := fun s => ∀ run, s.runs runID = some run → run.inherited = 0 →
    Stands w.sdk s runID run (run.thread w.sdk).point) ?_ ?_
  · intro policy target run known
    cases known
  intro s l s' prior stands orderly move run' known' fresh
  -- a run that is created in this step holds nothing
  have created : s.runs runID = none → ∀ decisionID, Without s' runID decisionID := by
    intro absent decisionID h held own
    rcases move.quiet_or_ran with quiet | ⟨i, a, c, b', body', -, -, -, rfl⟩
    · rw [quiet.holding] at held
      obtain ⟨run, owned⟩ := prior.owned decisionID h held
      cases absent.symm.trans (own ▸ owned.known)
    · cases absent.symm.trans known'
  cases move.runStep known' with
  | started workflowID req now absent => exact created absent _
  | reset base run k canceled label absent found within =>
      obtain rfl : k = 0 := fresh
      exact created absent _
  | kept run run' known later same =>
      have before := stands run known (later.inherited ▸ fresh)
      have thread : run'.thread w.sdk = run.thread w.sdk := by
        rw [Run.thread, same, later.threadAt w.sdk (Nat.le_refl _), Run.thread]
      rw [thread, later.eq_canceled same]
      refine Stands.canceled ?_ _
      rcases move.quiet_or_ran with quiet | ⟨i, a, c, b', body', rfl, found, ran, rfl⟩
      · exact before.alike (quiet.alike w.sdk runID run)
      · by_cases own : a.caller.runID = runID
        · subst own
          have acting : Acting w s i c a run b' body' := ⟨prior, orderly, found, known, ran⟩
          exact acting.stands configured before
        · exact before.alike ((perform_performed ran).alike w.sdk found own run)
  | heard run source reply now label known said =>
      subst label
      have hearing : Hearing w s runID run source reply now := ⟨prior, orderly, known, said⟩
      have after := hearing.stands (stands run known fresh)
      rw [Run.thread_hear]
      rcases move.quiet_or_ran with quiet | ⟨i, a, c, b', body', label, -⟩
      · exact after.alike (quiet.alike w.sdk runID _)
      · cases label

/-- **The result of a run tells what became of its claim.** -/
theorem result_tells_claim (configured : Configured w) {runID : GoString}
    (reached : Reaches w (admits (Orderly w runID)) s) {run : Run} {result : WorkflowResult}
    (known : s.runs runID = some run) (fresh : run.inherited = 0)
    (ended : (run.thread w.sdk).point = .closed result) : Tells w.sdk s runID run result := by
  have stands := reached.stands configured run known fresh
  rw [ended] at stands
  exact stands

theorem result_tells_claim_demo :
    (∃ run, (demo completedRun).runs (ascii "r") = some run ∧
      (run.thread plainSdk).point = .closed none ∧
      Has plainSdk (demo completedRun) (ascii "r") run .completed) ∧
    (∃ run result, (demo failedRun).runs (ascii "r") = some run ∧
      (run.thread plainSdk).point = .closed result ∧ HasType .dispatchFailed result ∧
      Has plainSdk (demo failedRun) (ascii "r") run .failed) := by
  have configured : Configured (worker plainSdk) := ⟨rfl, rfl, rfl⟩
  constructor
  · have reached : Reaches (worker plainSdk) (admits (Orderly (worker plainSdk) (ascii "r")))
        (demo completedRun) := ⟨_, _, runFrom_guarded (by decide +kernel)⟩
    have ended : ((demo completedRun).runs (ascii "r")).map (fun run =>
        (run.inherited, (run.thread plainSdk).point)) = some (0, .closed none) := by decide +kernel
    obtain ⟨run, known, here⟩ := Option.map_eq_some_iff.mp ended
    obtain ⟨fresh, closed⟩ := Prod.mk.inj here
    exact ⟨run, known, closed, (result_tells_claim configured reached known fresh closed).completed rfl⟩
  · have reached : Reaches (worker plainSdk) (admits (Orderly (worker plainSdk) (ascii "r")))
        (demo failedRun) := ⟨_, _, runFrom_guarded (by decide +kernel)⟩
    have ended : ((demo failedRun).runs (ascii "r")).map (fun run =>
        (run.inherited, (run.thread plainSdk).point)) =
        some (0, .closed (applicationError .dispatchFailed
          (ascii "dispatch partly applied and compensation ran: " ++
            ascii "simulated: change partly applied, then rejected by target") [] [])) := by
      decide +kernel
    obtain ⟨run, known, here⟩ := Option.map_eq_some_iff.mp ended
    obtain ⟨fresh, closed⟩ := Prod.mk.inj here
    have typed : ∀ message, HasType .dispatchFailed (applicationError .dispatchFailed message [] []) :=
      fun message => ⟨_, _, _, rfl⟩
    exact ⟨run, _, known, closed, typed _,
      (result_tells_claim configured reached known fresh closed).failed (typed _)⟩

end SentryGate.Workflows
