/-
# Workflows.Ownership -- who a claim row belongs to

A claim row names a workflow ID, a run ID and a token.  Only the `ClaimExecution`
of that very run writes such a row, so the run claimed the decision itself: its
claim step is not among the answers it inherited (`OwnedBy.own`).  That a run
created by a reset never owns the claim of the run it continues is a consequence.
-/
import SentryGate.Workflows.History

namespace SentryGate.Workflows

open Theory.Text Theory.Machine Contracts Policy Decision Audit

set_option autoImplicit false

variable {α : Type} {w : Worker α} {G : System α → Label → Prop} {s s' : System α} {l : Label}

/-- The run named by the owner of a claim on `decisionID` claimed it itself. -/
structure OwnedBy (sdk : Sdk) (s : System α) (decisionID : GoString) (owner : ClaimOwner)
    (run : Run) : Prop where
  known : s.runs owner.runID = some run
  decisionID : run.req.ingressDecisionID = decisionID
  workflowID : owner.workflowID = run.workflowID
  own : run.inherited ≤ 2
  reached : 2 ≤ run.history.length
  token : owner.token = (run.threadAt sdk 2).token

theorem OwnedBy.later {sdk : Sdk} {decisionID : GoString} {owner : ClaimOwner} {run run' : Run}
    (owned : OwnedBy sdk s decisionID owner run) (known : s'.runs owner.runID = some run')
    (later : run.Extends run') : OwnedBy sdk s' decisionID owner run' where
  known := known
  decisionID := by rw [later.req]; exact owned.decisionID
  workflowID := owned.workflowID.trans later.workflowID.symm
  own := later.inherited ▸ owned.own
  reached := owned.reached.trans later.history.length_le
  token := by rw [later.threadAt sdk owned.reached]; exact owned.token

/-- The attempt of a claim stands at the third place of a history. -/
theorem Placed.claimExecution {sdk : Sdk} {a : Attempt} {run : Run} {req : ClaimRequest}
    (placed : Placed sdk s a run) (act : a.activity = .claimExecution req) :
    a.index = 2 ∧ req.decisionID = run.req.ingressDecisionID ∧
      req.token = (run.threadAt sdk 2).token := by
  obtain ⟨opts, waits⟩ := placed.waits
  rw [act] at waits
  obtain ⟨here, rfl⟩ := await_asks waits
  have index : a.index = 2 := Run.threadAt_place placed.within (by rw [here]; rfl)
  exact ⟨index, rfl, by rw [index]⟩

/-- **The owner of a claim is a run that claimed it itself.** -/
theorem Reaches.owned (reached : Reaches w G s) :
    ∀ decisionID h, s.backend.store.holding? decisionID = some h →
      ∃ run, OwnedBy w.sdk s decisionID h.owner run := by
  refine reached.induction
    (P := fun s => ∀ decisionID h, s.backend.store.holding? decisionID = some h →
      ∃ run, OwnedBy w.sdk s decisionID h.owner run) ?_ ?_
  · intro policy target decisionID h held
    cases held
  intro s l s' prior owned _ move decisionID h held
  have old : ∀ h₀, s.backend.store.holding? decisionID = some h₀ → h.owner = h₀.owner →
      ∃ run, OwnedBy w.sdk s' decisionID h.owner run := by
    intro h₀ before same
    obtain ⟨run, there⟩ := owned decisionID h₀ before
    obtain ⟨run', known', later⟩ := move.run_kept there.known
    rw [same]
    exact ⟨run', there.later known' later⟩
  rcases move.quiet_or_exec with quiet | ⟨i, a, c, b', body', -, found, performed, rfl⟩
  · rw [quiet.holding] at held
    exact old h held rfl
  · obtain ⟨wr, change, -, author⟩ := performed.change.row decisionID
    cases wr with
    | nothing =>
        exact old h (change.of_nothing ▸ held) rfl
    | acquired owner =>
        obtain ⟨-, after⟩ := change.of_acquired
        cases held.symm.trans after
        obtain ⟨req, act, rfl, rfl⟩ := author
        obtain ⟨run, placed⟩ := prior.placed a (List.mem_of_getElem? found)
        obtain ⟨index, decided, token⟩ := placed.claimExecution act
        exact ⟨run, placed.known, decided.symm, placed.workflowID, index ▸ placed.own,
          index ▸ placed.within, token⟩
    | advanced owner next =>
        obtain ⟨st, before, -, after⟩ := change.of_advanced
        cases held.symm.trans after
        exact old ⟨owner, st⟩ before rfl

/-! ## A run before its dispatch step -/

/-- The claim on the decision is this run's and has not been given up. -/
def Holds (s : System α) (runID decisionID : GoString) : Prop :=
  ∃ h, s.backend.store.holding? decisionID = some h ∧ h.owner.runID = runID ∧ h.state ≠ .released

/-- Only a release by the run itself ends its holding. -/
theorem Holds.move {runID decisionID : GoString} (holds : Holds s runID decisionID)
    (move : Move w s l s')
    (keeps : ∀ i c a t, l = .exec i c → s.attempts[i]? = some a → a.caller.runID = runID →
      a.activity = .advanceExecutionClaim t → t.decisionID = decisionID → t.toState ≠ .released) :
    Holds s' runID decisionID := by
  obtain ⟨h, held, own, taken⟩ := holds
  rcases move.quiet_or_exec with quiet | ⟨i, a, c, b', body', label, found, performed, rfl⟩
  · exact ⟨h, (quiet.holding decisionID).trans held, own, taken⟩
  obtain ⟨wr, change, -, author⟩ := performed.change.row decisionID
  cases wr with
  | nothing => exact ⟨h, change.of_nothing.trans held, own, taken⟩
  | acquired owner => exact absurd (change.of_acquired.1 h held) taken
  | advanced owner next =>
      obtain ⟨st, before, -, after⟩ := change.of_advanced
      cases held.symm.trans before
      refine ⟨_, after, own, ?_⟩
      rcases author with ⟨t, act, here, rfl, rfl, -⟩ | ⟨req, -, -, -, rfl⟩
      · exact keeps i c a t label found own act here
      · simp

/-- The run has an attempt of its claim that was answered with yes. -/
def System.Claimed (s : System α) (runID : GoString) : Prop :=
  ∃ a ∈ s.attempts, a.caller.runID = runID ∧
    ∃ req c, a.activity = .claimExecution req ∧ a.body = .finished (.claimed c) ∧ c.claimed = true

/-- Up to the dispatch step a run schedules no release. -/
theorem Placed.no_release {sdk : Sdk} {a : Attempt} {run : Run} {t : ClaimTransition} {n : Nat}
    (placed : Placed sdk s a run) (act : a.activity = .advanceExecutionClaim t)
    (here : (run.thread sdk).point.place = some n) (before : n ≤ 6) : t.toState ≠ .released := by
  intro released
  obtain ⟨opts, waits⟩ := placed.waits
  rw [act] at waits
  obtain ⟨target, -, -⟩ := await_asks waits
  obtain rfl : run.history.length = n := Run.threadAt_place (Nat.le_refl _) here
  have place := Run.threadAt_chain (Nat.le_refl _) here placed.within
  have early := placed.within
  rw [released] at target
  generalize (run.threadAt sdk a.index).point = p at target place
  cases p <;> simp only [transition, Point.place, reduceCtorEq, Option.some.injEq] at target place
  omega

/-- A claim that is answered with yes in this step is held after it. -/
theorem Move.claimed (move : Move w s l s') {runID : GoString} (claimed : s'.Claimed runID) :
    s.Claimed runID ∨
    ∃ a ∈ s.attempts, a.caller.runID = runID ∧
      ∃ req, a.activity = .claimExecution req ∧ Holds s' runID req.decisionID := by
  obtain ⟨a, member, own, req, c, act, finished, yes⟩ := claimed
  have old : a ∈ s.attempts → s.Claimed runID := fun before =>
    ⟨a, before, own, req, c, act, finished, yes⟩
  rcases move.quiet_or_exec with quiet | ⟨i, b, cond, b', body', -, found, performed, rfl⟩
  · rcases quiet.attempts with same | ⟨fresh, unbegun, added⟩
    · exact Or.inl (old (same ▸ member))
    · rw [added] at member
      rcases List.mem_append.mp member with before | last
      · exact Or.inl (old before)
      · obtain rfl := List.mem_singleton.mp last
        rw [unbegun] at finished
        cases finished
  · rcases List.mem_or_eq_of_mem_set member with before | rfl
    · exact Or.inl (old before)
    · have report := performed.report _ finished
      simp only at act
      rw [act] at report
      exact Or.inr ⟨b, List.mem_of_getElem? found, own, req, act, _, report yes, own, by simp⟩

/-- **Until its dispatch step is answered, a run that was told it has the claim has it.** -/
theorem Reaches.holds_claimed (reached : Reaches w G s) :
    ∀ runID run n, s.runs runID = some run → (run.thread w.sdk).point.place = some n → n ≤ 6 →
      s.Claimed runID → Holds s runID run.req.ingressDecisionID := by
  refine reached.induction (P := fun s => ∀ runID run n, s.runs runID = some run →
    (run.thread w.sdk).point.place = some n → n ≤ 6 → s.Claimed runID →
    Holds s runID run.req.ingressDecisionID) ?_ ?_
  · intro policy target runID run n known
    cases known
  intro s l s' prior holds _ move runID run' n known here before claimed
  -- a run that holds its claim before the step holds it afterwards
  have stays : ∀ run m, s.runs runID = some run → (run.thread w.sdk).point.place = some m → m ≤ 6 →
      s.Claimed runID → Holds s' runID run.req.ingressDecisionID := by
    intro run m known' here' before' claimed'
    refine (holds runID run m known' here' before' claimed').move move ?_
    rintro i c a t - found own act -
    obtain ⟨run₀, placed⟩ := prior.placed a (List.mem_of_getElem? found)
    cases known'.symm.trans (own ▸ placed.known)
    exact placed.no_release act here' before'
  rcases move.claimed claimed with claimed' | ⟨a, member, own, req, act, held⟩
  · cases move.runStep known with
    | started workflowID request now fresh =>
        obtain ⟨a, member, own, -⟩ := claimed'
        exact absurd own (prior.no_attempts fresh a member)
    | reset base run k canceled label fresh found inside =>
        obtain ⟨a, member, own, -⟩ := claimed'
        exact absurd own (prior.no_attempts fresh a member)
    | heard run source reply now label known' said =>
        rw [Run.thread_hear] at here
        obtain ⟨m, rfl, earlier⟩ := resume_place here
        exact stays run m known' earlier (Nat.le_of_succ_le before) claimed'
    | kept run run' known' later same =>
        rw [Run.thread, same, later.threadAt w.sdk (Nat.le_refl _)] at here
        rw [later.req]
        exact stays run n known' here before claimed'
  · obtain ⟨run, placed⟩ := prior.placed a member
    obtain ⟨-, decision, -⟩ := placed.claimExecution act
    obtain ⟨run'', known'', later⟩ := move.run_kept (own ▸ placed.known)
    cases known.symm.trans known''
    rw [later.req, ← decision]
    exact held

/-- A run that claimed by itself and is past its claim step was told so. -/
theorem Reaches.claimed_attempt (reached : Reaches w G s) {runID : GoString} {run : Run}
    (known : s.runs runID = some run) (own : run.inherited ≤ 2) {k : Nat}
    (within : k ≤ run.history.length) (after : 3 ≤ k)
    (here : (run.threadAt w.sdk k).point.place = some k) : s.Claimed runID := by
  have third := Run.threadAt_chain within here after
  have second := Run.threadAt_chain within here (Nat.le_of_succ_le after)
  have inside : 2 < run.history.length := Nat.lt_of_lt_of_le after within
  have event := List.getElem?_eq_getElem inside
  rw [Run.threadAt_succ w.sdk run event] at third
  have origin := resume_origin w.sdk run.req (run.threadAt w.sdk 2) run.history[2]
  have evaluates : (resume w.sdk run.req (run.threadAt w.sdk 2) run.history[2]).point =
      .evaluateExecution := by
    revert third
    cases (resume w.sdk run.req (run.threadAt w.sdk 2) run.history[2]).point <;> simp [Point.place]
  rw [evaluates] at origin
  obtain ⟨claim, c, said, yes⟩ := origin
  have waits : run.awaits w.sdk runID 2 = .activity (.claimExecution
      { decisionID := run.req.ingressDecisionID, token := (run.threadAt w.sdk 2).token })
      bookCtx :=
    Run.awaits_eq _ claim
  rcases reached.heard runID run 2 _ known own event _ _ waits with
    ⟨a, member, caller, -, act, finished⟩ | ⟨e, failed, -⟩
  · rw [said] at finished
    exact ⟨a, member, by rw [caller], _, c, act, finished, yes⟩
  · rw [said] at failed
    cases failed

end SentryGate.Workflows
