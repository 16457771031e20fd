/-
# Workflows.Compensation -- who compensates, and how often

`RevertStateCompensation` is scheduled at most once in a run, but nothing like the
execution fence guards it: any run that learns of a partly applied FAILURE
compensates.  `compensated_twice` is a run of the deployed worker in which two do.  A
reset that keeps the answer of `DispatchConfig` creates a run that does not own the
claim, learns the outcome from its history, and compensates again.

`Tame` says which steps do not lead there: resets only to before that answer, no lost
answer for a run whose claim is another's, and no release that took effect behind the
back of the run that asked for it.  Along tame steps a run that settles an outcome
holds the claim (`Reaches.settles_holds`), so there is one such run for a decision and
it compensates once (`compensate_at_most_once`).
-/
import SentryGate.Workflows.Truthful
import SentryGate.Workflows.Authorized

namespace SentryGate.Workflows

open Theory.Text Theory.Machine Theory.Counting Contracts Policy Decision Audit

set_option autoImplicit false

variable {α : Type} {w : Worker α} {G : System α → Label → Prop} {past : List (System α)}
  {s s' : System α} {l : Label}

/-- How often `Adapter.Compensate` was called under a key. -/
def Backend.compensations (b : Backend α) (key : GoString) : Nat :=
  b.calls.countP fun c => c.method = .compensate ∧ c.request.idempotencyKey = key

/-! ## Two runs compensate -/

/-- The run on a target that applies the change in part compensates and ends; then it is
reset to the answer of `DispatchConfig`, and the new run goes on from there. -/
def resetRun : List Label :=
  failedRun ++ [.reset (ascii "r2") (ascii "r") 7 false] ++ round (ascii "r2") 11 ++
    round (ascii "r2") 12 ++ [.launch (ascii "r2"), .exec 13 calm]

/-- **A reset run compensates again**, without owning the claim. -/
theorem compensated_twice :
    Reachable (worker plainSdk) (demo resetRun) ∧
    (demo resetRun).backend.compensations (executionKey (ascii "d")) = 2 ∧
    ⟨.compensate, ⟨ascii "w", ascii "r2"⟩, dispatchRequest (demoRequest failingNodeID)⟩ ∈
      (demo resetRun).backend.calls ∧
    ((demo resetRun).backend.store.holding? (ascii "d")).map (fun h => h.owner.runID) =
      some (ascii "r") := by
  exact ⟨demo_reachable _, by decide +kernel, by decide +kernel, by decide +kernel⟩

/-! ## Tame steps -/

/-- The claim on the decision is this run's and has not been given up. -/
def System.holds (s : System α) (runID decisionID : GoString) : Bool :=
  match s.backend.store.holding? decisionID with
  | some h => h.owner.runID = runID ∧ h.state ≠ .released
  | none => false

/-- The steps under which a run that settles an outcome owns the claim. -/
def Tame (w : Worker α) (s : System α) : Label → Bool
  | .reset _ _ k _ => k ≤ 6
  | .exec i c =>
      match s.attempts[i]? with
      | none => true
      | some a =>
          match s.runs a.caller.runID with
          | none => true
          | some run =>
              match (run.threadAt w.sdk a.index).point with
              -- the fence and the read after it do not fail for a run that inherited its claim
              | .dispatchConfig => run.inherited ≤ 2 ∨ c.fault = .absent
              -- a release after an unknown fence ends with the wait for it
              | .releaseFenced fence _ =>
                  fence = .executionFenceRejected ∨ a.index = run.history.length
              | _ => true
  | .deliver runID source _ =>
      match s.runs runID with
      | none => true
      | some run =>
          match (run.thread w.sdk).point with
          -- nor is the answer lost
          | .dispatchConfig => run.inherited ≤ 2 ∨ source.isAttempt
          -- a run is told that the release failed only while the claim is still its own
          | .releaseFenced fence _ =>
              fence = .executionFenceRejected ∨
                ((answer w s runID run source).bind Reply.error?).isNone ∨
                s.holds runID run.req.ingressDecisionID
          | _ => true
  | _ => true

theorem System.holds_iff {runID decisionID : GoString} :
    s.holds runID decisionID = true ↔ Holds s runID decisionID := by
  unfold System.holds Holds
  cases s.backend.store.holding? decisionID <;> simp

section Guard

variable {i : Nat} {c : Conditions} {a : Attempt} {run : Run}

theorem Tame.reset {runID base : GoString} {k : Nat} {canceled : Bool}
    (tame : admits (Tame w) s (.reset runID base k canceled)) : k ≤ 6 := by
  simpa [admits, Tame] using tame

theorem Tame.dispatch (tame : admits (Tame w) s (.exec i c)) (found : s.attempts[i]? = some a)
    (known : s.runs a.caller.runID = some run)
    (here : (run.threadAt w.sdk a.index).point = .dispatchConfig) (foreign : 2 < run.inherited) :
    c.fault = .absent := by
  simp only [admits, Tame, found, known, here, decide_eq_true_eq] at tame
  exact tame.resolve_left (by omega)

theorem Tame.release (tame : admits (Tame w) s (.exec i c)) (found : s.attempts[i]? = some a)
    (known : s.runs a.caller.runID = some run) {fence : ErrorTypeName} {err : ActivityError}
    (here : (run.threadAt w.sdk a.index).point = .releaseFenced fence err)
    (unknown : fence ≠ .executionFenceRejected) : a.index = run.history.length := by
  simp only [admits, Tame, found, known, here, decide_eq_true_eq] at tame
  exact tame.resolve_left unknown

theorem Tame.answered {runID : GoString} {source : Source} {now : Time}
    (tame : admits (Tame w) s (.deliver runID source now)) (known : s.runs runID = some run)
    (here : (run.thread w.sdk).point = .dispatchConfig) (foreign : 2 < run.inherited) :
    ∃ i, source = .attempt i := by
  simp only [admits, Tame, known, here, decide_eq_true_eq] at tame
  have attempted := tame.resolve_left (by omega)
  cases source with
  | attempt i => exact ⟨i, rfl⟩
  | _ => cases attempted

theorem Tame.told {runID : GoString} {source : Source} {now : Time}
    (tame : admits (Tame w) s (.deliver runID source now)) (known : s.runs runID = some run)
    {fence : ErrorTypeName} {err failure : ActivityError}
    (here : (run.thread w.sdk).point = .releaseFenced fence err)
    (unknown : fence ≠ .executionFenceRejected)
    (failed : answer w s runID run source = some (.failed failure)) :
    Holds s runID run.req.ingressDecisionID := by
  simp only [admits, Tame, known, here, failed, decide_eq_true_eq] at tame
  rcases tame with rejected | none_heard | holds
  · exact absurd rejected unknown
  · cases none_heard
  · exact System.holds_iff.mp holds

end Guard

/-! ## Who settles an outcome -/

/-- Along tame steps a run that inherited its claim hears that the fence was rejected. -/
theorem Visits.foreign_fence (visits : Visits w (admits (Tame w)) past s) :
    ∀ a ∈ s.attempts, ∀ r, a.body = .finished r → ∀ req, a.activity = .dispatchConfig req →
      ∃ run, s.runs a.caller.runID = some run ∧ (2 < run.inherited →
        ∃ message cause, r = .failed (.application (.named .executionFenceRejected) message cause))
    := by
  refine finished_facts (F := fun _ s x act r => ∀ req, act = .dispatchConfig req →
    ∃ run, s.runs x.runID = some run ∧ (2 < run.inherited →
      ∃ message cause, r = .failed (.application (.named .executionFenceRejected) message cause)))
    ?_ ?_ visits
  · intro past s l s' x act r _ _ move told req here
    obtain ⟨run, known, rejected⟩ := told req here
    obtain ⟨run', known', later⟩ := move.run_kept known
    exact ⟨run', known', fun foreign => rejected (later.inherited ▸ foreign)⟩
  · intro past s i c a run b' r visits tame found placed ran req act
    refine ⟨run, placed.known, fun foreign => ?_⟩
    have reached := visits.reaches
    obtain ⟨opts, waits⟩ := placed.waits
    rw [act] at waits
    obtain ⟨here, -, -⟩ := await_asks waits
    rw [act] at ran
    refine dispatchConfig_refused ran (Tame.dispatch tame found placed.known here foreign) ?_ ?_
    · intro ready
      obtain ⟨run', known, own⟩ := reached.armed a (List.mem_of_getElem? found) ready
      cases placed.known.symm.trans known
      omega
    · intro h held mine
      obtain ⟨run', owned⟩ := reached.owned _ h held
      have known := owned.known
      rw [mine] at known
      cases placed.known.symm.trans known
      have := owned.own
      omega

/-- A run that settles an outcome schedules no release, except the one that failed after
an unknown fence. -/
theorem Run.release_before {sdk : Sdk} {run : Run} {j k : Nat} (within : k ≤ run.history.length)
    (after : (run.threadAt sdk k).point.afterDispatch = true) (inside : j ≤ run.history.length)
    (release : transition (run.threadAt sdk j).point = some .released) :
    ∃ fence err, (run.threadAt sdk j).point = .releaseFenced fence err ∧
      fence ≠ .executionFenceRejected ∧ j < k := by
  have late := threadAt_afterDispatch within after
  -- a run that gave up before `k` would not settle anything at `k`
  have going : (run.threadAt sdk j).point.gaveUp = true → ¬ j ≤ k := by
    intro gone before
    have still := threadAt_stays (P := fun th => th.point.gaveUp = true)
      (fun _ _ gone => gaveUp_resume gone) gone before within
    revert after still
    cases (run.threadAt sdk k).point <;> simp [Point.afterDispatch, Point.gaveUp]
  cases here : (run.threadAt sdk j).point with
  | releaseFenced fence err =>
      have place : j = 7 := threadAt_place inside (by rw [here]; rfl)
      refine ⟨fence, err, rfl, fun rejected => ?_, ?_⟩
      · refine going ?_ (by omega)
        simp [here, Point.gaveUp, rejected]
      · rcases late.eq_or_lt with same | more
        · rw [← same, ← place, here] at after
          cases after
        · omega
  | releaseOnExit result =>
      exfalso
      have later : k ≤ j := by
        by_contra before
        exact going (by rw [here]; rfl) (by omega)
      have flags := replay_flags sdk run.req run.startedAt (run.history.take k)
      have dispatching : (run.threadAt sdk k).dispatching = true := by
        change FlagsAt _ _ (run.threadAt sdk k).point at flags
        revert after flags
        cases (run.threadAt sdk k).point <;> simp [Point.afterDispatch, FlagsAt, threadAt]
      have still := threadAt_stays (P := fun th => th.dispatching = true)
        (fun _ _ flag => dispatching_resume flag) dispatching later inside
      have exiting := replay_flags sdk run.req run.startedAt (run.history.take j)
      change FlagsAt _ (run.threadAt sdk j).dispatching (run.threadAt sdk j).point at exiting
      rw [here, still] at exiting
      cases exiting.2
  | _ =>
      rw [here] at release
      simp [transition] at release

/-- **A run that settles an outcome holds the claim**, along tame steps. -/
theorem Reaches.settles_holds (reached : Reaches w (admits (Tame w)) s) :
    ∀ runID run k, s.runs runID = some run → k ≤ run.history.length →
      (run.threadAt w.sdk k).point.afterDispatch = true →
      Holds s runID run.req.ingressDecisionID := by
  refine reached.induction (P := fun s => ∀ runID run k, s.runs runID = some run →
    k ≤ run.history.length → (run.threadAt w.sdk k).point.afterDispatch = true →
    Holds s runID run.req.ingressDecisionID) ?_ ?_
  · intro policy target runID run k known
    cases known
  intro s l s' prior holds tame move runID run' k known within after
  have stays : ∀ run, s.runs runID = some run → k ≤ run.history.length →
      (run.threadAt w.sdk k).point.afterDispatch = true →
      Holds s' runID run.req.ingressDecisionID := by
    intro run known inside after
    refine (holds runID run k known inside after).move move ?_
    rintro i c a t rfl found own act - released
    obtain ⟨run₀, placed⟩ := prior.placed a (List.mem_of_getElem? found)
    cases known.symm.trans (own ▸ placed.known)
    obtain ⟨opts, waits⟩ := placed.waits
    rw [act] at waits
    obtain ⟨target, -, -⟩ := await_asks waits
    rw [released] at target
    obtain ⟨fence, err, here, unknown, before⟩ :=
      Run.release_before inside after placed.within target
    have waiting := Tame.release tame found placed.known here unknown
    omega
  cases move.runStep known with
  | kept run run' known' later same =>
      rw [same] at within
      rw [later.threadAt w.sdk within] at after
      rw [later.req]
      exact stays run known' within after
  | started workflowID req now fresh =>
      simp only [Run.started, List.length_nil, Nat.le_zero] at within
      subst within
      rw [Run.threadAt_zero] at after
      cases after
  | reset base run k' canceled label fresh found inside =>
      -- too short a history to have the answer of the dispatch step
      subst label
      have late := Run.threadAt_afterDispatch within after
      have short := Tame.reset tame
      simp only [Run.reset, List.length_take] at within
      omega
  | heard run source reply now label known' said =>
      subst label
      by_cases old : k ≤ run.history.length
      · rw [(Run.Extends.hear run _).threadAt w.sdk old] at after
        exact stays run known' old after
      have last : k = run.history.length + 1 := by
        simp only [Run.hear, List.length_append, List.length_singleton] at within
        omega
      subst last
      rw [Run.threadAt_hear] at after
      -- a delivery changes no row
      suffices Holds s runID run.req.ingressDecisionID from
        this.move move (fun i c a t label => by cases label)
      rcases afterDispatch_origin after with settles | ⟨here, unfenced⟩ |
        ⟨fence, err, here, unknown, failure, failed⟩
      · exact holds runID run _ known' (Nat.le_refl _) settles
      · have place : run.history.length = 6 :=
          Run.threadAt_place (Nat.le_refl _) (by rw [← Run.thread, here]; rfl)
        by_cases own : run.inherited ≤ 2
        · have claimed := prior.claimed_attempt known' own (Nat.le_refl _) (by omega)
            (by rw [← Run.thread, here, place]; rfl)
          exact prior.holds_claimed runID run 6 known' (by rw [here]; rfl) (Nat.le_refl _) claimed
        · -- the fence of a run that inherited its claim is rejected, and it hears so
          exfalso
          obtain ⟨i, rfl⟩ := Tame.answered tame known' here (by omega)
          obtain ⟨past, visits⟩ := prior.visits
          have waits : run.awaits w.sdk runID run.history.length = .activity (.dispatchConfig
              (fencedDispatch run.req (run.thread w.sdk).token)) activityOpts :=
            Run.awaits_eq _ here
          obtain ⟨a, member, caller, index, finished⟩ := answer_attempt said
          obtain ⟨-, act⟩ := prior.attempt_activity known' member caller index waits
          obtain ⟨run₀, known₀, rejected⟩ := visits.foreign_fence a member _ finished _ act
          rw [caller] at known₀
          cases known'.symm.trans known₀
          obtain ⟨message, cause, rfl⟩ := rejected (by omega)
          cases unfenced _ rfl
      · simp only at failed
        subst failed
        exact Tame.told tame known' here unknown said

/-! ## How often -/

/-- The attempt compensates under this key. -/
def Attempt.reverts (key : GoString) (a : Attempt) : Bool :=
  match a.activity with
  | .revertStateCompensation req => req.idempotencyKey = key
  | _ => false

/-- It has not done so yet. -/
def Attempt.reverting (key : GoString) (a : Attempt) : Bool := a.reverts key ∧ a.body = .start

theorem Attempt.reverts_iff {key : GoString} {a : Attempt} :
    a.reverts key = true ↔ ∃ req, a.activity = .revertStateCompensation req ∧
      req.idempotencyKey = key := by
  unfold Attempt.reverts
  cases a.activity <;> simp

/-- In a run there is one wait for the compensation. -/
theorem Run.compensate_once {sdk : Sdk} {run : Run} {i j : Nat} {o o' : DispatchOutcome}
    (inside : i ≤ run.history.length) (inside' : j ≤ run.history.length)
    (here : (run.threadAt sdk i).point = .compensate o)
    (there : (run.threadAt sdk j).point = .compensate o') : i = j := by
  -- behind a compensation there is none
  refine Run.point_once (fun p => p matches .compensate _) Point.compensated
    ?_ ?_ ?_ inside inside' (by rw [here]) (by rw [there])
  · intro th e compensates
    refine compensated_resume (Or.inr ?_)
    cases stands : th.point <;> simp [stands] at compensates ⊢
  · exact fun th e done => compensated_resume (Or.inl done)
  · intro p done
    cases p <;> simp [Point.compensated] at done ⊢

/-- **A decision has at most one attempt to compensate**, along tame steps. -/
theorem Reaches.one_compensation (reached : Reaches w (admits (Tame w)) s) (decisionID : GoString) :
    s.attempts.countP (Attempt.reverts (executionKey decisionID)) ≤ 1 := by
  -- the run of such an attempt holds the claim
  have owner : ∀ a ∈ s.attempts, a.reverts (executionKey decisionID) = true →
      ∃ run o, Placed w.sdk s a run ∧ run.req.ingressDecisionID = decisionID ∧
        (run.threadAt w.sdk a.index).point = .compensate o ∧
        run.awaits w.sdk a.caller.runID a.index = .activity a.activity compCtx := by
    intro a member reverts
    obtain ⟨req, act, keyed⟩ := Attempt.reverts_iff.mp reverts
    obtain ⟨run, placed⟩ := reached.placed a member
    obtain ⟨opts, waits⟩ := placed.waits
    have asks := await_asks waits
    rw [act] at asks
    obtain ⟨⟨o, here⟩, rfl, rfl⟩ := asks
    exact ⟨run, o, placed, executionKey_injective keyed, here, waits⟩
  refine countP_le_one_of_unique fun i j a b here reverts there reverts' => ?_
  have member := List.mem_of_getElem? here
  have member' := List.mem_of_getElem? there
  obtain ⟨run, o, placed, decision, compensates, waits⟩ := owner a member reverts
  obtain ⟨run', o', placed', decision', compensates', -⟩ := owner b member' reverts'
  obtain ⟨h, held, mine, -⟩ := reached.settles_holds _ run a.index placed.known placed.within
    (by rw [compensates]; rfl)
  obtain ⟨h', held', mine', -⟩ := reached.settles_holds _ run' b.index placed'.known placed'.within
    (by rw [compensates']; rfl)
  rw [decision] at held
  rw [decision'] at held'
  cases held.symm.trans held'
  have caller : b.caller.runID = a.caller.runID := mine'.symm.trans mine
  cases placed.known.symm.trans (caller ▸ placed'.known)
  have index := Run.compensate_once placed.within placed'.within compensates compensates'
  have limit := reached.limited _ run a.index _ _ placed.known placed.within waits
  exact eq_of_countP_le_one limit here (by simp) there (by simp [caller, index])

/-- Every call to compensate used up an attempt. -/
theorem Reaches.compensations_le (reached : Reaches w G s) (key : GoString) :
    s.backend.compensations key + s.attempts.countP (Attempt.reverting key) ≤
      s.attempts.countP (Attempt.reverts key) := by
  refine reached.induction (P := fun s => s.backend.compensations key +
    s.attempts.countP (Attempt.reverting key) ≤ s.attempts.countP (Attempt.reverts key)) ?_ ?_
  · intro policy target
    exact Nat.le_refl 0
  intro s l s' _ bound _ move
  cases move with
  | load => exact bound
  | append => exact bound
  | start => exact bound
  | reset => exact bound
  | cancel => exact bound
  | deliver => exact bound
  | launch runID run act opts known waits under =>
      have unbegun : Attempt.reverting key ⟨⟨run.workflowID, runID⟩, run.history.length, act, .start⟩ =
          Attempt.reverts key ⟨⟨run.workflowID, runID⟩, run.history.length, act, .start⟩ := by
        simp [Attempt.reverting]
      simp only [List.countP_append, List.countP_singleton, unbegun]
      omega
  | exec i a c backend body found ran =>
      have counted := countP_set_add (p := Attempt.reverts key) found { a with body }
      have pending := countP_set_add (p := Attempt.reverting key) found { a with body }
      obtain ⟨caller, index, activity, before⟩ := a
      have same : Attempt.reverts key ⟨caller, index, activity, body⟩ =
          Attempt.reverts key ⟨caller, index, activity, before⟩ := rfl
      rw [same] at counted
      simp only at ran
      by_cases reverts : Attempt.reverts key ⟨caller, index, activity, before⟩ = true
      · -- this attempt makes its one call, if any, and is done
        obtain ⟨req, act, keyed⟩ := Attempt.reverts_iff.mp reverts
        simp only at act
        subst act
        obtain ⟨rfl, r, rfl⟩ := revertStateCompensation_once ran
        have once : backend.compensations key ≤ s.backend.compensations key + 1 := by
          obtain ⟨change, -, -⟩ := perform_performed ran
          unfold Backend.compensations
          cases change with
          | same => omega
          | compensated req adapter ctx r configured =>
              simp only [Backend.called, List.countP_append, List.countP_singleton]
              split <;> omega
        simp only [Attempt.reverting, reverts, same, true_and, reduceCtorEq, and_false,
          decide_true, decide_false, if_true, Bool.false_eq_true, if_false] at pending counted
        dsimp only
        omega
      · have idle : backend.compensations key = s.backend.compensations key := by
          obtain ⟨change, -, -⟩ := perform_performed ran
          unfold Backend.compensations
          cases change with
          | same => rfl
          | acquired => rfl
          | recorded => rfl
          | audited => rfl
          | advanced => rfl
          | fenced => rfl
          | dispatched req adapter ctx configured => simp [Backend.called]
          | reconciled req adapter ctx configured => simp [Backend.called]
          | compensated req adapter ctx r configured =>
              have other : req.idempotencyKey ≠ key := fun keyed =>
                reverts (Attempt.reverts_iff.mpr ⟨req, rfl, keyed⟩)
              simp [Backend.called, other]
        simp only [Attempt.reverting, same, reverts, Bool.false_eq_true, false_and, decide_false,
          if_false] at pending counted
        dsimp only
        omega

/-- Every call to compensate was made by an attempt of its caller. -/
theorem Reaches.compensated_attempt (reached : Reaches w G s) :
    ∀ call ∈ s.backend.calls, call.method = .compensate →
      ∃ a ∈ s.attempts, a.caller = call.caller ∧
        a.activity = .revertStateCompensation call.request := by
  refine reached.induction (P := fun s => ∀ call ∈ s.backend.calls, call.method = .compensate →
    ∃ a ∈ s.attempts, a.caller = call.caller ∧
      a.activity = .revertStateCompensation call.request) ?_ ?_
  · intro policy target call member
    cases member
  intro s l s' _ attempts _ move call member compensate
  have old : call ∈ s.backend.calls → ∃ a ∈ s'.attempts, a.caller = call.caller ∧
      a.activity = .revertStateCompensation call.request := by
    intro before
    obtain ⟨a, there, caller, act⟩ := attempts call before compensate
    obtain ⟨body, kept⟩ := move.attempt_kept there
    exact ⟨_, kept, caller, act⟩
  rcases move.calls with same | ⟨a, there, last, ⟨caller, calls⟩, grown⟩
  · exact old (same ▸ member)
  · rw [grown] at member
    rcases List.mem_append.mp member with before | final
    · exact old before
    · obtain rfl := List.mem_singleton.mp final
      rw [compensate] at calls
      obtain ⟨body, kept⟩ := move.attempt_kept there
      exact ⟨_, kept, caller, calls.2⟩

/-- **Along tame steps `Adapter.Compensate` is called at most once for a decision**, by all
runs together, and only by the run that owns the claim. -/
theorem compensate_at_most_once (reached : Reaches w (admits (Tame w)) s) (decisionID : GoString) :
    s.backend.compensations (executionKey decisionID) ≤ 1 ∧
    ∀ call ∈ s.backend.calls, call.method = .compensate →
      call.request.idempotencyKey = executionKey decisionID →
      ∃ h, s.backend.store.holding? decisionID = some h ∧
        h.owner.workflowID = call.caller.workflowID ∧ h.owner.runID = call.caller.runID := by
  constructor
  · have calls := reached.compensations_le (executionKey decisionID)
    have attempts := reached.one_compensation decisionID
    omega
  · intro call made compensate keyed
    obtain ⟨a, member, caller, act⟩ := reached.compensated_attempt call made compensate
    obtain ⟨run, placed⟩ := reached.placed a member
    obtain ⟨opts, waits⟩ := placed.waits
    rw [act] at waits
    obtain ⟨⟨o, here⟩, same, -⟩ := await_asks waits
    have decision : run.req.ingressDecisionID = decisionID := by
      rw [same] at keyed
      exact executionKey_injective keyed
    obtain ⟨h, held, mine, -⟩ := reached.settles_holds _ run a.index placed.known placed.within
      (by rw [here]; rfl)
    rw [decision] at held
    obtain ⟨run', owned⟩ := reached.owned _ h held
    cases placed.known.symm.trans (mine ▸ owned.known)
    exact ⟨h, held, by rw [owned.workflowID, ← caller, placed.workflowID], by rw [mine, caller]⟩

/-- The run on a target that applies the change in part is tame, and compensates once. -/
theorem compensate_at_most_once_demo :
    Reaches (worker plainSdk) (admits (Tame (worker plainSdk))) (demo failedRun) ∧
    (demo failedRun).backend.compensations (executionKey (ascii "d")) = 1 ∧
    (demo failedRun).backend.compensations (executionKey (ascii "d")) ≤ 1 := by
  have reached : Reaches (worker plainSdk) (admits (Tame (worker plainSdk))) (demo failedRun) :=
    ⟨_, _, runFrom_guarded (by decide +kernel)⟩
  exact ⟨reached, by decide +kernel, (compensate_at_most_once reached (ascii "d")).1⟩

end SentryGate.Workflows
