/-
# Workflows.Release -- a run that does not dispatch gives its claim back

The deferred release of the saga runs on every exit while `mayHoldClaim` is set and
`dispatching` is not.  Two runs show that this does not cover every exit
(`claims_stranded`):

* a cancellation that is noticed at the dispatch step ends the wait before
  `DispatchConfig` was scheduled, but `dispatching` is already set: the run takes the
  unknown outcome for one of the target and ends with the claim CLAIMED;
* a cancelled wait for `ClaimExecution` leaves the attempt running: the release finds
  nothing to release, the run ends, and then the attempt acquires the claim.

`Prompt` says which steps do not lead there.  Along prompt steps a CLAIMED row has a
run that will still dispatch or release it (`Pending`), so no run that ended without
dispatching leaves one behind (`claim_given_back`).
-/
import SentryGate.Workflows.Ownership
import SentryGate.Workflows.Fence

namespace SentryGate.Workflows

open Theory.Text Theory.Machine Contracts Policy Decision Audit

set_option autoImplicit false

variable {α : Type} {w : Worker α} {G : System α → Label → Prop} {s s' : System α} {l : Label}

def Activity.isDispatch : Activity → Bool
  | .dispatchConfig _ => true
  | _ => false

/-- The run has ended, its `DispatchConfig` never started, and the decision is CLAIMED
by it. -/
def Stranded (sdk : Sdk) (s : System α) (runID decisionID : GoString) : Prop :=
  (∃ run result, s.runs runID = some run ∧ (run.thread sdk).point = .closed result) ∧
  (∀ a ∈ s.attempts, a.caller.runID = runID → a.activity.isDispatch = false) ∧
  ∃ h, s.backend.store.holding? decisionID = some h ∧ h.owner.runID = runID ∧ h.state = .claimed

/-! ## Two runs that keep their claim -/

/-- The wait of the run ends because it was cancelled. -/
def canceledWait : Label := .deliver (ascii "r") (.interrupted .canceled) ⟨1⟩

/-- The run is cancelled before its dispatch step: audit, transition, reconciliation and
its timer, audit. -/
def canceledRun : List Label :=
  claimedRun (ascii "n") ++ [.cancel (ascii "r"), canceledWait] ++ round (ascii "r") 5 ++
    round (ascii "r") 6 ++ [canceledWait, canceledWait] ++ round (ascii "r") 7

/-- The run is cancelled while it claims, releases nothing and ends; then the claim
commits. -/
def lateRun : List Label :=
  [.append none (demoRecord (ascii "n")),
   .start (ascii "r") (ascii "w") (demoRequest (ascii "n")) ⟨1⟩] ++
  round (ascii "r") 0 ++ [.deliver (ascii "r") (.token (ascii "t")) ⟨1⟩] ++
  [.launch (ascii "r"), .cancel (ascii "r"), canceledWait] ++ round (ascii "r") 2 ++
  [.exec 1 calm]

/-- The run has ended. -/
def System.ended (sdk : Sdk) (s : System α) (runID : GoString) : Bool :=
  (s.runs runID).any fun run => match (run.thread sdk).point with
    | .closed _ => true
    | _ => false

/-- No `DispatchConfig` of the run has started. -/
def System.undispatched (s : System α) (runID : GoString) : Bool :=
  s.attempts.all fun a => !(a.caller.runID == runID) || !a.activity.isDispatch

/-- The claim on the decision is this run's, before the fence. -/
def System.claimedBy (s : System α) (runID decisionID : GoString) : Bool :=
  (s.backend.store.holding? decisionID).any fun h => h.owner.runID = runID ∧ h.state = .claimed

theorem System.ended_iff {sdk : Sdk} {runID : GoString} : s.ended sdk runID = true ↔
    ∃ run result, s.runs runID = some run ∧ (run.thread sdk).point = .closed result := by
  simp only [System.ended, Option.any_eq_true]
  constructor
  · rintro ⟨run, known, here⟩
    split at here
    · rename_i result here'
      exact ⟨run, result, known, here'⟩
    · cases here
  · rintro ⟨run, result, known, here⟩
    exact ⟨run, known, by rw [here]⟩

theorem System.undispatched_iff {runID : GoString} : s.undispatched runID = true ↔
    ∀ a ∈ s.attempts, a.caller.runID = runID → a.activity.isDispatch = false := by
  simp [System.undispatched, imp_iff_not_or]

theorem System.claimedBy_iff {runID decisionID : GoString} :
    s.claimedBy runID decisionID = true ↔
    ∃ h, s.backend.store.holding? decisionID = some h ∧ h.owner.runID = runID ∧
      h.state = .claimed := by
  simp [System.claimedBy, Option.any_eq_true]

/-- What `Stranded` asks for, computed. -/
theorem System.stranded {sdk : Sdk} {runID decisionID : GoString}
    (strands : (s.ended sdk runID && s.undispatched runID && s.claimedBy runID decisionID) = true) :
    Stranded sdk s runID decisionID := by
  simp only [Bool.and_eq_true, System.ended_iff, System.undispatched_iff,
    System.claimedBy_iff] at strands
  exact ⟨strands.1.1, strands.1.2, strands.2⟩

/-- **A run that ended without dispatching keeps its claim**, in either way. -/
theorem claims_stranded :
    Reachable (worker plainSdk) (demo canceledRun) ∧
    Stranded plainSdk (demo canceledRun) (ascii "r") (ascii "d") ∧
    Reachable (worker plainSdk) (demo lateRun) ∧
    Stranded plainSdk (demo lateRun) (ascii "r") (ascii "d") :=
  ⟨demo_reachable _, System.stranded (by decide +kernel),
    demo_reachable _, System.stranded (by decide +kernel)⟩

/-! ## Prompt steps -/

def Body.isFinished : Body → Bool
  | .finished _ => true
  | _ => false

/-- An attempt of the wait at `index` of the run has returned. -/
def System.returned (s : System α) (runID : GoString) (index : Nat) : Bool :=
  s.attempts.any fun a => a.caller.runID = runID ∧ a.index = index ∧ a.body.isFinished

/-- The run of an attempt still waits for it, or is on its way out and has not released
anything yet. -/
def System.inTime (sdk : Sdk) (s : System α) (a : Attempt) : Bool :=
  (s.runs a.caller.runID).all fun run =>
    a.index = run.history.length ||
    match (run.thread sdk).point with
    | .releaseOnExit _ => !s.returned a.caller.runID run.history.length
    | _ => false

/-- The steps under which a claim is given back. -/
def Prompt (w : Worker α) (s : System α) : Label → Bool
  | .exec i c =>
      match s.attempts[i]? with
      | none => true
      | some a =>
          match a.activity with
          -- the claim store accepts every transition
          | .advanceExecutionClaim _ => c.fault ≠ .unwritten
          -- a free claim is not taken behind the back of the run
          | .claimExecution req =>
              !(s.backend.store.holding? req.decisionID).all (·.state = .released) ||
                s.inTime w.sdk a
          | _ => true
  | .deliver runID source _ =>
      match s.runs runID with
      | none => true
      | some run =>
          match (run.thread w.sdk).point with
          -- a refused claim is heard of only while it is not the run's own
          | .claimExecution =>
              match answer w s runID run source with
              | some (.claimed r) => r.claimed || !s.claimedBy runID run.req.ingressDecisionID
              | _ => true
          -- the dispatch step does not end before it began
          | .dispatchConfig => 0 < s.launched runID run.history.length
          -- the release on exit is not abandoned
          | .releaseOnExit _ => source.isAttempt
          | _ => true
  | _ => true

section Guard

variable {i : Nat} {c : Conditions} {a : Attempt} {run : Run} {runID : GoString}
  {source : Source} {now : Time}

theorem Prompt.accepted (prompt : admits (Prompt w) s (.exec i c))
    (found : s.attempts[i]? = some a) {t : ClaimTransition}
    (act : a.activity = .advanceExecutionClaim t) : c.fault ≠ .unwritten := by
  simpa [admits, Prompt, found, act] using prompt

theorem Prompt.inTime (prompt : admits (Prompt w) s (.exec i c))
    (found : s.attempts[i]? = some a) {req : ClaimRequest} (act : a.activity = .claimExecution req)
    (free : Free (s.backend.store.holding? req.decisionID))
    (known : s.runs a.caller.runID = some run) :
    a.index = run.history.length ∨ ∃ result, (run.thread w.sdk).point = .releaseOnExit result ∧
      s.returned a.caller.runID run.history.length = false := by
  have released : (s.backend.store.holding? req.decisionID).all (·.state = .released) = true := by
    cases held : s.backend.store.holding? req.decisionID with
    | none => rfl
    | some h => simpa using free h held
  simp only [admits, Prompt, found, act, released, Bool.not_true, Bool.false_or, System.inTime,
    known, Option.all_some, Bool.or_eq_true, decide_eq_true_eq] at prompt
  rcases prompt with waits | leaving
  · exact Or.inl waits
  · split at leaving
    · rename_i result here
      exact Or.inr ⟨result, here, by simpa using leaving⟩
    · cases leaving

theorem Prompt.refusal (prompt : admits (Prompt w) s (.deliver runID source now))
    (known : s.runs runID = some run) (here : (run.thread w.sdk).point = .claimExecution)
    {r : ClaimResult} (said : answer w s runID run source = some (.claimed r))
    (refused : r.claimed = false) : s.claimedBy runID run.req.ingressDecisionID = false := by
  simpa [admits, Prompt, known, here, said, refused] using prompt

theorem Prompt.began (prompt : admits (Prompt w) s (.deliver runID source now))
    (known : s.runs runID = some run) (here : (run.thread w.sdk).point = .dispatchConfig) :
    0 < s.launched runID run.history.length := by
  simpa [admits, Prompt, known, here] using prompt

theorem Prompt.answered (prompt : admits (Prompt w) s (.deliver runID source now))
    (known : s.runs runID = some run) {result : WorkflowResult}
    (here : (run.thread w.sdk).point = .releaseOnExit result) : ∃ i, source = .attempt i := by
  simp only [admits, Prompt, known, here] at prompt
  cases source with
  | attempt i => exact ⟨i, rfl⟩
  | _ => cases prompt

end Guard

/-! ## What becomes of a claim -/

/-- The token of a run does not change once it has claimed. -/
theorem Run.token_fixed {sdk : Sdk} {run : Run} {k : Nat} (after : 2 ≤ k)
    (within : k ≤ run.history.length) :
    (run.threadAt sdk k).token = (run.threadAt sdk 2).token := by
  induction k, after using Nat.le_induction with
  | base => rfl
  | succ k after ih =>
      rw [threadAt_succ sdk run (List.getElem?_eq_getElem within), ← ih (Nat.le_of_succ_le within)]
      refine (resume_locals sdk run.req _ _).token fun claims => ?_
      rw [← threadAt_succ sdk run (List.getElem?_eq_getElem within)] at claims
      have place : k + 1 = 2 := threadAt_place within (by rw [claims]; rfl)
      omega

/-- A transition that the store performs takes the row of its owner where it asks. -/
theorem advance_effective {x : Execution} {c : Conditions} {b b' : Backend α} {body' : Body}
    {t : ClaimTransition} {st : ClaimState}
    (ran : perform w x (.advanceExecutionClaim t) .start c b = some (b', body'))
    (configured : w.claims = true) (accepted : c.fault ≠ .unwritten)
    (unfenced : t.toState ≠ .executing) (permitted : Permits st t.toState)
    (held : b.store.holding? t.decisionID = some ⟨claimOwner x t.token, st⟩) :
    b'.store.holding? t.decisionID = some ⟨claimOwner x t.token, t.toState⟩ := by
  simp only [perform, advanceExecutionClaim, configured, Bool.not_true, Bool.false_eq_true,
    if_false, if_neg unfenced, Option.some.injEq] at ran
  rcases advanceClaim_cases b.store t.decisionID (claimOwner x t.token) t.toState c.now with
    ⟨store, -, update, -, -, -, writes⟩ | ⟨e, -, -, refused⟩
  · obtain ⟨-, -, -, after⟩ := writes.row.of_advanced
    rw [update] at ran
    unfold Conditions.write at ran
    cases fault : c.fault with
    | absent =>
        rw [fault] at ran
        cases ran
        exact after
    | unwritten => exact absurd fault accepted
    | written =>
        rw [fault] at ran
        cases ran
        exact after
  · obtain ⟨claim, found, same⟩ := Option.map_eq_some_iff.mp held
    have own : claim.owner = claimOwner x t.token := congrArg Holding.owner same
    have state : claim.state = st := congrArg Holding.state same
    exact absurd (state ▸ permitted) (refused claim found own)

/-- Between the claim and the dispatch step a run counts on holding the claim. -/
theorem FlagsAt.claimed {holds dispatching : Bool} {p : Point} {n : Nat}
    (flags : FlagsAt holds dispatching p) (here : p.place = some n) (after : 2 ≤ n)
    (before : n ≤ 5) : holds = true ∧ dispatching = false := by
  cases p <;> simp only [Point.place, Option.some.injEq, reduceCtorEq] at here <;>
    first
    | exact flags
    | omega

/-- What such a run does on an answer: it goes on, or it leaves through the release,
unless it heard that it was refused. -/
theorem claimed_resume {sdk : Sdk} {req : ExecutionRequest} {prior : Thread} {e : Event} {n : Nat}
    (flags : prior.Flags) (here : prior.point.place = some n) (after : 2 ≤ n) (before : n ≤ 5) :
    (∃ m, (resume sdk req prior e).point.place = some m ∧ 2 ≤ m ∧ m ≤ 6) ∨
    (∃ result, (resume sdk req prior e).point = .releaseOnExit result) ∨
    (prior.point = .claimExecution ∧ ∃ c, e.reply = .claimed c ∧ c.claimed = false) := by
  obtain ⟨holds, dispatching⟩ := FlagsAt.claimed flags here after before
  have origin := resume_origin sdk req prior e
  generalize (resume sdk req prior e).point = p at origin ⊢
  cases p <;> simp only [Origin] at origin <;> grind [Point.place]

/-! ## A claim has a run that sees to it -/

/-- The run has begun to dispatch, is on its way to the dispatch step, or is about to
release its claim. -/
inductive Pending (sdk : Sdk) (s : System α) (runID : GoString) (run : Run) : Prop where
  | dispatched (a : Attempt) (member : a ∈ s.attempts) (own : a.caller.runID = runID)
      (dispatches : a.activity.isDispatch = true) : Pending sdk s runID run
  | before (n : Nat) (here : (run.thread sdk).point.place = some n) (after : 2 ≤ n)
      (early : n ≤ 6) : Pending sdk s runID run
  | releasing (result : WorkflowResult) (here : (run.thread sdk).point = .releaseOnExit result)
      (silent : s.returned runID run.history.length = false) : Pending sdk s runID run

theorem System.returned_eq_false_iff {runID : GoString} {k : Nat} :
    s.returned runID k = false ↔
      ∀ a ∈ s.attempts, a.caller.runID = runID → a.index = k → a.body.isFinished = false := by
  simp only [System.returned, List.any_eq_false, decide_eq_true_eq, not_and, Bool.not_eq_true]

theorem Quiet.returned (quiet : Quiet s s') {runID : GoString} {k : Nat}
    (silent : s.returned runID k = false) : s'.returned runID k = false := by
  rw [System.returned_eq_false_iff] at silent ⊢
  intro a member own here
  rcases quiet.attempts with same | ⟨fresh, unbegun, added⟩
  · exact silent a (same ▸ member) own here
  · rw [added] at member
    rcases List.mem_append.mp member with old | last
    · exact silent a old own here
    · obtain rfl := List.mem_singleton.mp last
      rw [unbegun]
      rfl

/-- The wait after the one a run is in has no attempts yet. -/
theorem Reaches.returned_next (reached : Reaches w G s) {runID : GoString} {run : Run}
    (known : s.runs runID = some run) : s.returned runID (run.history.length + 1) = false := by
  rw [System.returned_eq_false_iff]
  rintro a member rfl here
  obtain ⟨run', placed⟩ := reached.placed a member
  cases known.symm.trans placed.known
  have within := placed.within
  omega

/-- The dispatch step that has begun has an attempt. -/
theorem Reaches.dispatch_begun (reached : Reaches w G s) {runID : GoString} {run : Run}
    (known : s.runs runID = some run) (here : (run.thread w.sdk).point = .dispatchConfig)
    (began : 0 < s.launched runID run.history.length) :
    ∃ a ∈ s.attempts, a.caller.runID = runID ∧ a.activity.isDispatch = true := by
  obtain ⟨a, member, there⟩ := List.countP_pos_iff.mp began
  obtain ⟨own, index⟩ := of_decide_eq_true there
  have waits : run.awaits w.sdk runID run.history.length =
      .activity (.dispatchConfig (fencedDispatch run.req (run.thread w.sdk).token))
        activityOpts :=
    Run.awaits_eq _ here
  obtain ⟨-, act⟩ := reached.attempt_activity known member own index waits
  exact ⟨a, member, own, by rw [act]; rfl⟩

/-- A step that runs no body leaves a claim with a run that sees to it. -/
theorem Pending.quiet {runID : GoString} {run : Run} (pending : Pending w.sdk s runID run)
    (reached : Reaches w G s) (prompt : admits (Prompt w) s l) (move : Move w s l s')
    (quiet : Quiet s s') (known : s.runs runID = some run)
    (claimed : s.claimedBy runID run.req.ingressDecisionID = true) :
    ∃ run', s'.runs runID = some run' ∧ Pending w.sdk s' runID run' := by
  obtain ⟨run', known', -⟩ := move.run_kept known
  refine ⟨run', known', ?_⟩
  have dispatched : ∀ a ∈ s.attempts, a.caller.runID = runID → a.activity.isDispatch = true →
      Pending w.sdk s' runID run' := by
    intro a member own dispatches
    obtain ⟨body, kept⟩ := move.attempt_kept member
    exact .dispatched _ kept own dispatches
  cases move.runStep known' with
  | started workflowID request now fresh => cases fresh.symm.trans known
  | reset base other k canceled label fresh found inside => cases fresh.symm.trans known
  | kept other run' found later same =>
      cases known.symm.trans found
      have thread : run'.thread w.sdk = run.thread w.sdk := by
        rw [Run.thread, same, later.threadAt w.sdk (Nat.le_refl _), Run.thread]
      cases pending with
      | dispatched a member own dispatches => exact dispatched a member own dispatches
      | before n here after early => exact .before n (thread ▸ here) after early
      | releasing result here silent =>
          exact .releasing result (thread ▸ here) (same ▸ quiet.returned silent)
  | heard other source reply now label found said =>
      cases known.symm.trans found
      subst label
      cases pending with
      | dispatched a member own dispatches => exact dispatched a member own dispatches
      | before n here after early =>
          by_cases last : n = 6
          · have stands : (run.thread w.sdk).point = .dispatchConfig := by
              revert here
              rw [last]
              cases (run.thread w.sdk).point <;> simp [Point.place]
            obtain ⟨a, member, own, dispatches⟩ :=
              reached.dispatch_begun known stands (Prompt.began prompt known stands)
            exact dispatched a member own dispatches
          · have flags := replay_flags w.sdk run.req run.startedAt (run.history.take run.history.length)
            rcases claimed_resume (e := { reply, now }) flags here after (by omega) with
              ⟨m, there, after', early'⟩ | ⟨result, there⟩ | ⟨stands, c, heard, refused⟩
            · exact .before m (by rw [Run.thread_hear]; exact there) after' early'
            · refine .releasing result (by rw [Run.thread_hear]; exact there) (quiet.returned ?_)
              simpa [Run.hear] using reached.returned_next known
            · obtain rfl : reply = .claimed c := heard
              rw [Prompt.refusal prompt known stands said refused] at claimed
              cases claimed
      | releasing result here silent =>
          obtain ⟨i, rfl⟩ := Prompt.answered prompt known here
          obtain ⟨a, member, own, index, finished⟩ := answer_attempt said
          have unfinished := System.returned_eq_false_iff.mp silent a member own index
          rw [finished] at unfinished
          cases unfinished

/-- So does a step of a body that is not the release a run waits for. -/
theorem Pending.exec {i : Nat} {c : Conditions} {a : Attempt} {b' : Backend α} {body' : Body}
    {runID : GoString} {run : Run} (pending : Pending w.sdk s runID run)
    (move : Move w s (.exec i c)
      { s with backend := b', attempts := s.attempts.set i { a with body := body' } })
    (other : ∀ result, (run.thread w.sdk).point = .releaseOnExit result →
      a.caller.runID = runID → a.index ≠ run.history.length) :
    Pending w.sdk { s with backend := b', attempts := s.attempts.set i { a with body := body' } }
      runID run := by
  cases pending with
  | dispatched a' member own dispatches =>
      obtain ⟨body, kept⟩ := move.attempt_kept member
      exact .dispatched _ kept own dispatches
  | before n here after early => exact .before n here after early
  | releasing result here silent =>
      refine .releasing result here (System.returned_eq_false_iff.mpr ?_)
      intro a' member own index
      rcases List.mem_or_eq_of_mem_set member with old | rfl
      · exact System.returned_eq_false_iff.mp silent a' old own index
      · exact absurd index (other result here own)

/-- An action of the release a run waits for gives its claim back. -/
theorem Reaches.release_acts (reached : Reaches w G s) (configured : w.claims = true)
    {a : Attempt} {run : Run} {h : Holding} {c : Conditions} {b' : Backend α} {body' : Body}
    {result : WorkflowResult} (owned : OwnedBy w.sdk s run.req.ingressDecisionID h.owner run)
    (held : s.backend.store.holding? run.req.ingressDecisionID = some h)
    (claimed : h.state = .claimed) (here : (run.thread w.sdk).point = .releaseOnExit result)
    (member : a ∈ s.attempts) (own : a.caller.runID = h.owner.runID)
    (index : a.index = run.history.length)
    (accepted : ∀ t, a.activity = .advanceExecutionClaim t → c.fault ≠ .unwritten)
    (ran : perform w a.caller a.activity a.body c s.backend = some (b', body')) :
    b'.store.holding? run.req.ingressDecisionID = some ⟨h.owner, .released⟩ := by
  have waits : run.awaits w.sdk h.owner.runID run.history.length =
      .activity (.advanceExecutionClaim
        ⟨run.req.ingressDecisionID, (run.thread w.sdk).token, .released⟩) claimCtx :=
    Run.awaits_eq _ here
  obtain ⟨caller, act⟩ := reached.attempt_activity owned.known member own index waits
  have unwritten := accepted _ act
  rw [act] at ran
  obtain ⟨owner, st⟩ := h
  have owner_eq : claimOwner a.caller (run.thread w.sdk).token = owner := by
    rw [Run.thread, Run.token_fixed owned.reached (Nat.le_refl _), ← owned.token, caller,
      ← owned.workflowID]
    rfl
  cases body : a.body with
  | start =>
      rw [body] at ran
      have permitted : Permits .claimed .released := (permits_iff _ _).mpr (by simp)
      have after := advance_effective ran configured unwritten (by simp) permitted
        (by rw [owner_eq]; exact claimed ▸ held)
      rwa [owner_eq] at after
  | _ =>
      rw [body] at ran
      cases ran

/-- **A CLAIMED row has a run that sees to it**, along prompt steps. -/
theorem Reaches.claim_pending (configured : w.claims = true)
    (reached : Reaches w (admits (Prompt w)) s) :
    ∀ decisionID h, s.backend.store.holding? decisionID = some h → h.state = .claimed →
      ∃ run, s.runs h.owner.runID = some run ∧ Pending w.sdk s h.owner.runID run := by
  refine reached.induction (P := fun s => ∀ decisionID h,
    s.backend.store.holding? decisionID = some h → h.state = .claimed →
    ∃ run, s.runs h.owner.runID = some run ∧ Pending w.sdk s h.owner.runID run) ?_ ?_
  · intro policy target decisionID h held
    cases held
  intro s l s' prior pending prompt move decisionID h held claimed
  rcases move.quiet_or_ran with quiet | ⟨i, a, c, b', body', rfl, found, ran, rfl⟩
  · rw [quiet.holding] at held
    obtain ⟨run, known, seen⟩ := pending decisionID h held claimed
    obtain ⟨run', owned⟩ := prior.owned decisionID h held
    cases known.symm.trans owned.known
    refine seen.quiet prior prompt move quiet known ?_
    exact System.claimedBy_iff.mpr ⟨h, owned.decisionID ▸ held, rfl, claimed⟩
  · obtain ⟨wr, change, -, author⟩ := (perform_performed ran).change.row decisionID
    cases wr with
    | nothing =>
        have before : s.backend.store.holding? decisionID = some h := change.of_nothing ▸ held
        obtain ⟨run, known, seen⟩ := pending decisionID h before claimed
        obtain ⟨run', owned⟩ := prior.owned decisionID h before
        cases known.symm.trans owned.known
        refine ⟨run, known, seen.exec move ?_⟩
        -- the release would have changed the row
        intro result here own index
        obtain rfl := owned.decisionID
        have after := prior.release_acts configured owned before claimed here
          (List.mem_of_getElem? found) own index (fun t => Prompt.accepted prompt found) ran
        have released : h.state = .released :=
          congrArg Holding.state (Option.some.inj (held.symm.trans after))
        cases claimed.symm.trans released
    | acquired owner =>
        obtain ⟨free, after⟩ := change.of_acquired
        cases held.symm.trans after
        obtain ⟨req, act, rfl, rfl⟩ := author
        obtain ⟨run, placed⟩ := prior.placed a (List.mem_of_getElem? found)
        obtain ⟨second, -, -⟩ := placed.claimExecution act
        refine ⟨run, placed.known, ?_⟩
        by_cases index : a.index = run.history.length
        · refine .before 2 ?_ (Nat.le_refl _) (by omega)
          obtain ⟨opts, waits⟩ := placed.waits
          rw [act] at waits
          obtain ⟨here, -⟩ := await_asks waits
          rw [Run.thread, ← index, here]
          rfl
        · rcases Prompt.inTime prompt found act free placed.known with now | ⟨result, here, silent⟩
          · exact absurd now index
          · exact Pending.exec (.releasing result here silent) move fun _ _ _ => index
    | advanced owner next =>
        obtain ⟨st, -, allowed, after⟩ := change.of_advanced
        cases held.symm.trans after
        have table := (permits_iff _ _).mp allowed
        simp only at claimed
        rw [claimed] at table
        simp at table

/-- **A run that ended without dispatching has given its claim back**, in every state
that prompt steps reach. -/
theorem claim_given_back (configured : w.claims = true)
    (reached : Reaches w (admits (Prompt w)) s) (runID decisionID : GoString) :
    ¬ Stranded w.sdk s runID decisionID := by
  rintro ⟨⟨run, result, known, ended⟩, never, h, held, rfl, claimed⟩
  obtain ⟨run', known', pending⟩ := reached.claim_pending configured decisionID h held claimed
  cases known.symm.trans known'
  cases pending with
  | dispatched a member mine dispatches =>
      rw [never a member mine] at dispatches
      cases dispatches
  | before n here after early =>
      rw [ended] at here
      cases here
  | releasing result' here silent =>
      rw [ended] at here
      cases here

/-- The run is cancelled with its claim and releases it. -/
def releasedRun : List Label :=
  [.append none (demoRecord (ascii "n")),
   .start (ascii "r") (ascii "w") (demoRequest (ascii "n")) ⟨1⟩] ++
  round (ascii "r") 0 ++ [.deliver (ascii "r") (.token (ascii "t")) ⟨1⟩] ++
  round (ascii "r") 1 ++ [.cancel (ascii "r"), canceledWait] ++ round (ascii "r") 2

theorem claim_given_back_demo :
    Reaches (worker plainSdk) (admits (Prompt (worker plainSdk))) (demo releasedRun) ∧
    (demo releasedRun).ended plainSdk (ascii "r") = true ∧
    (demo releasedRun).undispatched (ascii "r") = true ∧
    ((demo releasedRun).backend.store.holding? (ascii "d")).isSome ∧
    ¬ Stranded plainSdk (demo releasedRun) (ascii "r") (ascii "d") := by
  have reached : Reaches (worker plainSdk) (admits (Prompt (worker plainSdk)))
      (demo releasedRun) := ⟨_, _, runFrom_guarded (by decide +kernel)⟩
  exact ⟨reached, by decide +kernel, by decide +kernel, by decide +kernel,
    claim_given_back rfl reached (ascii "r") (ascii "d")⟩

end SentryGate.Workflows
