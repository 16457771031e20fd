/-
# Workflows.History -- what runs and attempts keep

* `Run.Extends` -- a run only ever gets longer; the thread after its first `k`
  answers stays what it is.
* `RunStep` -- how a run that a step leaves behind came about.
* `Placed` -- every attempt belongs to a wait its run reached by itself.
* `Limited` -- no wait has more attempts than its retry policy allows.
* `finished_facts`, `run_facts` -- the two inductions every property of the system
  goes through: what an answer establishes stays true of the attempt that gave it,
  and what a run was told stays true of its thread, also in a run that was reset
  and inherits the answer.
* `told_facts` -- and what a run was told itself stays true of the answer.
* `Reachable.closed_steps` -- a closed run stays as it is.
* `Reaches.dispatched_settles` -- a run whose dispatch step called the adapter hears no
  fence error from it.
-/
import SentryGate.Workflows.System
import SentryGate.Workflows.Threads
import SentryGate.Theory.Counting

namespace SentryGate.Workflows

open Theory.Text Theory.Machine Theory.Counting Contracts Policy Decision Audit

set_option autoImplicit false

variable {α : Type} {w : Worker α} {G : System α → Label → Prop} {s s' : System α} {l : Label}

/-! ## Runs -/

/-- `run'` is a later state of `run`. -/
structure Run.Extends (run run' : Run) : Prop where
  workflowID : run'.workflowID = run.workflowID
  req : run'.req = run.req
  startedAt : run'.startedAt = run.startedAt
  inherited : run'.inherited = run.inherited
  lineage : run'.lineage = run.lineage
  history : run.history <+: run'.history

namespace Run

variable {run run' : Run}

theorem Extends.refl (run : Run) : run.Extends run := ⟨rfl, rfl, rfl, rfl, rfl, List.prefix_rfl⟩

theorem Extends.trans {run'' : Run} (first : run.Extends run') (second : run'.Extends run'') :
    run.Extends run'' where
  workflowID := second.workflowID.trans first.workflowID
  req := second.req.trans first.req
  startedAt := second.startedAt.trans first.startedAt
  inherited := second.inherited.trans first.inherited
  lineage := second.lineage.trans first.lineage
  history := first.history.trans second.history

theorem Extends.hear (run : Run) (e : Event) : run.Extends (run.hear e) :=
  ⟨rfl, rfl, rfl, rfl, rfl, List.prefix_append _ _⟩

theorem Extends.threadAt (later : run.Extends run') (sdk : Sdk) {k : Nat}
    (within : k ≤ run.history.length) : run'.threadAt sdk k = run.threadAt sdk k := by
  obtain ⟨more, same⟩ := later.history
  unfold Run.threadAt
  rw [later.req, later.startedAt, ← same, List.take_append_of_le_length within]

theorem threadAt_zero (sdk : Sdk) (run : Run) :
    run.threadAt sdk 0 = Thread.initial run.startedAt := by
  simp [threadAt, replay]

/-- The thread after one more answer. -/
theorem threadAt_hear (sdk : Sdk) (run : Run) (e : Event) :
    (run.hear e).threadAt sdk (run.history.length + 1) = resume sdk run.req (run.thread sdk) e := by
  have whole : (run.history ++ [e]).take (run.history.length + 1) = run.history ++ [e] :=
    List.take_of_length_le (by simp)
  simp [thread, threadAt, hear, whole, replay_append]

theorem threadAt_reset (sdk : Sdk) (run : Run) (base : GoString) {k j : Nat} (canceled : Bool)
    (within : k ≤ run.history.length) (before : j ≤ k) :
    (run.reset base k canceled within).threadAt sdk j = run.threadAt sdk j := by
  simp [threadAt, reset, List.take_take, Nat.min_eq_left before]

/-- A thread at a placed point stands at that index of the history. -/
theorem threadAt_place {sdk : Sdk} {k n : Nat} (within : k ≤ run.history.length)
    (placed : (run.threadAt sdk k).point.place = some n) : k = n := by
  have heard := replay_place placed
  simpa [within] using heard

theorem threadAt_succ (sdk : Sdk) (run : Run) {k : Nat} {e : Event}
    (here : run.history[k]? = some e) :
    run.threadAt sdk (k + 1) = resume sdk run.req (run.threadAt sdk k) e := by
  unfold threadAt
  rw [List.take_add_one, here, Option.toList_some, replay_append]

/-- A thread at a placed point went through all the places before it. -/
theorem threadAt_chain {sdk : Sdk} {k : Nat} (within : k ≤ run.history.length)
    (placed : (run.threadAt sdk k).point.place = some k) {j : Nat} (before : j ≤ k) :
    (run.threadAt sdk j).point.place = some j := by
  induction k with
  | zero =>
      obtain rfl := Nat.le_zero.mp before
      exact placed
  | succ k ih =>
      rcases before.eq_or_lt with rfl | earlier
      · exact placed
      · rw [threadAt_succ sdk run (List.getElem?_eq_getElem within)] at placed
        obtain ⟨m, same, prior⟩ := resume_place placed
        cases Nat.succ.inj same
        exact ih (Nat.le_of_succ_le within) prior (Nat.le_of_lt_succ earlier)

/-- What every answer keeps stays true along a history. -/
theorem threadAt_stays {sdk : Sdk} {P : Thread → Prop} {j k : Nat}
    (stays : ∀ th e, P th → P (resume sdk run.req th e)) (here : P (run.threadAt sdk j))
    (before : j ≤ k) (within : k ≤ run.history.length) : P (run.threadAt sdk k) := by
  induction k, before using Nat.le_induction with
  | base => exact here
  | succ k _ ih =>
      rw [threadAt_succ sdk run (List.getElem?_eq_getElem within)]
      exact stays _ _ (ih (Nat.le_of_succ_le within))

/-- **Run lemma along one history**: what holds at the start and is kept by every answer
the run has heard holds at each of its waits. -/
theorem threadAt_induction {sdk : Sdk} {P : Nat → Thread → Prop}
    (begins : P 0 (Thread.initial run.startedAt))
    (keeps : ∀ k e, run.history[k]? = some e → P k (run.threadAt sdk k) →
      P (k + 1) (resume sdk run.req (run.threadAt sdk k) e))
    {k : Nat} (within : k ≤ run.history.length) : P k (run.threadAt sdk k) := by
  induction k with
  | zero =>
      rw [threadAt_zero]
      exact begins
  | succ k ih =>
      have heard := List.getElem?_eq_getElem within
      rw [threadAt_succ sdk run heard]
      exact keeps k _ heard (ih (Nat.le_of_succ_le within))

/-- A run is at a kind of point once if what follows it never leads back. -/
theorem point_once {sdk : Sdk} (here late : Point → Bool)
    (leads : ∀ th e, here th.point = true → late (resume sdk run.req th e).point = true)
    (stays : ∀ th e, late th.point = true → late (resume sdk run.req th e).point = true)
    (apart : ∀ p, late p = true → here p = false) {i j : Nat} (inside : i ≤ run.history.length)
    (inside' : j ≤ run.history.length) (first : here (run.threadAt sdk i).point = true)
    (second : here (run.threadAt sdk j).point = true) : i = j := by
  have after : ∀ {i j : Nat}, j ≤ run.history.length → here (run.threadAt sdk i).point = true →
      here (run.threadAt sdk j).point = true → ¬ i < j := by
    intro i j inside first second earlier
    have next : late (run.threadAt sdk (i + 1)).point = true := by
      rw [threadAt_succ sdk run (List.getElem?_eq_getElem (earlier.trans_le inside))]
      exact leads _ _ first
    have done := threadAt_stays (P := fun th => late th.point = true) stays next earlier inside
    rw [apart _ done] at second
    cases second
  have forward := after inside' first second
  have backward := after inside second first
  omega

/-- A run settles an outcome only after its seventh answer. -/
theorem threadAt_afterDispatch {sdk : Sdk} {k : Nat} (within : k ≤ run.history.length)
    (after : (run.threadAt sdk k).point.afterDispatch = true) : 7 ≤ k := by
  refine threadAt_induction (P := fun k th => th.point.afterDispatch = true → 7 ≤ k) ?_ ?_ within after
  · intro begins
    cases begins
  · intro k e heard ih after
    have earlier : k ≤ run.history.length := (List.getElem?_eq_some_iff.mp heard).1.le
    rcases afterDispatch_origin after with before | ⟨here, -⟩ | ⟨fence, err, here, -⟩
    · exact (ih before).trans (Nat.le_succ k)
    · have sixth : k = 6 := threadAt_place earlier (by rw [here]; rfl)
      omega
    · have seventh : k = 7 := threadAt_place earlier (by rw [here]; rfl)
      omega

theorem thread_hear (sdk : Sdk) (run : Run) (e : Event) :
    (run.hear e).thread sdk = resume sdk run.req (run.thread sdk) e := by
  rw [← threadAt_hear]
  simp [thread, hear]

end Run

/-- How a run in the state after a step came about. -/
inductive RunStep (w : Worker α) (s : System α) (l : Label) (runID : GoString) : Run → Prop where
  | kept (run run' : Run) (known : s.runs runID = some run) (later : run.Extends run')
      (same : run'.history = run.history) : RunStep w s l runID run'
  | heard (run : Run) (source : Source) (reply : Reply) (now : Time)
      (here : l = .deliver runID source now) (known : s.runs runID = some run)
      (said : answer w s runID run source = some reply) : RunStep w s l runID (run.hear { reply, now })
  | started (workflowID : GoString) (req : ExecutionRequest) (now : Time)
      (fresh : s.runs runID = none) : RunStep w s l runID (.started workflowID req now)
  | reset (base : GoString) (run : Run) (k : Nat) (canceled : Bool)
      (here : l = .reset runID base k canceled) (fresh : s.runs runID = none)
      (known : s.runs base = some run) (within : k ≤ run.history.length) :
      RunStep w s l runID (run.reset base k canceled within)

theorem System.runs_setRun (s : System α) (runID id : GoString) (run : Run) :
    (s.setRun runID run).runs id = if id = runID then some run else s.runs id := rfl

namespace Move

theorem runStep (move : Move w s l s') {runID : GoString} {run' : Run}
    (known : s'.runs runID = some run') : RunStep w s l runID run' := by
  have elsewhere : ∀ {id : GoString} {run : Run}, runID ≠ id →
      (s.setRun id run).runs runID = some run' → RunStep w s l runID run' := by
    intro id run different found
    rw [System.runs_setRun, if_neg different] at found
    exact .kept run' run' found (.refl _) rfl
  cases move with
  | load => exact .kept run' run' known (.refl _) rfl
  | append => exact .kept run' run' known (.refl _) rfl
  | launch => exact .kept run' run' known (.refl _) rfl
  | exec => exact .kept run' run' known (.refl _) rfl
  | start id workflowID req now fresh =>
      by_cases here : runID = id
      · subst here
        rw [System.runs_setRun, if_pos rfl] at known
        cases known
        exact .started workflowID req now fresh
      · exact elsewhere here known
  | reset id base run k canceled fresh found within =>
      by_cases here : runID = id
      · subst here
        rw [System.runs_setRun, if_pos rfl] at known
        cases known
        exact .reset base run k canceled rfl fresh found within
      · exact elsewhere here known
  | cancel id run found =>
      by_cases here : runID = id
      · subst here
        rw [System.runs_setRun, if_pos rfl] at known
        cases known
        exact .kept run _ found ⟨rfl, rfl, rfl, rfl, rfl, List.prefix_rfl⟩ rfl
      · exact elsewhere here known
  | deliver id run source reply now found answered =>
      by_cases here : runID = id
      · subst here
        rw [System.runs_setRun, if_pos rfl] at known
        cases known
        exact .heard run source reply now rfl found answered
      · exact elsewhere here known

/-- No run is lost or shortened. -/
theorem run_kept (move : Move w s l s') {runID : GoString} {run : Run}
    (known : s.runs runID = some run) : ∃ run', s'.runs runID = some run' ∧ run.Extends run' := by
  have elsewhere : ∀ {id : GoString} {run' : Run}, runID ≠ id →
      ∃ run'', (s.setRun id run').runs runID = some run'' ∧ run.Extends run'' := by
    intro id run' different
    exact ⟨run, (if_neg different).trans known, .refl _⟩
  have fresh_elsewhere : ∀ {id : GoString}, s.runs id = none → runID ≠ id := by
    rintro id fresh rfl
    rw [fresh] at known
    cases known
  cases move with
  | load => exact ⟨run, known, .refl _⟩
  | append => exact ⟨run, known, .refl _⟩
  | launch => exact ⟨run, known, .refl _⟩
  | exec => exact ⟨run, known, .refl _⟩
  | start id workflowID req now fresh => exact elsewhere (fresh_elsewhere fresh)
  | reset id base run' k canceled fresh found within => exact elsewhere (fresh_elsewhere fresh)
  | cancel id run' found =>
      by_cases here : runID = id
      · subst here
        cases known.symm.trans found
        exact ⟨_, if_pos rfl, rfl, rfl, rfl, rfl, rfl, List.prefix_rfl⟩
      · exact elsewhere here
  | deliver id run' source reply now found answered =>
      by_cases here : runID = id
      · subst here
        cases known.symm.trans found
        exact ⟨_, if_pos rfl, .hear run _⟩
      · exact elsewhere here

end Move

/-! ## Attempts -/

/-- What a run waits for after its first `k` answers. -/
def Run.awaits (sdk : Sdk) (runID : GoString) (run : Run) (k : Nat) : Await :=
  await sdk ⟨run.workflowID, runID⟩ run.req (run.threadAt sdk k)

/-- What it waits for at a known point. -/
theorem Run.awaits_eq {sdk : Sdk} {run : Run} {k : Nat} {point : Point} (runID : GoString)
    (here : (run.threadAt sdk k).point = point) :
    run.awaits sdk runID k =
      await sdk ⟨run.workflowID, runID⟩ run.req { run.threadAt sdk k with point } := by
  rw [← here]
  rfl

/-- The attempt belongs to a wait that its run, in `s`, reached by itself. -/
structure Placed (sdk : Sdk) (s : System α) (a : Attempt) (run : Run) : Prop where
  known : s.runs a.caller.runID = some run
  workflowID : a.caller.workflowID = run.workflowID
  own : run.inherited ≤ a.index
  within : a.index ≤ run.history.length
  waits : ∃ opts, run.awaits sdk a.caller.runID a.index = .activity a.activity opts

theorem Run.Extends.awaits {run run' : Run} (later : run.Extends run') (sdk : Sdk)
    (runID : GoString) {k : Nat} (within : k ≤ run.history.length) :
    run'.awaits sdk runID k = run.awaits sdk runID k := by
  unfold Run.awaits
  rw [later.threadAt sdk within, later.req, later.workflowID]

theorem Placed.later {sdk : Sdk} {a : Attempt} {run run' : Run} (placed : Placed sdk s a run)
    (known : s'.runs a.caller.runID = some run') (later : run.Extends run') :
    Placed sdk s' a run' where
  known := known
  workflowID := placed.workflowID.trans later.workflowID.symm
  own := later.inherited ▸ placed.own
  within := placed.within.trans later.history.length_le
  waits := by rw [later.awaits sdk _ placed.within]; exact placed.waits

/-- Replacing the body of an attempt leaves it in its place. -/
theorem Placed.body {sdk : Sdk} {a : Attempt} {run : Run} (placed : Placed sdk s a run)
    (body : Body) : Placed sdk s { a with body } run :=
  ⟨placed.known, placed.workflowID, placed.own, placed.within, placed.waits⟩

/-- **Every attempt is placed.** -/
theorem Reaches.placed (reached : Reaches w G s) :
    ∀ a ∈ s.attempts, ∃ run, Placed w.sdk s a run := by
  refine reached.induction (P := fun s => ∀ a ∈ s.attempts, ∃ run, Placed w.sdk s a run) ?_ ?_
  · intro policy target a member
    cases member
  intro s l s' _ placed _ move a member
  have old : a ∈ s.attempts → ∃ run, Placed w.sdk s' a run := by
    intro before
    obtain ⟨run, there⟩ := placed a before
    obtain ⟨run', known', later⟩ := move.run_kept there.known
    exact ⟨run', there.later known' later⟩
  cases move with
  | load => exact old member
  | append => exact old member
  | start => exact old member
  | reset => exact old member
  | cancel => exact old member
  | deliver => exact old member
  | launch runID run act opts known waits under =>
      rcases List.mem_append.mp member with before | added
      · exact old before
      · obtain rfl := List.mem_singleton.mp added
        exact ⟨run, known, rfl, run.within, Nat.le_refl _, opts, waits⟩
  | exec i b c backend body found ran =>
      rcases List.mem_or_eq_of_mem_set member with before | rfl
      · exact old before
      · obtain ⟨run, there⟩ := placed b (List.mem_of_getElem? found)
        exact ⟨run, there.body body |>.later there.known (.refl _)⟩

/-- No wait of a run has had more attempts than its options allow. -/
def Limited (sdk : Sdk) (s : System α) : Prop :=
  ∀ runID run k act opts, s.runs runID = some run → k ≤ run.history.length →
    run.awaits sdk runID k = .activity act opts → s.launched runID k ≤ opts.maximumAttempts

/-- A run that has no attempts at an index. -/
theorem launched_eq_zero {runID : GoString} {k : Nat}
    (none_there : ∀ a ∈ s.attempts, a.caller.runID = runID → a.index ≠ k) :
    s.launched runID k = 0 := by
  unfold System.launched
  rw [List.countP_eq_zero]
  intro a member here
  simp only [decide_eq_true_eq] at here
  exact none_there a member here.1 here.2

/-- A run that does not exist has no attempts. -/
theorem Reaches.no_attempts (reached : Reaches w G s) {runID : GoString}
    (fresh : s.runs runID = none) : ∀ a ∈ s.attempts, a.caller.runID ≠ runID := by
  rintro a member rfl
  obtain ⟨run, placed⟩ := reached.placed a member
  cases fresh.symm.trans placed.known

/-- **No wait has more attempts than its retry policy allows.** -/
theorem Reaches.limited (reached : Reaches w G s) : Limited w.sdk s := by
  refine reached.induction ?_ ?_
  · intro policy target runID run k act opts known
    cases known
  intro s l s' prior limited _ move runID run' k act opts known within waits
  -- only `launch` adds an attempt, and it asks for room first
  have bound : s.launched runID k ≤ opts.maximumAttempts := by
    cases move.runStep known with
    | kept run run' before later same =>
        rw [same] at within
        rw [later.awaits w.sdk runID within] at waits
        exact limited runID run k act opts before within waits
    | heard run source reply now here before said =>
        by_cases old : k ≤ run.history.length
        · rw [(Run.Extends.hear run _).awaits w.sdk runID old] at waits
          exact limited runID run k act opts before old waits
        · rw [launched_eq_zero]
          · exact Nat.zero_le _
          · intro a member own there
            obtain ⟨run₀, placed⟩ := prior.placed a member
            cases before.symm.trans (own ▸ placed.known)
            exact old (there ▸ placed.within)
    | started workflowID req now fresh =>
        rw [launched_eq_zero fun a member own => absurd own (prior.no_attempts fresh a member)]
        exact Nat.zero_le _
    | reset base run k' canceled here fresh found inside =>
        rw [launched_eq_zero fun a member own => absurd own (prior.no_attempts fresh a member)]
        exact Nat.zero_le _
  cases move with
  | load => exact bound
  | append => exact bound
  | start => exact bound
  | reset => exact bound
  | cancel => exact bound
  | deliver => exact bound
  | exec i a c backend body found ran =>
      have same : System.launched { s with backend, attempts := s.attempts.set i { a with body } }
          runID k = s.launched runID k := countP_set_eq found rfl
      rw [same]
      exact bound
  | launch id run act' opts' known' waits' under =>
      unfold System.launched at bound ⊢
      rw [List.countP_append, List.countP_singleton]
      by_cases here : id = runID ∧ run.history.length = k
      · obtain ⟨rfl, rfl⟩ := here
        cases known.symm.trans known'
        cases waits.symm.trans waits'
        simp only [and_self, decide_true, if_true]
        exact under
      · simp only [here, decide_false, Bool.false_eq_true, if_false]
        exact bound

/-! ## What answers establish -/

/-- **What an answer establishes stays true.**  `F past s x act r` may be used of
every finished attempt if each step keeps it and the action that gives the answer makes
it true. -/
theorem finished_facts {F : List (System α) → System α → Execution → Activity → Reply → Prop}
    (keep : ∀ past s l s' x act r, Visits w G past s → G s l → Move w s l s' →
      F past s x act r → F (past ++ [s]) s' x act r)
    (finish : ∀ past s i c a run b' r, Visits w G past s → G s (.exec i c) →
      s.attempts[i]? = some a → Placed w.sdk s a run →
      perform w a.caller a.activity a.body c s.backend = some (b', .finished r) →
      F (past ++ [s])
        { s with backend := b', attempts := s.attempts.set i { a with body := .finished r } }
        a.caller a.activity r)
    {past : List (System α)} (visits : Visits w G past s) :
    ∀ a ∈ s.attempts, ∀ r, a.body = .finished r → F past s a.caller a.activity r := by
  refine visits.induction
    (P := fun past s => ∀ a ∈ s.attempts, ∀ r, a.body = .finished r →
      F past s a.caller a.activity r) ?_ ?_
  · intro policy target a member
    cases member
  intro past s l s' prior facts admitted move a member r finished
  have old : a ∈ s.attempts → F (past ++ [s]) s' a.caller a.activity r := fun before =>
    keep past s l s' _ _ _ prior admitted move (facts a before r finished)
  cases move with
  | load => exact old member
  | append => exact old member
  | start => exact old member
  | reset => exact old member
  | cancel => exact old member
  | deliver => exact old member
  | launch runID run act opts known waits under =>
      rcases List.mem_append.mp member with before | added
      · exact old before
      · obtain rfl := List.mem_singleton.mp added
        cases finished
  | exec i b c backend body found ran =>
      rcases List.mem_or_eq_of_mem_set member with before | rfl
      · exact old before
      · obtain ⟨run, placed⟩ := prior.reaches.placed b (List.mem_of_getElem? found)
        simp only at finished
        subst finished
        exact finish past s i c b run backend r prior admitted found placed ran

/-- **What a run was told stays true of its thread.**  `F past s runID run k th` may
be used of the thread of every run after each of its first answers if it holds at the
start, is kept by every step and by a reset, and every answer establishes it anew. -/
theorem run_facts {F : List (System α) → System α → GoString → Run → Nat → Thread → Prop}
    (begins : ∀ past s runID workflowID req now,
      F past s runID (.started workflowID req now) 0 (Thread.initial now))
    (keep : ∀ past s l s' runID run k th, Visits w G past s → G s l → Move w s l s' →
      s.runs runID = some run → F past s runID run k th → F (past ++ [s]) s' runID run k th)
    (grow : ∀ past s runID run run' k th, run.Extends run' → F past s runID run k th →
      F past s runID run' k th)
    (hear : ∀ past s runID run source reply now, Visits w G past s →
      G s (.deliver runID source now) → s.runs runID = some run →
      answer w s runID run source = some reply →
      F past s runID run run.history.length (run.thread w.sdk) →
      F past s runID run (run.history.length + 1)
        (resume w.sdk run.req (run.thread w.sdk) { reply, now }))
    (inherit : ∀ past s runID base run k j canceled within, j ≤ k →
      F past s base run j (run.threadAt w.sdk j) →
      F past s runID (run.reset base k canceled within) j (run.threadAt w.sdk j))
    {past : List (System α)} (visits : Visits w G past s) :
    ∀ runID run k, s.runs runID = some run → k ≤ run.history.length →
      F past s runID run k (run.threadAt w.sdk k) := by
  refine visits.induction
    (P := fun past s => ∀ runID run k, s.runs runID = some run → k ≤ run.history.length →
      F past s runID run k (run.threadAt w.sdk k)) ?_ ?_
  · intro policy target runID run k known
    cases known
  intro past s l s' prior facts admitted move runID run' k known within
  cases move.runStep known with
  | kept run run' before later same =>
      rw [same] at within
      rw [later.threadAt w.sdk within]
      exact grow _ _ _ _ _ _ _ later
        (keep _ _ _ _ _ _ _ _ prior admitted move before (facts runID run k before within))
  | heard run source reply now here before said =>
      subst here
      by_cases old : k ≤ run.history.length
      · rw [(Run.Extends.hear run _).threadAt w.sdk old]
        exact grow _ _ _ _ _ _ _ (.hear run _)
          (keep _ _ _ _ _ _ _ _ prior admitted move before (facts runID run k before old))
      · have last : k = run.history.length + 1 := by
          simp only [Run.hear, List.length_append, List.length_singleton] at within
          omega
        subst last
        rw [Run.threadAt_hear]
        exact grow _ _ _ _ _ _ _ (.hear run _) (keep _ _ _ _ _ _ _ _ prior admitted move before
          (hear past s runID run source reply now prior admitted before said
            (facts runID run _ before (Nat.le_refl _))))
  | started workflowID req now fresh =>
      simp only [Run.started, List.length_nil, Nat.le_zero] at within
      subst within
      rw [Run.threadAt_zero]
      exact begins _ s' runID workflowID req now
  | reset base run k' canceled here fresh found inside =>
      subst here
      simp only [Run.reset, List.length_take, Nat.min_eq_left inside] at within
      rw [Run.threadAt_reset w.sdk run base canceled inside within]
      exact inherit _ s' runID base run k' k canceled inside within
        (keep _ _ _ _ _ _ _ _ prior admitted move found
          (facts base run k found (within.trans inside)))

/-- An attempt of the wait a run is in is an attempt of the activity it waits for. -/
theorem Reaches.attempt_activity (reached : Reaches w G s) {runID : GoString} {run : Run}
    (known : s.runs runID = some run) {a : Attempt} (member : a ∈ s.attempts)
    (own : a.caller.runID = runID) {k : Nat} (here : a.index = k) {act : Activity} {opts : Options}
    (waits : run.awaits w.sdk runID k = .activity act opts) :
    a.caller = ⟨run.workflowID, runID⟩ ∧ a.activity = act := by
  obtain ⟨run', placed⟩ := reached.placed a member
  cases known.symm.trans (own ▸ placed.known)
  obtain ⟨opts', asked⟩ := placed.waits
  rw [own, here, waits] at asked
  have caller : a.caller = ⟨run.workflowID, runID⟩ := by
    rw [← placed.workflowID, ← own]
  cases asked
  exact ⟨caller, rfl⟩

/-- A run that waits for an activity hears the answer of an attempt of it, or an error
that no body raised. -/
theorem Reaches.answered_activity (reached : Reaches w G s) {runID : GoString} {run : Run}
    (known : s.runs runID = some run) {reply : Reply} (answered : Answered w s runID run reply)
    {act : Activity} {opts : Options}
    (waits : run.awaits w.sdk runID run.history.length = .activity act opts) :
    (∃ a ∈ s.attempts, a.caller = ⟨run.workflowID, runID⟩ ∧ a.index = run.history.length ∧
      a.activity = act ∧ a.body = .finished reply) ∨
    (∃ e, reply = .failed e ∧ ∀ type message cause, e ≠ .application type message cause) := by
  cases answered with
  | attempt a r member own here finished =>
      obtain ⟨caller, activity⟩ := reached.attempt_activity known member own here waits
      exact Or.inl ⟨a, member, caller, here, activity, finished⟩
  | interrupted e allowed =>
      refine Or.inr ⟨e, rfl, ?_⟩
      rintro type message cause rfl
      unfold Run.awaits at waits
      rw [Run.thread, waits] at allowed
      cases allowed
  | token text waits' => cases waits.symm.trans waits'
  | timer d waits' => cases waits.symm.trans waits'

/-- An activity that returns only an error is answered with nil or with one. -/
theorem Reaches.plain_reply (reached : Reaches w G s) :
    ∀ a ∈ s.attempts, ∀ r, a.body = .finished r → a.activity.plain = true →
      r = .done ∨ ∃ e, r = .failed e := by
  obtain ⟨past, visits⟩ := reached.visits
  refine finished_facts (F := fun _ _ _ act r => act.plain = true → r = .done ∨ ∃ e, r = .failed e)
    ?_ ?_ visits
  · intro past s l s' x act r _ _ _ plain
    exact plain
  · intro past s i c a run b' r _ _ _ _ ran
    exact (perform_performed ran).plain r rfl

/-- A run that goes on without an error from an activity that returns only an error has
heard a finished attempt of it. -/
theorem Reaches.answered_done (reached : Reaches w G s) {runID : GoString} {run : Run}
    (known : s.runs runID = some run) {reply : Reply} (answered : Answered w s runID run reply)
    {act : Activity} {opts : Options}
    (waits : run.awaits w.sdk runID run.history.length = .activity act opts)
    (plain : act.plain = true) (fine : reply.error? = none) :
    ∃ a ∈ s.attempts, a.caller = ⟨run.workflowID, runID⟩ ∧ a.index = run.history.length ∧
      a.activity = act ∧ a.body = .finished .done := by
  rcases reached.answered_activity known answered waits with
    ⟨a, member, caller, index, rfl, finished⟩ | ⟨e, rfl, -⟩
  · rcases reached.plain_reply a member reply finished plain with rfl | ⟨e, rfl⟩
    · exact ⟨a, member, caller, index, rfl, finished⟩
    · cases fine
  · cases fine

/-! ## Answers and ends -/

theorem perform_finished (w : Worker α) (x : Execution) (act : Activity) (r : Reply)
    (c : Conditions) (b : Backend α) : perform w x act (.finished r) c b = none := by
  cases act <;> rfl

/-- A finished attempt stays as it is. -/
theorem Move.finished_kept (move : Move w s l s') {a : Attempt} {r : Reply}
    (member : a ∈ s.attempts) (finished : a.body = .finished r) : a ∈ s'.attempts := by
  cases move with
  | load => exact member
  | append => exact member
  | start => exact member
  | reset => exact member
  | cancel => exact member
  | deliver => exact member
  | launch => exact List.mem_append_left _ member
  | exec i b c backend body found ran =>
      obtain ⟨j, inside, rfl⟩ := List.mem_iff_getElem.mp member
      have other : i ≠ j := by
        rintro rfl
        rw [List.getElem?_eq_getElem inside] at found
        cases found
        rw [finished, perform_finished] at ran
        cases ran
      refine List.mem_of_getElem? (i := j) ?_
      rw [List.getElem?_set_ne other, List.getElem?_eq_getElem inside]

/-- No attempt is lost, whatever its body does. -/
theorem Move.attempt_kept (move : Move w s l s') {a : Attempt} (member : a ∈ s.attempts) :
    ∃ body, { a with body } ∈ s'.attempts := by
  cases move with
  | load => exact ⟨a.body, member⟩
  | append => exact ⟨a.body, member⟩
  | start => exact ⟨a.body, member⟩
  | reset => exact ⟨a.body, member⟩
  | cancel => exact ⟨a.body, member⟩
  | deliver => exact ⟨a.body, member⟩
  | launch => exact ⟨a.body, List.mem_append_left _ member⟩
  | exec i b c backend body found ran =>
      obtain ⟨j, here⟩ := List.mem_iff_getElem?.mp member
      by_cases same : i = j
      · subst same
        cases here.symm.trans found
        exact ⟨body, List.mem_set (List.getElem?_eq_some_iff.mp found).1 _⟩
      · refine ⟨a.body, List.mem_of_getElem? (i := j) ?_⟩
        rw [List.getElem?_set_ne same]
        exact here

/-- What a run that waited for an activity heard: the answer of an attempt of it, or an
error that no body raised. -/
def Heard (sdk : Sdk) (s : System α) (runID : GoString) (run : Run) (k : Nat) (reply : Reply) :
    Prop :=
  ∀ act opts, run.awaits sdk runID k = .activity act opts →
    (∃ a ∈ s.attempts, a.caller = ⟨run.workflowID, runID⟩ ∧ a.index = k ∧ a.activity = act ∧
      a.body = .finished reply) ∨
    (∃ e, reply = .failed e ∧ ∀ type message cause, e ≠ .application type message cause)

theorem Heard.later {runID : GoString} {run run' : Run} {k : Nat} {reply : Reply}
    (heard : Heard w.sdk s runID run k reply) (move : Move w s l s') (later : run.Extends run')
    (within : k ≤ run.history.length) : Heard w.sdk s' runID run' k reply := by
  intro act opts waits
  rw [later.awaits w.sdk runID within] at waits
  rcases heard act opts waits with ⟨a, member, caller, index, activity, finished⟩ | error
  · refine Or.inl ⟨a, move.finished_kept member finished, ?_, index, activity, finished⟩
    rw [caller, later.workflowID]
  · exact Or.inr error

/-- **What a run was told by itself stays true of the answer.**  `Q s runID run k reply`
may be used of every answer a run did not inherit if each step keeps it and the delivery
makes it true. -/
theorem told_facts {Q : System α → GoString → Run → Nat → Reply → Prop}
    (keep : ∀ s l s' runID run run' k reply, Reaches w G s → Move w s l s' →
      run.Extends run' → k ≤ run.history.length → Q s runID run k reply → Q s' runID run' k reply)
    (hear : ∀ s runID run source reply now, Reaches w G s → G s (.deliver runID source now) →
      s.runs runID = some run → answer w s runID run source = some reply →
      Q s runID run run.history.length reply)
    (reached : Reaches w G s) :
    ∀ runID run k e, s.runs runID = some run → run.inherited ≤ k → run.history[k]? = some e →
      Q s runID run k e.reply := by
  refine reached.induction (P := fun s => ∀ runID run k e, s.runs runID = some run →
    run.inherited ≤ k → run.history[k]? = some e → Q s runID run k e.reply) ?_ ?_
  · intro policy target runID run k e known
    cases known
  intro s l s' prior told admitted move runID run' k e known own here
  cases move.runStep known with
  | kept run run' before later same =>
      rw [same] at here
      obtain ⟨inside, -⟩ := List.getElem?_eq_some_iff.mp here
      exact keep _ _ _ _ _ _ _ _ prior move later inside.le
        (told runID run k e before (later.inherited ▸ own) here)
  | heard run source reply now label before said =>
      have later := Run.Extends.hear run { reply, now }
      by_cases old : k < run.history.length
      · simp only [Run.hear, List.getElem?_append_left old] at here
        exact keep _ _ _ _ _ _ _ _ prior move later old.le (told runID run k e before own here)
      · obtain ⟨inside, -⟩ := List.getElem?_eq_some_iff.mp here
        simp only [Run.hear, List.length_append, List.length_singleton] at inside
        obtain rfl : k = run.history.length := by omega
        simp only [Run.hear, List.getElem?_concat_length, Option.some.injEq] at here
        subst here
        subst label
        exact keep _ _ _ _ _ _ _ _ prior move later (Nat.le_refl _)
          (hear s runID run source reply now prior admitted before said)
  | started workflowID req now fresh => cases here
  | reset base run k' canceled label fresh found inside =>
      obtain ⟨shorter, -⟩ := List.getElem?_eq_some_iff.mp here
      simp only [Run.reset, List.length_take] at shorter own
      omega

/-- **Every answer a run did not inherit was given to it.** -/
theorem Reaches.heard (reached : Reaches w G s) :
    ∀ runID run k e, s.runs runID = some run → run.inherited ≤ k → run.history[k]? = some e →
      Heard w.sdk s runID run k e.reply := by
  refine told_facts (Q := Heard w.sdk) ?_ ?_ reached
  · intro s l s' runID run run' k reply _ move later within heard
    exact heard.later move later within
  · intro s runID run source reply now prior _ known said act opts waits
    exact prior.answered_activity known (answer_answered said) waits

/-- A closed run hears nothing more. -/
theorem Reaches.closed_silent (reached : Reaches w G s) {runID : GoString} {run : Run}
    (known : s.runs runID = some run) {result : WorkflowResult}
    (ended : (run.thread w.sdk).point = .closed result) (reply : Reply) :
    ¬ Answered w s runID run reply := by
  have idle : run.awaits w.sdk runID run.history.length = .nothing :=
    Run.awaits_eq _ ended
  intro answered
  cases answered with
  | attempt a r member own here finished =>
      obtain ⟨run', placed⟩ := reached.placed a member
      cases known.symm.trans (own ▸ placed.known)
      obtain ⟨opts, waits⟩ := placed.waits
      rw [own, here, idle] at waits
      cases waits
  | interrupted e allowed =>
      unfold Run.awaits at idle
      rw [Run.thread, idle] at allowed
      cases allowed
  | token text waits => cases idle.symm.trans waits
  | timer d waits => cases idle.symm.trans waits

theorem records_kept {t : System α} (steps : Steps (step w) anyStep s t) {rec : DecisionRecord}
    (member : rec ∈ s.backend.store.records) : rec ∈ t.backend.store.records :=
  steps.invariant (P := fun s => rec ∈ s.backend.store.records)
    (fun _ _ _ there _ taken => (step_move taken).records there) member

/-- A run keeps its input and its workflow ID. -/
theorem run_kept {t : System α} (steps : Steps (step w) anyStep s t) {runID : GoString} {run : Run}
    (known : s.runs runID = some run) : ∃ run', t.runs runID = some run' ∧ run.Extends run' := by
  refine steps.invariant (P := fun t => ∃ run', t.runs runID = some run' ∧ run.Extends run')
    ?_ ⟨run, known, .refl run⟩
  rintro u l v ⟨run', known', later⟩ _ taken
  obtain ⟨run'', known'', later'⟩ := (step_move taken).run_kept known'
  exact ⟨run'', known'', later.trans later'⟩

/-- **A closed run stays as it is.** -/
theorem Reachable.closed_steps {t : System α} (reached : Reachable w s)
    (steps : Steps (step w) anyStep s t) {runID : GoString} {run : Run}
    (known : s.runs runID = some run) {result : WorkflowResult}
    (ended : (run.thread w.sdk).point = .closed result) :
    Reachable w t ∧ ∃ run', t.runs runID = some run' ∧ run.Extends run' ∧
      run'.history = run.history := by
  refine steps.invariant (P := fun t => Reachable w t ∧ ∃ run', t.runs runID = some run' ∧
    run.Extends run' ∧ run'.history = run.history) ?_ ⟨reached, run, known, .refl _, rfl⟩
  rintro u l v ⟨prior, run', known', later, same⟩ admitted taken
  have move := step_move taken
  obtain ⟨policy, target, path⟩ := prior
  refine ⟨⟨policy, target, path.tail admitted taken⟩, ?_⟩
  have still : (run'.thread w.sdk).point = .closed result := by
    rw [Run.thread, same, later.threadAt w.sdk (Nat.le_refl _)]
    exact ended
  obtain ⟨run'', known'', more⟩ := move.run_kept known'
  refine ⟨run'', known'', later.trans more, ?_⟩
  cases move.runStep known'' with
  | kept run₀ _ before _ unchanged =>
      cases before.symm.trans known'
      rw [unchanged, same]
  | heard run₀ source reply now label before said =>
      cases before.symm.trans known'
      exact absurd (answer_answered said) (Reaches.closed_silent ⟨policy, target, path⟩ known' still reply)
  | started workflowID req now fresh => cases fresh.symm.trans known'
  | reset base run₀ k canceled label fresh found inside => cases fresh.symm.trans known'

/-! ## Who calls the adapter -/

/-- A dispatch leaves a `DispatchConfig` attempt that has returned an outcome. -/
theorem Reaches.dispatched_attempt (reached : Reaches w G s) :
    ∀ call ∈ s.backend.calls, call.method = .dispatch →
      ∃ a ∈ s.attempts, a.caller = call.caller ∧ ∃ req o, a.activity = .dispatchConfig req ∧
        a.body = .finished (.outcome o) := by
  refine reached.induction (P := fun s => ∀ call ∈ s.backend.calls, call.method = .dispatch →
    ∃ a ∈ s.attempts, a.caller = call.caller ∧ ∃ req o, a.activity = .dispatchConfig req ∧
      a.body = .finished (.outcome o)) ?_ ?_
  · intro policy target call member
    cases member
  intro s l s' _ attempts _ move call member dispatch
  have old : call ∈ s.backend.calls → ∃ a ∈ s'.attempts, a.caller = call.caller ∧
      ∃ req o, a.activity = .dispatchConfig req ∧ a.body = .finished (.outcome o) := by
    intro before
    obtain ⟨a, there, caller, req, o, act, finished⟩ := attempts call before dispatch
    exact ⟨a, move.finished_kept there finished, caller, req, o, act, finished⟩
  rcases move.quiet_or_exec with quiet | ⟨i, a, c, b', body', -, found, performed, rfl⟩
  · exact old (quiet.calls ▸ member)
  have inside := (List.getElem?_eq_some_iff.mp found).1
  obtain ⟨caller, index, activity, body⟩ := a
  obtain ⟨change, -, -⟩ := performed
  simp only at change
  cases change with
  | same => exact old member
  | acquired => exact old member
  | recorded => exact old member
  | audited => exact old member
  | advanced => exact old member
  | fenced => exact old member
  | dispatched req adapter ctx configured =>
      rcases List.mem_append.mp member with before | last
      · exact old before
      · obtain rfl := List.mem_singleton.mp last
        exact ⟨_, List.mem_set inside _, rfl, req, _, rfl, rfl⟩
  | reconciled req adapter ctx configured =>
      rcases List.mem_append.mp member with before | last
      · exact old before
      · obtain rfl := List.mem_singleton.mp last
        cases dispatch
  | compensated req adapter ctx r configured =>
      rcases List.mem_append.mp member with before | last
      · exact old before
      · obtain rfl := List.mem_singleton.mp last
        cases dispatch

/-- Where a wait has at most one attempt, two attempts of it are one. -/
theorem Reaches.single_attempt (reached : Reaches w G s) {a b : Attempt} {run : Run}
    (first : a ∈ s.attempts) (second : b ∈ s.attempts) (placed : Placed w.sdk s a run)
    {opts : Options} (waits : run.awaits w.sdk a.caller.runID a.index = .activity a.activity opts)
    (single : opts.maximumAttempts = 1) (caller : b.caller.runID = a.caller.runID)
    (index : b.index = a.index) : b = a := by
  have limit := reached.limited _ run a.index _ opts placed.known placed.within waits
  rw [single] at limit
  obtain ⟨i, here⟩ := List.mem_iff_getElem?.mp first
  obtain ⟨j, there⟩ := List.mem_iff_getElem?.mp second
  obtain rfl := eq_of_countP_le_one limit here (by simp) there (by simp [caller, index])
  exact Option.some.inj (there.symm.trans here)

/-- The wait of a run whose dispatch reached the adapter. -/
theorem Reaches.dispatched_wait (reached : Reaches w G s) {call : AdapterCall}
    (made : call ∈ s.backend.calls) (dispatch : call.method = .dispatch) {run : Run}
    (known : s.runs call.caller.runID = some run) :
    6 ≤ run.history.length ∧ (run.threadAt w.sdk 6).point = .dispatchConfig ∧
      ∃ a ∈ s.attempts, ∃ o, Placed w.sdk s a run ∧ a.caller = call.caller ∧ a.index = 6 ∧
        run.awaits w.sdk a.caller.runID a.index = .activity a.activity activityOpts ∧
        a.body = .finished (.outcome o) := by
  obtain ⟨a, member, caller, req, o, act, finished⟩ := reached.dispatched_attempt call made dispatch
  obtain ⟨run', placed⟩ := reached.placed a member
  rw [← caller] at known
  cases placed.known.symm.trans known
  obtain ⟨opts, waits⟩ := placed.waits
  have asks := await_asks waits
  rw [act] at asks
  obtain ⟨here, -, rfl⟩ := asks
  obtain index : a.index = 6 := Run.threadAt_place placed.within (by rw [here]; rfl)
  exact ⟨index ▸ placed.within, index ▸ here, a, member, o, placed, caller, index, waits, finished⟩

/-- An error that no body raised is none of the fence. -/
theorem fenceFailure_foreign {e : ActivityError}
    (foreign : ∀ type message cause, e ≠ .application type message cause) :
    fenceFailure e = none := by
  unfold fenceFailure
  split
  · exact absurd rfl (foreign _ _ _)
  · exact absurd rfl (foreign _ _ _)
  · rfl

/-- A run that called the adapter hears no fence error: its one attempt returned an
outcome, and an error that no body raised is none. -/
theorem Reaches.dispatched_unfenced (reached : Reaches w G s) {call : AdapterCall}
    (made : call ∈ s.backend.calls) (dispatch : call.method = .dispatch) {run : Run}
    (known : s.runs call.caller.runID = some run) {e : Event} (event : run.history[6]? = some e)
    {err : ActivityError} (failed : e.reply = .failed err) : fenceFailure err = none := by
  obtain ⟨-, -, a, member, o, placed, caller, index, waits, finished⟩ :=
    reached.dispatched_wait made dispatch known
  rw [← caller] at known
  have heard := reached.heard _ run 6 _ known (index ▸ placed.own) event a.activity activityOpts
    (index ▸ waits)
  rcases heard with ⟨b, there, same, position, -, returned⟩ | ⟨e, said, foreign⟩
  · have one := reached.single_attempt member there placed waits rfl (by rw [same])
      (position.trans index.symm)
    rw [one, finished, failed] at returned
    cases returned
  · rw [failed] at said
    cases said
    exact fenceFailure_foreign foreign

/-- **A run that called the adapter has to settle an outcome**, once it knows. -/
theorem Reaches.dispatched_settles (reached : Reaches w G s) {call : AdapterCall}
    (made : call ∈ s.backend.calls) (dispatch : call.method = .dispatch) {run : Run}
    (known : s.runs call.caller.runID = some run) :
    (run.thread w.sdk).point = .dispatchConfig ∨ (run.thread w.sdk).point.Settles := by
  obtain ⟨reached6, here, -⟩ := reached.dispatched_wait made dispatch known
  rcases reached6.eq_or_lt with last | inside
  · refine Or.inl ?_
    rw [Run.thread, ← last]
    exact here
  refine Or.inr ?_
  have event := List.getElem?_eq_getElem inside
  refine Run.threadAt_stays (P := fun th => th.point.Settles) (j := 7)
    (fun _ _ settles => settles.resume) ?_ inside (Nat.le_refl _)
  rw [Run.threadAt_succ w.sdk run event]
  refine dispatch_settles here ?_
  intro err failed
  exact reached.dispatched_unfenced made dispatch known event failed

end SentryGate.Workflows
