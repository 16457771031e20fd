/-
# Workflows.Undisturbed -- a run that nothing disturbs does what its target prescribes

Most of this development says what a run never does.  This module says what one does: from
the state in which it was started, with its ingress decision on record and a policy that
allows it, it ends as `Course.ending` tells, with that claim, that many changes of the target
and that audit trail; and it can be led there from wherever it is.

`Ready` and `Undisturbed` are what that takes of the environment.  The run is alone on its
decision: there is no other run for it, and none is started or reset.  Its activities meet no
database fault and no cancelled context and are attempted once, none of its waits is
interrupted, and its clock never shows Go's zero time; policies that are loaded meanwhile still
allow it.  Runs for other decisions may do, fail and lose whatever they like, at any time in
between.

The proof is a refinement.  Seen by the run, the system is the sequential program of
`Workflows.Course`: `Stage` says how far the activity it waits for has come, and every step
of the system either leaves the run's view alone or is a step of that program.

* `Undergoing.stays` -- an admitted step keeps the run on its way.
* `Undergoing.advances` -- a run that has not ended has an admitted step that brings it nearer.
* `undisturbed_run` -- both, from the start of a run on.
-/
import SentryGate.Theory.Counting
import SentryGate.Workflows.Agreement
import SentryGate.Workflows.Views

namespace SentryGate.Workflows

open Theory.Text Theory.Bytes Theory.Machine Theory.Counting Contracts Policy Decision Audit

set_option autoImplicit false

/-! ## The environment -/

def Source.isInterruption : Source → Bool
  | .interrupted _ => true
  | _ => false

/-- The steps that do not disturb the run `runID`. -/
def Undisturbed (sdk : Sdk) (size : Nat) (runID : GoString) (s : System SimulatedAdapter)
    (l : Label) : Bool :=
  Named size s l && match l with
  | .load policy =>
      (s.runs runID).all fun run => (revalidate sdk.toRuntime policy run.req).verdict = .allow
  | .start _ _ req _ =>
      (s.runs runID).all fun run => req.ingressDecisionID ≠ run.req.ingressDecisionID
  | .reset _ base _ _ =>
      (s.runs runID).all fun run => (s.runs base).all fun other =>
        other.req.ingressDecisionID ≠ run.req.ingressDecisionID
  | .launch id =>
      id ≠ runID || (s.runs runID).all fun run => s.launched runID run.history.length = 0
  | .exec i c =>
      (s.attempts[i]?).all fun a =>
        a.caller.runID ≠ runID || (c.fault = .absent && c.ctx = none)
  | .deliver id source now => id ≠ runID || (!now.isZero && !source.isInterruption)
  | _ => true

/-- A run that was just started, and what it finds. -/
structure Ready (sdk : Sdk) (s : System SimulatedAdapter) (runID : GoString) (run : Run) : Prop where
  known : s.runs runID = some run
  begun : run.history = []
  idle : ∀ a ∈ s.attempts, a.caller.runID ≠ runID
  named : runID ≠ []
  proposed : run.req.proposal.id ≠ []
  clock : run.startedAt.isZero = false
  /-- It is the only run for its decision. -/
  alone : ∀ id other, s.runs id = some other →
    other.req.ingressDecisionID = run.req.ingressDecisionID → id = runID
  /-- Its ingress decision is on record. -/
  recorded : ∃ rec ∈ s.backend.store.records,
    verifyIngress sdk.toRuntime rec run.req run.workflowID = none
  allowed : (revalidate sdk.toRuntime s.backend.policy run.req).verdict = .allow
  /-- Its target has not seen its key. -/
  unseen : s.backend.target.effects (executionKey run.req.ingressDecisionID) = none

/-! ## The attempts of a run -/

section Attempts

variable {α : Type} {s : System α} {runID : GoString} {k : Nat}

def System.attemptsOf (s : System α) (runID : GoString) : List Attempt :=
  s.attempts.filter (·.caller.runID = runID)

/-- Where the attempts of one wait stand. -/
def System.bodies (s : System α) (runID : GoString) (k : Nat) : List Body :=
  ((s.attemptsOf runID).filter (·.index = k)).map Attempt.body

theorem System.bodies_eq : s.bodies runID k =
    (s.attempts.filter fun a : Attempt =>
      decide (a.caller.runID = runID ∧ a.index = k)).map Attempt.body := by
  unfold System.bodies System.attemptsOf
  rw [List.filter_filter]
  congr 2
  funext a
  simp [and_comm]

theorem System.launched_eq : s.launched runID k = (s.bodies runID k).length := by
  rw [System.bodies_eq, List.length_map]
  exact List.countP_eq_length_filter

theorem System.mem_attemptsOf {a : Attempt} :
    a ∈ s.attemptsOf runID ↔ a ∈ s.attempts ∧ a.caller.runID = runID := by
  simp [System.attemptsOf]

theorem System.mem_bodies {a : Attempt} (member : a ∈ s.attempts) (own : a.caller.runID = runID)
    (index : a.index = k) : a.body ∈ s.bodies runID k :=
  List.mem_map.mpr ⟨a, List.mem_filter.mpr
    ⟨System.mem_attemptsOf.mpr ⟨member, own⟩, by simpa using index⟩, rfl⟩

theorem System.exists_of_bodies {body : Body} (there : body ∈ s.bodies runID k) :
    ∃ (i : Nat) (a : Attempt), s.attempts[i]? = some a ∧ a.caller.runID = runID ∧ a.index = k ∧
      a.body = body := by
  obtain ⟨a, member, same⟩ := List.mem_map.mp there
  obtain ⟨own, index⟩ := List.mem_filter.mp member
  obtain ⟨inside, run⟩ := System.mem_attemptsOf.mp own
  obtain ⟨i, found⟩ := List.mem_iff_getElem?.mp inside
  exact ⟨i, a, found, run, by simpa using index, same⟩

end Attempts

/-! ## How far the run is -/

/-- How far the activity of a wait has come: not started, started, behind the fence, or
answered.  The view is that of the wait until the activity has acted. -/
inductive Stage (sdk : Sdk) (x : Execution) (req : ExecutionRequest) (n : Nat) (th : Thread)
    (v : View) : Option Body → Prop where
  | waiting (on : OnCourse (courseOf req.proposal.targetID) x (executionKey req.ingressDecisionID)
      n th v) : Stage sdk x req n th v none
  | begun (on : OnCourse (courseOf req.proposal.targetID) x (executionKey req.ingressDecisionID)
      n th v) : Stage sdk x req n th v (some .start)
  | calling (before : View)
      (on : OnCourse (courseOf req.proposal.targetID) x (executionKey req.ingressDecisionID)
        n th before)
      (here : th.point = .dispatchConfig)
      (fenced : v = { before with claim := some ⟨claimOwner x th.token, .executing⟩ }) :
      Stage sdk x req n th v (some .callAdapter)
  | answered (before : View) (r : Reply)
      (on : OnCourse (courseOf req.proposal.targetID) x (executionKey req.ingressDecisionID)
        n th before)
      (hears : (courseOf req.proposal.targetID).Hears sdk x req th before r v) :
      Stage sdk x req n th v (some (.finished r))

/-- A run on its way, with the activity it waits for. -/
structure Undergoing (sdk : Sdk) (size n : Nat) (s : System SimulatedAdapter) (runID : GoString)
    (run : Run) (body : Option Body) : Prop where
  reached : Reaches (worker sdk) (admits (Named size)) s
  known : s.runs runID = some run
  named : runID ≠ []
  proposed : run.req.proposal.id ≠ []
  clocked : run.Clocked
  alone : ∀ id other, s.runs id = some other →
    other.req.ingressDecisionID = run.req.ingressDecisionID → id = runID
  recorded : ∃ rec ∈ s.backend.store.records,
    verifyIngress sdk.toRuntime rec run.req run.workflowID = none
  allowed : (revalidate sdk.toRuntime s.backend.policy run.req).verdict = .allow
  behind : ∀ a ∈ s.attemptsOf runID, a.index < run.history.length → a.body.isFinished = true
  bodies : s.bodies runID run.history.length = body.toList
  stage : Stage sdk ⟨run.workflowID, runID⟩ run.req n (run.thread sdk)
    (s.backend.view runID run.req.ingressDecisionID) body

/-! ## Rows come from attempts that have returned -/

section Rows

variable {α : Type} {w : Worker α} {G : System α → Label → Prop} {s : System α}

theorem recordAuditTrail_returns {x : Execution} {rec : AuditRecord} {body body' : Body}
    {c : Conditions} {b b' : Backend α}
    (ran : perform w x (.recordAuditTrail rec) body c b = some (b', body')) :
    body'.isFinished = true := by
  cases body with
  | start =>
      simp only [perform, recordAuditTrail, Option.some.injEq] at ran
      split at ran
      · cases ran
        rfl
      · have after := congrArg Prod.snd ran
        simp only at after
        split at after <;> rw [← after] <;> rfl
  | _ => cases ran

/-- **A row that is in the table was written by an attempt that has returned.** -/
theorem Reaches.row_returned (reached : Reaches w G s) :
    ∀ row ∈ s.backend.audits, ∃ a ∈ s.attempts, ∃ rec now, a.activity = .recordAuditTrail rec ∧
      a.body.isFinished = true ∧ row = stamped rec now := by
  refine reached.induction (P := fun s => ∀ row ∈ s.backend.audits, ∃ a ∈ s.attempts, ∃ rec now,
    a.activity = .recordAuditTrail rec ∧ a.body.isFinished = true ∧ row = stamped rec now) ?_ ?_
  · intro policy target row member
    cases member
  intro s l s' _ written _ move row member
  have kept : row ∈ s.backend.audits → ∃ a ∈ s'.attempts, ∃ rec now,
      a.activity = .recordAuditTrail rec ∧ a.body.isFinished = true ∧ row = stamped rec now := by
    intro before
    obtain ⟨a, there, rec, now, act, finished, same⟩ := written row before
    cases body : a.body with
    | finished r => exact ⟨a, move.finished_kept there body, rec, now, act, finished, same⟩
    | _ => rw [body] at finished; cases finished
  rcases move.quiet_or_ran with quiet | ⟨i, a, c, b', body', -, found, ran, rfl⟩
  · exact kept (quiet.audits ▸ member)
  rcases (perform_performed ran).change.rows with same | ⟨rec, now, act, added⟩
  · exact kept (same ▸ member)
  have grown : row ∈ (appendAudit s.backend.audits rec now).1 := added ▸ member
  rcases mem_of_mem_appendAudit grown with before | rfl
  · exact kept before
  · rw [act] at ran
    have inside := (List.getElem?_eq_some_iff.mp found).1
    exact ⟨_, List.mem_of_getElem? (List.getElem?_set_self inside), rec, now, act,
      recordAuditTrail_returns ran, rfl⟩

end Rows

/-! ## Steps that are not the run's own -/

section Guard

variable {sdk : Sdk} {size : Nat} {s : System SimulatedAdapter} {runID : GoString} {run : Run}

theorem Undisturbed.names {l : Label} (quiet : admits (Undisturbed sdk size runID) s l) :
    admits (Named size) s l := by
  simp only [admits, Undisturbed, Bool.and_eq_true] at quiet
  exact quiet.1

theorem Undisturbed.loads {policy : Option Snapshot}
    (quiet : admits (Undisturbed sdk size runID) s (.load policy)) (known : s.runs runID = some run) :
    (revalidate sdk.toRuntime policy run.req).verdict = .allow := by
  simpa [admits, Undisturbed, Named, known] using quiet

theorem Undisturbed.starts {id workflowID : GoString} {req : ExecutionRequest} {now : Time}
    (quiet : admits (Undisturbed sdk size runID) s (.start id workflowID req now))
    (known : s.runs runID = some run) : req.ingressDecisionID ≠ run.req.ingressDecisionID := by
  simp only [admits, Undisturbed, known, Bool.and_eq_true, Option.all_some] at quiet
  simpa using quiet.2

theorem Undisturbed.resets {id base : GoString} {k : Nat} {canceled : Bool} {other : Run}
    (quiet : admits (Undisturbed sdk size runID) s (.reset id base k canceled))
    (known : s.runs runID = some run) (from_ : s.runs base = some other) :
    other.req.ingressDecisionID ≠ run.req.ingressDecisionID := by
  simp only [admits, Undisturbed, known, from_, Bool.and_eq_true, Option.all_some] at quiet
  simpa using quiet.2

theorem Undisturbed.launches (quiet : admits (Undisturbed sdk size runID) s (.launch runID))
    (known : s.runs runID = some run) : s.launched runID run.history.length = 0 := by
  simpa [admits, Undisturbed, Named, known] using quiet

theorem Undisturbed.acts {i : Nat} {c : Conditions} {a : Attempt}
    (quiet : admits (Undisturbed sdk size a.caller.runID) s (.exec i c))
    (found : s.attempts[i]? = some a) : c.fault = .absent ∧ c.ctx = none := by
  simpa [admits, Undisturbed, Named, found] using quiet

theorem Undisturbed.delivers {source : Source} {now : Time}
    (quiet : admits (Undisturbed sdk size runID) s (.deliver runID source now)) :
    now.isZero = false ∧ source.isInterruption = false := by
  simpa [admits, Undisturbed, Named] using quiet

end Guard

section Steps

variable {sdk : Sdk} {size n : Nat} {s s' : System SimulatedAdapter} {runID : GoString} {run : Run}
  {body : Option Body}

/-- A step that changes nothing the run sees keeps it where it is. -/
theorem Undergoing.kept (under : Undergoing sdk size n s runID run body) {run' : Run}
    (reached : Reaches (worker sdk) (admits (Named size)) s')
    (known : s'.runs runID = some run') (later : run.Extends run')
    (same : run'.history = run.history)
    (alone : ∀ id other, s'.runs id = some other →
      other.req.ingressDecisionID = run.req.ingressDecisionID → id = runID)
    (records : ∀ rec ∈ s.backend.store.records, rec ∈ s'.backend.store.records)
    (allowed : (revalidate sdk.toRuntime s'.backend.policy run.req).verdict = .allow)
    (attempts : s'.attemptsOf runID = s.attemptsOf runID)
    (view : s'.backend.view runID run.req.ingressDecisionID =
      s.backend.view runID run.req.ingressDecisionID) :
    Undergoing sdk size n s' runID run' body := by
  have thread : run'.thread sdk = run.thread sdk := by
    unfold Run.thread
    rw [same]
    exact later.threadAt sdk (Nat.le_refl _)
  obtain ⟨rec, member, passes⟩ := under.recorded
  constructor
  · exact reached
  · exact known
  · exact under.named
  · rw [later.req]
    exact under.proposed
  · exact ⟨by rw [later.startedAt]; exact under.clocked.began, by
      rw [same]; exact under.clocked.clock⟩
  · rw [later.req]
    exact alone
  · rw [later.req, later.workflowID]
    exact ⟨rec, records rec member, passes⟩
  · rw [later.req]
    exact allowed
  · rw [attempts, same]
    exact under.behind
  · unfold System.bodies
    rw [attempts, same]
    exact under.bodies
  · rw [thread, later.req, later.workflowID, view]
    exact under.stage

/-- An attempt of another run is not the run's own, whatever its body. -/
theorem System.attemptsOf_set {i : Nat} {a : Attempt} {b' : Backend SimulatedAdapter} {body' : Body}
    (found : s.attempts[i]? = some a) (foreign : a.caller.runID ≠ runID) :
    System.attemptsOf { s with
      backend := b', attempts := s.attempts.set i { a with body := body' } } runID =
      s.attemptsOf runID :=
  filter_set_other found (by simpa using foreign) (by simpa using foreign)

theorem System.attemptsOf_append {a : Attempt} (foreign : a.caller.runID ≠ runID) :
    System.attemptsOf { s with attempts := s.attempts ++ [a] } runID = s.attemptsOf runID := by
  simp [System.attemptsOf, foreign]

/-- **What another run's activity does is not seen.** -/
theorem Undergoing.foreign (under : Undergoing sdk size n s runID run body) {i : Nat} {a : Attempt}
    {c : Conditions} {b' : Backend SimulatedAdapter} {body' : Body}
    (found : s.attempts[i]? = some a) (foreign : a.caller.runID ≠ runID)
    (ran : perform (worker sdk) a.caller a.activity a.body c s.backend = some (b', body')) :
    b'.view runID run.req.ingressDecisionID = s.backend.view runID run.req.ingressDecisionID := by
  obtain ⟨other, placed⟩ := under.reached.placed a (List.mem_of_getElem? found)
  obtain ⟨opts, waits⟩ := placed.waits
  have caller : (⟨other.workflowID, a.caller.runID⟩ : Execution) = a.caller := by
    rw [← placed.workflowID]
  unfold Run.awaits at waits
  rw [caller] at waits
  refine (perform_performed ran).view_foreign rfl (await_asks waits) foreign ?_
  intro same
  exact foreign (under.alone _ _ placed.known same.symm)

/-! ## The run's own steps -/

/-- What surrounds a run that is on its way. -/
theorem Undergoing.favourable (under : Undergoing sdk size n s runID run body)
    (hashes : ∀ p, sdk.sha256 (hashInput p) ≠ []) :
    Favourable sdk ⟨run.workflowID, runID⟩ run.req (run.thread sdk) s.backend where
  recorded := under.recorded
  allowed := under.allowed
  runID := under.named
  proposed := under.proposed
  hashed := hex_ne_nil (hashes _)
  clock := under.clocked.now sdk (Nat.le_refl _)

/-- An attempt of the run belongs to one of its waits. -/
theorem Undergoing.placed (under : Undergoing sdk size n s runID run body) {a : Attempt}
    (member : a ∈ s.attempts) (own : a.caller.runID = runID) : Placed sdk s a run := by
  obtain ⟨run', placed⟩ := under.reached.placed a member
  cases under.known.symm.trans (own ▸ placed.known)
  exact placed

/-- An attempt of the run that can act is that of the wait it is in. -/
theorem Undergoing.own (under : Undergoing sdk size n s runID run body) {a : Attempt}
    (member : a ∈ s.attempts) (own : a.caller.runID = runID)
    (unfinished : a.body.isFinished = false) :
    a.index = run.history.length ∧ body = some a.body ∧ a.caller = ⟨run.workflowID, runID⟩ ∧
      ∃ opts, await sdk ⟨run.workflowID, runID⟩ run.req (run.thread sdk) =
        .activity a.activity opts := by
  have placed := under.placed member own
  have index : a.index = run.history.length := by
    rcases placed.within.lt_or_eq with before | here
    · rw [under.behind a (System.mem_attemptsOf.mpr ⟨member, own⟩) before] at unfinished
      cases unfinished
    · exact here
  obtain ⟨opts, waits⟩ := placed.waits
  rw [index, own] at waits
  have there := System.mem_bodies member own index
  rw [under.bodies] at there
  refine ⟨index, Option.mem_toList.mp there, ?_, opts, waits⟩
  rw [← placed.workflowID, ← own]

/-- **Launch**: the wait has its one attempt. -/
theorem Undergoing.launches (under : Undergoing sdk size n s runID run none) {act : Activity}
    (reached : Reaches (worker sdk) (admits (Named size)) { s with attempts := s.attempts ++
      [⟨⟨run.workflowID, runID⟩, run.history.length, act, .start⟩] }) :
    Undergoing sdk size n { s with attempts := s.attempts ++
      [⟨⟨run.workflowID, runID⟩, run.history.length, act, .start⟩] } runID run (some .start) where
  reached := reached
  known := under.known
  named := under.named
  proposed := under.proposed
  clocked := under.clocked
  alone := under.alone
  recorded := under.recorded
  allowed := under.allowed
  behind a member before := by
    obtain ⟨inside, own⟩ := System.mem_attemptsOf.mp member
    rcases List.mem_append.mp inside with old | last
    · exact under.behind a (System.mem_attemptsOf.mpr ⟨old, own⟩) before
    · obtain rfl := List.mem_singleton.mp last
      exact absurd before (Nat.lt_irrefl _)
  bodies := by
    have none_there := under.bodies
    simp only [System.bodies, System.attemptsOf, List.filter_append, List.map_append] at none_there ⊢
    rw [none_there]
    simp
  stage := by
    cases under.stage with
    | waiting on => exact .begun on

theorem Change.policy {α : Type} {w : Worker α} {x : Execution} {b b' : Backend α} {act : Activity}
    {body body' : Body} (change : Change w x b act body b' body') : b'.policy = b.policy := by
  cases change <;> rfl

/-- An attempt that has not begun has written no row. -/
theorem Undergoing.unwritten (under : Undergoing sdk size n s runID run body) {a : Attempt}
    (member : a ∈ s.attempts) (own : a.caller.runID = runID)
    (unfinished : a.body.isFinished = false) {rec : AuditRecord}
    (act : a.activity = .recordAuditTrail rec) :
    ∀ row ∈ s.backend.audits, row.recordID ≠ rec.recordID := by
  intro row written same
  obtain ⟨index, here, caller, -⟩ := under.own member own unfinished
  obtain ⟨a', member', rec', now, act', finished, rfl⟩ := under.reached.row_returned row written
  rw [stamped_recordID] at same
  obtain ⟨other, placed'⟩ := under.reached.placed a' member'
  obtain ⟨callers, indices, -⟩ := under.reached.row_once Named.apart (placed'.awaited act')
    ((under.placed member own).awaited act) same
  -- the attempt of the row is one of this wait, and this wait has one
  have there := System.mem_bodies member' ((congrArg Execution.runID callers).trans own)
    (indices.trans index)
  rw [under.bodies, here] at there
  rw [List.mem_singleton.mp there, unfinished] at finished
  cases finished

/-- How much of a wait is left. -/
def Stage.left : Option Body → Nat
  | none => 3
  | some .start => 2
  | some .callAdapter => 1
  | some _ => 0

/-- The activity of a wait goes on. -/
theorem Stage.next {x : Execution} {req : ExecutionRequest} {th : Thread}
    {b b' : Backend SimulatedAdapter} {act : Activity} {opts : Options} {c : Conditions}
    {before after : Body}
    (stage : Stage sdk x req n th (b.view x.runID req.ingressDecisionID) (some before))
    (favourable : Favourable sdk x req th b) (waits : await sdk x req th = .activity act opts)
    (alone : ∀ rec, act = .recordDecision rec →
      ∀ rec' ∈ b.store.records, rec'.decisionID = rec.decisionID → rec' = rec)
    (fresh : ∀ rec, act = .recordAuditTrail rec → ∀ row ∈ b.audits, row.recordID ≠ rec.recordID)
    (calm : c.fault = .absent) (alive : c.ctx = none)
    (ran : perform (worker sdk) x act before c b = some (b', after)) :
    Stage sdk x req n th (b'.view x.runID req.ingressDecisionID) (some after) ∧
      Stage.left (some after) < Stage.left (some before) := by
  cases stage with
  | begun on =>
      rcases on.acts favourable waits alone fresh calm alive ran with
        ⟨r, rfl, hears⟩ | ⟨here, rfl, view⟩
      · exact ⟨.answered _ r on hears, Nat.zero_lt_two⟩
      · exact ⟨.calling _ on here view, Nat.one_lt_two⟩
  | calling seen on here fenced =>
      obtain ⟨r, rfl, hears⟩ := on.calls here fenced waits alive ran
      exact ⟨.answered seen r on hears, Nat.one_pos⟩
  | answered seen r on hears =>
      rw [perform_finished] at ran
      cases ran

/-- **An action** of the run's own attempt. -/
theorem Undergoing.performs (under : Undergoing sdk size n s runID run body)
    (hashes : ∀ p, sdk.sha256 (hashInput p) ≠ []) {i : Nat} {a : Attempt} {c : Conditions}
    {b' : Backend SimulatedAdapter} {body' : Body} (found : s.attempts[i]? = some a)
    (own : a.caller.runID = runID) (calm : c.fault = .absent) (alive : c.ctx = none)
    (ran : perform (worker sdk) a.caller a.activity a.body c s.backend = some (b', body'))
    (reached : Reaches (worker sdk) (admits (Named size)) { s with
      backend := b', attempts := s.attempts.set i { a with body := body' } }) :
    Undergoing sdk size n { s with
      backend := b', attempts := s.attempts.set i { a with body := body' } } runID run
      (some body') ∧ Stage.left (some body') < Stage.left body := by
  have member := List.mem_of_getElem? found
  have unfinished := perform_unfinished ran
  obtain ⟨index, here, caller, opts, waits⟩ := under.own member own unfinished
  subst here
  have fresh : ∀ rec, a.activity = .recordAuditTrail rec →
      ∀ row ∈ s.backend.audits, row.recordID ≠ rec.recordID :=
    fun rec act => under.unwritten member own unfinished act
  have alone : ∀ rec, a.activity = .recordDecision rec →
      ∀ rec' ∈ s.backend.store.records, rec'.decisionID = rec.decisionID → rec' = rec := by
    intro rec act
    exact under.reached.record_alone Named.apart ((under.placed member own).awaited act)
  have performed := perform_performed ran
  obtain ⟨rec, stored, passes⟩ := under.recorded
  rw [caller] at ran
  obtain ⟨stage, less⟩ := under.stage.next (under.favourable hashes) waits alone fresh calm alive ran
  refine ⟨?_, less⟩
  constructor
  · exact reached
  · exact under.known
  · exact under.named
  · exact under.proposed
  · exact under.clocked
  · exact under.alone
  · exact ⟨rec, performed.change.records stored, passes⟩
  · rw [performed.change.policy]
    exact under.allowed
  · intro a' member' before
    obtain ⟨inside, own'⟩ := System.mem_attemptsOf.mp member'
    rcases List.mem_or_eq_of_mem_set inside with old | rfl
    · exact under.behind a' (System.mem_attemptsOf.mpr ⟨old, own'⟩) before
    · exact absurd index (Nat.ne_of_lt before)
  · have single := congrArg List.length under.bodies
    rw [System.bodies_eq, List.length_map] at single
    rw [System.bodies_eq, filter_set_single found (by simp [own, index]) (by simp [own, index]) single]
    rfl
  · exact stage

/-- Where a run waits for its token, or for a timer. -/
theorem await_sideEffect {x : Execution} {req : ExecutionRequest} {th : Thread}
    (waits : await sdk x req th = .sideEffect) : th.point = .executionToken := by
  rcases th with ⟨point, token, seq, holds, dispatching, auditErr, now⟩
  cases point with
  | executionToken => rfl
  | auditCompensation err failure => cases err <;> cases waits
  | _ => cases waits

theorem await_sleep {x : Execution} {req : ExecutionRequest} {th : Thread} {d : Duration}
    (waits : await sdk x req th = .sleep d) :
    ∃ start wait last, th.point = .reconcileSleep start wait last := by
  rcases th with ⟨point, token, seq, holds, dispatching, auditErr, now⟩
  cases point with
  | reconcileSleep start wait last => exact ⟨start, wait, last, rfl⟩
  | auditCompensation err failure => cases err <;> cases waits
  | _ => cases waits

/-- A wait that is for no activity has no attempts, and the view is still its own. -/
theorem Undergoing.unattempted (under : Undergoing sdk size n s runID run body)
    (other : ∀ act opts, await sdk ⟨run.workflowID, runID⟩ run.req (run.thread sdk) ≠
      .activity act opts) :
    OnCourse (courseOf run.req.proposal.targetID) ⟨run.workflowID, runID⟩
      (executionKey run.req.ingressDecisionID) n (run.thread sdk)
      (s.backend.view runID run.req.ingressDecisionID) ∧
    ∀ a ∈ s.attemptsOf runID, a.index ≠ run.history.length := by
  have none_there : ∀ a ∈ s.attemptsOf runID, a.index ≠ run.history.length := by
    intro a member index
    obtain ⟨inside, own⟩ := System.mem_attemptsOf.mp member
    obtain ⟨opts, waits⟩ := (under.placed inside own).waits
    rw [index, own] at waits
    exact other _ _ waits
  refine ⟨?_, none_there⟩
  have empty : s.bodies runID run.history.length = [] := by
    unfold System.bodies
    rw [List.map_eq_nil_iff, List.filter_eq_nil_iff]
    intro a member
    simpa using none_there a member
  rw [under.bodies] at empty
  obtain rfl := Option.toList_eq_nil_iff.mp empty
  cases under.stage with
  | waiting on => exact on

/-- **What the run is told is what the sequential program says**, and the attempts of the
wait have returned by then. -/
theorem Undergoing.told (under : Undergoing sdk size n s runID run body) {source : Source}
    {reply : Reply} (heeded : source.isInterruption = false)
    (said : answer (worker sdk) s runID run source = some reply) :
    (∃ before, OnCourse (courseOf run.req.proposal.targetID) ⟨run.workflowID, runID⟩
        (executionKey run.req.ingressDecisionID) n (run.thread sdk) before ∧
      (courseOf run.req.proposal.targetID).Hears sdk ⟨run.workflowID, runID⟩ run.req
        (run.thread sdk) before reply (s.backend.view runID run.req.ingressDecisionID)) ∧
    ∀ a ∈ s.attemptsOf runID, a.index = run.history.length → a.body.isFinished = true := by
  cases source with
  | attempt i =>
      obtain ⟨a, member, own, index, finished⟩ := answer_attempt said
      have there := System.mem_bodies member own index
      rw [under.bodies, finished] at there
      obtain rfl := Option.mem_toList.mp there
      cases under.stage with
      | answered before r on hears =>
          refine ⟨⟨before, on, hears⟩, ?_⟩
          intro a' member' index'
          obtain ⟨inside, own'⟩ := System.mem_attemptsOf.mp member'
          have also := System.mem_bodies inside own' index'
          rw [under.bodies] at also
          rw [List.mem_singleton.mp also]
          rfl
  | interrupted e => cases heeded
  | token text =>
      simp only [answer] at said
      split at said
      · rename_i asked
        cases said
        have waits : await sdk ⟨run.workflowID, runID⟩ run.req (run.thread sdk) = .sideEffect := asked
        have here := await_sideEffect waits
        obtain ⟨on, none_there⟩ := under.unattempted (by simp [waits])
        refine ⟨⟨_, on, ?_⟩, fun a member index => absurd index (none_there a member)⟩
        unfold Course.Hears
        rw [here]
        exact ⟨⟨_, rfl, by simp [ascii]⟩, rfl⟩
      · cases said
  | timer =>
      simp only [answer] at said
      split at said
      · rename_i d asked
        cases said
        have waits : await sdk ⟨run.workflowID, runID⟩ run.req (run.thread sdk) = .sleep d := asked
        obtain ⟨start, wait, last, here⟩ := await_sleep waits
        obtain ⟨on, none_there⟩ := under.unattempted (by simp [waits])
        refine ⟨⟨_, on, ?_⟩, fun a member index => absurd index (none_there a member)⟩
        unfold Course.Hears
        rw [here]
        exact ⟨rfl, rfl⟩
      · cases said

/-- **An answer**: the run is at its next wait. -/
theorem Undergoing.hears (under : Undergoing sdk size n s runID run body) {source : Source}
    {reply : Reply} {now : Time} (heeded : source.isInterruption = false)
    (clock : now.isZero = false) (said : answer (worker sdk) s runID run source = some reply)
    (reached : Reaches (worker sdk) (admits (Named size))
      (s.setRun runID (run.hear { reply, now }))) :
    Undergoing sdk size n (s.setRun runID (run.hear { reply, now })) runID
      (run.hear { reply, now }) none := by
  obtain ⟨⟨before, on, hears⟩, returned⟩ := under.told heeded said
  have known : (s.setRun runID (run.hear { reply, now })).runs runID =
      some (run.hear { reply, now }) := by
    rw [System.runs_setRun, if_pos rfl]
  have length : (run.hear { reply, now }).history.length = run.history.length + 1 := by
    simp [Run.hear]
  constructor
  · exact reached
  · exact known
  · exact under.named
  · exact under.proposed
  · refine ⟨under.clocked.began, ?_⟩
    intro e member
    rcases List.mem_append.mp member with old | last
    · exact under.clocked.clock e old
    · rw [List.mem_singleton.mp last]
      exact clock
  · intro id other there same
    rw [System.runs_setRun] at there
    by_cases here : id = runID
    · exact here
    · rw [if_neg here] at there
      exact under.alone id other there same
  · exact under.recorded
  · exact under.allowed
  · intro a member earlier
    rw [length] at earlier
    rcases Nat.lt_succ_iff_lt_or_eq.mp earlier with lower | here
    · exact under.behind a member lower
    · exact returned a member here
  · show ((s.attemptsOf runID).filter _).map Attempt.body = []
    rw [List.map_eq_nil_iff, List.filter_eq_nil_iff]
    intro a member
    obtain ⟨inside, own⟩ := System.mem_attemptsOf.mp member
    have within := (under.placed inside own).within
    simp only [decide_eq_true_eq]
    omega
  · rw [Run.thread_hear]
    exact .waiting (on.resume hears now)

/-- What happens to the runs of other decisions. -/
theorem Undergoing.elsewhere (under : Undergoing sdk size n s runID run body) {id : GoString}
    {other : Run} (foreign : id ≠ runID)
    (apart : other.req.ingressDecisionID ≠ run.req.ingressDecisionID)
    (reached : Reaches (worker sdk) (admits (Named size)) (s.setRun id other)) :
    Undergoing sdk size n (s.setRun id other) runID run body := by
  refine under.kept reached ?_ (.refl run) rfl ?_ (fun rec member => member) under.allowed rfl rfl
  · rw [System.runs_setRun, if_neg (Ne.symm foreign)]
    exact under.known
  · intro id' run' there same
    rw [System.runs_setRun] at there
    split at there
    · cases there
      exact absurd same apart
    · exact under.alone id' run' there same

theorem Undergoing.reaches (under : Undergoing sdk size n s runID run body) {l : Label}
    (quiet : admits (Undisturbed sdk size runID) s l) (taken : step (worker sdk) s l = some s') :
    Reaches (worker sdk) (admits (Named size)) s' := by
  obtain ⟨policy, target, steps⟩ := under.reached
  exact ⟨policy, target, steps.tail (Undisturbed.names quiet) taken⟩

/-- **Every step that does not disturb the run keeps it on its way.** -/
theorem Undergoing.stays (under : Undergoing sdk size n s runID run body)
    (hashes : ∀ p, sdk.sha256 (hashInput p) ≠ []) {l : Label}
    (quiet : admits (Undisturbed sdk size runID) s l) (taken : step (worker sdk) s l = some s') :
    ∃ run' body', run.Extends run' ∧ Undergoing sdk size n s' runID run' body' := by
  have move := step_move taken
  have reached := under.reaches quiet taken
  have known := under.known
  have records : ∀ rec ∈ s.backend.store.records, rec ∈ s'.backend.store.records :=
    fun rec member => move.records member
  cases move with
  | load policy =>
      exact ⟨run, body, .refl run, under.kept reached known (.refl run) rfl under.alone records
        (Undisturbed.loads quiet known) rfl rfl⟩
  | append ctx rec =>
      exact ⟨run, body, .refl run, under.kept reached known (.refl run) rfl under.alone records
        under.allowed rfl (Backend.view_claims (Change.holding?_appendDecision ..))⟩
  | start id workflowID req now fresh =>
      have foreign : id ≠ runID := by
        rintro rfl
        cases fresh.symm.trans known
      exact ⟨run, body, .refl run,
        under.elsewhere foreign (Undisturbed.starts quiet known) reached⟩
  | reset id base other k canceled fresh from_ within =>
      have foreign : id ≠ runID := by
        rintro rfl
        cases fresh.symm.trans known
      have apart : other.req.ingressDecisionID ≠ run.req.ingressDecisionID :=
        Undisturbed.resets quiet known from_
      exact ⟨run, body, .refl run, under.elsewhere foreign apart reached⟩
  | cancel id other there =>
      by_cases here : id = runID
      · subst here
        cases known.symm.trans there
        have later : run.Extends { run with canceled := true } :=
          ⟨rfl, rfl, rfl, rfl, rfl, List.prefix_rfl⟩
        refine ⟨_, body, later, under.kept reached ?_ later rfl ?_ records under.allowed rfl rfl⟩
        · rw [System.runs_setRun, if_pos rfl]
        · intro id' run' there' same
          rw [System.runs_setRun] at there'
          split at there'
          · assumption
          · exact under.alone id' run' there' same
      · refine ⟨run, body, .refl run, under.elsewhere here ?_ reached⟩
        intro same
        exact here (under.alone id other there same)
  | launch id other act opts there waits few =>
      by_cases here : id = runID
      · subst here
        cases known.symm.trans there
        have idle := Undisturbed.launches quiet known
        rw [System.launched_eq, under.bodies] at idle
        cases body with
        | none => exact ⟨run, some .start, .refl run, under.launches reached⟩
        | some body => cases idle
      · exact ⟨run, body, .refl run, under.kept reached known (.refl run) rfl under.alone records
          under.allowed (System.attemptsOf_append here) rfl⟩
  | exec i a c backend body' found ran =>
      by_cases own : a.caller.runID = runID
      · subst own
        obtain ⟨calm, alive⟩ := Undisturbed.acts quiet found
        exact ⟨run, some body', .refl run,
          (under.performs hashes found rfl calm alive ran reached).1⟩
      · have policy := (perform_performed ran).change.policy
        refine ⟨run, body, .refl run, under.kept reached known (.refl run) rfl under.alone records ?_
          (System.attemptsOf_set found own) (under.foreign found own ran)⟩
        rw [policy]
        exact under.allowed
  | deliver id other source reply now there said =>
      by_cases here : id = runID
      · subst here
        cases known.symm.trans there
        obtain ⟨clock, heeded⟩ := Undisturbed.delivers quiet
        exact ⟨_, none, .hear run _, under.hears heeded clock said reached⟩
      · refine ⟨run, body, .refl run, under.elsewhere here ?_ reached⟩
        intro same
        exact here (under.alone id other there same)

/-! ## The way to the end -/

/-- How far a run is from its end. -/
def Run.left (sdk : Sdk) (run : Run) (body : Option Body) : Nat :=
  4 * (run.thread sdk).point.distance + Stage.left body

/-- A run that has not ended waits for something it can have. -/
theorem await_running (sdk : Sdk) (x : Execution) (req : ExecutionRequest) {th : Thread}
    (running : ∀ result, th.point ≠ .closed result) :
    (∃ act opts, await sdk x req th = .activity act opts ∧ 0 < opts.maximumAttempts) ∨
      await sdk x req th = .sideEffect ∨ ∃ d, await sdk x req th = .sleep d := by
  rcases th with ⟨point, token, seq, holds, dispatching, auditErr, now⟩
  cases point with
  | closed result => exact absurd rfl (running result)
  | executionToken => exact .inr (.inl rfl)
  | reconcileSleep start wait last => exact .inr (.inr ⟨wait, rfl⟩)
  | auditCompensation err failure =>
      cases err <;> exact .inl ⟨_, _, rfl, by cases dispatching <;> exact Nat.succ_pos _⟩
  | _ => exact .inl ⟨_, _, rfl, by cases dispatching <;> exact Nat.succ_pos _⟩

/-- The answer to a wait brings the run nearer to its end, at a suitable clock. -/
theorem Undergoing.answers (under : Undergoing sdk size n s runID run body) (source : Source)
    {reply : Reply} (heeded : source.isInterruption = false)
    (said : answer (worker sdk) s runID run source = some reply) :
    ∃ t run' body', Next (step (worker sdk)) (admits (Undisturbed sdk size runID)) s t ∧
      Undergoing sdk size n t runID run' body' ∧ run'.left sdk body' < run.left sdk body := by
  obtain ⟨⟨before, on, hears⟩, -⟩ := under.told heeded said
  obtain ⟨now, clock, nearer⟩ := on.nearer hears
  have quiet : admits (Undisturbed sdk size runID) s (.deliver runID source now) := by
    simp [admits, Undisturbed, Named, clock, heeded]
  have taken : step (worker sdk) s (.deliver runID source now) =
      some (s.setRun runID (run.hear { reply, now })) := by
    simp [step, under.known, said]
  refine ⟨_, _, none, ⟨_, quiet, taken⟩, under.hears heeded clock said (under.reaches quiet taken), ?_⟩
  have later : ((run.hear { reply, now }).thread sdk).point.distance <
      (run.thread sdk).point.distance := by
    rw [Run.thread_hear]
    exact nearer
  show 4 * ((run.hear { reply, now }).thread sdk).point.distance + 3 < _ + _
  omega

/-- An action of the activity does so as well. -/
theorem Undergoing.goes_on {before : Body} (under : Undergoing sdk size n s runID run (some before))
    (hashes : ∀ p, sdk.sha256 (hashInput p) ≠ []) (unfinished : before.isFinished = false)
    (able : ∀ act opts, await sdk ⟨run.workflowID, runID⟩ run.req (run.thread sdk) =
        .activity act opts →
      (perform (worker sdk) ⟨run.workflowID, runID⟩ act before calm s.backend).isSome = true) :
    ∃ t run' body', Next (step (worker sdk)) (admits (Undisturbed sdk size runID)) s t ∧
      Undergoing sdk size n t runID run' body' ∧
      run'.left sdk body' < run.left sdk (some before) := by
  have there : before ∈ s.bodies runID run.history.length := by
    rw [under.bodies]
    exact List.mem_singleton_self before
  obtain ⟨i, a, found, own, -, rfl⟩ := System.exists_of_bodies there
  obtain ⟨-, -, caller, opts, waits⟩ := under.own (List.mem_of_getElem? found) own unfinished
  obtain ⟨⟨b', body'⟩, ran⟩ := Option.isSome_iff_exists.mp (able _ _ waits)
  rw [← caller] at ran
  have quiet : admits (Undisturbed sdk size runID) s (.exec i calm) := by
    simp [admits, Undisturbed, Named, found, calm]
  have taken : step (worker sdk) s (.exec i calm) = some { s with
      backend := b', attempts := s.attempts.set i { a with body := body' } } := by
    simp [step, found, ran]
  obtain ⟨after, less⟩ := under.performs hashes found own rfl rfl ran (under.reaches quiet taken)
  exact ⟨_, run, _, ⟨_, quiet, taken⟩, after, Nat.add_lt_add_left less _⟩

/-- **A run that has not ended can be led on.** -/
theorem Undergoing.advances (under : Undergoing sdk size n s runID run body)
    (hashes : ∀ p, sdk.sha256 (hashInput p) ≠ [])
    (running : ∀ result, (run.thread sdk).point ≠ .closed result) :
    ∃ t run' body', Next (step (worker sdk)) (admits (Undisturbed sdk size runID)) s t ∧
      Undergoing sdk size n t runID run' body' ∧ run'.left sdk body' < run.left sdk body := by
  cases under.stage with
  | waiting on =>
      rcases await_running sdk ⟨run.workflowID, runID⟩ run.req running with
        ⟨act, opts, waits, tries⟩ | waits | ⟨d, waits⟩
      · have idle : s.launched runID run.history.length = 0 := by
          rw [System.launched_eq, under.bodies]
          rfl
        have quiet : admits (Undisturbed sdk size runID) s (.launch runID) := by
          simp [admits, Undisturbed, Named, under.known, idle]
        have taken : step (worker sdk) s (.launch runID) = some { s with attempts := s.attempts ++
            [⟨⟨run.workflowID, runID⟩, run.history.length, act, .start⟩] } := by
          simp [step, under.known, worker, waits, idle, tries]
        exact ⟨_, run, _, ⟨_, quiet, taken⟩, under.launches (under.reaches quiet taken),
          Nat.add_lt_add_left (by decide) _⟩
      · have said : answer (worker sdk) s runID run (.token []) = some (.text (ascii "exe_" ++ [])) := by
          simp [answer, worker, waits]
        exact under.answers (.token []) rfl said
      · have said : answer (worker sdk) s runID run .timer = some .done := by
          simp [answer, worker, waits]
        exact under.answers .timer rfl said
  | begun on =>
      refine under.goes_on hashes rfl ?_
      intro act opts waits
      cases act <;> rfl
  | calling before on here fenced =>
      refine under.goes_on hashes rfl ?_
      intro act opts waits
      cases (await_dispatchConfig sdk ⟨run.workflowID, runID⟩ run.req here).symm.trans waits
      rfl
  | answered before r on hears =>
      have there : Body.finished r ∈ s.bodies runID run.history.length := by
        rw [under.bodies]
        exact List.mem_singleton_self _
      obtain ⟨i, a, found, own, index, finished⟩ := System.exists_of_bodies there
      have said : answer (worker sdk) s runID run (.attempt i) = some r := by
        simp [answer, found, own, index, finished]
      exact under.answers (.attempt i) rfl said

/-- **From wherever it is, the run can be led to its end.** -/
theorem Undergoing.leads (under : Undergoing sdk size n s runID run body)
    (hashes : ∀ p, sdk.sha256 (hashInput p) ≠ []) :
    ∃ t, Steps (step (worker sdk)) (admits (Undisturbed sdk size runID)) s t ∧
      t.ended sdk runID = true := by
  -- on the distance to the end, which every step of `advances` makes smaller
  induction measure : run.left sdk body using Nat.strong_induction_on generalizing s run body with
  | _ k ih =>
      by_cases closed : ∃ result, (run.thread sdk).point = .closed result
      · obtain ⟨result, closed⟩ := closed
        exact ⟨s, Steps.refl s, System.ended_iff.mpr ⟨run, result, under.known, closed⟩⟩
      · obtain ⟨t, run', body', next, after, less⟩ := under.advances hashes (by
          intro result here
          exact closed ⟨result, here⟩)
        obtain ⟨u, steps, ended⟩ := ih _ (measure ▸ less) after rfl
        exact ⟨u, Relation.ReflTransGen.head next steps, ended⟩

end Steps

/-! ## From its start to its end -/

section Run

variable {sdk : Sdk} {size : Nat} {s t : System SimulatedAdapter} {runID : GoString} {run : Run}

/-- A run that has not attempted anything has no rows. -/
theorem Reaches.rowsOf_idle {α : Type} {w : Worker α} {G : System α → Label → Prop} {s : System α}
    (reached : Reaches w G s) (idle : ∀ a ∈ s.attempts, a.caller.runID ≠ runID) :
    s.rowsOf runID = [] := by
  refine List.filter_eq_nil_iff.mpr ?_
  intro row written
  obtain ⟨a, member, rec, now, act, -, rfl⟩ := reached.row_returned row written
  obtain ⟨other, placed⟩ := reached.placed a member
  obtain ⟨opts, waits⟩ := placed.waits
  rw [act] at waits
  obtain ⟨phase, verdict, detail, -, rfl⟩ := await_asks waits
  rw [(stamped_fields _ _).1]
  simpa [newAuditRecord] using idle a member

/-- The only run for a decision, at its start, holds no claim. -/
theorem Ready.unclaimed (ready : Ready sdk s runID run)
    (reached : Reaches (worker sdk) (admits (Named size)) s) :
    s.backend.store.holding? run.req.ingressDecisionID = none := by
  cases held : s.backend.store.holding? run.req.ingressDecisionID with
  | none => rfl
  | some h =>
      obtain ⟨other, owned⟩ := reached.owned _ h held
      have same := ready.alone _ other owned.known owned.decisionID
      cases ready.known.symm.trans (same ▸ owned.known)
      have heard := owned.reached
      rw [ready.begun] at heard
      cases heard

/-- **A run that was just started is on its way.** -/
theorem Ready.undergoing (ready : Ready sdk s runID run)
    (reached : Reaches (worker sdk) (admits (Named size)) s) :
    Undergoing sdk size (s.backend.target.compensations (executionKey run.req.ingressDecisionID)) s
      runID run none := by
  have none_own : s.attemptsOf runID = [] := by
    refine List.filter_eq_nil_iff.mpr ?_
    intro a member
    simpa using ready.idle a member
  have thread : run.thread sdk = Thread.initial run.startedAt := by
    unfold Run.thread Run.threadAt
    rw [ready.begun]
    rfl
  have view : s.backend.view runID run.req.ingressDecisionID = ⟨none, none,
      s.backend.target.compensations (executionKey run.req.ingressDecisionID), []⟩ := by
    have trail : s.backend.audits.filter (·.runID = runID) = [] := reached.rowsOf_idle ready.idle
    unfold Backend.view
    rw [ready.unclaimed reached, ready.unseen, trail]
    rfl
  constructor
  · exact reached
  · exact ready.known
  · exact ready.named
  · exact ready.proposed
  · refine ⟨ready.clock, ?_⟩
    rw [ready.begun]
    intro e member
    cases member
  · exact ready.alone
  · exact ready.recorded
  · exact ready.allowed
  · rw [none_own]
    intro a member
    cases member
  · unfold System.bodies
    rw [none_own]
    rfl
  · refine .waiting ⟨?_, ?_, ?_, ?_⟩
    · rw [thread, view]
      rfl
    · exact replay_flags ..
    · rw [thread]
      rfl
    · rw [thread]
      exact .inl rfl

/-- It stays on its way. -/
theorem Undergoing.remains {n : Nat} {body : Option Body}
    (under : Undergoing sdk size n s runID run body)
    (hashes : ∀ p, sdk.sha256 (hashInput p) ≠ [])
    (steps : Steps (step (worker sdk)) (admits (Undisturbed sdk size runID)) s t) :
    ∃ run' body', run.Extends run' ∧ Undergoing sdk size n t runID run' body' := by
  refine steps.invariant (P := fun t => ∃ run' body', run.Extends run' ∧
    Undergoing sdk size n t runID run' body') ?_ ⟨run, body, .refl run, under⟩
  rintro u l v ⟨run', body', later, there⟩ quiet taken
  obtain ⟨run'', body'', further, after⟩ := there.stays hashes quiet taken
  exact ⟨run'', body'', later.trans further, after⟩

/-- A run that has ended waits for nothing. -/
theorem Undergoing.closed {n : Nat} {body : Option Body}
    (under : Undergoing sdk size n s runID run body) {result : WorkflowResult}
    (ended : (run.thread sdk).point = .closed result) :
    OnCourse (courseOf run.req.proposal.targetID) ⟨run.workflowID, runID⟩
      (executionKey run.req.ingressDecisionID) n (run.thread sdk)
      (s.backend.view runID run.req.ingressDecisionID) := by
  cases under.stage with
  | waiting on => exact on
  | begun on => exact on
  | calling before on here fenced => cases here.symm.trans ended
  | answered before r on hears => exact absurd ended (hears.running result)

/-- How often the target was changed, by what it has recorded. -/
theorem Course.mutations_settled {c : Course} {m : Nat} (key : GoString)
    (consistent : Consistent c.settled m) : m = (c.ending key).mutations := by
  cases c with
  | partitioned => exact consistent
  | applied | lostResponse =>
      rcases consistent with ⟨-, once⟩ | ⟨failed, -⟩
      · exact once
      · cases failed
  | partlyApplied | unreachable =>
      rcases consistent with ⟨success, -⟩ | ⟨-, count⟩
      · cases success
      · exact count

/-- **A run that nothing disturbs does what its target prescribes, once.**  It was just
started, alone on its decision, which is on record and allowed; runs for other decisions do as
they please.  If it has ended, then with the result, the claim, the changes, the compensations
and the audit trail of `Course.ending`; and wherever it is, it can be led to its end. -/
theorem undisturbed_run (hashes : ∀ p, sdk.sha256 (hashInput p) ≠ [])
    (reached : Reaches (worker sdk) (admits (Named size)) s) (ready : Ready sdk s runID run)
    (steps : Steps (step (worker sdk)) (admits (Undisturbed sdk size runID)) s t) :
    let key := executionKey run.req.ingressDecisionID
    let ending := (courseOf run.req.proposal.targetID).ending key
    (∀ run' result, t.runs runID = some run' → (run'.thread sdk).point = .closed result →
      result = ending.result ∧
      t.backend.store.holding? run.req.ingressDecisionID =
        some ⟨claimOwner ⟨run.workflowID, runID⟩ (run'.thread sdk).token, ending.claim⟩ ∧
      t.backend.target.mutations key = ending.mutations ∧
      t.backend.target.compensations key =
        s.backend.target.compensations key + ending.compensations ∧
      (t.rowsOf runID).map (fun row => (row.phase, row.verdict)) = ending.trail) ∧
    ∃ u, Steps (step (worker sdk)) (admits (Undisturbed sdk size runID)) t u ∧
      u.ended sdk runID = true := by
  intro key ending
  obtain ⟨now, body, later, under⟩ := (ready.undergoing reached).remains hashes steps
  refine ⟨?_, under.leads hashes⟩
  intro run' result known ended
  cases under.known.symm.trans known
  have here := (under.closed ended).here
  rw [ended, later.req, later.workflowID] at here
  obtain ⟨outcome, view⟩ := here
  have settled := t.backend.target.consistent key
  rw [show t.backend.target.effects key = (courseOf run.req.proposal.targetID).settled from
    congrArg View.effect view] at settled
  exact ⟨outcome, congrArg View.claim view, Course.mutations_settled key settled,
    congrArg View.compensations view, congrArg View.trail view⟩

/-- A run against the target that applies its change and then rejects it. -/
def quietRequest : ExecutionRequest :=
  { demoRequest failingNodeID with ingressDecisionID := ascii "dec_d" }

def quietStart : System SimulatedAdapter :=
  demo [.append none { demoRecord failingNodeID with decisionID := ascii "dec_d" },
    .start (ascii "r") (ascii "w") quietRequest ⟨1⟩]

/-- The run from its start to its end; a policy is loaded and another run is started on the
way. -/
def quietRun : List Label :=
  round (ascii "r") 0 ++ [.deliver (ascii "r") (.token (ascii "t")) ⟨1⟩, .load (some openPolicy)] ++
  round (ascii "r") 1 ++ round (ascii "r") 2 ++ round (ascii "r") 3 ++ round (ascii "r") 4 ++
  [.start (ascii "q") (ascii "w") (demoRequest (ascii "n")) ⟨1⟩] ++
  [.launch (ascii "r"), .exec 5 calm, .exec 5 calm, .deliver (ascii "r") (.attempt 5) ⟨1⟩] ++
  round (ascii "r") 6 ++ round (ascii "r") 7 ++ round (ascii "r") 8 ++ round (ascii "r") 9 ++
  round (ascii "r") 10

theorem quietStart_ready :
    Ready plainSdk quietStart (ascii "r") (.started (ascii "w") quietRequest ⟨1⟩) where
  known := rfl
  begun := rfl
  idle a member := by cases member
  named := by decide
  proposed := by decide
  clock := rfl
  alone id other there _ := by
    have runs : quietStart.runs id =
        if id = ascii "r" then some (.started (ascii "w") quietRequest ⟨1⟩) else none := rfl
    rw [runs] at there
    split at there
    · assumption
    · cases there
  recorded := ⟨{ demoRecord failingNodeID with decisionID := ascii "dec_d" },
    List.mem_singleton_self _, by decide +kernel⟩
  allowed := by decide +kernel
  unseen := rfl

theorem undisturbed_run_failing :
    ∃ t, execWhile (step (worker plainSdk)) (Undisturbed plainSdk 1 (ascii "r")) quietStart quietRun =
        some t ∧
      t.ended plainSdk (ascii "r") = true ∧
      t.backend.target.mutations (executionKey (ascii "dec_d")) = 1 ∧
      t.backend.target.compensations (executionKey (ascii "dec_d")) = 1 ∧
      (t.rowsOf (ascii "r")).map (fun row => (row.phase, row.verdict)) =
        [(.named .revalidation, .named .pass), (.named .dispatch, .named .fail),
          (.named .compensation, .named .pass), (.named .workflowFailed, .named .fail)] := by
  have ends : (execWhile (step (worker plainSdk)) (Undisturbed plainSdk 1 (ascii "r")) quietStart
      quietRun).any (fun t => t.ended plainSdk (ascii "r")) = true := by decide +kernel
  have reached : Reaches (worker plainSdk) (admits (Named 1)) quietStart := by
    unfold quietStart
    exact ⟨_, _, runFrom_guarded (by decide +kernel)⟩
  have hashes : ∀ p, plainSdk.sha256 (hashInput p) ≠ [] := by
    intro p
    simp [plainSdk, Runtime.plain, hashInput, requestHashDomain, ascii]
  obtain ⟨t, ran, ended⟩ := (Option.any_eq_true _ _).mp ends
  obtain ⟨run', result, known, closed⟩ := System.ended_iff.mp ended
  obtain ⟨-, -, mutations, compensations, trail⟩ :=
    (undisturbed_run hashes reached quietStart_ready (steps_of_execWhile ran)).1 run' result known closed
  exact ⟨t, ran, ended, mutations, compensations, trail⟩

end Run

end SentryGate.Workflows
