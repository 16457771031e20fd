/-
# Workflows.System -- runs, attempts and workers in any interleaving

Temporal hands the activities of any number of workflow runs to workers.  A run
is its recorded history; its thread is the replay of it.  `step` is one step of
the whole system, with every choice of the environment in the label: the policy
that is loaded, records that others append, runs that are started, reset or
cancelled, attempts that are launched, the next atomic action of a body, and what
is delivered to a run.  Nothing orders the steps beyond their guards: an attempt
goes on after its run stopped waiting for it, several attempts of one wait run at
once, and a wait may end with an error of Temporal's own at any time.

`Move` is the same relation read backwards, one constructor for each label.
`Placed` is where every attempt comes from: its run waits, or waited, for its
activity at the attempt's index, and did so itself, not a run it was reset from.
-/
import SentryGate.Workflows.Saga
import SentryGate.Theory.Machine

namespace SentryGate.Workflows

open Theory.Text Theory.Machine Contracts Policy Decision Audit

set_option autoImplicit false

/-- A workflow run.  Its first `inherited` events come from the run it was reset
from, the head of `lineage`. -/
structure Run where
  workflowID : GoString
  req : ExecutionRequest
  startedAt : Time
  history : List Event
  inherited : Nat
  lineage : List GoString
  canceled : Bool
  within : inherited ≤ history.length
  deriving DecidableEq

namespace Run

/-- A new run. -/
def started (workflowID : GoString) (req : ExecutionRequest) (now : Time) : Run where
  workflowID
  req
  startedAt := now
  history := []
  inherited := 0
  lineage := []
  canceled := false
  within := Nat.le_refl 0

/-- The run that a reset of `base` to its first `k` events creates. -/
def reset (run : Run) (base : GoString) (k : Nat) (canceled : Bool)
    (within : k ≤ run.history.length) : Run :=
  { run with
      history := run.history.take k
      inherited := k
      lineage := base :: run.lineage
      canceled
      within := by simp [within] }

/-- The run with one more answer. -/
def hear (run : Run) (e : Event) : Run :=
  { run with
      history := run.history ++ [e]
      within := run.within.trans (by simp) }

/-- The thread after the first `k` events. -/
def threadAt (sdk : Sdk) (run : Run) (k : Nat) : Thread :=
  replay sdk run.req run.startedAt (run.history.take k)

/-- The thread as it stands. -/
def thread (sdk : Sdk) (run : Run) : Thread := run.threadAt sdk run.history.length

end Run

/-- One attempt of an activity for the wait at `index` of its run. -/
structure Attempt where
  caller : Execution
  index : Nat
  activity : Activity
  body : Body
  deriving DecidableEq

structure System (α : Type) where
  backend : Backend α
  runs : GoString → Option Run
  attempts : List Attempt

/-- Where an answer comes from. -/
inductive Source where
  | attempt (i : Nat)
  | interrupted (e : ActivityError)
  | token (text : GoString)
  | timer
  deriving DecidableEq

/-- The answer is one an attempt gave. -/
def Source.isAttempt : Source → Bool
  | .attempt _ => true
  | _ => false

inductive Label where
  | load (policy : Option Snapshot)
  | append (ctx : Context) (rec : DecisionRecord)
  | start (runID workflowID : GoString) (req : ExecutionRequest) (now : Time)
  | reset (runID base : GoString) (k : Nat) (canceled : Bool)
  | cancel (runID : GoString)
  | launch (runID : GoString)
  | exec (i : Nat) (c : Conditions)
  | deliver (runID : GoString) (source : Source) (now : Time)

variable {α : Type}

namespace System

/-- No runs yet, and empty tables. -/
def initial (policy : Option Snapshot) (target : α) : System α where
  backend := { store := .new, audits := [], policy, target, calls := [] }
  runs _ := none
  attempts := []

def setRun (s : System α) (runID : GoString) (run : Run) : System α :=
  { s with runs := fun id => if id = runID then some run else s.runs id }

/-- How many attempts the wait at `index` of a run has had. -/
def launched (s : System α) (runID : GoString) (index : Nat) : Nat :=
  s.attempts.countP fun a => a.caller.runID = runID ∧ a.index = index

end System

/-- May the wait end with this error, without any answer of an activity?  A
cancelled wait needs a cancelled run and a context that is not disconnected; an
application error only ever comes from a body. -/
def interrupts (canceled : Bool) : Await → ActivityError → Bool
  | .nothing, _ => false
  | _, .application _ _ _ => false
  | .activity _ opts, .canceled => canceled && opts.cancellable
  | .sleep _, .canceled => canceled
  | .sideEffect, .canceled => false
  | _, _ => true

/-- The answer a source gives to the wait of a run, if it can. -/
def answer (w : Worker α) (s : System α) (runID : GoString) (run : Run) : Source → Option Reply
  | .attempt i =>
      match s.attempts[i]? with
      | some a =>
          if a.caller.runID = runID ∧ a.index = run.history.length then
            match a.body with
            | .finished r => some r
            | _ => none
          else none
      | none => none
  | .interrupted e =>
      if interrupts run.canceled (await w.sdk ⟨run.workflowID, runID⟩ run.req (run.thread w.sdk)) e
      then some (.failed e) else none
  | .token text =>
      if await w.sdk ⟨run.workflowID, runID⟩ run.req (run.thread w.sdk) = .sideEffect
      then some (.text (ascii "exe_" ++ text)) else none
  | .timer =>
      match await w.sdk ⟨run.workflowID, runID⟩ run.req (run.thread w.sdk) with
      | .sleep _ => some .done
      | _ => none

/-- One step of the system. -/
def step (w : Worker α) (s : System α) : Label → Option (System α)
  | .load policy => some { s with backend := { s.backend with policy } }
  | .append ctx rec =>
      some { s with backend :=
        { s.backend with store := (s.backend.store.appendDecision ctx rec).1 } }
  | .start runID workflowID req now =>
      match s.runs runID with
      | some _ => none
      | none => some (s.setRun runID (.started workflowID req now))
  | .reset runID base k canceled =>
      match s.runs runID, s.runs base with
      | none, some run =>
          if within : k ≤ run.history.length then
            some (s.setRun runID (run.reset base k canceled within))
          else none
      | _, _ => none
  | .cancel runID => (s.runs runID).map fun run => s.setRun runID { run with canceled := true }
  | .launch runID =>
      match s.runs runID with
      | none => none
      | some run =>
          match await w.sdk ⟨run.workflowID, runID⟩ run.req (run.thread w.sdk) with
          | .activity act opts =>
              if s.launched runID run.history.length < opts.maximumAttempts then
                some { s with attempts := s.attempts ++
                  [{ caller := ⟨run.workflowID, runID⟩, index := run.history.length,
                     activity := act, body := .start }] }
              else none
          | _ => none
  | .exec i c =>
      match s.attempts[i]? with
      | none => none
      | some a =>
          (perform w a.caller a.activity a.body c s.backend).map fun (backend, body) =>
            { s with backend, attempts := s.attempts.set i { a with body } }
  | .deliver runID source now =>
      match s.runs runID with
      | none => none
      | some run =>
          (answer w s runID run source).map fun reply => s.setRun runID (run.hear { reply, now })

/-- A state that steps admitted by `G` lead to from empty tables. -/
def Reaches (w : Worker α) (G : System α → Label → Prop) (s : System α) : Prop :=
  ∃ policy target, Steps (step w) G (.initial policy target) s

/-- A state that any steps lead to from empty tables. -/
def Reachable (w : Worker α) (s : System α) : Prop := Reaches w anyStep s

/-- The state after a list of steps from empty tables; the empty tables if one of
them is not enabled. -/
def runFrom (w : Worker α) (policy : Option Snapshot) (target : α) (ls : List Label) : System α :=
  (exec (step w) (.initial policy target) ls).getD (.initial policy target)

theorem runFrom_steps (w : Worker α) (policy : Option Snapshot) (target : α) (ls : List Label) :
    Steps (step w) anyStep (.initial policy target) (runFrom w policy target ls) := by
  unfold runFrom
  cases ran : exec (step w) (.initial policy target) ls with
  | none => exact Steps.refl _
  | some s => exact steps_of_exec ran

theorem runFrom_guarded {w : Worker α} {g : System α → Label → Bool} {policy : Option Snapshot}
    {target : α} {ls : List Label}
    (ran : (execWhile (step w) g (.initial policy target) ls).isSome = true) :
    Steps (step w) (admits g) (.initial policy target) (runFrom w policy target ls) := by
  obtain ⟨s, here⟩ := Option.isSome_iff_exists.mp ran
  unfold runFrom
  rw [exec_of_execWhile here]
  exact steps_of_execWhile here

/-! ## What a step can do -/

/-- An answer a run can get: the reply of a finished attempt of the wait it is in,
or one of Temporal's own. -/
inductive Answered (w : Worker α) (s : System α) (runID : GoString) (run : Run) : Reply → Prop where
  | attempt (a : Attempt) (r : Reply) (launched : a ∈ s.attempts) (own : a.caller.runID = runID)
      (here : a.index = run.history.length) (finished : a.body = .finished r) :
      Answered w s runID run r
  | interrupted (e : ActivityError)
      (allowed : interrupts run.canceled
        (await w.sdk ⟨run.workflowID, runID⟩ run.req (run.thread w.sdk)) e = true) :
      Answered w s runID run (.failed e)
  | token (text : GoString)
      (waits : await w.sdk ⟨run.workflowID, runID⟩ run.req (run.thread w.sdk) = .sideEffect) :
      Answered w s runID run (.text (ascii "exe_" ++ text))
  | timer (d : Duration)
      (waits : await w.sdk ⟨run.workflowID, runID⟩ run.req (run.thread w.sdk) = .sleep d) :
      Answered w s runID run .done

/-- Everything one step can do. -/
inductive Move (w : Worker α) (s : System α) : Label → System α → Prop where
  | load (policy : Option Snapshot) :
      Move w s (.load policy) { s with backend := { s.backend with policy } }
  | append (ctx : Context) (rec : DecisionRecord) :
      Move w s (.append ctx rec)
        { s with backend := { s.backend with store := (s.backend.store.appendDecision ctx rec).1 } }
  | start (runID workflowID : GoString) (req : ExecutionRequest) (now : Time)
      (fresh : s.runs runID = none) :
      Move w s (.start runID workflowID req now) (s.setRun runID (.started workflowID req now))
  | reset (runID base : GoString) (run : Run) (k : Nat) (canceled : Bool)
      (fresh : s.runs runID = none) (known : s.runs base = some run)
      (within : k ≤ run.history.length) :
      Move w s (.reset runID base k canceled) (s.setRun runID (run.reset base k canceled within))
  | cancel (runID : GoString) (run : Run) (known : s.runs runID = some run) :
      Move w s (.cancel runID) (s.setRun runID { run with canceled := true })
  | launch (runID : GoString) (run : Run) (act : Activity) (opts : Options)
      (known : s.runs runID = some run)
      (waits : await w.sdk ⟨run.workflowID, runID⟩ run.req (run.thread w.sdk) = .activity act opts)
      (under : s.launched runID run.history.length < opts.maximumAttempts) :
      Move w s (.launch runID) { s with attempts := s.attempts ++
        [{ caller := ⟨run.workflowID, runID⟩, index := run.history.length, activity := act,
           body := .start }] }
  | exec (i : Nat) (a : Attempt) (c : Conditions) (backend : Backend α) (body : Body)
      (found : s.attempts[i]? = some a)
      (ran : perform w a.caller a.activity a.body c s.backend = some (backend, body)) :
      Move w s (.exec i c) { s with backend, attempts := s.attempts.set i { a with body } }
  | deliver (runID : GoString) (run : Run) (source : Source) (reply : Reply) (now : Time)
      (known : s.runs runID = some run) (answered : answer w s runID run source = some reply) :
      Move w s (.deliver runID source now) (s.setRun runID (run.hear { reply, now }))

/-- The answer of an attempt, by its number. -/
theorem answer_numbered {w : Worker α} {s : System α} {runID : GoString} {run : Run} {i : Nat}
    {reply : Reply} (said : answer w s runID run (.attempt i) = some reply) :
    ∃ a, s.attempts[i]? = some a ∧ a.caller.runID = runID ∧ a.index = run.history.length ∧
      a.body = .finished reply := by
  simp only [answer] at said
  split at said
  · rename_i a found
    split at said
    · rename_i own
      split at said
      · rename_i finished
        cases said
        exact ⟨a, found, own.1, own.2, finished⟩
      · cases said
    · cases said
  · cases said

/-- The answer of an attempt. -/
theorem answer_attempt {w : Worker α} {s : System α} {runID : GoString} {run : Run} {i : Nat}
    {reply : Reply} (said : answer w s runID run (.attempt i) = some reply) :
    ∃ a ∈ s.attempts, a.caller.runID = runID ∧ a.index = run.history.length ∧
      a.body = .finished reply := by
  obtain ⟨a, found, rest⟩ := answer_numbered said
  exact ⟨a, List.mem_of_getElem? found, rest⟩

theorem answer_answered {w : Worker α} {s : System α} {runID : GoString} {run : Run}
    {source : Source} {reply : Reply} (answered : answer w s runID run source = some reply) :
    Answered w s runID run reply := by
  cases source with
  | attempt i =>
      obtain ⟨a, member, own, here, finished⟩ := answer_attempt answered
      exact .attempt a reply member own here finished
  | interrupted e =>
      simp only [answer] at answered
      split at answered
      · rename_i allowed
        cases answered
        exact .interrupted _ allowed
      · cases answered
  | token text =>
      simp only [answer] at answered
      split at answered
      · rename_i waits
        cases answered
        exact .token _ waits
      · cases answered
  | timer =>
      simp only [answer] at answered
      split at answered
      · rename_i d waits
        cases answered
        exact .timer d waits
      · cases answered

/-- **Every step is a move.** -/
theorem step_move {w : Worker α} {s s' : System α} {l : Label} (taken : step w s l = some s') :
    Move w s l s' := by
  cases l with
  | load policy =>
      cases taken
      exact .load policy
  | append ctx rec =>
      cases taken
      exact .append ctx rec
  | start runID workflowID req now =>
      simp only [step] at taken
      split at taken
      · cases taken
      · rename_i fresh
        cases taken
        exact .start runID workflowID req now fresh
  | reset runID base k canceled =>
      simp only [step] at taken
      split at taken
      · rename_i run fresh known
        split at taken
        · rename_i within
          cases taken
          exact .reset runID base run k canceled fresh known within
        · cases taken
      · cases taken
  | cancel runID =>
      obtain ⟨run, known, same⟩ := Option.map_eq_some_iff.mp taken
      cases same
      exact .cancel runID run known
  | launch runID =>
      simp only [step] at taken
      split at taken
      · cases taken
      · rename_i run known
        split at taken
        · rename_i act opts waits
          split at taken
          · rename_i under
            cases taken
            exact .launch runID run act opts known waits under
          · cases taken
        · cases taken
  | exec i c =>
      simp only [step] at taken
      split at taken
      · cases taken
      · rename_i a found
        obtain ⟨⟨backend, body⟩, ran, same⟩ := Option.map_eq_some_iff.mp taken
        cases same
        exact .exec i a c backend body found ran
  | deliver runID source now =>
      simp only [step] at taken
      split at taken
      · cases taken
      · rename_i run known
        obtain ⟨reply, answered, same⟩ := Option.map_eq_some_iff.mp taken
        cases same
        exact .deliver runID run source reply now known answered

/-- What a step that runs no body changes: runs, the policy, new records, and at
most one attempt that has not begun. -/
structure Quiet (s s' : System α) : Prop where
  calls : s'.backend.calls = s.backend.calls
  target : s'.backend.target = s.backend.target
  audits : s'.backend.audits = s.backend.audits
  claims : s'.backend.store.claims = s.backend.store.claims
  records : ∀ rec ∈ s.backend.store.records, rec ∈ s'.backend.store.records
  attempts : s'.attempts = s.attempts ∨
    ∃ a : Attempt, a.body = .start ∧ s'.attempts = s.attempts ++ [a]

theorem Quiet.holding {s s' : System α} (quiet : Quiet s s') (decisionID : GoString) :
    s'.backend.store.holding? decisionID = s.backend.store.holding? decisionID := by
  unfold MemoryStore.holding?
  rw [quiet.claims]

namespace Move

variable {w : Worker α} {s s' : System α} {l : Label}

/-- Either no body runs, or one atomic action of one attempt does. -/
theorem quiet_or_ran (move : Move w s l s') :
    Quiet s s' ∨
    ∃ i a c b' body', l = .exec i c ∧ s.attempts[i]? = some a ∧
      perform w a.caller a.activity a.body c s.backend = some (b', body') ∧
      s' = { s with backend := b', attempts := s.attempts.set i { a with body := body' } } := by
  cases move with
  | load policy => exact Or.inl ⟨rfl, rfl, rfl, rfl, fun _ member => member, Or.inl rfl⟩
  | append ctx rec =>
      exact Or.inl ⟨rfl, rfl, rfl, MemoryStore.appendDecision_claims _ _ _,
        fun _ member => MemoryStore.mem_appendDecision _ member, Or.inl rfl⟩
  | start => exact Or.inl ⟨rfl, rfl, rfl, rfl, fun _ member => member, Or.inl rfl⟩
  | reset => exact Or.inl ⟨rfl, rfl, rfl, rfl, fun _ member => member, Or.inl rfl⟩
  | cancel => exact Or.inl ⟨rfl, rfl, rfl, rfl, fun _ member => member, Or.inl rfl⟩
  | launch =>
      exact Or.inl ⟨rfl, rfl, rfl, rfl, fun _ member => member, Or.inr ⟨_, rfl, rfl⟩⟩
  | exec i a c backend body found ran =>
      exact Or.inr ⟨i, a, c, backend, body, rfl, found, ran, rfl⟩
  | deliver => exact Or.inl ⟨rfl, rfl, rfl, rfl, fun _ member => member, Or.inl rfl⟩

theorem quiet_or_exec (move : Move w s l s') :
    Quiet s s' ∨
    ∃ i a c b' body', l = .exec i c ∧ s.attempts[i]? = some a ∧
      Performed w a.caller s.backend a.activity a.body b' body' ∧
      s' = { s with backend := b', attempts := s.attempts.set i { a with body := body' } } := by
  rcases move.quiet_or_ran with quiet | ⟨i, a, c, b', body', label, found, ran, same⟩
  · exact Or.inl quiet
  · exact Or.inr ⟨i, a, c, b', body', label, found, perform_performed ran, same⟩

/-- Decision records are never removed. -/
theorem records (move : Move w s l s') {rec : DecisionRecord}
    (member : rec ∈ s.backend.store.records) : rec ∈ s'.backend.store.records := by
  rcases move.quiet_or_exec with quiet | ⟨_, _, _, _, _, -, -, performed, rfl⟩
  · exact quiet.records rec member
  · exact performed.change.records member

/-- Audit rows are never removed. -/
theorem audits (move : Move w s l s') {row : AuditRecord} (member : row ∈ s.backend.audits) :
    row ∈ s'.backend.audits := by
  rcases move.quiet_or_exec with quiet | ⟨_, _, _, _, _, -, -, performed, rfl⟩
  · rwa [quiet.audits]
  · exact performed.change.audits member

end Move

/-- The next action of this attempt makes this call. -/
def Attempt.Calls (a : Attempt) (call : AdapterCall) : Prop :=
  a.caller = call.caller ∧
  match call.method with
  | .dispatch =>
      a.body = .callAdapter ∧ ∃ req, a.activity = .dispatchConfig req ∧ req.dispatch = call.request
  | .reconcile => a.body = .start ∧ a.activity = .reconcileDispatch call.request
  | .compensate => a.body = .start ∧ a.activity = .revertStateCompensation call.request

/-- A step makes no call, or one, by an attempt that is about to. -/
theorem Move.calls {w : Worker α} {s s' : System α} {l : Label} (move : Move w s l s') :
    s'.backend.calls = s.backend.calls ∨
    ∃ a ∈ s.attempts, ∃ call, a.Calls call ∧ s'.backend.calls = s.backend.calls ++ [call] := by
  rcases move.quiet_or_exec with quiet | ⟨i, a, c, b', body', -, found, performed, rfl⟩
  · exact Or.inl quiet.calls
  · have member := List.mem_of_getElem? found
    obtain ⟨caller, index, activity, body⟩ := a
    obtain ⟨change, -, -⟩ := performed
    simp only at change
    cases change with
    | same => exact Or.inl rfl
    | acquired => exact Or.inl rfl
    | recorded => exact Or.inl rfl
    | audited => exact Or.inl rfl
    | advanced => exact Or.inl rfl
    | fenced => exact Or.inl rfl
    | dispatched req adapter ctx configured =>
        exact Or.inr ⟨_, member, ⟨.dispatch, caller, req.dispatch⟩, ⟨rfl, rfl, req, rfl, rfl⟩, rfl⟩
    | reconciled req adapter ctx configured =>
        exact Or.inr ⟨_, member, ⟨.reconcile, caller, req⟩, ⟨rfl, rfl, rfl⟩, rfl⟩
    | compensated req adapter ctx r configured =>
        exact Or.inr ⟨_, member, ⟨.compensate, caller, req⟩, ⟨rfl, rfl, rfl⟩, rfl⟩

/-- A run of the system from empty tables to `s`, with the states it left behind. -/
def Visits (w : Worker α) (G : System α → Label → Prop) (past : List (System α)) (s : System α) :
    Prop :=
  ∃ policy target, Path (step w) G (.initial policy target) past s

theorem Visits.reaches {w : Worker α} {G : System α → Label → Prop} {past : List (System α)}
    {s : System α} (visits : Visits w G past s) : Reaches w G s := by
  obtain ⟨policy, target, path⟩ := visits
  exact ⟨policy, target, path.steps⟩

theorem Reaches.visits {w : Worker α} {G : System α → Label → Prop} {s : System α}
    (reached : Reaches w G s) : ∃ past, Visits w G past s := by
  obtain ⟨policy, target, run⟩ := reached
  obtain ⟨past, path⟩ := run.path
  exact ⟨past, policy, target, path⟩

/-- **Induction over the runs of the system**, with the states left behind. -/
theorem Visits.induction {w : Worker α} {G : System α → Label → Prop}
    {P : List (System α) → System α → Prop} {past : List (System α)} {s : System α}
    (visits : Visits w G past s) (base : ∀ policy target, P [] (.initial policy target))
    (next : ∀ past s l s', Visits w G past s → P past s → G s l → Move w s l s' →
      P (past ++ [s]) s') : P past s := by
  obtain ⟨policy, target, path⟩ := visits
  induction path with
  | refl => exact base policy target
  | tail prior admitted taken ih =>
      exact next _ _ _ _ ⟨policy, target, prior⟩ ih admitted (step_move taken)

/-- **Induction over the reachable states**, with every earlier result at hand. -/
theorem Reaches.induction {w : Worker α} {G : System α → Label → Prop} {P : System α → Prop}
    {s : System α} (reached : Reaches w G s) (base : ∀ policy target, P (.initial policy target))
    (next : ∀ s l s', Reaches w G s → P s → G s l → Move w s l s' → P s') : P s := by
  obtain ⟨past, visits⟩ := reached.visits
  refine visits.induction (P := fun _ s => P s) base ?_
  intro past s l s' prior holds admitted move
  exact next s l s' prior.reaches holds admitted move

end SentryGate.Workflows
