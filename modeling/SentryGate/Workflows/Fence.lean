/-
# Workflows.Fence -- one dispatch per ingress decision

The CLAIMED to EXECUTING compare-and-set is the only way to the adapter.  A
*ticket* of a decision is a call of `Adapter.Dispatch` already made under its key,
or a `DispatchConfig` body that has won the fence and not called yet.  `Fenced` is
the invariant: without the row past the fence there is no ticket, and there is
never a second one.  It needs nothing about the workflow code: no schedule of
activities, however wrong, dispatches twice.
-/
import SentryGate.Workflows.System
import SentryGate.Workflows.Simulated
import SentryGate.Theory.Counting

namespace SentryGate.Workflows

open Theory.Text Theory.Machine Theory.Counting Contracts Policy Decision Audit

set_option autoImplicit false

variable {α : Type} {w : Worker α}

/-- How often `Adapter.Dispatch` was called under a key. -/
def Backend.dispatches (b : Backend α) (key : GoString) : Nat :=
  b.calls.countP fun c => c.method = .dispatch ∧ c.request.idempotencyKey = key

/-- The attempt has won the fence and has not called the adapter yet. -/
def Attempt.armed (key : GoString) (a : Attempt) : Bool :=
  match a.activity, a.body with
  | .dispatchConfig req, .callAdapter => req.dispatch.idempotencyKey = key
  | _, _ => false

/-- The dispatches of a key that were made or can still be made without the fence. -/
def System.tickets (s : System α) (key : GoString) : Nat :=
  s.backend.dispatches key + s.attempts.countP (Attempt.armed key)

/-- At most one ticket, and none before the row of the decision is past the fence. -/
def Fenced (decisionID : GoString) (s : System α) : Prop :=
  s.tickets (executionKey decisionID) ≤ 1 ∧
  (s.tickets (executionKey decisionID) ≠ 0 →
    ∃ h, s.backend.store.holding? decisionID = some h ∧ pastFence h.state = true)

theorem armed_of_body {key : GoString} {a : Attempt} (idle : a.body ≠ .callAdapter) :
    a.armed key = false := by
  unfold Attempt.armed
  split
  · rename_i armed
    exact absurd armed idle
  · rfl

/-- One action adds a ticket only by winning the fence of its own decision. -/
theorem tickets_exec {s : System α} {i : Nat} {a : Attempt} {b' : Backend α} {body' : Body}
    (found : s.attempts[i]? = some a)
    (change : Change w a.caller s.backend a.activity a.body b' body') (decisionID : GoString) :
    let s' : System α := { s with backend := b', attempts := s.attempts.set i { a with body := body' } }
    s'.tickets (executionKey decisionID) = s.tickets (executionKey decisionID) ∨
    (s'.tickets (executionKey decisionID) = s.tickets (executionKey decisionID) + 1 ∧
      ∃ owner, RowChange (s.backend.store.holding? decisionID) (.advanced owner .executing)
        (b'.store.holding? decisionID)) := by
  intro s'
  have counted := countP_set_add (p := Attempt.armed (executionKey decisionID)) found
    { a with body := body' }
  obtain ⟨caller, index, activity, body⟩ := a
  simp only at change
  -- an action that neither calls the adapter nor wins the fence moves no ticket
  have idle : b'.calls = s.backend.calls → body ≠ .callAdapter → body' ≠ .callAdapter →
      s'.tickets (executionKey decisionID) = s.tickets (executionKey decisionID) := by
    intro same before after
    simp only [armed_of_body (a := ⟨caller, index, activity, body⟩) before,
      armed_of_body (a := ⟨caller, index, activity, body'⟩) after] at counted
    simp only [System.tickets, Backend.dispatches, s', same]
    simpa using counted
  cases change with
  | same _ _ _ before after => exact Or.inl (idle rfl before after)
  | acquired => exact Or.inl (idle rfl (by simp) (by simp))
  | recorded => exact Or.inl (idle rfl (by simp) (by simp))
  | audited => exact Or.inl (idle rfl (by simp) (by simp))
  | advanced => exact Or.inl (idle rfl (by simp) (by simp))
  | fenced req store _ keyed writes after =>
      rcases after with rfl | ⟨cause, rfl⟩
      · simp only [Attempt.armed, keyed, executionKey_inj] at counted
        by_cases here : req.decisionID = decisionID
        · subst here
          refine Or.inr ⟨?_, _, writes.row⟩
          simp only [System.tickets, Backend.dispatches, s']
          simp at counted
          omega
        · refine Or.inl ?_
          simp only [System.tickets, Backend.dispatches, s']
          simp [here] at counted
          omega
      · exact Or.inl (idle rfl (by simp) (by simp [fenceUnknown, Body.fails]))
  | dispatched req adapter ctx configured =>
      refine Or.inl ?_
      simp only [System.tickets, Backend.dispatches, Backend.called, s', List.countP_append,
        List.countP_singleton]
      simp [Attempt.armed] at counted
      simp
      omega
  | reconciled req adapter ctx configured =>
      refine Or.inl ?_
      simp only [System.tickets, Backend.dispatches, Backend.called, s', List.countP_append,
        List.countP_singleton]
      simp [Attempt.armed] at counted
      simp
      omega
  | compensated req adapter ctx r configured =>
      refine Or.inl ?_
      simp only [System.tickets, Backend.dispatches, Backend.called, s', List.countP_append,
        List.countP_singleton]
      simp [Attempt.armed] at counted
      simp
      omega

/-- **Step lemma.**  Whatever happens, the fence holds. -/
theorem Fenced.move {decisionID : GoString} {s s' : System α} {l : Label}
    (fenced : Fenced decisionID s) (move : Move w s l s') : Fenced decisionID s' := by
  obtain ⟨once, past⟩ := fenced
  rcases move.quiet_or_exec with quiet | ⟨i, a, c, b', body', -, found, performed, rfl⟩
  · have row := quiet.holding decisionID
    have same : s'.tickets (executionKey decisionID) = s.tickets (executionKey decisionID) := by
      unfold System.tickets Backend.dispatches
      rw [quiet.calls]
      rcases quiet.attempts with kept | ⟨a, fresh, added⟩
      · rw [kept]
      · have idle : a.armed (executionKey decisionID) = false :=
          armed_of_body (by rw [fresh]; simp)
        rw [added, List.countP_append, List.countP_singleton]
        simp [idle]
    rw [Fenced, same, row]
    exact ⟨once, past⟩
  · rcases tickets_exec found performed.change decisionID with same | ⟨more, owner, won⟩
    · -- no ticket moved: a row past the fence stays past it
      rw [Fenced, same]
      refine ⟨once, fun some_ticket => ?_⟩
      obtain ⟨h, held, before⟩ := past some_ticket
      obtain ⟨wr, change, -⟩ := performed.change.row decisionID
      obtain ⟨h', held', -, after⟩ := change.pastFence held before
      exact ⟨h', held', after⟩
    · -- the fence was won from CLAIMED, so there was no ticket before
      obtain ⟨st, held, allowed, after⟩ := won.of_advanced
      have claimed : st = .claimed := by
        have table := (permits_iff st .executing).mp allowed
        simpa using table
      have none_before : s.tickets (executionKey decisionID) = 0 := by
        by_contra some_ticket
        obtain ⟨h, held', before⟩ := past some_ticket
        cases held.symm.trans held'
        rw [claimed] at before
        cases before
      rw [Fenced, more, none_before]
      exact ⟨le_refl 1, fun _ => ⟨_, after, rfl⟩⟩

/-- The fence holds in every reachable state. -/
theorem Reachable.fenced {s : System α} (reached : Reachable w s) (decisionID : GoString) :
    Fenced decisionID s := by
  refine reached.induction ?_ (fun s l s' _ fenced _ move => fenced.move move)
  intro policy target
  exact ⟨Nat.zero_le 1, fun some_ticket => absurd rfl some_ticket⟩

/-- **`Adapter.Dispatch` is called at most once for a decision**, by all runs
together, and not at all while the decision has no claim, or one that is CLAIMED or
RELEASED. -/
theorem dispatch_at_most_once {s : System α} (reached : Reachable w s) (decisionID : GoString) :
    s.backend.dispatches (executionKey decisionID) ≤ 1 ∧
    ((∀ c, s.backend.store.claims decisionID = some c → c.state = .claimed ∨ c.state = .released) →
      s.backend.dispatches (executionKey decisionID) = 0) := by
  obtain ⟨once, past⟩ := reached.fenced decisionID
  have counted : s.backend.dispatches (executionKey decisionID) ≤
      s.tickets (executionKey decisionID) := Nat.le_add_right _ _
  refine ⟨counted.trans once, fun before => ?_⟩
  by_contra called
  obtain ⟨h, held, after⟩ := past (by omega)
  obtain ⟨c, claim, rfl⟩ := Option.map_eq_some_iff.mp held
  rcases before c claim with claimed | released
  · simp [holding, claimed, pastFence] at after
  · simp [holding, released, pastFence] at after

/-! ## A concrete run

One agent, one proposal for a target of choice, an open policy and the deployed
worker.  `claimedRun` ends with the claim held and the PASS row written,
`dispatchedRun` with the answer of `DispatchConfig` delivered. -/

def plainSdk : Sdk where
  toRuntime := .plain
  errorText _ := []

def openPolicy : Snapshot where
  version := ascii "v1"
  digest := []
  maxParallelTasks := 1
  environments _ := some .allow
  commands _ := true
  agents _ := some fun _ => true
  targets id := some { id, environment := ascii "dev", isProtected := false }

def demoProposal (target : GoString) : AgentProposal where
  id := ascii "p"
  type := ascii "c"
  targetID := target
  payload := []

def demoRequest (target : GoString) : ExecutionRequest where
  agentID := ascii "a"
  proposal := demoProposal target
  ingressDecisionID := ascii "d"
  requestHash := requestHash plainSdk.toRuntime (demoProposal target)

def demoRecord (target : GoString) : DecisionRecord where
  decisionID := ascii "d"
  stage := .ingress
  proposalID := ascii "p"
  agentID := ascii "a"
  requestHash := requestHash plainSdk.toRuntime (demoProposal target)
  command := ascii "c"
  targetID := target
  environment := ascii "dev"
  verdict := .allow
  reasons := [.named .environmentAllowed]
  policyVersion := ascii "v1"
  policyDigest := []
  workflowID := ascii "w"
  traceID := []
  recordedAt := ⟨1⟩

/-- No fault, a live context. -/
def calm : Conditions where
  fault := .absent
  ctx := none
  now := ⟨1⟩
  message := []

/-- Attempt `i` is launched, runs in one action and is delivered. -/
def round (runID : GoString) (i : Nat) : List Label :=
  [.launch runID, .exec i calm, .deliver runID (.attempt i) ⟨1⟩]

def claimedRun (target : GoString) : List Label :=
  [.append none (demoRecord target), .start (ascii "r") (ascii "w") (demoRequest target) ⟨1⟩] ++
  round (ascii "r") 0 ++ [.deliver (ascii "r") (.token (ascii "t")) ⟨1⟩] ++
  round (ascii "r") 1 ++ round (ascii "r") 2 ++ round (ascii "r") 3 ++ round (ascii "r") 4

def dispatchedRun (target : GoString) : List Label :=
  claimedRun target ++
  [.launch (ascii "r"), .exec 5 calm, .exec 5 calm, .deliver (ascii "r") (.attempt 5) ⟨1⟩]

/-- The state after some steps of the deployed worker. -/
def demo (ls : List Label) : System SimulatedAdapter :=
  runFrom (worker plainSdk) (some openPolicy) .new ls

theorem demo_steps (ls : List Label) :
    Steps (step (worker plainSdk)) anyStep (.initial (some openPolicy) .new) (demo ls) :=
  runFrom_steps _ _ _ ls

theorem demo_reachable (ls : List Label) : Reachable (worker plainSdk) (demo ls) :=
  ⟨_, _, demo_steps ls⟩

theorem dispatch_at_most_once_demo :
    ((demo (claimedRun (ascii "n"))).backend.store.claims (ascii "d")).map ExecutionClaim.state =
      some .claimed ∧
    (demo (claimedRun (ascii "n"))).backend.dispatches (executionKey (ascii "d")) = 0 ∧
    (demo (dispatchedRun (ascii "n"))).backend.dispatches (executionKey (ascii "d")) = 1 ∧
    (demo (dispatchedRun (ascii "n"))).backend.dispatches (executionKey (ascii "d")) ≤ 1 := by
  have claimed : ((demo (claimedRun (ascii "n"))).backend.store.claims (ascii "d")).map
      ExecutionClaim.state = some .claimed := by decide
  refine ⟨claimed, (dispatch_at_most_once (demo_reachable _) (ascii "d")).2 ?_, by decide,
    (dispatch_at_most_once (demo_reachable _) (ascii "d")).1⟩
  intro c held
  rw [held] at claimed
  exact Or.inl (Option.some.inj claimed)

end SentryGate.Workflows
