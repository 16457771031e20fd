/-
# Workflows.Simulated -- the in-memory stand-in for an infrastructure target

`workflows/simulated.go`.  A `SimulatedAdapter` carries what its three maps always
say about each other (`Consistent`): a key without a recorded effect has not
mutated anything, a recorded SUCCESS or partly applied FAILURE mutated the target
once, a plain FAILURE did not.  `Answers` is what one Dispatch or Reconcile does:
recorded effects stay, and a confirmed answer is the recorded effect.
-/
import SentryGate.Workflows.Activities

namespace SentryGate.Workflows

open Theory.Text Contracts Decision

set_option autoImplicit false

/-- What the recorded effect of a key says about how often it took effect. -/
def Consistent : Option DispatchOutcome → Nat → Prop
  | none, n => n = 0
  | some e, n =>
      (e.status = .success ∧ n = 1) ∨
      (e.status = .failure ∧ n = if e.partiallyApplied then 1 else 0)

structure SimulatedAdapter where
  effects : GoString → Option DispatchOutcome
  mutations : GoString → Nat
  compensations : GoString → Nat
  consistent : ∀ key, Consistent (effects key) (mutations key)

namespace SimulatedAdapter

/-- `NewSimulatedAdapter`: an adapter that has seen no keys. -/
def new : SimulatedAdapter where
  effects _ := none
  mutations _ := 0
  compensations _ := 0
  consistent _ := rfl

/-- `apply`: the key takes effect. -/
def apply (s : SimulatedAdapter) (key : GoString) (effect : DispatchOutcome)
    (fresh : s.effects key = none) (mutates : Consistent (some effect) 1) : SimulatedAdapter where
  effects k := if k = key then some effect else s.effects k
  mutations k := if k = key then s.mutations k + 1 else s.mutations k
  compensations := s.compensations
  consistent k := by
    by_cases here : k = key
    · have before := s.consistent key
      rw [fresh] at before
      subst here
      rw [if_pos rfl, if_pos rfl, show s.mutations k = 0 from before]
      exact mutates
    · rw [if_neg here, if_neg here]
      exact s.consistent k

/-- `fence`: the key is refused from now on. -/
def fence (s : SimulatedAdapter) (key : GoString) (detail : GoString)
    (fresh : s.effects key = none) : SimulatedAdapter × DispatchOutcome :=
  let effect : DispatchOutcome := { status := .failure, partiallyApplied := false, detail }
  ({ s with
      effects := fun k => if k = key then some effect else s.effects k
      consistent := fun k => by
        by_cases here : k = key
        · have before := s.consistent key
          rw [fresh] at before
          subst here
          rw [if_pos rfl, show s.mutations k = 0 from before]
          exact Or.inr ⟨rfl, rfl⟩
        · rw [if_neg here]
          exact s.consistent k }, effect)

def appliedEffect : DispatchOutcome :=
  { status := .success, partiallyApplied := false, detail := ascii "simulated: change applied" }

def partlyAppliedEffect : DispatchOutcome :=
  { status := .failure, partiallyApplied := true,
    detail := ascii "simulated: change partly applied, then rejected by target" }

/-- `Dispatch`. -/
def dispatch (ctx : Context) (req : DispatchRequest) (s : SimulatedAdapter) :
    SimulatedAdapter × DispatchOutcome :=
  let key := req.idempotencyKey
  match known : s.effects key with
  | some effect => (s, effect)
  | none =>
      if ctx.isSome then
        s.fence key (ascii "simulated: not sent, context ended before dispatch; key fenced") known
      else if req.proposal.targetID = failingNodeID then
        (s.apply key partlyAppliedEffect known (Or.inr ⟨rfl, rfl⟩), partlyAppliedEffect)
      else if req.proposal.targetID = lostResponseNodeID then
        (s.apply key appliedEffect known (Or.inl ⟨rfl, rfl⟩),
          unknownOutcome (ascii "simulated: change applied but the response was lost"))
      else if req.proposal.targetID = unreachableNodeID ∨
          req.proposal.targetID = partitionedNodeID then
        (s, unknownOutcome (ascii "simulated: no response from target"))
      else (s.apply key appliedEffect known (Or.inl ⟨rfl, rfl⟩), appliedEffect)

/-- `Reconcile`. -/
def reconcile (ctx : Context) (req : DispatchRequest) (s : SimulatedAdapter) :
    SimulatedAdapter × DispatchOutcome :=
  if ctx.isSome then (s, unknownOutcome (ascii "simulated: reconciliation cancelled"))
  else match known : s.effects req.idempotencyKey with
    | some effect => (s, effect)
    | none =>
        if req.proposal.targetID = partitionedNodeID then
          (s, unknownOutcome (ascii "simulated: target not reachable for status queries"))
        else
          s.fence req.idempotencyKey
            (ascii "simulated: target has no record of this key; " ++
              ascii "key fenced so it cannot take effect later") known

/-- `Compensate`. -/
def compensate (ctx : Context) (req : DispatchRequest) (s : SimulatedAdapter) :
    SimulatedAdapter × Option GoString :=
  match ctx with
  | some err => (s, some err)
  | none =>
      ({ s with compensations := fun k =>
          if k = req.idempotencyKey then s.compensations k + 1 else s.compensations k }, none)

/-! ## What a call does -/

/-- A Dispatch or Reconcile under `key` that answered `o`: recorded effects stay, and
a confirmed answer is the recorded effect of the key. -/
structure Answers (s : SimulatedAdapter) (key : GoString) (s' : SimulatedAdapter)
    (o : DispatchOutcome) : Prop where
  kept : ∀ k e, s.effects k = some e → s'.effects k = some e
  confirmed : o.status ≠ .unknown → s'.effects key = some o
  compensations : s'.compensations = s.compensations

variable {s : SimulatedAdapter} {key : GoString}

/-- Recording an effect for a new key keeps every other record. -/
theorem Answers.of_update {s' : SimulatedAdapter} {effect o : DispatchOutcome}
    (fresh : s.effects key = none)
    (updated : s'.effects = fun k => if k = key then some effect else s.effects k)
    (untouched : s'.compensations = s.compensations)
    (told : o.status ≠ .unknown → o = effect) : Answers s key s' o where
  kept k e known := by
    have other : k ≠ key := by
      intro here
      rw [here, fresh] at known
      cases known
    rw [updated]
    simp [other, known]
  confirmed certain := by
    rw [updated]
    simp [told certain]
  compensations := untouched

theorem Answers.unchanged {o : DispatchOutcome}
    (told : o.status ≠ .unknown → s.effects key = some o) : Answers s key s o :=
  ⟨fun _ _ known => known, told, rfl⟩

theorem dispatch_answers (ctx : Context) (req : DispatchRequest) (s : SimulatedAdapter) :
    Answers s req.idempotencyKey (s.dispatch ctx req).1 (s.dispatch ctx req).2 := by
  unfold dispatch
  simp only
  split
  · rename_i known
    exact .unchanged fun _ => known
  · rename_i known
    split
    · exact .of_update known rfl rfl fun _ => rfl
    split
    · exact .of_update known rfl rfl fun _ => rfl
    split
    · exact .of_update known rfl rfl fun certain => absurd rfl certain
    split
    · exact .unchanged fun certain => absurd rfl certain
    · exact .of_update known rfl rfl fun _ => rfl

theorem reconcile_answers (ctx : Context) (req : DispatchRequest) (s : SimulatedAdapter) :
    Answers s req.idempotencyKey (s.reconcile ctx req).1 (s.reconcile ctx req).2 := by
  unfold reconcile
  split
  · exact .unchanged fun certain => absurd rfl certain
  · split
    · rename_i known
      exact .unchanged fun _ => known
    · rename_i known
      split
      · exact .unchanged fun certain => absurd rfl certain
      · exact .of_update known rfl rfl fun _ => rfl

theorem compensate_effects (ctx : Context) (req : DispatchRequest) (s : SimulatedAdapter) :
    (s.compensate ctx req).1.effects = s.effects := by
  unfold compensate
  split <;> rfl

/-- Only a key that is compensated counts up. -/
theorem compensate_elsewhere (ctx : Context) (req : DispatchRequest) (s : SimulatedAdapter)
    {k : GoString} (other : k ≠ req.idempotencyKey) :
    (s.compensate ctx req).1.compensations k = s.compensations k := by
  unfold compensate
  split
  · rfl
  · simp [other]

/-- The outcome is the effect the target has recorded for the key. -/
def Confirms (s : SimulatedAdapter) (key : GoString) (o : DispatchOutcome) : Prop :=
  ∃ e, s.effects key = some e ∧ o = e.checked

theorem Answers.confirms {s' : SimulatedAdapter} {o : DispatchOutcome}
    (answers : Answers s key s' o) (certain : o.checked.status ≠ .unknown) :
    s'.Confirms key o.checked :=
  ⟨o, answers.confirmed (by rw [DispatchOutcome.status_of_checked certain]; exact certain), rfl⟩

/-- A confirmed outcome that is no FAILURE is a recorded SUCCESS. -/
theorem Confirms.success {o : DispatchOutcome} (confirms : s.Confirms key o)
    (certain : o.status ≠ .unknown) (succeeds : o.status ≠ .failure) :
    ∃ e, s.effects key = some e ∧ e.status = .success := by
  obtain ⟨e, known, rfl⟩ := confirms
  refine ⟨e, known, ?_⟩
  rw [DispatchOutcome.status_of_checked certain]
  rcases e.checked_status with success | failure | unknown
  · exact success
  · exact absurd failure succeeds
  · exact absurd unknown certain

/-- A confirmed FAILURE is the recorded effect itself. -/
theorem Confirms.failure {o : DispatchOutcome} (confirms : s.Confirms key o)
    (fails : o.status = .failure) : s.effects key = some o := by
  obtain ⟨e, known, rfl⟩ := confirms
  rw [DispatchOutcome.checked_of_failure fails]
  exact known

/-- A recorded effect mutated the target once, or was refused before it did. -/
theorem mutations_eq (s : SimulatedAdapter) {e : DispatchOutcome} (known : s.effects key = some e) :
    (e.status = .success → s.mutations key = 1) ∧
    (e.status = .failure → s.mutations key = if e.partiallyApplied then 1 else 0) := by
  have consistent := s.consistent key
  rw [known] at consistent
  rcases consistent with ⟨success, once⟩ | ⟨failure, count⟩
  · refine ⟨fun _ => once, fun failed => ?_⟩
    rw [success] at failed
    cases failed
  · refine ⟨fun succeeded => ?_, fun _ => count⟩
    rw [failure] at succeeded
    cases succeeded

end SimulatedAdapter

def simulatedAdapter : Adapter SimulatedAdapter where
  dispatch ctx req s := s.dispatch ctx req
  reconcile ctx req s := s.reconcile ctx req
  compensate ctx req s := s.compensate ctx req

/-- The worker of `cmd/worker/main.go`: every dependency set, one simulated target. -/
def worker (sdk : Sdk) : Worker SimulatedAdapter where
  sdk
  adapter := some simulatedAdapter
  infraClaims := true
  policy := true
  store := true
  claims := true
  audit := true

end SentryGate.Workflows
