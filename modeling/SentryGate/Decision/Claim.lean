/-
# Decision.Claim -- the claim transition table, and what one write does to a row

`internal/decision/claim.go` without its store.  `RowChange` says once everything
a claim-store write can do to the row of one decision, guards included: nothing,
acquire a free row for an owner, or advance a row its owner holds.  Every
property of whole histories is derived from it:

* `RowChange.pastFence` -- past the fence the owner is fixed and the row never
  goes back;
* `RowChange.absorbing` -- COMPLETED and FAILED are final.
-/
import SentryGate.Contracts

namespace SentryGate.Decision

open Theory.Text Contracts

set_option autoImplicit false

/-- `ClaimSources`: the states from which an owner may move a claim to `to`;
`none` for a state no transition leads to. -/
def claimSources : ClaimState → Option (List ClaimState)
  | .executing => some [.claimed]
  | .reconciliationRequired => some [.executing, .reconciliationRequired]
  | .completed => some [.executing, .reconciliationRequired, .completed]
  | .failed => some [.executing, .reconciliationRequired, .failed]
  | .released => some [.claimed, .released]
  | _ => none

/-- A state some transition leads to is one of the named ones. -/
theorem claimSources_named {target : ClaimState} {sources : List ClaimState}
    (known : claimSources target = some sources) : ∃ name, target = .named name := by
  cases target with
  | named name => exact ⟨name, rfl⟩
  | other s unnamed => cases known

/-- The move from `st` to `next` is in the transition table. -/
def Permits (st next : ClaimState) : Prop :=
  ∃ sources, claimSources next = some sources ∧ st ∈ sources

/-- The fence has been passed: the adapter may have been called. -/
def pastFence : ClaimState → Bool
  | .executing | .reconciliationRequired | .completed | .failed => true
  | _ => false

theorem pastFence_iff (st : ClaimState) :
    pastFence st = true ↔ st ∈ [.executing, .reconciliationRequired, .completed, .failed] := by
  cases st with
  | named n => cases n <;> simp [pastFence]
  | other s unnamed => simp [pastFence]

/-- The transition table, row by row. -/
theorem permits_iff (st next : ClaimState) :
    Permits st next ↔
      (next = .executing ∧ st = .claimed) ∨
      (next = .reconciliationRequired ∧ (st = .executing ∨ st = .reconciliationRequired)) ∨
      (next = .completed ∧
        (st = .executing ∨ st = .reconciliationRequired ∨ st = .completed)) ∨
      (next = .failed ∧ (st = .executing ∨ st = .reconciliationRequired ∨ st = .failed)) ∨
      (next = .released ∧ (st = .claimed ∨ st = .released)) := by
  unfold Permits
  cases next with
  | named n => cases n <;> simp [claimSources]
  | other s unnamed => simp [claimSources]

/-- From past the fence, the table leads only past the fence. -/
theorem Permits.pastFence {st next : ClaimState} (allowed : Permits st next)
    (past : pastFence st = true) : pastFence next = true := by
  rcases (permits_iff st next).mp allowed with
    ⟨rfl, rfl⟩ | ⟨rfl, _⟩ | ⟨rfl, _⟩ | ⟨rfl, _⟩ | ⟨rfl, rfl | rfl⟩ <;>
    first
    | rfl
    | simp [Decision.pastFence] at past

/-- `ExecutionKey`: the idempotency key of the execution a decision authorizes. -/
def executionKey (decisionID : GoString) : GoString :=
  ascii "sentrygate.exec.v1:" ++ decisionID

theorem executionKey_injective : Function.Injective executionKey :=
  fun _ _ same => List.append_cancel_left same

@[simp] theorem executionKey_inj (d e : GoString) : executionKey d = executionKey e ↔ d = e :=
  executionKey_injective.eq_iff

/-! ## What one write does to a row -/

/-- Who holds a claim, and in which state. -/
structure Holding where
  owner : ClaimOwner
  state : ClaimState
  deriving DecidableEq

/-- What a stored claim says about who holds the decision. -/
def holding (c : ExecutionClaim) : Holding := ⟨c.owner, c.state⟩

/-- No claim, or one that was given up. -/
def Free (row : Option Holding) : Prop :=
  ∀ h, row = some h → h.state = .released

/-- What a claim-store write did to one decision's row. -/
inductive ClaimWrite where
  | nothing
  | acquired (owner : ClaimOwner)
  | advanced (owner : ClaimOwner) (next : ClaimState)
  deriving DecidableEq

/-- The write takes the row of a decision from `before` to `after`. -/
inductive RowChange (before : Option Holding) : ClaimWrite → Option Holding → Prop where
  | nothing : RowChange before .nothing before
  | acquired (owner : ClaimOwner) (free : Free before) :
      RowChange before (.acquired owner) (some ⟨owner, .claimed⟩)
  | advanced (h : Holding) (next : ClaimState) (held : before = some h)
      (allowed : Permits h.state next) :
      RowChange before (.advanced h.owner next) (some ⟨h.owner, next⟩)

namespace RowChange

variable {before after : Option Holding} {w : ClaimWrite} {h : Holding}

theorem of_nothing (change : RowChange before .nothing after) : after = before := by
  cases change
  rfl

/-- An acquired row was free. -/
theorem of_acquired {owner : ClaimOwner} (change : RowChange before (.acquired owner) after) :
    Free before ∧ after = some ⟨owner, .claimed⟩ := by
  cases change with
  | acquired owner free => exact ⟨free, rfl⟩

/-- An advanced row was held by the owner who advances it. -/
theorem of_advanced {owner : ClaimOwner} {next : ClaimState}
    (change : RowChange before (.advanced owner next) after) :
    ∃ st, before = some ⟨owner, st⟩ ∧ Permits st next ∧ after = some ⟨owner, next⟩ := by
  cases change with
  | advanced h next held allowed => exact ⟨h.state, held, allowed, rfl⟩

/-- No write removes a claim. -/
theorem kept (change : RowChange before w after) (there : before.isSome) : after.isSome := by
  cases change with
  | nothing => exact there
  | acquired => rfl
  | advanced => rfl

/-- Past the fence the owner is fixed and the row stays past the fence. -/
theorem pastFence (change : RowChange before w after) (held : before = some h)
    (past : Decision.pastFence h.state = true) :
    ∃ h', after = some h' ∧ h'.owner = h.owner ∧ Decision.pastFence h'.state = true := by
  cases change with
  | nothing => exact ⟨h, held, rfl, past⟩
  | acquired owner free =>
      rw [free h held] at past
      cases past
  | advanced h' next held' allowed =>
      cases held.symm.trans held'
      exact ⟨_, rfl, rfl, allowed.pastFence past⟩

/-- COMPLETED and FAILED are final: only the move that produced them repeats. -/
theorem absorbing (change : RowChange before w after) (held : before = some h)
    (final : h.state = .completed ∨ h.state = .failed) : after = some h := by
  cases change with
  | nothing => exact held
  | acquired owner free =>
      have released := free h held
      rcases final with e | e <;> rw [e] at released <;> cases released
  | advanced h' next held' allowed =>
      cases held.symm.trans held'
      obtain ⟨owner, st⟩ := h
      have table := (permits_iff _ _).mp allowed
      rcases final with e | e <;> simp only at e <;> subst e <;> simpa using table

end RowChange

end SentryGate.Decision
