/-
# Decision.Idempotence -- a call that succeeded, made again

Temporal executes a bookkeeping activity at least once, so every call on a store may be
made again later, when other runs have called it as well.  `Idempotent` is what the second
call then does, for each of the calls; `Kept` says for which calls the store can still
tell that it has made them.

It follows from the laws of one call (`Lawful`) and from what the store recalls of the
calls it accepted (`Recall.Lawful`): while a run holds a claim, no call of another owner
touches its row (`Lawful.untouched`), and a claim that was given up stays with its owner
until another one has claimed it (`Lawful.since_claimed`).
-/
import SentryGate.Decision.ClaimStore

namespace SentryGate.Decision.ClaimStore

open Theory.Text Contracts

set_option autoImplicit false

variable {σ κ δ : Type}

/-- The call presents no owner, or another one. -/
def Foreign (owner : ClaimOwner) (call : StoreCall) : Prop :=
  ∀ d other, call.presents = some (d, other) → other ≠ owner

/-- What a call does that is made again after it has succeeded in the given state, other
owners having made any calls in between.  It may carry another time. -/
structure Idempotent (C : ClaimStore σ κ) (Kept : σ → StoreCall → Prop) (s : σ) : Prop where
  /-- `ClaimExecution` leaves the claim to its owner, and reports it as claimed. -/
  claim : ∀ ctx d owner t, (C.call s (.claimExecution ctx d owner t)).2 = none →
    ∀ others, (∀ call ∈ others, Foreign owner call) → ∀ t',
      let now := C.after (C.call s (.claimExecution ctx d owner t)).1 others
      let again := C.call now (.claimExecution none d owner t')
      C.holding? now d = some ⟨owner, .claimed⟩ ∧ C.holding? again.1 d = C.holding? now d ∧
        (again.2 = none ↔ Kept s (.claimExecution ctx d owner t))
  /-- A move past the fence succeeds again and leaves the claim where it is. -/
  settle : ∀ ctx d owner target t,
    target ∈ [.reconciliationRequired, .completed, .failed] →
    (C.call s (.advanceClaim ctx d owner target t)).2 = none →
    ∀ others, (∀ call ∈ others, Foreign owner call) → ∀ t',
      let now := C.after (C.call s (.advanceClaim ctx d owner target t)).1 others
      let again := C.call now (.advanceClaim none d owner target t')
      C.holding? now d = some ⟨owner, target⟩ ∧ C.holding? again.1 d = C.holding? now d ∧
        again.2 = none
  /-- A release succeeds again, or fails without an effect because another owner has
  claimed the decision since. -/
  release : ∀ ctx d owner t, (C.call s (.advanceClaim ctx d owner .released t)).2 = none →
    ∀ others, (∀ call ∈ others, Foreign owner call) → ∀ t',
      let released := (C.call s (.advanceClaim ctx d owner .released t)).1
      let now := C.after released others
      let again := C.call now (.advanceClaim none d owner .released t')
      (again.2 = none ∧ C.holding? again.1 d = some ⟨owner, .released⟩) ∨
      (again.2 ≠ none ∧ again.1 = now ∧ ∃ other state, other ≠ owner ∧
        C.holding? now d = some ⟨other, state⟩ ∧
        ∃ ctx t, .claimExecution ctx d other t ∈ C.accepted released others)
  /-- The fence is not passed again. -/
  fence : ∀ ctx d owner t, (C.call s (.advanceClaim ctx d owner .executing t)).2 = none →
    ∀ others, (∀ call ∈ others, Foreign owner call) → ∀ t',
      let now := C.after (C.call s (.advanceClaim ctx d owner .executing t)).1 others
      let again := C.call now (.advanceClaim none d owner .executing t')
      again.2 ≠ none ∧ again.1 = now
  /-- A decision record is accepted again, whatever was written since. -/
  decision : ∀ ctx rec, (C.call s (.appendDecision ctx rec)).2 = none → ∀ others,
      let now := C.after (C.call s (.appendDecision ctx rec)).1 others
      let again := C.call now (.appendDecision none rec)
      again.1 = now ∧ (again.2 = none ↔ Kept s (.appendDecision ctx rec))

/-! ## What a store recalls -/

/-- What a store recalls of its calls: rows `δ` for decisions, and whether a row can be read
back. -/
structure Recall (C : ClaimStore σ κ) (δ : Type) where
  decision? : σ → GoString → Option δ
  /-- The row a record is written as. -/
  written : DecisionRecord → δ
  /-- The row is read back as the record. -/
  reads : δ → DecisionRecord → Prop
  /-- The claim row can be read back. -/
  readable : κ → Prop
  /-- A claim of this time can be read back. -/
  keeps : Time → Prop

/-- The store can tell that it has accepted the call: it could before, or what it writes is
read back. -/
def Recall.Kept {C : ClaimStore σ κ} (R : C.Recall δ) (s : σ) : StoreCall → Prop
  | .appendDecision _ rec => (R.decision? s rec.decisionID).isSome ∨ R.reads (R.written rec) rec
  | .claimExecution _ d owner t => C.holding? s d = some ⟨owner, .claimed⟩ ∨ R.keeps t
  | .advanceClaim .. => True

structure Recall.Lawful {C : ClaimStore σ κ} (R : C.Recall δ) : Prop where
  /-- No call changes the row of a decision. -/
  kept : ∀ s call id row, R.decision? s id = some row → R.decision? (C.call s call).1 id = some row
  valid : ∀ s ctx rec, (C.call s (.appendDecision ctx rec)).2 = none →
    rec.validate = true ∧ ctx = none
  fresh : ∀ s ctx rec, R.decision? s rec.decisionID = none →
    (C.call s (.appendDecision ctx rec)).2 = none →
    R.decision? (C.call s (.appendDecision ctx rec)).1 rec.decisionID = some (R.written rec)
  taken : ∀ s rec row, rec.validate = true → R.decision? s rec.decisionID = some row →
    (C.call s (.appendDecision none rec)).1 = s ∧
      ((C.call s (.appendDecision none rec)).2 = none ↔ R.reads row rec)
  named : ∀ s ctx d owner t, (C.call s (.claimExecution ctx d owner t)).2 = none →
    d ≠ [] ∧ owner.valid = true ∧ ctx = none
  acquired : ∀ s ctx d owner t, (C.call s (.claimExecution ctx d owner t)).2 = none →
    C.holding? s d ≠ some ⟨owner, .claimed⟩ →
    ∃ row, C.claim? (C.call s (.claimExecution ctx d owner t)).1 d = some row ∧
      (R.readable row ↔ R.keeps t)
  report : ∀ s d owner t row, d ≠ [] → owner.valid = true → C.claim? s d = some row →
    C.held row = ⟨owner, .claimed⟩ →
    ((C.call s (.claimExecution none d owner t)).2 = none ↔ R.readable row)
  grant : ∀ s d owner target t st, C.holding? s d = some ⟨owner, st⟩ → Permits st target →
    (C.call s (.advanceClaim none d owner target t)).2 = none

/-! ## What other owners can do -/

namespace Lawful

variable {C : ClaimStore σ κ} (laws : C.Lawful)

include laws

/-- While an owner holds a claim, a foreign call leaves its row alone. -/
theorem untouched_call {s : σ} {call : StoreCall} {d : GoString} {h : Holding}
    (held : C.holding? s d = some h) (taken : h.state ≠ .released) (foreign : Foreign h.owner call) :
    C.claim? (C.call s call).1 d = C.claim? s d := by
  by_cases here : call.presents.map Prod.fst = some d
  · obtain ⟨⟨e, other⟩, presents, rfl⟩ := Option.map_eq_some_iff.mp here
    have refused := laws.lifecycle.foreign s call e h other held taken presents
      (foreign e other presents)
    rw [laws.failed s call refused]
  · exact laws.elsewhere s call d here

theorem untouched {s : σ} {calls : List StoreCall} {d : GoString} {h : Holding}
    (held : C.holding? s d = some h) (taken : h.state ≠ .released)
    (foreign : ∀ call ∈ calls, Foreign h.owner call) :
    C.claim? (C.after s calls) d = C.claim? s d := by
  induction calls generalizing s with
  | nil => rfl
  | cons call calls ih =>
      have same := laws.untouched_call held taken (foreign call List.mem_cons_self)
      have held' : C.holding? (C.call s call).1 d = some h := by
        unfold holding?
        rw [same]
        exact held
      exact (ih held' fun c member => foreign c (List.mem_cons_of_mem _ member)).trans same

/-- A foreign call leaves a claim to its holder, unless it claims the decision itself. -/
theorem holder_call {s : σ} {call : StoreCall} {d : GoString} {h : Holding} {owner : ClaimOwner}
    (held : C.holding? s d = some h) (foreign : Foreign owner call) :
    ∃ h', C.holding? (C.call s call).1 d = some h' ∧
      ((h'.owner = h.owner ∧ (h.owner = owner → h' = h)) ∨
        (h'.owner ≠ owner ∧ (C.call s call).2 = none ∧
          ∃ ctx t, call = .claimExecution ctx d h'.owner t)) := by
  by_cases here : call.presents.map Prod.fst = some d
  · rcases laws.outcome s call with ⟨e, done⟩ | ⟨s', done, effect⟩ <;> rw [done]
    · exact ⟨h, held, Or.inl ⟨rfl, fun _ => rfl⟩⟩
    · cases call with
      | appendDecision => cases here
      | claimExecution ctx e other t =>
          cases here
          rcases effect with change | ⟨rfl, -⟩
          · exact ⟨_, change.row.of_acquired.2, Or.inr ⟨foreign _ _ rfl, rfl, ctx, t, rfl⟩⟩
          · exact ⟨h, held, Or.inl ⟨rfl, fun _ => rfl⟩⟩
      | advanceClaim ctx e other target t =>
          cases here
          obtain ⟨st, before, -, after⟩ := (Changes.row effect).of_advanced
          cases held.symm.trans before
          exact ⟨_, after, Or.inl ⟨rfl, fun mine => absurd mine (foreign _ _ rfl)⟩⟩
  · refine ⟨h, ?_, Or.inl ⟨rfl, fun _ => rfl⟩⟩
    unfold holding?
    rw [laws.elsewhere s call d here]
    exact held

/-- **Over any calls of others** a claim stays with its owner as it is, or was claimed by
the one who holds it now. -/
theorem since_claimed {s : σ} {calls : List StoreCall} {d : GoString} {h : Holding}
    {owner : ClaimOwner} (held : C.holding? s d = some h)
    (foreign : ∀ call ∈ calls, Foreign owner call) :
    ∃ h', C.holding? (C.after s calls) d = some h' ∧
      ((h'.owner = h.owner ∧ (h.owner = owner → h' = h)) ∨
        (h'.owner ≠ owner ∧ ∃ ctx t, .claimExecution ctx d h'.owner t ∈ C.accepted s calls)) := by
  induction calls generalizing s h with
  | nil => exact ⟨h, held, Or.inl ⟨rfl, fun _ => rfl⟩⟩
  | cons call calls ih =>
      obtain ⟨h₁, held₁, first⟩ := laws.holder_call held (foreign call List.mem_cons_self)
      obtain ⟨h', held', rest⟩ := ih held₁ fun c member => foreign c (List.mem_cons_of_mem _ member)
      have later : ∀ c, c ∈ C.accepted (C.call s call).1 calls → c ∈ C.accepted s (call :: calls) := by
        intro c member
        unfold accepted
        split
        · exact List.mem_cons_of_mem _ member
        · exact member
      refine ⟨h', held', ?_⟩
      rcases rest with ⟨same, stays⟩ | ⟨other, ctx, t, member⟩
      · rcases first with ⟨same₁, stays₁⟩ | ⟨other, ok, ctx, t, claimed⟩
        · refine Or.inl ⟨same.trans same₁, fun mine => ?_⟩
          rw [stays (same₁.trans mine), stays₁ mine]
        · refine Or.inr ⟨same ▸ other, ctx, t, ?_⟩
          unfold accepted
          rw [if_pos ok, same, ← claimed]
          exact List.mem_cons_self
      · exact Or.inr ⟨other, ctx, t, later _ member⟩

/-- After a call that moved a claim, its owner holds it there. -/
theorem advanced {s : σ} {ctx : Context} {d : GoString} {owner : ClaimOwner} {target : ClaimState}
    {t : Time} (ok : (C.call s (.advanceClaim ctx d owner target t)).2 = none) :
    ∃ st, C.holding? s d = some ⟨owner, st⟩ ∧ Permits st target ∧
      C.holding? (C.call s (.advanceClaim ctx d owner target t)).1 d = some ⟨owner, target⟩ :=
  (Changes.row (laws.accepted_effect ok)).of_advanced

/-- After a claim, its owner holds it. -/
theorem claimed {s : σ} {ctx : Context} {d : GoString} {owner : ClaimOwner} {t : Time}
    (ok : (C.call s (.claimExecution ctx d owner t)).2 = none) :
    C.holding? (C.call s (.claimExecution ctx d owner t)).1 d = some ⟨owner, .claimed⟩ := by
  rcases laws.accepted_effect ok with change | ⟨same, mine⟩
  · exact change.row.of_acquired.2
  · rw [same]
    exact mine

/-- A claim its owner holds in CLAIMED is left as it is when they claim it again. -/
theorem claimed_again {s : σ} {ctx : Context} {d : GoString} {owner : ClaimOwner} {t : Time}
    (held : C.holding? s d = some ⟨owner, .claimed⟩) :
    (C.call s (.claimExecution ctx d owner t)).1 = s := by
  rcases laws.outcome s (.claimExecution ctx d owner t) with ⟨e, done⟩ | ⟨s', done, effect⟩ <;> rw [done]
  rcases effect with change | ⟨same, -⟩
  · have released := change.row.of_acquired.1 _ held
    cases released
  · exact same

end Lawful

/-! ## The second call -/

namespace Recall.Lawful

variable {C : ClaimStore σ κ} {R : C.Recall δ} (recalls : R.Lawful)

include recalls

theorem kept_after {s : σ} {calls : List StoreCall} {id : GoString} {row : δ}
    (there : R.decision? s id = some row) : R.decision? (C.after s calls) id = some row := by
  induction calls generalizing s with
  | nil => exact there
  | cons call calls ih => exact ih (recalls.kept s call id row there)

/-- The row a record was accepted under, and whether it is read back as the record. -/
theorem accepted_row {s : σ} {ctx : Context} {rec : DecisionRecord}
    (ok : (C.call s (.appendDecision ctx rec)).2 = none) :
    ∃ row, R.decision? (C.call s (.appendDecision ctx rec)).1 rec.decisionID = some row ∧
      (R.reads row rec ↔ R.Kept s (.appendDecision ctx rec)) := by
  obtain ⟨valid, rfl⟩ := recalls.valid s ctx rec ok
  cases before : R.decision? s rec.decisionID with
  | none =>
      refine ⟨_, recalls.fresh s none rec before ok, ?_⟩
      simp [Kept, before]
  | some row =>
      refine ⟨row, recalls.kept s _ _ _ before, ?_⟩
      have read := (recalls.taken s rec row valid before).2.mp ok
      simp [Kept, before, read]

variable (laws : C.Lawful)

include laws

/-- The row of a claim that was accepted, and whether it can be read back. -/
theorem claimed_row {s : σ} {ctx : Context} {d : GoString} {owner : ClaimOwner} {t : Time}
    (ok : (C.call s (.claimExecution ctx d owner t)).2 = none) :
    ∃ row, C.claim? (C.call s (.claimExecution ctx d owner t)).1 d = some row ∧
      C.held row = ⟨owner, .claimed⟩ ∧
      (R.readable row ↔ R.Kept s (.claimExecution ctx d owner t)) := by
  have holds := laws.claimed ok
  obtain ⟨row, there, held⟩ := Option.map_eq_some_iff.mp holds
  refine ⟨row, there, held, ?_⟩
  obtain ⟨named, valid, rfl⟩ := recalls.named s ctx d owner t ok
  by_cases before : C.holding? s d = some ⟨owner, .claimed⟩
  · rw [laws.claimed_again before] at there
    have readable := (recalls.report s d owner t row named valid there held).mp ok
    simp [Kept, before, readable]
  · obtain ⟨row', there', read⟩ := recalls.acquired s none d owner t ok before
    cases there.symm.trans there'
    simp [Kept, before, read]

/-- **What a store that keeps the laws does with a call it has accepted.** -/
theorem idempotent (s : σ) : C.Idempotent R.Kept s where
  claim ctx d owner t ok others foreign t' := by
    obtain ⟨row, there, held, read⟩ := recalls.claimed_row laws ok
    obtain ⟨named, valid, -⟩ := recalls.named s ctx d owner t ok
    have holds := laws.claimed ok
    have same := laws.untouched holds (by simp) foreign
    have still := (congrArg (Option.map C.held) same).trans holds
    refine ⟨still, ?_, ?_⟩
    · rw [laws.claimed_again still]
    · rw [recalls.report _ d owner t' row named valid (same.trans there) held]
      exact read
  settle ctx d owner target t past ok others foreign t' := by
    obtain ⟨-, -, -, holds⟩ := laws.advanced ok
    have same := laws.untouched holds (by rintro rfl; simp at past) foreign
    have still := (congrArg (Option.map C.held) same).trans holds
    have allowed : Permits target target := by
      rw [permits_iff]
      simp at past
      tauto
    have again := recalls.grant _ d owner target t' target still allowed
    obtain ⟨-, -, -, there⟩ := laws.advanced again
    exact ⟨still, there.trans still.symm, again⟩
  release ctx d owner t ok others foreign t' := by
    obtain ⟨-, -, -, holds⟩ := laws.advanced ok
    obtain ⟨⟨other, state⟩, held, ⟨-, stays⟩ | ⟨different, claimed⟩⟩ := laws.since_claimed holds foreign
    · cases stays rfl
      have again := recalls.grant _ d owner .released t' .released held (by simp [permits_iff])
      obtain ⟨-, -, -, there⟩ := laws.advanced again
      exact Or.inl ⟨again, there⟩
    · have refused : (C.call (C.after (C.call s (.advanceClaim ctx d owner .released t)).1 others)
          (.advanceClaim none d owner .released t')).2 ≠ none := by
        intro again
        obtain ⟨st, mine, -, -⟩ := laws.advanced again
        cases held.symm.trans mine
        exact different rfl
      exact Or.inr ⟨refused, laws.failed _ _ refused, other, state, different, held, claimed⟩
  fence ctx d owner t ok others foreign t' := by
    obtain ⟨-, -, -, holds⟩ := laws.advanced ok
    have same := laws.untouched holds (by simp) foreign
    have still := (congrArg (Option.map C.held) same).trans holds
    have refused : (C.call (C.after (C.call s (.advanceClaim ctx d owner .executing t)).1 others)
        (.advanceClaim none d owner .executing t')).2 ≠ none := by
      intro again
      obtain ⟨st, mine, allowed, -⟩ := laws.advanced again
      cases still.symm.trans mine
      simp [permits_iff] at allowed
    exact ⟨refused, laws.failed _ _ refused⟩
  decision ctx rec ok others := by
    obtain ⟨row, there, read⟩ := recalls.accepted_row ok
    obtain ⟨valid, -⟩ := recalls.valid s ctx rec ok
    obtain ⟨same, again⟩ := recalls.taken _ rec row valid (recalls.kept_after there)
    exact ⟨same, again.trans read⟩

end Recall.Lawful

end SentryGate.Decision.ClaimStore
