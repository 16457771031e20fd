/-
# Decision.ClaimStore -- the claim store interface, its laws and their consequences

`ClaimStore` of `internal/decision/claim.go`, as far as it writes: a state, the calls
on it and what each returns.  `Lawful` is what one call may do, and `Lifecycle` is
what follows for every sequence of calls on every decision.
`Lawful.lifecycle` derives the second from the first, for whatever store keeps the
laws.
-/
import SentryGate.Decision.Store

namespace SentryGate.Decision

open Theory.Text Contracts

set_option autoImplicit false

/-- A writing call on a decision and claim store. -/
inductive StoreCall where
  | appendDecision (ctx : Context) (rec : DecisionRecord)
  | claimExecution (ctx : Context) (decisionID : GoString) (owner : ClaimOwner) (t : Time)
  | advanceClaim (ctx : Context) (decisionID : GoString) (owner : ClaimOwner)
      (target : ClaimState) (t : Time)

namespace StoreCall

/-- The decision whose claim the call is about, and the owner it presents. -/
def presents : StoreCall → Option (GoString × ClaimOwner)
  | .appendDecision .. => none
  | .claimExecution _ decisionID owner _ => some (decisionID, owner)
  | .advanceClaim _ decisionID owner _ _ => some (decisionID, owner)

/-- The call asks for the execution fence of a decision. -/
def isFence (decisionID : GoString) : StoreCall → Bool
  | .advanceClaim _ d _ target _ => d = decisionID ∧ target = .executing
  | _ => false

end StoreCall

/-- A store with states `σ` and claim rows `κ`. -/
structure ClaimStore (σ κ : Type) where
  /-- The state after a call, and the error it returned. -/
  call : σ → StoreCall → σ × Option StoreError
  /-- The claim row of a decision. -/
  claim? : σ → GoString → Option κ
  /-- Who holds the claim of a row, and in which state. -/
  held : κ → Holding
  /-- The decisions that are recorded. -/
  Recorded : σ → GoString → Prop

namespace ClaimStore

variable {σ κ : Type} (C : ClaimStore σ κ)

def holding? (s : σ) (decisionID : GoString) : Option Holding :=
  (C.claim? s decisionID).map C.held

/-- The state after a sequence of calls. -/
def after (s : σ) (calls : List StoreCall) : σ :=
  calls.foldl (fun s call => (C.call s call).1) s

/-- The calls of a sequence that returned nil. -/
def accepted (s : σ) : List StoreCall → List StoreCall
  | [] => []
  | call :: calls =>
      let rest := accepted (C.call s call).1 calls
      if (C.call s call).2 = none then call :: rest else rest

/-- From `s` to `s'` the row of `d` was written as `w` says, and no other. -/
structure Changes (s : σ) (d : GoString) (w : ClaimWrite) (s' : σ) : Prop where
  row : RowChange (C.holding? s d) w (C.holding? s' d)
  elsewhere : ∀ e, e ≠ d → C.claim? s' e = C.claim? s e

/-- What a call that returned nil did. -/
def Effect (s s' : σ) : StoreCall → Prop
  | .appendDecision _ _ => ∀ d, C.claim? s' d = C.claim? s d
  | .claimExecution _ d owner _ =>
      C.Changes s d (.acquired owner) s' ∨ s' = s ∧ C.holding? s d = some ⟨owner, .claimed⟩
  | .advanceClaim _ d owner target _ => C.Changes s d (.advanced owner target) s'

/-- One call fails without an effect, or succeeds with its own. -/
structure Lawful : Prop where
  recorded : ∀ s d row, C.claim? s d = some row → C.Recorded s d
  outcome : ∀ s call, (∃ e, C.call s call = (s, some e)) ∨
    ∃ s', C.call s call = (s', none) ∧ C.Effect s s' call

/-- What holds of every decision over every sequence of calls. -/
structure Lifecycle : Prop where
  /-- A claim row exists only for a recorded decision. -/
  recorded : ∀ s d row, C.claim? s d = some row → C.Recorded s d
  /-- The fence of a decision is acquired at most once. -/
  once : ∀ s calls d, (C.accepted s calls).countP (StoreCall.isFence d) ≤ 1
  /-- Once it has been, the owner is fixed and the claim is never given up. -/
  fixed : ∀ s ctx d owner t, (C.call s (.advanceClaim ctx d owner .executing t)).2 = none →
    ∀ calls, ∃ state,
      C.holding? (C.after (C.call s (.advanceClaim ctx d owner .executing t)).1 calls) d =
        some ⟨owner, state⟩ ∧
      state ∈ [.executing, .reconciliationRequired, .completed, .failed]
  /-- COMPLETED and FAILED are absorbing. -/
  final : ∀ s d h, C.holding? s d = some h → h.state = .completed ∨ h.state = .failed →
    ∀ calls, C.holding? (C.after s calls) d = some h
  /-- A call that returns an error changes nothing. -/
  failed : ∀ s call, (C.call s call).2 ≠ none → (C.call s call).1 = s
  /-- A call under another owner than the holder's returns an error. -/
  foreign : ∀ s call d h owner, C.holding? s d = some h → h.state ≠ .released →
    call.presents = some (d, owner) → owner ≠ h.owner → (C.call s call).2 ≠ none
  /-- A call changes no other decision's claim. -/
  elsewhere : ∀ s call d, call.presents.map Prod.fst ≠ some d →
    C.claim? (C.call s call).1 d = C.claim? s d

variable {C}

/-- A call changes no claim but that of the decision it is about. -/
theorem Effect.elsewhere {s s' : σ} {call : StoreCall} {d : GoString} (effect : C.Effect s s' call)
    (other : call.presents.map Prod.fst ≠ some d) : C.claim? s' d = C.claim? s d := by
  cases call with
  | appendDecision ctx rec => exact effect d
  | claimExecution ctx e owner t =>
      rcases effect with change | ⟨rfl, -⟩
      · exact change.elsewhere d fun same => other (congrArg some same.symm)
      · rfl
  | advanceClaim ctx e owner target t =>
      exact Changes.elsewhere effect d fun same => other (congrArg some same.symm)

/-- Whatever the call, a decision's row changes as the transition table allows. -/
theorem Effect.change {s s' : σ} {call : StoreCall} (effect : C.Effect s s' call) (d : GoString) :
    ∃ w, RowChange (C.holding? s d) w (C.holding? s' d) := by
  by_cases here : call.presents.map Prod.fst = some d
  · cases call with
    | appendDecision => cases here
    | claimExecution ctx e owner t =>
        cases here
        rcases effect with change | ⟨rfl, -⟩
        · exact ⟨_, change.row⟩
        · exact ⟨_, .nothing⟩
    | advanceClaim ctx e owner target t =>
        cases here
        exact ⟨_, Changes.row effect⟩
  · refine ⟨.nothing, ?_⟩
    unfold holding?
    rw [effect.elsewhere here]
    exact .nothing

/-- The owner a call presents held the claim before it, unless the call acquired it. -/
theorem Effect.presented {s s' : σ} {call : StoreCall} {d : GoString} {owner : ClaimOwner}
    (effect : C.Effect s s' call) (presents : call.presents = some (d, owner)) :
    Free (C.holding? s d) ∨ ∃ st, C.holding? s d = some ⟨owner, st⟩ := by
  cases call with
  | appendDecision => cases presents
  | claimExecution ctx e owner' t =>
      cases presents
      rcases effect with change | ⟨-, mine⟩
      · exact Or.inl change.row.of_acquired.1
      · exact Or.inr ⟨_, mine⟩
  | advanceClaim ctx e owner' target t =>
      cases presents
      obtain ⟨st, mine, -, -⟩ := (Changes.row effect).of_advanced
      exact Or.inr ⟨st, mine⟩

/-- A fence is acquired from CLAIMED, and leaves the row EXECUTING. -/
theorem Effect.fence {s s' : σ} {call : StoreCall} {d : GoString} (effect : C.Effect s s' call)
    (isFence : call.isFence d = true) :
    ∃ owner, call.presents = some (d, owner) ∧ C.holding? s d = some ⟨owner, .claimed⟩ ∧
      C.holding? s' d = some ⟨owner, .executing⟩ := by
  cases call with
  | appendDecision => cases isFence
  | claimExecution => cases isFence
  | advanceClaim ctx e owner target t =>
      obtain ⟨rfl, rfl⟩ : e = d ∧ target = .executing := by
        simpa [StoreCall.isFence] using isFence
      obtain ⟨st, held, allowed, next⟩ := (Changes.row effect).of_advanced
      have claimed : st = .claimed := by simpa using (permits_iff st .executing).mp allowed
      exact ⟨owner, rfl, claimed ▸ held, next⟩

namespace Lawful

variable (laws : C.Lawful)

include laws

theorem failed (s : σ) (call : StoreCall) (err : (C.call s call).2 ≠ none) :
    (C.call s call).1 = s := by
  rcases laws.outcome s call with ⟨e, done⟩ | ⟨s', done, -⟩ <;> rw [done] at err ⊢
  exact absurd rfl err

theorem accepted_effect {s : σ} {call : StoreCall} (ok : (C.call s call).2 = none) :
    C.Effect s (C.call s call).1 call := by
  rcases laws.outcome s call with ⟨e, done⟩ | ⟨s', done, effect⟩ <;> rw [done] at ok ⊢
  · cases ok
  · exact effect

theorem change (s : σ) (call : StoreCall) (d : GoString) :
    ∃ w, RowChange (C.holding? s d) w (C.holding? (C.call s call).1 d) := by
  rcases laws.outcome s call with ⟨e, done⟩ | ⟨s', done, effect⟩ <;> rw [done]
  · exact ⟨.nothing, .nothing⟩
  · exact effect.change d

theorem elsewhere (s : σ) (call : StoreCall) (d : GoString)
    (other : call.presents.map Prod.fst ≠ some d) :
    C.claim? (C.call s call).1 d = C.claim? s d := by
  rcases laws.outcome s call with ⟨e, done⟩ | ⟨s', done, effect⟩ <;> rw [done]
  exact effect.elsewhere other

/-- A property of rows that every change keeps holds after any calls. -/
theorem keeps {P : Option Holding → Prop}
    (step : ∀ before w after, RowChange before w after → P before → P after)
    (s : σ) (calls : List StoreCall) (d : GoString) (now : P (C.holding? s d)) :
    P (C.holding? (C.after s calls) d) := by
  induction calls generalizing s with
  | nil => exact now
  | cons call calls ih =>
      obtain ⟨w, change⟩ := laws.change s call d
      exact ih _ (step _ _ _ change now)

/-- Past the fence no further fence is accepted. -/
theorem none_past (s : σ) (calls : List StoreCall) (d : GoString) {h : Holding}
    (held : C.holding? s d = some h) (past : pastFence h.state = true) :
    (C.accepted s calls).countP (StoreCall.isFence d) = 0 := by
  induction calls generalizing s h with
  | nil => rfl
  | cons call calls ih =>
      obtain ⟨w, change⟩ := laws.change s call d
      obtain ⟨h', held', -, past'⟩ := change.pastFence held past
      have rest := ih _ held' past'
      unfold accepted
      split
      · rename_i ok
        rw [List.countP_cons_of_neg, rest]
        intro isFence
        obtain ⟨owner, -, claimed, -⟩ := (laws.accepted_effect ok).fence isFence
        cases held.symm.trans claimed
        cases past
      · exact rest

theorem at_most_one (s : σ) (calls : List StoreCall) (d : GoString) :
    (C.accepted s calls).countP (StoreCall.isFence d) ≤ 1 := by
  induction calls generalizing s with
  | nil => exact Nat.zero_le _
  | cons call calls ih =>
      unfold accepted
      split
      · rename_i ok
        by_cases isFence : StoreCall.isFence d call = true
        · -- the one that is accepted: the rest of the sequence runs past the fence
          obtain ⟨owner, -, -, executing⟩ := (laws.accepted_effect ok).fence isFence
          have rest := laws.none_past _ calls d executing rfl
          rw [List.countP_cons_of_pos isFence]
          omega
        · rw [List.countP_cons_of_neg isFence]
          exact ih _
      · exact ih _

/-- **The laws of one call give the lifecycle of every sequence of calls.** -/
theorem lifecycle : C.Lifecycle where
  recorded := laws.recorded
  once := laws.at_most_one
  fixed s ctx d owner t ok calls := by
    obtain ⟨owner', presents, -, executing⟩ :=
      (laws.accepted_effect ok).fence (d := d) (by simp [StoreCall.isFence])
    cases presents
    have kept := laws.keeps
      (P := fun row => ∃ h, row = some h ∧ h.owner = owner ∧ pastFence h.state = true)
      (by
        rintro before w after change ⟨h, held, rfl, past⟩
        exact change.pastFence held past)
      _ calls d ⟨_, executing, rfl, rfl⟩
    obtain ⟨⟨owner', state⟩, held, rfl, past⟩ := kept
    exact ⟨state, held, (pastFence_iff state).mp past⟩
  final s d h held ended calls := by
    refine laws.keeps (P := fun row => row = some h) ?_ s calls d held
    intro before w after change now
    exact change.absorbing now ended
  failed := laws.failed
  foreign s call d h owner held taken presents other ok := by
    rcases (laws.accepted_effect ok).presented presents with free | ⟨st, mine⟩
    · exact taken (free h held)
    · cases held.symm.trans mine
      exact other rfl
  elsewhere := laws.elsewhere

end Lawful

end ClaimStore

end SentryGate.Decision
