/-
# Workflows.FencedCall -- one call of `DispatchConfig`, from its first action to its return

`DispatchConfig` writes the fence and then reads the claim or calls the adapter, and the
claim store is not its own: others call it between the two accesses, its write may fail
with or without committing, and its read may fail.  `dispatchConfigCall?` runs the two
actions of the body with all of that as an argument.

`FencedCall` is what the call guarantees.  The adapter is called exactly if the request is
well formed and the fence write of this call reported success; otherwise the call returns
one of the two fence errors.  EXECUTION_FENCE_REJECTED means that the call left the store
alone, and no call that committed its fence, or comes after one that did, returns it.
`dispatchConfig_fenced` proves it for every history of the store.
-/
import SentryGate.Workflows.Fence
import SentryGate.Audit.Lifecycle

namespace SentryGate.Workflows

open Theory.Text Contracts Policy Decision Audit

set_option autoImplicit false

variable {α : Type} {w : Worker α} {x : Execution} {req : FencedDispatch} {b b' : Backend α}

/-! ## The call -/

/-- What `DispatchConfig` asks of a request before it touches the store. -/
def wellFormed (req : FencedDispatch) : Bool :=
  req.decisionID ≠ [] ∧ req.token ≠ [] ∧
    req.dispatch.idempotencyKey = executionKey req.decisionID

/-- What goes on around a call: the conditions of its two actions, and what others do to
the claim store and the target between them. -/
structure Surroundings (α : Type) where
  first : Conditions
  calls : List StoreCall
  target : α → α
  second : Conditions

/-- The backend after what others do. -/
def Surroundings.pass (e : Surroundings α) (b : Backend α) : Backend α :=
  { b with store := memoryClaims.after b.store e.calls, target := e.target b.target }

/-- A call of `DispatchConfig`: the backend it leaves behind, and its answer. -/
def dispatchConfigCall? (w : Worker α) (x : Execution) (req : FencedDispatch) (e : Surroundings α)
    (b : Backend α) : Option (Backend α × Reply) :=
  match perform w x (.dispatchConfig req) .start e.first b with
  | some (b₁, .finished r) => some (e.pass b₁, r)
  | some (b₁, body) =>
      match perform w x (.dispatchConfig req) body e.second (e.pass b₁) with
      | some (b₂, .finished r) => some (b₂, r)
      | _ => none
  | none => none

/-- The compare-and-set of a call, and what it reports. -/
def fence (x : Execution) (req : FencedDispatch) (c : Conditions) (m : MemoryStore) :
    MemoryStore × Except StoreError (Option StoreError) :=
  c.write m (m.advanceClaim none req.decisionID (claimOwner x req.token) .executing c.now)

/-- The compare-and-set takes effect, whatever it reports. -/
def Commits (x : Execution) (req : FencedDispatch) (c : Conditions) (m : MemoryStore) : Prop :=
  c.fault ≠ .unwritten ∧
    (m.advanceClaim none req.decisionID (claimOwner x req.token) .executing c.now).2 = none

/-- An earlier call under this owner acquired the fence. -/
def AcquiredIn (history : List StoreCall) (decisionID : GoString) (owner : ClaimOwner) : Prop :=
  ∃ before ctx t after,
    history = before ++ .advanceClaim ctx decisionID owner .executing t :: after ∧
    (memoryClaims.call (memoryClaims.after .new before)
      (.advanceClaim ctx decisionID owner .executing t)).2 = none

/-- The answer is a non-retryable error of this type. -/
def FenceError (type : ErrorTypeName) (r : Reply) : Prop :=
  ∃ message cause, r = .failed (.application (.named type) message cause)

/-- What a call guarantees on a store with this history. -/
structure FencedCall (adapter : Adapter α) (x : Execution) (req : FencedDispatch)
    (e : Surroundings α) (history : List StoreCall) (b b' : Backend α) (r : Reply) : Prop where
  /-- the adapter is called exactly for a well-formed request whose fence reports success -/
  called_iff : b'.calls = b.calls ++ [⟨.dispatch, x, req.dispatch⟩] ↔
    wellFormed req = true ∧ (fence x req e.first b.store).2 = .ok none
  /-- a call of the adapter is answered with its outcome -/
  outcome : b'.calls = b.calls ++ [⟨.dispatch, x, req.dispatch⟩] →
    r = .outcome (adapter.dispatch e.second.ctx req.dispatch (e.target b.target)).2.checked
  /-- without one, the answer is a fence error -/
  error : b'.calls ≠ b.calls ++ [⟨.dispatch, x, req.dispatch⟩] →
    b'.calls = b.calls ∧ (FenceError .executionFenceRejected r ∨ FenceError .executionFenceUnknown r)
  /-- a rejected call changed nothing -/
  rejected : FenceError .executionFenceRejected r → b'.store = memoryClaims.after b.store e.calls
  /-- a call that committed its fence, or comes after one of its owner that did, is not rejected -/
  unknown : wellFormed req = true → b'.calls = b.calls →
    Commits x req e.first b.store ∨ AcquiredIn history req.decisionID (claimOwner x req.token) →
    FenceError .executionFenceUnknown r ∧ ¬ FenceError .executionFenceRejected r

/-! ## Its first action -/

section First

variable {c : Conditions} (adapter : w.adapter.isSome = true) (claims : w.infraClaims = true)

include adapter claims

theorem dispatchConfig_malformed (malformed : wellFormed req = false) :
    ∃ message, perform w x (.dispatchConfig req) .start c b = some (b, fenceRejected message []) := by
  obtain ⟨adapter, set⟩ := Option.isSome_iff_exists.mp adapter
  simp only [perform, dispatchConfig, set, claims, Option.isNone_some, Bool.false_eq_true, if_false,
    Bool.not_true]
  by_cases named : req.decisionID = [] ∨ req.token = []
  · rw [if_pos named]
    exact ⟨_, rfl⟩
  · have keyed : req.dispatch.idempotencyKey ≠ executionKey req.decisionID := by
      intro same
      rw [not_or] at named
      simp [wellFormed, named.1, named.2, same] at malformed
    rw [if_neg named, if_pos keyed]
    exact ⟨_, rfl⟩

theorem dispatchConfig_wellFormed (formed : wellFormed req = true) :
    perform w x (.dispatchConfig req) .start c b =
      some ({ b with store := (fence x req c b.store).1 },
        match (fence x req c b.store).2 with
        | .error e =>
            fenceUnknown "execution fence write failed and may have committed"
              (e.text w.sdk.toRuntime)
        | .ok (some e) =>
            if e.isClaimNotHeld then .readFence e
            else fenceUnknown "execution fence write failed and may have committed"
              (e.text w.sdk.toRuntime)
        | .ok none => .callAdapter) := by
  obtain ⟨adapter, set⟩ := Option.isSome_iff_exists.mp adapter
  obtain ⟨named, tokened, keyed⟩ : req.decisionID ≠ [] ∧ req.token ≠ [] ∧
      req.dispatch.idempotencyKey = executionKey req.decisionID := by
    simpa [wellFormed] using formed
  simp only [perform, dispatchConfig, set, claims, Option.isNone_some, Bool.false_eq_true, if_false,
    Bool.not_true, named, tokened, or_self, keyed, ne_eq, not_true]
  rfl

end First

/-- The fence is granted, or lost in a fault, or refused because the row is not this
owner's CLAIMED one. -/
theorem fence_cases (x : Execution) (req : FencedDispatch) (c : Conditions) (m : MemoryStore) :
    (fence x req c m).2 = .ok none ∨
    (∃ err, (fence x req c m).2 = .error err) ∨
    (∃ err, fence x req c m = (m, .ok (some err)) ∧ err.isClaimNotHeld = true ∧
      ¬ Commits x req c m) := by
  unfold fence Commits Conditions.write
  cases c.fault with
  | unwritten => exact Or.inr (Or.inl ⟨_, rfl⟩)
  | written => exact Or.inr (Or.inl ⟨_, rfl⟩)
  | absent =>
      rcases advanceClaim_cases m req.decisionID (claimOwner x req.token) .executing c.now with
        ⟨m', -, done, -⟩ | ⟨err, refused, notHeld, -⟩
      · rw [done]
        exact Or.inl rfl
      · rw [refused]
        exact Or.inr (Or.inr ⟨err, rfl, notHeld, fun commits => by cases commits.2⟩)

/-! ## Its second action -/

/-- An owner that acquired the fence of a decision is the owner of its row, past the fence,
whatever is called afterwards. -/
theorem AcquiredIn.held {history : List StoreCall} {decisionID : GoString} {owner : ClaimOwner}
    (acquired : AcquiredIn history decisionID owner) (later : List StoreCall) :
    ∃ claim, (memoryClaims.after (memoryClaims.after .new history) later).claims decisionID =
      some claim ∧ claim.owner = owner ∧ claim.state ≠ .released := by
  obtain ⟨before, ctx, t, after, rfl, granted⟩ := acquired
  obtain ⟨state, held, past⟩ := memoryClaims_lawful.lifecycle.fixed _ ctx decisionID owner t granted
    (after ++ later)
  have same : memoryClaims.after (memoryClaims.after .new
      (before ++ .advanceClaim ctx decisionID owner .executing t :: after)) later =
      memoryClaims.after (memoryClaims.call (memoryClaims.after .new before)
        (.advanceClaim ctx decisionID owner .executing t)).1 (after ++ later) := by
    simp [ClaimStore.after]
  rw [same]
  obtain ⟨claim, found, holds⟩ := Option.map_eq_some_iff.mp held
  refine ⟨claim, found, congrArg Holding.owner holds, ?_⟩
  rw [show claim.state = state from congrArg Holding.state holds]
  rintro rfl
  simp at past

/-- The read that explains a refused fence ends in one of the two errors. -/
theorem dispatchConfigRead_cases (w : Worker α) (x : Execution) (req : FencedDispatch)
    (err : StoreError) (c : Conditions) (b : Backend α) :
    ∃ r, dispatchConfigRead w x req err c b = .finished r ∧
      (FenceError .executionFenceRejected r ∨ FenceError .executionFenceUnknown r) := by
  unfold dispatchConfigRead
  split
  · exact ⟨_, rfl, Or.inl ⟨_, _, rfl⟩⟩
  · exact ⟨_, rfl, Or.inr ⟨_, _, rfl⟩⟩
  · split
    · exact ⟨_, rfl, Or.inr ⟨_, _, rfl⟩⟩
    · exact ⟨_, rfl, Or.inl ⟨_, _, rfl⟩⟩

/-- It is the unknown one where the owner is past the fence, even if the read fails. -/
theorem dispatchConfigRead_held {err : StoreError} {c : Conditions} {claim : ExecutionClaim}
    (found : b.store.claims req.decisionID = some claim)
    (own : claim.owner = claimOwner x req.token) (taken : claim.state ≠ .released) :
    ∃ r, dispatchConfigRead w x req err c b = .finished r ∧ FenceError .executionFenceUnknown r := by
  have read : b.store.getClaim none req.decisionID = .ok claim := by
    simp [MemoryStore.getClaim, found]
  unfold dispatchConfigRead Conditions.read
  rw [read]
  cases c.fault with
  | absent =>
      simp only [if_pos (And.intro own taken)]
      exact ⟨_, rfl, _, _, rfl⟩
  | unwritten => exact ⟨_, rfl, _, _, rfl⟩
  | written => exact ⟨_, rfl, _, _, rfl⟩

theorem FenceError.unique {type type' : ErrorTypeName} {r : Reply} (error : FenceError type r)
    (error' : FenceError type' r) : type = type' := by
  obtain ⟨message, cause, rfl⟩ := error
  obtain ⟨message', cause', same⟩ := error'
  cases same
  rfl

/-! ## The call as a whole -/

section Call

variable {e : Surroundings α} {history : List StoreCall} {r : Reply} {adapter : Adapter α}

/-- A call that does not reach the adapter. -/
theorem FencedCall.uncalled (same : b'.calls = b.calls)
    (ungranted : ¬ (wellFormed req = true ∧ (fence x req e.first b.store).2 = .ok none))
    (error : FenceError .executionFenceRejected r ∨ FenceError .executionFenceUnknown r)
    (rejected : FenceError .executionFenceRejected r → b'.store = memoryClaims.after b.store e.calls)
    (unknown : wellFormed req = true →
      Commits x req e.first b.store ∨ AcquiredIn history req.decisionID (claimOwner x req.token) →
      FenceError .executionFenceUnknown r) : FencedCall adapter x req e history b b' r := by
  have uncalled : b'.calls ≠ b.calls ++ [⟨.dispatch, x, req.dispatch⟩] := by
    rw [same]
    simp
  refine ⟨⟨fun called => absurd called uncalled, fun granted => absurd granted ungranted⟩,
    fun called => absurd called uncalled, fun _ => ⟨same, error⟩, rejected, ?_⟩
  intro formed _ acquired
  refine ⟨unknown formed acquired, fun denied => ?_⟩
  cases denied.unique (unknown formed acquired)

/-- A call that reaches it. -/
theorem FencedCall.dispatched
    (called : b'.calls = b.calls ++ [⟨.dispatch, x, req.dispatch⟩])
    (granted : wellFormed req = true ∧ (fence x req e.first b.store).2 = .ok none)
    (answer : r = .outcome
      (adapter.dispatch e.second.ctx req.dispatch (e.target b.target)).2.checked) :
    FencedCall adapter x req e history b b' r := by
  refine ⟨⟨fun _ => granted, fun _ => called⟩, fun _ => answer, fun never => absurd called never,
    ?_, ?_⟩
  · rintro ⟨message, cause, failed⟩
    cases answer.symm.trans failed
  · intro _ same
    rw [called] at same
    simp at same

/-- **Every call of `DispatchConfig` returns, and is fenced**: on a store with any history,
whatever others do to it during the call and however its two accesses fail. -/
theorem dispatchConfig_fenced (configured : w.adapter = some adapter)
    (claims : w.infraClaims = true) (x : Execution) (req : FencedDispatch) (e : Surroundings α)
    (reached : b.store = memoryClaims.after .new history) :
    ∃ b' r, dispatchConfigCall? w x req e b = some (b', r) ∧
      FencedCall adapter x req e history b b' r := by
  have set : w.adapter.isSome = true := by rw [configured]; rfl
  unfold dispatchConfigCall?
  cases formed : wellFormed req with
  | false =>
      have first : ∃ message, perform w x (.dispatchConfig req) .start e.first b =
          some (b, fenceRejected message []) := dispatchConfig_malformed set claims formed
      obtain ⟨message, first⟩ := first
      rw [first]
      refine ⟨_, _, rfl, .uncalled rfl ?_ (Or.inl ⟨_, _, rfl⟩) (fun _ => rfl) ?_⟩
      · simp [formed]
      · intro formed'
        cases formed.symm.trans formed'
  | true =>
      rw [dispatchConfig_wellFormed set claims formed]
      rcases fence_cases x req e.first b.store with granted | ⟨err, lost⟩ | ⟨err, refused, notHeld, uncommitted⟩
      · rw [granted]
        simp only [perform, configured, Option.map_some, dispatchConfigCall]
        exact ⟨_, _, rfl, .dispatched rfl ⟨formed, granted⟩ rfl⟩
      · rw [lost]
        refine ⟨_, _, rfl, .uncalled rfl ?_ (Or.inr ⟨_, _, rfl⟩) ?_ fun _ _ => ⟨_, _, rfl⟩⟩
        · rw [lost]
          rintro ⟨-, granted⟩
          cases granted
        · rintro ⟨message, cause, denied⟩
          cases denied
      · rw [refused]
        simp only [notHeld, if_true, perform]
        obtain ⟨r, answer, error⟩ := dispatchConfigRead_cases w x req err e.second (e.pass b)
        rw [answer]
        refine ⟨_, r, rfl, .uncalled rfl ?_ error (fun _ => rfl) ?_⟩
        · rw [refused]
          rintro ⟨-, granted⟩
          cases granted
        · rintro - (commits | acquired)
          · exact absurd commits uncommitted
          · obtain ⟨claim, found, own, taken⟩ := acquired.held e.calls
            rw [← reached] at found
            have read : ∃ r, dispatchConfigRead w x req err e.second (e.pass b) = .finished r ∧
                FenceError .executionFenceUnknown r := dispatchConfigRead_held found own taken
            obtain ⟨r', answer', unknown⟩ := read
            cases answer.symm.trans answer'
            exact unknown

end Call

/-! ## Two calls -/

/-- The run `r` of `w` claims the decision. -/
def claimedHistory : List StoreCall :=
  [.appendDecision none (demoRecord (ascii "n")),
   .claimExecution none (ascii "d") (claimOwner ⟨ascii "w", ascii "r"⟩ (ascii "t")) ⟨1⟩]

/-- And then acquires the fence. -/
def fencedHistory : List StoreCall :=
  claimedHistory ++
    [.advanceClaim none (ascii "d") (claimOwner ⟨ascii "w", ascii "r"⟩ (ascii "t")) .executing ⟨1⟩]

/-- A backend whose store has this history. -/
def historic (history : List StoreCall) : Backend SimulatedAdapter where
  store := memoryClaims.after .new history
  audits := []
  policy := none
  target := .new
  calls := []

def undisturbed : Surroundings SimulatedAdapter := ⟨calm, [], id, calm⟩

theorem dispatchConfig_fenced_demo :
    (∃ b' r, dispatchConfigCall? (worker plainSdk) ⟨ascii "w", ascii "r"⟩
        (fencedDispatch (demoRequest (ascii "n")) (ascii "t")) undisturbed
        (historic claimedHistory) = some (b', r) ∧
      b'.calls = [⟨.dispatch, ⟨ascii "w", ascii "r"⟩, dispatchRequest (demoRequest (ascii "n"))⟩]) ∧
    (∃ b' r, dispatchConfigCall? (worker plainSdk) ⟨ascii "w", ascii "r"⟩
        (fencedDispatch (demoRequest (ascii "n")) (ascii "t")) undisturbed
        (historic fencedHistory) = some (b', r) ∧ FenceError .executionFenceUnknown r) := by
  constructor
  · obtain ⟨b', r, returned, fenced⟩ := dispatchConfig_fenced (w := worker plainSdk)
      (b := historic claimedHistory) rfl rfl ⟨ascii "w", ascii "r"⟩
      (fencedDispatch (demoRequest (ascii "n")) (ascii "t")) undisturbed rfl
    exact ⟨b', r, returned, fenced.called_iff.mpr ⟨by decide +kernel, by decide +kernel⟩⟩
  · obtain ⟨b', r, returned, fenced⟩ := dispatchConfig_fenced (w := worker plainSdk)
      (b := historic fencedHistory) rfl rfl ⟨ascii "w", ascii "r"⟩
      (fencedDispatch (demoRequest (ascii "n")) (ascii "t")) undisturbed rfl
    have refused : (fence ⟨ascii "w", ascii "r"⟩ (fencedDispatch (demoRequest (ascii "n"))
        (ascii "t")) calm (historic fencedHistory).store).2 ≠ .ok none := by decide +kernel
    have same := (fenced.error fun called => refused (fenced.called_iff.mp called).2).1
    have acquired : AcquiredIn fencedHistory (ascii "d")
        (claimOwner ⟨ascii "w", ascii "r"⟩ (ascii "t")) :=
      ⟨claimedHistory, none, ⟨1⟩, [], rfl, by decide +kernel⟩
    exact ⟨b', r, returned, (fenced.unknown (by decide +kernel) same (Or.inr acquired)).1⟩

end SentryGate.Workflows
