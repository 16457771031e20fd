/-
# Decision.Store -- the in-memory decision and claim store

`internal/decision/store.go` and the store methods of `claim.go`.  A method takes
what `ctx.Err()` reports (`Context`) and returns the store after the call with
the `error` it returned, `none` for nil.

`MemoryStore` carries its own well-formedness: `byID` indexes exactly the records,
a claim is stored under the decision it is about, and only recorded decisions
have claims.
-/
import SentryGate.Decision.Claim

namespace SentryGate.Decision

open Theory.Text Contracts

set_option autoImplicit false

/-- What `ctx.Err()` reports: `none` while the context is live, else the text of
its error. -/
abbrev Context := Option GoString

/-- The errors of the decision and claim stores.  A `claimHeld` carries the claim
that `ClaimHeldError` describes; `unavailable` is any error of the database. -/
inductive StoreError where
  | contextEnded (message : GoString)
  | unavailable (message : GoString)
  | invalidDecisionRecord
  | decisionConflict
  | decisionNotFound
  | invalidClaim (decisionID : GoString)
  | claimHeld (holder : ExecutionClaim)
  | claimNotHeld
  | invalidTarget (target : ClaimState)
  | claimNotFound
  /-- `fmt.Errorf` with the context, a colon and `%w`. -/
  | wrapped (context : GoString) (err : StoreError)
  deriving DecidableEq

namespace StoreError

/-- `errors.Is(err, contracts.ErrClaimNotHeld)`. -/
def isClaimNotHeld : StoreError → Bool
  | .claimNotHeld | .invalidTarget _ => true
  | .wrapped _ err => err.isClaimNotHeld
  | _ => false

def claimNotHeldText : GoString :=
  ascii "execution does not hold the claim in a state that permits this transition"

/-- `err.Error()`. -/
def text (go : Runtime) : StoreError → GoString
  | .contextEnded message => message
  | .unavailable message => message
  | .invalidDecisionRecord => ascii "decision record is missing required fields"
  | .decisionConflict => ascii "decision record conflicts with an existing record"
  | .decisionNotFound => ascii "decision record not found"
  | .invalidClaim decisionID => ascii "invalid claim for decision " ++ go.quote decisionID
  | .claimHeld c =>
      ascii "ingress decision is already claimed by another execution: state=" ++ c.state.text ++
        ascii " workflow_id=" ++ c.owner.workflowID ++ ascii " run_id=" ++ c.owner.runID
  | .claimNotHeld => claimNotHeldText
  | .invalidTarget target =>
      claimNotHeldText ++ ascii ": invalid target state " ++ go.quote target.text
  | .claimNotFound => ascii "execution claim not found"
  | .wrapped context err => context ++ ascii ": " ++ err.text go

end StoreError

structure MemoryStore where
  records : List DecisionRecord
  byID : GoString → Option Nat
  claims : GoString → Option ExecutionClaim
  indexed : ∀ id i, byID id = some i ↔ ∃ r, records[i]? = some r ∧ r.decisionID = id
  keyed : ∀ id c, claims id = some c → c.decisionID = id
  recorded : ∀ id c, claims id = some c → (byID id).isSome

namespace MemoryStore

/-- `NewMemoryStore`. -/
def new : MemoryStore where
  records := []
  byID _ := none
  claims _ := none
  indexed := by simp
  keyed := by simp
  recorded := by simp

/-- The record with the given ID. -/
def record? (m : MemoryStore) (id : GoString) : Option DecisionRecord :=
  (m.byID id).bind fun i => m.records[i]?

/-- Who holds the claim on a decision. -/
def holding? (m : MemoryStore) (id : GoString) : Option Holding :=
  (m.claims id).map holding

/-! ## Decision records -/

/-- Append a record under a new ID. -/
def putRecord (m : MemoryStore) (rec : DecisionRecord) (fresh : m.byID rec.decisionID = none) :
    MemoryStore where
  records := m.records ++ [rec]
  byID id := if id = rec.decisionID then some m.records.length else m.byID id
  claims := m.claims
  indexed id i := by
    split
    · rename_i same
      subst same
      constructor
      · intro here
        cases here
        exact ⟨rec, by simp, rfl⟩
      · rintro ⟨r, found, named⟩
        rw [List.getElem?_append] at found
        split at found
        · have := (m.indexed rec.decisionID i).mpr ⟨r, found, named⟩
          rw [fresh] at this
          cases this
        · rw [List.getElem?_singleton] at found
          split at found
          · exact congrArg some (by omega)
          · cases found
    · rename_i different
      rw [m.indexed]
      constructor
      · rintro ⟨r, found, named⟩
        exact ⟨r, by rw [List.getElem?_append_left (List.getElem?_eq_some_iff.mp found).1]; exact found,
          named⟩
      · rintro ⟨r, found, named⟩
        rw [List.getElem?_append] at found
        split at found
        · exact ⟨r, found, named⟩
        · rw [List.getElem?_singleton] at found
          split at found
          · cases found
            exact absurd named.symm different
          · cases found
  keyed := m.keyed
  recorded id c held := by
    split
    · rfl
    · exact m.recorded id c held

/-- `AppendDecision`. -/
def appendDecision (m : MemoryStore) (ctx : Context) (rec : DecisionRecord) :
    MemoryStore × Option StoreError :=
  if let some err := ctx then (m, some (.contextEnded err))
  else if !rec.validate then (m, some .invalidDecisionRecord)
  else match known : m.byID rec.decisionID with
    | some i =>
        if (m.records[i]?).any (·.equal rec) then (m, none) else (m, some .decisionConflict)
    | none => (m.putRecord rec known, none)

/-- `GetDecision`. -/
def getDecision (m : MemoryStore) (ctx : Context) (decisionID : GoString) :
    Except StoreError DecisionRecord :=
  if let some err := ctx then .error (.contextEnded err)
  else match m.record? decisionID with
    | none => .error .decisionNotFound
    | some r => .ok r

/-- `ListDecisionsByProposal`. -/
def listDecisionsByProposal (m : MemoryStore) (ctx : Context) (proposalID : GoString) :
    Except StoreError (List DecisionRecord) :=
  if let some err := ctx then .error (.contextEnded err)
  else .ok (m.records.filter fun r => r.proposalID == proposalID)

/-! ## Execution claims -/

/-- Store the claim of a recorded decision. -/
def putClaim (m : MemoryStore) (c : ExecutionClaim) (known : (m.byID c.decisionID).isSome) :
    MemoryStore where
  records := m.records
  byID := m.byID
  claims id := if id = c.decisionID then some c else m.claims id
  indexed := m.indexed
  keyed id c' held := by
    split at held
    · rename_i same
      cases held
      exact same.symm
    · exact m.keyed id c' held
  recorded id c' held := by
    split at held
    · rename_i same
      rw [same]
      exact known
    · exact m.recorded id c' held

/-- `ClaimExecution`. -/
def claimExecution (m : MemoryStore) (ctx : Context) (decisionID : GoString) (owner : ClaimOwner)
    (t : Time) : MemoryStore × Option StoreError :=
  if let some err := ctx then (m, some (.contextEnded err))
  else if decisionID == [] || !owner.valid then (m, some (.invalidClaim decisionID))
  else if known : (m.byID decisionID).isSome then
    let fresh : ExecutionClaim :=
      { decisionID, owner, state := .claimed, claimedAt := t, updatedAt := t }
    match m.claims decisionID with
    | none => (m.putClaim fresh known, none)
    | some c =>
        if c.state = .released then (m.putClaim fresh known, none)
        else if c.owner = owner ∧ c.state = .claimed then (m, none)
        else (m, some (.claimHeld c))
  else (m, some .decisionNotFound)

/-- `AdvanceClaim`. -/
def advanceClaim (m : MemoryStore) (ctx : Context) (decisionID : GoString) (owner : ClaimOwner)
    (target : ClaimState) (t : Time) : MemoryStore × Option StoreError :=
  if let some err := ctx then (m, some (.contextEnded err))
  else match claimSources target with
    | none => (m, some (.invalidTarget target))
    | some sources =>
        match held : m.claims decisionID with
        | none => (m, some .claimNotHeld)
        | some c =>
            if c.owner ≠ owner ∨ c.state ∉ sources then (m, some .claimNotHeld)
            else (m.putClaim { c with state := target, updatedAt := t }
              (by rw [m.keyed decisionID c held]; exact m.recorded decisionID c held), none)

/-- `GetClaim`. -/
def getClaim (m : MemoryStore) (ctx : Context) (decisionID : GoString) :
    Except StoreError ExecutionClaim :=
  if let some err := ctx then .error (.contextEnded err)
  else match m.claims decisionID with
    | none => .error .claimNotFound
    | some c => .ok c

/-! ## What the calls change -/

variable (m : MemoryStore)

@[simp] theorem putRecord_records (rec : DecisionRecord) (fresh : m.byID rec.decisionID = none) :
    (m.putRecord rec fresh).records = m.records ++ [rec] := rfl

@[simp] theorem putRecord_claims (rec : DecisionRecord) (fresh : m.byID rec.decisionID = none) :
    (m.putRecord rec fresh).claims = m.claims := rfl

@[simp] theorem putClaim_records (c : ExecutionClaim) (known : (m.byID c.decisionID).isSome) :
    (m.putClaim c known).records = m.records := rfl

theorem putClaim_claims (c : ExecutionClaim) (known : (m.byID c.decisionID).isSome)
    (id : GoString) :
    (m.putClaim c known).claims id = if id = c.decisionID then some c else m.claims id := rfl

theorem record?_eq_some_iff (id : GoString) (r : DecisionRecord) :
    m.record? id = some r ↔ r ∈ m.records ∧ r.decisionID = id := by
  unfold record?
  rw [Option.bind_eq_some_iff]
  constructor
  · rintro ⟨i, known, found⟩
    obtain ⟨r', found', named⟩ := (m.indexed id i).mp known
    cases found.symm.trans found'
    exact ⟨List.mem_of_getElem? found, named⟩
  · rintro ⟨member, named⟩
    obtain ⟨i, found⟩ := List.mem_iff_getElem?.mp member
    exact ⟨i, (m.indexed id i).mpr ⟨r, found, named⟩, found⟩

theorem record?_eq_none_iff (id : GoString) : m.record? id = none ↔ m.byID id = none := by
  unfold record?
  constructor
  · intro absent
    cases known : m.byID id with
    | none => rfl
    | some i =>
        obtain ⟨r, found, -⟩ := (m.indexed id i).mp known
        rw [known, Option.bind_some, found] at absent
        cases absent
  · intro absent
    rw [absent, Option.bind_none]

/-- A decision `GetDecision` returns is a record of the store. -/
theorem getDecision_ok {ctx : Context} {id : GoString} {r : DecisionRecord}
    (found : m.getDecision ctx id = .ok r) : r ∈ m.records ∧ r.decisionID = id := by
  unfold getDecision at found
  split at found
  · cases found
  · split at found
    · cases found
    · rename_i known
      cases found
      exact (m.record?_eq_some_iff id _).mp known

/-- The claim `GetClaim` returns says who holds the decision. -/
theorem holding?_of_getClaim {ctx : Context} {id : GoString} {c : ExecutionClaim}
    (found : m.getClaim ctx id = .ok c) : m.holding? id = some (holding c) := by
  unfold getClaim at found
  split at found
  · cases found
  · split at found
    · cases found
    · rename_i held
      cases found
      simp [holding?, held]

theorem records_nodup : m.records.Nodup := by
  apply List.nodup_iff_getElem?_ne_getElem?.mpr
  intro i j before inside same
  have found := List.getElem?_eq_getElem inside
  have first := (m.indexed _ i).mpr ⟨_, same.trans found, rfl⟩
  have second := (m.indexed _ j).mpr ⟨_, found, rfl⟩
  have equal := Option.some.inj (first.symm.trans second)
  omega

/-- A claim exists only for a recorded decision. -/
theorem claim_recorded {id : GoString} {c : ExecutionClaim} (held : m.claims id = some c) :
    ∃ r ∈ m.records, r.decisionID = id := by
  obtain ⟨i, known⟩ := Option.isSome_iff_exists.mp (m.recorded id c held)
  obtain ⟨r, found, named⟩ := (m.indexed id i).mp known
  exact ⟨r, List.mem_of_getElem? found, named⟩

/-- `AppendDecision` either leaves the store alone, or appends a valid record under
a new ID and succeeds. -/
theorem appendDecision_cases (ctx : Context) (rec : DecisionRecord) :
    (m.appendDecision ctx rec).1 = m ∨
      ∃ fresh, m.appendDecision ctx rec = (m.putRecord rec fresh, none) := by
  unfold appendDecision
  split
  · exact Or.inl rfl
  split
  · exact Or.inl rfl
  split
  · split <;> exact Or.inl rfl
  · rename_i known
    exact Or.inr ⟨known, rfl⟩

/-- A record after `AppendDecision` was there before, or is the one appended. -/
theorem mem_of_mem_appendDecision {ctx : Context} {rec r : DecisionRecord}
    (member : r ∈ (m.appendDecision ctx rec).1.records) : r ∈ m.records ∨ r = rec := by
  rcases m.appendDecision_cases ctx rec with same | ⟨fresh, added⟩
  · rw [same] at member
    exact Or.inl member
  · rw [added] at member
    simpa using member

/-- `AppendDecision` of a valid record under a new ID. -/
theorem appendDecision_new {rec : DecisionRecord} (valid : rec.validate = true)
    (fresh : m.byID rec.decisionID = none) :
    m.appendDecision none rec = (m.putRecord rec fresh, none) := by
  unfold appendDecision
  simp only [valid, Bool.not_true, Bool.false_eq_true, if_false]
  split
  · rename_i known
    rw [fresh] at known
    cases known
  · rfl

/-- `AppendDecision` of a valid record under an ID that is taken. -/
theorem appendDecision_taken {rec r : DecisionRecord} (valid : rec.validate = true)
    (known : m.record? rec.decisionID = some r) :
    m.appendDecision none rec = (m, if r.equal rec then none else some .decisionConflict) := by
  unfold appendDecision
  simp only [valid, Bool.not_true, Bool.false_eq_true, if_false]
  split
  · rename_i i found
    unfold record? at known
    rw [found, Option.bind_some] at known
    rw [known, Option.any_some]
    split <;> rfl
  · rename_i absent
    rw [(m.record?_eq_none_iff _).mpr absent] at known
    cases known

/-- `AppendDecision` of a valid record succeeds where the record under its ID, if any, is
the one given. -/
theorem appendDecision_accepts {rec : DecisionRecord} (valid : rec.validate = true)
    (alone : ∀ rec' ∈ m.records, rec'.decisionID = rec.decisionID → rec' = rec) :
    (m.appendDecision none rec).2 = none := by
  cases known : m.record? rec.decisionID with
  | none => rw [m.appendDecision_new valid ((m.record?_eq_none_iff _).mp known)]
  | some rec' =>
      obtain ⟨member, named⟩ := (m.record?_eq_some_iff _ _).mp known
      rw [m.appendDecision_taken valid known, alone rec' member named]
      simp

/-- And reports no conflict there, valid or not. -/
theorem appendDecision_agrees {rec : DecisionRecord}
    (alone : ∀ rec' ∈ m.records, rec'.decisionID = rec.decisionID → rec' = rec) (ctx : Context) :
    (m.appendDecision ctx rec).2 ≠ some .decisionConflict := by
  cases ctx with
  | some err => simp [appendDecision]
  | none =>
      by_cases valid : rec.validate = true
      · rw [m.appendDecision_accepts valid alone]
        simp
      · simp [appendDecision, valid]

theorem advanceClaim_unknown {d : GoString} {owner : ClaimOwner} {target : ClaimState} {t : Time}
    (unknown : claimSources target = none) :
    m.advanceClaim none d owner target t = (m, some (.invalidTarget target)) := by
  unfold advanceClaim
  simp only [unknown]

/-- `AdvanceClaim` of a claim its caller holds in a source state. -/
theorem advanceClaim_granted {d : GoString} {owner : ClaimOwner} {target : ClaimState} {t : Time}
    {sources : List ClaimState} {c : ExecutionClaim} (known : claimSources target = some sources)
    (held : m.claims d = some c) (mine : c.owner = owner) (member : c.state ∈ sources) :
    ∃ recorded, m.advanceClaim none d owner target t =
      (m.putClaim { c with state := target, updatedAt := t } recorded, none) := by
  refine ⟨by rw [m.keyed d c held]; exact m.recorded d c held, ?_⟩
  unfold advanceClaim
  simp only [known]
  split
  · rename_i absent
    cases held.symm.trans absent
  · rename_i c' held'
    cases held.symm.trans held'
    rw [if_neg (by simp [mine, member])]

/-- `AdvanceClaim` of any other claim. -/
theorem advanceClaim_refused {d : GoString} {owner : ClaimOwner} {target : ClaimState} {t : Time}
    {sources : List ClaimState} (known : claimSources target = some sources)
    (refused : ∀ c, m.claims d = some c → ¬ (c.owner = owner ∧ c.state ∈ sources)) :
    m.advanceClaim none d owner target t = (m, some .claimNotHeld) := by
  unfold advanceClaim
  simp only [known]
  split
  · rfl
  · rename_i c held
    rw [if_pos]
    by_contra granted
    exact refused c held (by simpa using granted)

/-- A record `AppendDecision` accepted is in the store. -/
theorem appendDecision_mem {ctx : Context} {rec : DecisionRecord}
    (accepted : (m.appendDecision ctx rec).2 = none) :
    rec ∈ (m.appendDecision ctx rec).1.records := by
  unfold appendDecision at accepted ⊢
  split at accepted
  · cases accepted
  · by_cases valid : rec.validate = true
    · simp only [valid, Bool.not_true, Bool.false_eq_true, if_false] at accepted ⊢
      split at accepted
      · rename_i i known
        obtain ⟨r, found, named⟩ := (m.indexed _ _).mp known
        have same : r = rec := by
          by_contra different
          simp [found, different] at accepted
        have member := List.mem_of_getElem? found
        simpa [found, same] using member
      · simp
    · simp [valid] at accepted

/-- Records are never removed. -/
theorem mem_appendDecision {ctx : Context} {rec r : DecisionRecord} (member : r ∈ m.records) :
    r ∈ (m.appendDecision ctx rec).1.records := by
  rcases m.appendDecision_cases ctx rec with same | ⟨fresh, done⟩
  · rw [same]
    exact member
  · rw [done]
    simp [member]

@[simp] theorem appendDecision_claims (ctx : Context) (rec : DecisionRecord) :
    (m.appendDecision ctx rec).1.claims = m.claims := by
  rcases m.appendDecision_cases ctx rec with same | ⟨fresh, done⟩
  · rw [same]
  · rw [done]
    rfl

end MemoryStore

end SentryGate.Decision
