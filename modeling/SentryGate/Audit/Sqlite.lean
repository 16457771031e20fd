/-
# Audit.Sqlite -- the SQLite store, column by column

`internal/audit/sqlite.go` and `claims.go` for decision records and execution claims.
Every column is TEXT, so a row is a record of byte strings; times and reasons are
written with the encodings of Go's standard library (`Codec`).  A `Store` carries
what its schema enforces: primary keys (in `Table`), the foreign key from claims to
decisions, and the CHECK on a claim's state.

The methods take what `ctx.Err()` reports; a statement under an ended context is not
run.  `fmt.Errorf("..: %w", err)` keeps the class of an error, so the wrapped error is
returned as it is.
-/
import SentryGate.Theory.Table
import SentryGate.Audit.Statements

namespace SentryGate.Audit

open Theory Theory.Text Contracts Decision

set_option autoImplicit false

/-- How the store writes times (`time.RFC3339Nano`) and lists of strings
(`encoding/json`). -/
structure Codec where
  formatTime : Time → GoString
  parseTime : GoString → Option Time
  marshal : List GoString → GoString
  unmarshal : GoString → Except GoString (List GoString)

/-! ## Rows -/

/-- A row of `decision_records`. -/
structure DecisionRow where
  decisionID : GoString
  stage : GoString
  proposalID : GoString
  agentID : GoString
  requestHash : GoString
  command : GoString
  targetID : GoString
  environment : GoString
  verdict : GoString
  reasons : GoString
  policyVersion : GoString
  policyDigest : GoString
  workflowID : GoString
  traceID : GoString
  recordedAt : GoString
  deriving DecidableEq

/-- A row of `execution_claims`. -/
structure ClaimRow where
  decisionID : GoString
  workflowID : GoString
  runID : GoString
  claimToken : GoString
  state : GoString
  claimedAt : GoString
  updatedAt : GoString
  deriving DecidableEq

variable (codec : Codec)

/-- The row `AppendDecision` inserts. -/
def decisionRow (rec : DecisionRecord) : DecisionRow where
  decisionID := rec.decisionID
  stage := rec.stage.text
  proposalID := rec.proposalID
  agentID := rec.agentID
  requestHash := rec.requestHash
  command := rec.command
  targetID := rec.targetID
  environment := rec.environment
  verdict := rec.verdict.text
  reasons := codec.marshal (rec.reasons.map Open.text)
  policyVersion := rec.policyVersion
  policyDigest := rec.policyDigest
  workflowID := rec.workflowID
  traceID := rec.traceID
  recordedAt := codec.formatTime rec.recordedAt

def timestampText : GoString := ascii "stored timestamp is not RFC 3339"

/-- `scanDecision`. -/
def scanDecision (row : DecisionRow) : Except GoString DecisionRecord :=
  match codec.unmarshal row.reasons with
  | .error e => .error (ascii "decode reasons: " ++ e)
  | .ok reasons =>
      match codec.parseTime row.recordedAt with
      | none => .error timestampText
      | some recordedAt => .ok {
          decisionID := row.decisionID
          stage := .ofText row.stage
          proposalID := row.proposalID
          agentID := row.agentID
          requestHash := row.requestHash
          command := row.command
          targetID := row.targetID
          environment := row.environment
          verdict := .ofText row.verdict
          reasons := reasons.map .ofText
          policyVersion := row.policyVersion
          policyDigest := row.policyDigest
          workflowID := row.workflowID
          traceID := row.traceID
          recordedAt }

/-- The owner columns of a claim. -/
def ClaimRow.owner (row : ClaimRow) : ClaimOwner :=
  { workflowID := row.workflowID, runID := row.runID, token := row.claimToken }

/-- The scan of `GetClaim`. -/
def scanClaim (row : ClaimRow) : Except GoString ExecutionClaim :=
  match codec.parseTime row.claimedAt with
  | none => .error timestampText
  | some claimedAt =>
      match codec.parseTime row.updatedAt with
      | none => .error timestampText
      | some updatedAt =>
          .ok { decisionID := row.decisionID, owner := row.owner, state := .ofText row.state,
                claimedAt, updatedAt }

/-! ## The database -/

@[ext] structure Store where
  decisions : Table DecisionRow GoString DecisionRow.decisionID
  claims : Table ClaimRow GoString ClaimRow.decisionID
  /-- `REFERENCES decision_records(decision_id)`. -/
  references : ∀ row ∈ claims.rows, (decisions.find? row.decisionID).isSome
  /-- `CHECK (state IN (..))`. -/
  states : ∀ row ∈ claims.rows, ∃ name : ClaimStateName, row.state = Wire.text name

namespace Store

/-- A new database. -/
def new : Store where
  decisions := .empty
  claims := .empty
  references := by simp [Table.empty]
  states := by simp [Table.empty]

variable (s : Store)

/-- The INSERT of `AppendDecision`, with the rows affected. -/
def insertDecision (row : DecisionRow) : Store × Nat :=
  ({ s with
      decisions := (s.decisions.insertOrIgnore row).1
      references := fun claim member =>
        s.decisions.find?_insertOrIgnore (s.references claim member) }, (s.decisions.insertOrIgnore row).2)

/-- The row the upsert of `ClaimExecution` inserts. -/
def claimedRow (decisionID : GoString) (owner : ClaimOwner) (ts : GoString) : ClaimRow where
  decisionID
  workflowID := owner.workflowID
  runID := owner.runID
  claimToken := owner.token
  state := ascii "CLAIMED"
  claimedAt := ts
  updatedAt := ts

/-- The upsert of `ClaimExecution`.  The foreign key fails where the decision is not
recorded; a claim that is already there has its decision. -/
def upsertClaim (decisionID : GoString) (owner : ClaimOwner) (ts : GoString) :
    Store × Except StoreError Nat :=
  if known : (s.decisions.find? decisionID).isSome then
    let row := claimedRow decisionID owner ts
    let result := s.claims.upsert row (·.state = ascii "RELEASED")
    ({ s with
        claims := result.1
        references := by
          intro claim member
          rcases s.claims.mem_upsert member with rfl | old
          · exact known
          · exact s.references claim old
        states := by
          intro claim member
          rcases s.claims.mem_upsert member with rfl | old
          · exact ⟨.claimed, rfl⟩
          · exact s.states claim old }, .ok result.2)
  else (s, .error .decisionNotFound)

/-- The WHERE of `AdvanceClaim`. -/
def heldIn (decisionID : GoString) (owner : ClaimOwner) (sources : List ClaimState)
    (row : ClaimRow) : Bool :=
  row.decisionID = decisionID ∧ row.workflowID = owner.workflowID ∧ row.runID = owner.runID ∧
    row.claimToken = owner.token ∧ row.state ∈ sources.map Open.text

/-- The UPDATE of `AdvanceClaim`, with the rows affected. -/
def updateClaim (decisionID : GoString) (owner : ClaimOwner) (sources : List ClaimState)
    (target : ClaimState) (ts : GoString) (named : ∃ name, target = .named name) : Store × Nat :=
  let result := s.claims.update (heldIn decisionID owner sources)
    (fun row => { row with state := target.text, updatedAt := ts }) (fun _ => rfl)
  ({ s with
      claims := result.1
      references := by
        intro claim member
        rcases s.claims.mem_update member with old | ⟨row, old, rfl⟩
        · exact s.references claim old
        · exact s.references row old
      states := by
        intro claim member
        rcases s.claims.mem_update member with old | ⟨row, old, rfl⟩
        · exact s.states claim old
        · obtain ⟨name, rfl⟩ := named
          exact ⟨name, rfl⟩ }, result.2)

/-! ## The methods -/

/-- `AppendDecision`. -/
def appendDecision (ctx : Context) (rec : DecisionRecord) : Store × Option StoreError :=
  if !rec.validate then (s, some .invalidDecisionRecord)
  else if let some err := ctx then (s, some (.contextEnded (ascii "insert decision: " ++ err)))
  else
    let (s', n) := s.insertDecision (decisionRow codec rec)
    if n = 1 then (s', none)
    else match s'.decisions.find? rec.decisionID with
      | none =>
          (s', some (.unavailable (ascii "read existing decision: sql: no rows in result set")))
      | some row =>
          match scanDecision codec row with
          | .error e => (s', some (.unavailable (ascii "read existing decision: " ++ e)))
          | .ok existing =>
              if !existing.equal rec then (s', some .decisionConflict) else (s', none)

/-- `GetDecision`. -/
def getDecision (ctx : Context) (decisionID : GoString) : Except StoreError DecisionRecord :=
  if let some err := ctx then .error (.contextEnded (ascii "read decision: " ++ err))
  else match s.decisions.find? decisionID with
    | none => .error .decisionNotFound
    | some row =>
        match scanDecision codec row with
        | .error e => .error (.unavailable (ascii "read decision: " ++ e))
        | .ok r => .ok r

/-- `ListDecisionsByProposal`: ORDER BY rowid is the order of the table. -/
def listDecisionsByProposal (ctx : Context) (proposalID : GoString) :
    Except StoreError (List DecisionRecord) :=
  if let some err := ctx then .error (.contextEnded err)
  else match (s.decisions.select (·.proposalID = proposalID)).mapM (scanDecision codec) with
    | .error e => .error (.unavailable e)
    | .ok out => .ok out

/-- `GetClaim`. -/
def getClaim (ctx : Context) (decisionID : GoString) : Except StoreError ExecutionClaim :=
  if let some err := ctx then .error (.contextEnded (ascii "read claim: " ++ err))
  else match s.claims.find? decisionID with
    | none => .error .claimNotFound
    | some row =>
        match scanClaim codec row with
        | .error e => .error (.unavailable e)
        | .ok c => .ok c

/-- `ClaimExecution`: the upsert and, where it changed nothing, the read. -/
def claimExecution (ctx : Context) (decisionID : GoString) (owner : ClaimOwner) (t : Time) :
    Store × Option StoreError :=
  if decisionID == [] || !owner.valid then (s, some (.invalidClaim decisionID))
  else if let some err := ctx then (s, some (.contextEnded (ascii "claim execution: " ++ err)))
  else match s.upsertClaim decisionID owner (codec.formatTime t) with
    | (s', .error e) => (s', some e)
    | (s', .ok n) =>
        if n = 1 then (s', none)
        else match s'.getClaim codec ctx decisionID with
          | .error e => (s', some (.wrapped (ascii "read existing claim") e))
          | .ok c => (s', reportHeld owner c)

/-- `AdvanceClaim`. -/
def advanceClaim (ctx : Context) (decisionID : GoString) (owner : ClaimOwner)
    (target : ClaimState) (t : Time) : Store × Option StoreError :=
  match known : claimSources target with
  | none => (s, some (.invalidTarget target))
  | some sources =>
      if let some err := ctx then (s, some (.contextEnded (ascii "advance claim: " ++ err)))
      else
        let (s', n) := s.updateClaim decisionID owner sources target (codec.formatTime t)
          (claimSources_named known)
        if n ≠ 1 then (s', some .claimNotHeld) else (s', none)

theorem advanceClaim_unknown {decisionID : GoString} {owner : ClaimOwner} {target : ClaimState}
    {t : Time} (unknown : claimSources target = none) :
    s.advanceClaim codec none decisionID owner target t = (s, some (.invalidTarget target)) := by
  unfold advanceClaim
  split
  · rfl
  · rename_i known
    cases unknown.symm.trans known

theorem advanceClaim_known {decisionID : GoString} {owner : ClaimOwner} {target : ClaimState}
    {t : Time} {sources : List ClaimState} (known : claimSources target = some sources) :
    s.advanceClaim codec none decisionID owner target t =
      match s.updateClaim decisionID owner sources target (codec.formatTime t)
        (claimSources_named known) with
      | (s', n) => if n ≠ 1 then (s', some .claimNotHeld) else (s', none) := by
  unfold advanceClaim
  split
  · rename_i unknown
    cases unknown.symm.trans known
  · rename_i sources' known'
    cases known.symm.trans known'
    rfl

/-! ## What the statements change -/

/-- The INSERT adds a row under a new ID, or changes nothing. -/
theorem insertDecision_cases (row : DecisionRow) :
    (s.decisions.find? row.decisionID = none ∧ (s.insertDecision row).2 = 1 ∧
      (s.insertDecision row).1.decisions.rows = s.decisions.rows ++ [row] ∧
      (s.insertDecision row).1.claims = s.claims) ∨
    ((s.decisions.find? row.decisionID).isSome ∧ s.insertDecision row = (s, 0)) := by
  rcases s.decisions.insertOrIgnore_cases row with ⟨fresh, one, rows⟩ | ⟨there, same⟩
  · exact Or.inl ⟨fresh, one, rows, rfl⟩
  · have rows : (s.decisions.insertOrIgnore row).1 = s.decisions := by rw [same]
    have count : (s.decisions.insertOrIgnore row).2 = 0 := by rw [same]
    exact Or.inr ⟨there, Prod.ext (Store.ext rows rfl) count⟩

/-- The upsert takes a recorded decision without a claim, or with a RELEASED one. -/
theorem upsertClaim_cases (decisionID : GoString) (owner : ClaimOwner) (ts : GoString) :
    ((s.decisions.find? decisionID).isSome ∧
      (s.claims.find? decisionID).all (·.state = ascii "RELEASED") = true ∧
      ∃ s', s.upsertClaim decisionID owner ts = (s', .ok 1) ∧ s'.decisions = s.decisions ∧
        ∀ d, s'.claims.find? d =
          if d = decisionID then some (claimedRow decisionID owner ts) else s.claims.find? d) ∨
    ((s.decisions.find? decisionID).isSome ∧
      (s.claims.find? decisionID).all (·.state = ascii "RELEASED") = false ∧
      s.upsertClaim decisionID owner ts = (s, .ok 0)) ∨
    (s.decisions.find? decisionID = none ∧
      s.upsertClaim decisionID owner ts = (s, .error .decisionNotFound)) := by
  unfold upsertClaim
  by_cases known : (s.decisions.find? decisionID).isSome
  · rw [dif_pos known]
    rcases s.claims.upsert_cases (claimedRow decisionID owner ts) (·.state = ascii "RELEASED") with
      ⟨free, one, finds⟩ | ⟨taken, same⟩
    · refine Or.inl ⟨known, free, _, Prod.ext rfl (congrArg Except.ok one), rfl, finds⟩
    · exact Or.inr (Or.inl ⟨known, taken, by simp only [same]⟩)
  · rw [dif_neg known]
    exact Or.inr (Or.inr ⟨by simpa using known, rfl⟩)

/-- The UPDATE changes the row its condition names, or nothing. -/
theorem updateClaim_cases (decisionID : GoString) (owner : ClaimOwner)
    (sources : List ClaimState) (target : ClaimState) (ts : GoString)
    (named : ∃ name, target = .named name) :
    (∃ row s', s.claims.find? decisionID = some row ∧
      heldIn decisionID owner sources row = true ∧
      s.updateClaim decisionID owner sources target ts named = (s', 1) ∧
      s'.decisions = s.decisions ∧
      ∀ d, s'.claims.find? d =
        if d = decisionID then some { row with state := target.text, updatedAt := ts }
        else s.claims.find? d) ∨
    ((s.claims.find? decisionID).any (heldIn decisionID owner sources) = false ∧
      s.updateClaim decisionID owner sources target ts named = (s, 0)) := by
  have counted := s.claims.update_count (heldIn decisionID owner sources)
    (fun row => { row with state := target.text, updatedAt := ts }) (fun _ => rfl) decisionID
    (by
      intro row matched
      unfold heldIn at matched
      exact (of_decide_eq_true matched).1)
  cases hit : (s.claims.find? decisionID).any (heldIn decisionID owner sources) with
  | true =>
      rw [hit, if_pos rfl] at counted
      obtain ⟨row, found, matched⟩ := (Option.any_eq_true _ _).mp hit
      refine Or.inl ⟨row, _, found, matched, Prod.ext rfl counted, rfl, fun d => ?_⟩
      dsimp only [updateClaim]
      rw [Table.find?_update]
      by_cases here : d = decisionID
      · subst here
        rw [found, Option.map_some, if_pos matched, if_pos rfl]
      · -- the condition pins the decision, so other rows stay
        rw [if_neg here]
        cases other : s.claims.find? d with
        | none => rfl
        | some row' =>
            have id := ((s.claims.find?_eq_some_iff d row').mp other).2
            rw [Option.map_some, if_neg]
            intro matched'
            unfold heldIn at matched'
            exact here (id.symm.trans (of_decide_eq_true matched').1)
  | false =>
      rw [hit, if_neg Bool.false_ne_true] at counted
      refine Or.inr ⟨rfl, Prod.ext (Store.ext rfl ?_) counted⟩
      exact s.claims.update_nothing counted

end Store

end SentryGate.Audit
