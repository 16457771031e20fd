/-
# Audit.Lifecycle -- both claim stores keep the life cycle of a claim

`decision.MemoryStore` and the SQLite `audit.Store` as instances of `ClaimStore`.
Each is shown to keep the laws of one call; `claims_lifecycle` is what follows for every
sequence of calls.  No law of the column encodings is needed: whatever the times and
reasons look like in the table, the claim statements only compare owners and states.
-/
import SentryGate.Audit.Sqlite
import SentryGate.Decision.ClaimStore

namespace SentryGate.Audit

open Theory.Text Contracts Decision

set_option autoImplicit false

/-! ## The in-memory store -/

/-- `MemoryStore` as a claim store. -/
def memoryClaims : ClaimStore MemoryStore ExecutionClaim where
  call m
    | .appendDecision ctx rec => m.appendDecision ctx rec
    | .claimExecution ctx decisionID owner t => m.claimExecution ctx decisionID owner t
    | .advanceClaim ctx decisionID owner target t => m.advanceClaim ctx decisionID owner target t
  claim? m := m.claims
  held := holding
  Recorded m decisionID := ∃ rec ∈ m.records, rec.decisionID = decisionID

/-- A write of the typed statements is a change of the claim store. -/
theorem Writes.changes {m m' : MemoryStore} {decisionID : GoString} {w : ClaimWrite}
    (writes : Writes m decisionID w m') : memoryClaims.Changes m decisionID w m' :=
  ⟨writes.row, writes.elsewhere⟩

theorem memory_claimExecution (m : MemoryStore) (decisionID : GoString) (owner : ClaimOwner)
    (t : Time) (named : decisionID ≠ []) (valid : owner.valid = true) :
    (∃ e, m.claimExecution none decisionID owner t = (m, some e)) ∨
    ∃ m', m.claimExecution none decisionID owner t = (m', none) ∧
      memoryClaims.Effect m m' (.claimExecution none decisionID owner t) := by
  rw [claimExecution_statements m decisionID owner t named valid]
  rcases upsertClaim_cases m decisionID owner t with
    ⟨m', done, writes⟩ | ⟨done, taken⟩ | ⟨done, -⟩ <;> rw [done] <;> dsimp only
  · exact Or.inr ⟨m', rfl, Or.inl writes.changes⟩
  · cases held : m.claims decisionID with
    | none => exact absurd (by simp [Free, MemoryStore.holding?, held]) taken
    | some c =>
        rw [Option.bind_some]
        unfold reportHeld
        split
        · rename_i mine
          refine Or.inr ⟨m, rfl, Or.inr ⟨rfl, ?_⟩⟩
          simp [ClaimStore.holding?, memoryClaims, held, holding, mine]
        · exact Or.inl ⟨_, rfl⟩
  · exact Or.inl ⟨_, rfl⟩

theorem memoryClaims_lawful : memoryClaims.Lawful where
  recorded m d row held := m.claim_recorded held
  outcome m call := by
    cases call with
    | appendDecision ctx rec =>
        dsimp only [memoryClaims]
        rcases m.appendDecision_cases ctx rec with same | ⟨fresh, done⟩
        · cases failed : (m.appendDecision ctx rec).2 with
          | some e => exact Or.inl ⟨e, Prod.ext same failed⟩
          | none => exact Or.inr ⟨m, Prod.ext same failed, fun _ => rfl⟩
        · exact Or.inr ⟨_, done, fun _ => rfl⟩
    | claimExecution ctx d owner t =>
        cases ctx with
        | some err => exact Or.inl ⟨_, rfl⟩
        | none =>
            by_cases refused : (d == [] || !owner.valid) = true
            · refine Or.inl ⟨.invalidClaim d, ?_⟩
              dsimp only [memoryClaims, MemoryStore.claimExecution]
              rw [if_pos refused]
            · obtain ⟨named, valid⟩ : d ≠ [] ∧ owner.valid = true := by simpa using refused
              exact memory_claimExecution m d owner t named valid
    | advanceClaim ctx d owner target t =>
        cases ctx with
        | some err => exact Or.inl ⟨_, rfl⟩
        | none =>
            rcases advanceClaim_cases m d owner target t with
              ⟨m', c, done, -, -, -, writes⟩ | ⟨e, done, -, -⟩
            · exact Or.inr ⟨m', done, writes.changes⟩
            · exact Or.inl ⟨e, done⟩

/-! ## The SQLite store -/

/-- Who holds the claim of a row. -/
def ClaimRow.holding (row : ClaimRow) : Holding := ⟨row.owner, .ofText row.state⟩

/-- The SQLite `Store` as a claim store. -/
def sqliteClaims (codec : Codec) : ClaimStore Store ClaimRow where
  call s
    | .appendDecision ctx rec => s.appendDecision codec ctx rec
    | .claimExecution ctx decisionID owner t => s.claimExecution codec ctx decisionID owner t
    | .advanceClaim ctx decisionID owner target t =>
        s.advanceClaim codec ctx decisionID owner target t
  claim? s := s.claims.find?
  held := ClaimRow.holding
  Recorded s decisionID := ∃ row ∈ s.decisions.rows, row.decisionID = decisionID

namespace Store

variable (codec : Codec) (s : Store)

theorem appendDecision_effect (ctx : Context) (rec : DecisionRecord) :
    (∃ e, s.appendDecision codec ctx rec = (s, some e)) ∨
    ∃ s', s.appendDecision codec ctx rec = (s', none) ∧ s'.claims = s.claims := by
  unfold appendDecision
  split
  · exact Or.inl ⟨_, rfl⟩
  split
  · exact Or.inl ⟨_, rfl⟩
  rcases s.insertDecision_cases (decisionRow codec rec) with
    ⟨-, one, -, same⟩ | ⟨-, nothing⟩
  · refine Or.inr ⟨(s.insertDecision (decisionRow codec rec)).1, ?_, same⟩
    dsimp only
    rw [if_pos one]
  · rw [nothing]
    dsimp only
    rw [if_neg Nat.zero_ne_one]
    split
    · exact Or.inl ⟨_, rfl⟩
    split
    · exact Or.inl ⟨_, rfl⟩
    split
    · exact Or.inl ⟨_, rfl⟩
    · exact Or.inr ⟨s, rfl, rfl⟩

/-- Owner and state of a claim that was read are those of its row. -/
theorem getClaim_ok {ctx : Context} {decisionID : GoString} {c : ExecutionClaim}
    (found : s.getClaim codec ctx decisionID = .ok c) :
    ∃ row, s.claims.find? decisionID = some row ∧ row.owner = c.owner ∧
      .ofText row.state = c.state := by
  unfold getClaim at found
  split at found
  · cases found
  split at found
  · cases found
  rename_i row held
  refine ⟨row, held, ?_⟩
  unfold scanClaim at found
  grind

/-- A claim whose state column reads RELEASED is RELEASED. -/
theorem free_of_released {decisionID : GoString}
    (free : (s.claims.find? decisionID).all (·.state = ascii "RELEASED") = true) :
    Free ((s.claims.find? decisionID).map ClaimRow.holding) := by
  intro h held
  obtain ⟨row, found, rfl⟩ := Option.map_eq_some_iff.mp held
  rw [found, Option.all_some, decide_eq_true_eq] at free
  unfold ClaimRow.holding
  rw [free]
  exact Open.ofText_text ClaimState.released

theorem claimExecution_effect (ctx : Context) (decisionID : GoString) (owner : ClaimOwner)
    (t : Time) :
    (∃ e, s.claimExecution codec ctx decisionID owner t = (s, some e)) ∨
    ∃ s', s.claimExecution codec ctx decisionID owner t = (s', none) ∧
      (sqliteClaims codec).Effect s s' (.claimExecution ctx decisionID owner t) := by
  unfold claimExecution
  split
  · exact Or.inl ⟨_, rfl⟩
  split
  · exact Or.inl ⟨_, rfl⟩
  rcases s.upsertClaim_cases decisionID owner (codec.formatTime t) with
    ⟨-, free, s', done, -, finds⟩ | ⟨-, -, done⟩ | ⟨-, done⟩ <;> rw [done] <;> dsimp only
  · rw [if_pos rfl]
    refine Or.inr ⟨s', rfl, Or.inl ⟨?_, ?_⟩⟩
    · have row := RowChange.acquired owner (s.free_of_released free)
      dsimp only [ClaimStore.holding?, sqliteClaims]
      rw [finds, if_pos rfl]
      exact row
    · intro e different
      dsimp only [sqliteClaims]
      rw [finds, if_neg different]
  · rw [if_neg Nat.zero_ne_one]
    cases read : s.getClaim codec ctx decisionID with
    | error e => exact Or.inl ⟨_, rfl⟩
    | ok c =>
        dsimp only
        unfold reportHeld
        split
        · rename_i mine
          obtain ⟨row, found, ownerRead, stateRead⟩ := s.getClaim_ok codec read
          refine Or.inr ⟨s, rfl, Or.inr ⟨rfl, ?_⟩⟩
          dsimp only [ClaimStore.holding?, sqliteClaims]
          rw [found, Option.map_some, ClaimRow.holding, ownerRead, stateRead, mine.1, mine.2]
        · exact Or.inl ⟨_, rfl⟩
  · exact Or.inl ⟨_, rfl⟩

/-- The WHERE of the UPDATE, read as a condition on the claim. -/
theorem heldIn_iff (decisionID : GoString) (owner : ClaimOwner) (sources : List ClaimState)
    (row : ClaimRow) :
    heldIn decisionID owner sources row = true ↔
      row.decisionID = decisionID ∧ row.owner = owner ∧ row.holding.state ∈ sources := by
  have column : row.state ∈ sources.map Open.text ↔ row.holding.state ∈ sources := by
    unfold ClaimRow.holding
    rw [List.mem_map]
    constructor
    · rintro ⟨st, member, text⟩
      rw [← text]
      exact (Open.ofText_text st).symm ▸ member
    · intro member
      exact ⟨_, member, Open.text_ofText row.state⟩
  obtain ⟨workflowID, runID, token⟩ := owner
  unfold heldIn
  rw [decide_eq_true_eq, column]
  simp only [ClaimRow.owner, ClaimOwner.mk.injEq]
  tauto

theorem advanceClaim_effect (ctx : Context) (decisionID : GoString) (owner : ClaimOwner)
    (target : ClaimState) (t : Time) :
    (∃ e, s.advanceClaim codec ctx decisionID owner target t = (s, some e)) ∨
    ∃ s', s.advanceClaim codec ctx decisionID owner target t = (s', none) ∧
      (sqliteClaims codec).Changes s decisionID (.advanced owner target) s' := by
  unfold advanceClaim
  split
  · exact Or.inl ⟨_, rfl⟩
  rename_i sources known
  split
  · exact Or.inl ⟨_, rfl⟩
  rcases s.updateClaim_cases decisionID owner sources target (codec.formatTime t)
      (claimSources_named known) with
    ⟨row, s', found, matched, done, -, finds⟩ | ⟨-, done⟩ <;> rw [done] <;> dsimp only
  · rw [if_neg (fun different => different rfl)]
    obtain ⟨-, mine, member⟩ := (heldIn_iff _ _ _ _).mp matched
    refine Or.inr ⟨s', rfl, ?_, ?_⟩
    · dsimp only [ClaimStore.holding?, sqliteClaims]
      rw [finds, if_pos rfl, found]
      have change : RowChange (some row.holding) (.advanced row.owner target) _ :=
        .advanced row.holding target rfl ⟨sources, known, member⟩
      rw [← mine]
      simpa only [Option.map_some, ClaimRow.holding, ClaimRow.owner, Open.ofText_text] using change
    · intro e different
      dsimp only [sqliteClaims]
      rw [finds, if_neg different]
  · rw [if_pos Nat.zero_ne_one]
    exact Or.inl ⟨_, rfl⟩

end Store

theorem sqliteClaims_lawful (codec : Codec) : (sqliteClaims codec).Lawful where
  recorded s d row held := by
    have known := s.references row ((s.claims.find?_eq_some_iff d row).mp held).1
    obtain ⟨record, found⟩ := Option.isSome_iff_exists.mp known
    obtain ⟨member, named⟩ := (s.decisions.find?_eq_some_iff _ _).mp found
    exact ⟨record, member, named.trans ((s.claims.find?_eq_some_iff d row).mp held).2⟩
  outcome s call := by
    cases call with
    | appendDecision ctx rec =>
        rcases s.appendDecision_effect codec ctx rec with failed | ⟨s', done, same⟩
        · exact Or.inl failed
        · exact Or.inr ⟨s', done, fun d => by dsimp only [sqliteClaims]; rw [same]⟩
    | claimExecution ctx d owner t => exact s.claimExecution_effect codec ctx d owner t
    | advanceClaim ctx d owner target t => exact s.advanceClaim_effect codec ctx d owner target t

/-! ## The result -/

/-- **Over every sequence of calls, on either store, a decision's claim lives one life:**
recorded first, fenced at most once, then held by one owner for good, completed or failed
but never both; failed calls change nothing and no call touches another decision. -/
theorem claims_lifecycle :
    memoryClaims.Lifecycle ∧ ∀ codec, (sqliteClaims codec).Lifecycle :=
  ⟨memoryClaims_lawful.lifecycle, fun codec => (sqliteClaims_lawful codec).lifecycle⟩

end SentryGate.Audit
