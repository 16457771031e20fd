/-
# Audit.Statements -- the claim statements of the SQLite store, over typed rows

`internal/audit/claims.go` runs `ClaimExecution` as an upsert and, where that
changes nothing, a separate read; `AdvanceClaim` is one conditional UPDATE.  Here
are these statements over the typed contents of the store, each one atomic:

* `upsertClaim` -- INSERT, or UPDATE of a RELEASED row; `true` if a row changed;
* `reportHeld` -- what the follow-up read makes of the row it finds;
* `MemoryStore.advanceClaim` -- the UPDATE.

`Writes` is what one of them does to the whole store: one row changes as
`RowChange` allows, everything else stays.  `claimExecution_statements` runs the
two statements of a claim without anything in between: that is the atomic method.

`appendAudit` is `Append` of `sqlite.go`.  It too is an insert and a read where
nothing was inserted, but an audit row never changes once it is there, so what
the read finds is settled by the insert.
-/
import SentryGate.Decision.Store

namespace SentryGate.Audit

open Theory.Text Contracts Decision

set_option autoImplicit false

/-- The upsert of `ClaimExecution`, with the foreign key of the claims table. -/
def upsertClaim (m : MemoryStore) (decisionID : GoString) (owner : ClaimOwner) (t : Time) :
    MemoryStore × Except StoreError Bool :=
  if known : (m.byID decisionID).isSome then
    if (m.claims decisionID).all (·.state = .released) then
      (m.putClaim { decisionID, owner, state := .claimed, claimedAt := t, updatedAt := t } known,
        .ok true)
    else (m, .ok false)
  else (m, .error .decisionNotFound)

/-- How `ClaimExecution` reports a claim it did not acquire. -/
def reportHeld (owner : ClaimOwner) (c : ExecutionClaim) : Option StoreError :=
  if c.owner = owner ∧ c.state = .claimed then none else some (.claimHeld c)

/-! ## Audit rows -/

/-- Why `Append` fails without a database error. -/
inductive AppendError where
  | missingField
  | conflict (recordID : GoString)
  deriving DecidableEq

def auditPersistFailedText : GoString := ascii "audit trail persistence failed"

/-- `err.Error()`. -/
def AppendError.text : AppendError → GoString
  | .missingField => auditPersistFailedText
  | .conflict recordID =>
      auditPersistFailedText ++ ascii ": record " ++ recordID ++
        ascii " already exists with different content"

/-- The row `Append` writes: a record without a time gets the current one. -/
def stamped (record : AuditRecord) (now : Time) : AuditRecord :=
  if record.recordedAt.isZero then { record with recordedAt := now } else record

theorem stamped_fields (row : AuditRecord) (now : Time) :
    (stamped row now).runID = row.runID ∧ (stamped row now).workflowID = row.workflowID ∧
      (stamped row now).proposalID = row.proposalID ∧ (stamped row now).phase = row.phase ∧
      (stamped row now).verdict = row.verdict ∧ (stamped row now).detail = row.detail := by
  unfold stamped
  split <;> exact ⟨rfl, rfl, rfl, rfl, rfl, rfl⟩

/-- A row that has a time keeps it. -/
theorem stamped_timed {record : AuditRecord} (timed : record.recordedAt.isZero = false) (now : Time) :
    stamped record now = record := by
  unfold stamped
  rw [timed]
  rfl

/-- `Append`. -/
def appendAudit (rows : List AuditRecord) (record : AuditRecord) (now : Time) :
    List AuditRecord × Option AppendError :=
  if record.recordID = [] ∨ record.proposalID = [] ∨ record.phase.text = [] then
    (rows, some .missingField)
  else
    match rows.find? (·.recordID = record.recordID) with
    | none => (rows ++ [stamped record now], none)
    | some existing =>
        if existing = stamped record now then (rows, none)
        else (rows, some (.conflict record.recordID))

/-- Audit rows are never removed. -/
theorem mem_appendAudit {rows : List AuditRecord} {record row : AuditRecord} {now : Time}
    (member : row ∈ rows) : row ∈ (appendAudit rows record now).1 := by
  unfold appendAudit
  split
  · exact member
  · split
    · exact List.mem_append_left _ member
    · split <;> exact member

/-- A row after `Append` was there before, or is the one appended. -/
theorem mem_of_mem_appendAudit {rows : List AuditRecord} {record row : AuditRecord} {now : Time}
    (member : row ∈ (appendAudit rows record now).1) : row ∈ rows ∨ row = stamped record now := by
  unfold appendAudit at member
  split at member
  · exact Or.inl member
  · split at member
    · simpa using member
    · split at member <;> exact Or.inl member

theorem stamped_recordID (record : AuditRecord) (now : Time) :
    (stamped record now).recordID = record.recordID := by
  unfold stamped
  split <;> rfl

/-- Record IDs stay distinct. -/
theorem appendAudit_nodup {rows : List AuditRecord} {record : AuditRecord} {now : Time}
    (distinct : (rows.map AuditRecord.recordID).Nodup) :
    ((appendAudit rows record now).1.map AuditRecord.recordID).Nodup := by
  unfold appendAudit
  split
  · exact distinct
  · split
    · rename_i absent
      rw [List.map_append, List.map_singleton, stamped_recordID]
      refine List.nodup_append.mpr ⟨distinct, List.nodup_singleton _, ?_⟩
      intro id there id' here
      obtain ⟨row, member, rfl⟩ := List.mem_map.mp there
      rw [List.mem_singleton.mp here]
      have other := List.find?_eq_none.mp absent row member
      simpa using other
    · split <;> exact distinct

/-- `Append` of a complete record succeeds where no other row has its ID. -/
theorem appendAudit_accepts {rows : List AuditRecord} {record : AuditRecord} {now : Time}
    (identified : record.recordID ≠ []) (proposed : record.proposalID ≠ [])
    (phased : record.phase.text ≠ [])
    (alone : ∀ row ∈ rows, row.recordID = record.recordID → row = stamped record now) :
    (appendAudit rows record now).2 = none := by
  unfold appendAudit
  rw [if_neg (by simp [identified, proposed, phased])]
  split
  · rfl
  · rename_i existing found
    have same := alone existing (List.mem_of_find?_eq_some found)
      (by simpa using List.find?_some found)
    rw [if_pos same]

/-- And of any record it reports no conflict there. -/
theorem appendAudit_agrees {rows : List AuditRecord} {record : AuditRecord} {now : Time}
    (alone : ∀ row ∈ rows, row.recordID = record.recordID → row = stamped record now)
    (id : GoString) : (appendAudit rows record now).2 ≠ some (.conflict id) := by
  by_cases missing : record.recordID = [] ∨ record.proposalID = [] ∨ record.phase.text = []
  · simp [appendAudit, missing]
  · rw [not_or, not_or] at missing
    obtain ⟨identified, proposed, phased⟩ := missing
    rw [appendAudit_accepts identified proposed phased alone]
    simp

/-- A record `Append` accepted is in the table, with its time. -/
theorem appendAudit_mem {rows : List AuditRecord} {record : AuditRecord} {now : Time}
    (accepted : (appendAudit rows record now).2 = none) :
    stamped record now ∈ (appendAudit rows record now).1 := by
  unfold appendAudit at accepted ⊢
  split at accepted
  · cases accepted
  · rename_i complete
    rw [if_neg complete]
    split at accepted
    · simp
    · rename_i existing found
      by_cases same : existing = stamped record now
      · rw [if_pos same]
        exact same ▸ List.mem_of_find?_eq_some found
      · rw [if_neg same] at accepted
        cases accepted

/-! ## What a statement changes -/

/-- From `m` to `m'` the row of `decisionID` was written as `w` says; nothing else
changed. -/
structure Writes (m : MemoryStore) (decisionID : GoString) (w : ClaimWrite) (m' : MemoryStore) :
    Prop where
  records : m'.records = m.records
  row : RowChange (m.holding? decisionID) w (m'.holding? decisionID)
  elsewhere : ∀ e, e ≠ decisionID → m'.claims e = m.claims e

theorem Writes.holding_elsewhere {m m' : MemoryStore} {decisionID e : GoString} {w : ClaimWrite}
    (writes : Writes m decisionID w m') (different : e ≠ decisionID) :
    m'.holding? e = m.holding? e := by
  simp [MemoryStore.holding?, writes.elsewhere e different]

theorem free_iff (m : MemoryStore) (decisionID : GoString) :
    (m.claims decisionID).all (·.state = .released) = true ↔ Free (m.holding? decisionID) := by
  unfold Free MemoryStore.holding?
  cases m.claims decisionID <;> simp [holding]

/-- The upsert acquires the claim exactly if the decision is recorded and free. -/
theorem upsertClaim_cases (m : MemoryStore) (decisionID : GoString) (owner : ClaimOwner)
    (t : Time) :
    (∃ m', upsertClaim m decisionID owner t = (m', .ok true) ∧
        Writes m decisionID (.acquired owner) m') ∨
    (upsertClaim m decisionID owner t = (m, .ok false) ∧ ¬ Free (m.holding? decisionID)) ∨
    (upsertClaim m decisionID owner t = (m, .error .decisionNotFound) ∧
        m.claims decisionID = none) := by
  unfold upsertClaim
  by_cases known : (m.byID decisionID).isSome
  · rw [dif_pos known]
    by_cases free : Free (m.holding? decisionID)
    · rw [if_pos ((free_iff m decisionID).mpr free)]
      refine Or.inl ⟨_, rfl, rfl, ?_, ?_⟩
      · have row := RowChange.acquired owner free
        simpa [MemoryStore.holding?, MemoryStore.putClaim_claims, holding] using row
      · intro e different
        simp [MemoryStore.putClaim_claims, different]
    · rw [if_neg (fun all => free ((free_iff m decisionID).mp all))]
      exact Or.inr (Or.inl ⟨rfl, free⟩)
  · rw [dif_neg known]
    refine Or.inr (Or.inr ⟨rfl, ?_⟩)
    cases held : m.claims decisionID with
    | none => rfl
    | some c => exact absurd (m.recorded decisionID c held) known

/-- `AdvanceClaim` moves a row its caller holds, or fails and changes nothing. -/
theorem advanceClaim_cases (m : MemoryStore) (decisionID : GoString) (owner : ClaimOwner)
    (target : ClaimState) (t : Time) :
    (∃ m' c, m.advanceClaim none decisionID owner target t = (m', none) ∧
        m.claims decisionID = some c ∧ c.owner = owner ∧ Permits c.state target ∧
        Writes m decisionID (.advanced owner target) m') ∨
    (∃ e, m.advanceClaim none decisionID owner target t = (m, some e) ∧ e.isClaimNotHeld = true ∧
        ∀ c, m.claims decisionID = some c → c.owner = owner → ¬ Permits c.state target) := by
  unfold MemoryStore.advanceClaim
  simp only
  split
  · rename_i unknown
    refine Or.inr ⟨_, rfl, rfl, ?_⟩
    rintro c - - ⟨sources, known, -⟩
    rw [unknown] at known
    cases known
  · rename_i sources known
    split
    · rename_i absent
      refine Or.inr ⟨_, rfl, rfl, ?_⟩
      intro c held
      rw [absent] at held
      cases held
    · rename_i c held
      split
      · rename_i refused
        refine Or.inr ⟨_, rfl, rfl, ?_⟩
        rintro c' held' rfl ⟨sources', known', member⟩
        cases held.symm.trans held'
        cases known.symm.trans known'
        rcases refused with different | missing
        · exact different rfl
        · exact missing member
      · rename_i granted
        simp only [ne_eq, not_or, not_not] at granted
        obtain ⟨rfl, member⟩ := granted
        have keyed := m.keyed decisionID c held
        refine Or.inl ⟨_, c, rfl, held, rfl, ⟨sources, known, member⟩, rfl, ?_, ?_⟩
        · have row : RowChange (m.holding? decisionID) (.advanced c.owner target) _ :=
            .advanced (holding c) target (by simp [MemoryStore.holding?, held])
              ⟨sources, known, member⟩
          simpa [MemoryStore.holding?, MemoryStore.putClaim_claims, keyed, holding] using row
        · intro e different
          simp [MemoryStore.putClaim_claims, keyed, different]

/-- The two statements of a claim, run with nothing in between, are the atomic
`ClaimExecution`. -/
theorem claimExecution_statements (m : MemoryStore) (decisionID : GoString) (owner : ClaimOwner)
    (t : Time) (named : decisionID ≠ []) (valid : owner.valid = true) :
    m.claimExecution none decisionID owner t =
      match upsertClaim m decisionID owner t with
      | (m', .ok true) => (m', none)
      | (m', .ok false) => (m', (m'.claims decisionID).bind (reportHeld owner))
      | (m', .error e) => (m', some e) := by
  unfold MemoryStore.claimExecution upsertClaim
  simp only [named, valid, beq_iff_eq, Bool.not_true, Bool.or_false, if_false]
  by_cases known : (m.byID decisionID).isSome
  · rw [dif_pos known, dif_pos known]
    cases held : m.claims decisionID with
    | none => simp
    | some c =>
        by_cases released : c.state = .released
        · simp [released]
        · by_cases mine : c.owner = owner ∧ c.state = .claimed
          · simp [mine, held, reportHeld]
          · simp [released, mine, held, reportHeld]
  · rw [dif_neg known, dif_neg known]

/-- `ClaimExecution` of a claim that is taken reports it. -/
theorem claimExecution_held (m : MemoryStore) {decisionID : GoString} {owner : ClaimOwner}
    {t : Time} {c : ExecutionClaim} (held : m.claims decisionID = some c)
    (taken : c.state ≠ .released) (named : decisionID ≠ []) (valid : owner.valid = true) :
    m.claimExecution none decisionID owner t = (m, reportHeld owner c) := by
  rw [claimExecution_statements m decisionID owner t named valid]
  unfold upsertClaim
  rw [dif_pos (m.recorded decisionID c held), held, Option.all_some, if_neg (by simpa using taken)]
  simp only [held, Option.bind_some]

end SentryGate.Audit
