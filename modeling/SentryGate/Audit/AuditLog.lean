/-
# Audit.AuditLog -- the audit rows, in the database and in memory

`Append` and `ListByProposal` of `internal/audit/sqlite.go` over rows of text, and of
`MemoryAuditStore` in `workflows/audit.go`.  Where times are of the years 0 to 9999, the
table holds the rows `appendAudit` keeps, in their order (`Holds.append`).

Both stores promise the rows of a proposal in insertion order.  The memory store keeps an
index and reads them off it (`MemoryAuditStore.listByProposal_eq`).  The database sorts by
the text of the time: it returns the same rows (`Holds.listByProposal`), in insertion order
exactly if no fraction of a second begins that of a later row in the same second
(`listByProposal_ordered_iff`).
-/
import SentryGate.Theory.Machine
import SentryGate.Audit.Timestamp

namespace SentryGate.Audit

open Theory Theory.Machine Theory.Text Contracts Decision

set_option autoImplicit false

/-- Why a method of an audit store fails. -/
inductive AuditError where
  | append (e : AppendError)
  | database (cause : GoString)
  | contextEnded (err : GoString)
  deriving DecidableEq

/-- `err.Error()`. -/
def AuditError.text : AuditError → GoString
  | .append e => e.text
  | .database cause => auditPersistFailedText ++ ascii ": " ++ cause
  | .contextEnded err => err

/-- The fields `Append` requires. -/
def complete (rec : AuditRecord) : Bool :=
  !(rec.recordID == [] || rec.proposalID == [] || rec.phase.text == [])

/-! ## The table -/

/-- A row of `audit_records`. -/
structure AuditRow where
  recordID : GoString
  proposalID : GoString
  workflowID : GoString
  runID : GoString
  phase : GoString
  verdict : GoString
  targetID : GoString
  command : GoString
  detail : GoString
  recordedAt : GoString
  deriving DecidableEq

/-- The row `Append` inserts. -/
def auditRow (rec : AuditRecord) : AuditRow where
  recordID := rec.recordID
  proposalID := rec.proposalID
  workflowID := rec.workflowID
  runID := rec.runID
  phase := rec.phase.text
  verdict := rec.verdict.text
  targetID := rec.targetID
  command := rec.command
  detail := rec.detail
  recordedAt := formatTime rec.recordedAt

/-- `scanAudit`. -/
def scanAudit (row : AuditRow) : Except GoString AuditRecord :=
  match parseTime row.recordedAt with
  | none => .error timestampText
  | some recordedAt => .ok {
      recordID := row.recordID
      proposalID := row.proposalID
      workflowID := row.workflowID
      runID := row.runID
      phase := .ofText row.phase
      verdict := .ofText row.verdict
      targetID := row.targetID
      command := row.command
      detail := row.detail
      recordedAt }

abbrev AuditTable := Table AuditRow GoString AuditRow.recordID

namespace AuditTable

/-- What `Append` makes of a row that is there under the record's ID. -/
def reportExisting (record : AuditRecord) (row : AuditRow) : Option AuditError :=
  match scanAudit row with
  | .error e => some (.database e)
  | .ok existing =>
      let sameTime := existing.recordedAt == record.recordedAt
      -- the other fields are compared with both times set to zero
      if !sameTime || { existing with recordedAt := ⟨0⟩ } ≠ { record with recordedAt := ⟨0⟩ } then
        some (.append (.conflict record.recordID))
      else none

/-- `Append`. -/
def append (ctx : Context) (t : AuditTable) (rec : AuditRecord) (now : Time) :
    AuditTable × Option AuditError :=
  if !complete rec then (t, some (.append .missingField))
  else
    let record := stamped rec now
    if let some err := ctx then (t, some (.database err))
    else
      let (t', n) := t.insertOrIgnore (auditRow record)
      if n = 1 then (t', none)
      else match t'.find? record.recordID with
        | none => (t', some (.database (ascii "sql: no rows in result set")))
        | some row => (t', reportExisting record row)

/-- `Append` adds a row under a new ID, or reports the one that is there. -/
theorem append_cases (t : AuditTable) (rec : AuditRecord) (now : Time) :
    (complete rec = false ∧ t.append none rec now = (t, some (.append .missingField))) ∨
    (complete rec = true ∧ t.find? rec.recordID = none ∧ (t.append none rec now).2 = none ∧
      (t.append none rec now).1.rows = t.rows ++ [auditRow (stamped rec now)]) ∨
    (complete rec = true ∧ ∃ row, t.find? rec.recordID = some row ∧
      t.append none rec now = (t, reportExisting (stamped rec now) row)) := by
  have id : (auditRow (stamped rec now)).recordID = rec.recordID := stamped_recordID rec now
  unfold append
  cases required : complete rec with
  | false => exact Or.inl ⟨rfl, rfl⟩
  | true =>
      rcases t.insertOrIgnore_cases (auditRow (stamped rec now)) with
        ⟨fresh, one, added⟩ | ⟨there, kept⟩
      · rw [id] at fresh
        refine Or.inr (Or.inl ⟨rfl, fresh, ?_, ?_⟩) <;>
          simp [one, added]
      · rw [id] at there
        obtain ⟨row, found⟩ := Option.isSome_iff_exists.mp there
        refine Or.inr (Or.inr ⟨rfl, row, found, ?_⟩)
        simp [kept, stamped_recordID, found]

/-- ORDER BY recorded_at, record_id. -/
abbrev listed : AuditRow → AuditRow → Prop := Table.orderBy AuditRow.recordedAt AuditRow.recordID

/-- `ListByProposal`. -/
def listByProposal (ctx : Context) (t : AuditTable) (proposalID : GoString) :
    Except GoString (List AuditRecord) :=
  if let some err := ctx then .error err
  else (t.selectBy (·.proposalID = proposalID) listed).mapM scanAudit

end AuditTable

/-! ## The memory store -/

structure MemoryAuditStore where
  records : List AuditRecord
  byProp : GoString → List ℕ
  /-- The index of a proposal lists the places of its rows, in order. -/
  indexed : ∀ p, (byProp p).map (records[·]?) = (records.filter (·.proposalID = p)).map some

namespace MemoryAuditStore

/-- `NewMemoryAuditStore`. -/
def new : MemoryAuditStore where
  records := []
  byProp _ := []
  indexed _ := rfl

variable (s : MemoryAuditStore)

/-- The index names places in the list only. -/
theorem inside {p : GoString} {i : ℕ} (member : i ∈ s.byProp p) : i < s.records.length := by
  have found : s.records[i]? ∈ (s.records.filter (·.proposalID = p)).map some :=
    s.indexed p ▸ List.mem_map_of_mem member
  obtain ⟨r, -, there⟩ := List.mem_map.mp found
  exact (List.getElem?_eq_some_iff.mp there.symm).1

/-- A row at the end of the list, and its place at the end of its proposal's index. -/
def push (record : AuditRecord) : MemoryAuditStore where
  records := s.records ++ [record]
  byProp p := if p = record.proposalID then s.byProp p ++ [s.records.length] else s.byProp p
  indexed p := by
    have kept : (s.byProp p).map ((s.records ++ [record])[·]?) = (s.byProp p).map (s.records[·]?) :=
      List.map_congr_left fun i member => List.getElem?_append_left (s.inside member)
    by_cases own : p = record.proposalID
    · subst own
      simp only [if_true, List.map_append, kept, s.indexed, List.filter_append]
      simp
    · rw [if_neg own, kept, s.indexed, List.filter_append]
      simp [Ne.symm own]

/-- `Append`. -/
def append (ctx : Context) (rec : AuditRecord) (now : Time) : MemoryAuditStore × Option AuditError :=
  if let some err := ctx then (s, some (.contextEnded err))
  else if !complete rec then (s, some (.append .missingField))
  else (s.push (stamped rec now), none)

/-- `ListByProposal`. -/
def listByProposal (ctx : Context) (proposalID : GoString) : Except GoString (List AuditRecord) :=
  if let some err := ctx then .error err
  else .ok ((s.byProp proposalID).filterMap (s.records[·]?))

/-- **The rows of a proposal are listed as they were written.** -/
theorem listByProposal_eq (p : GoString) :
    s.listByProposal none p = .ok (s.records.filter (·.proposalID = p)) := by
  have rows := congrArg (List.filterMap id) (s.indexed p)
  rw [List.filterMap_map, List.filterMap_map] at rows
  have same : (s.byProp p).filterMap (s.records[·]?) = s.records.filter (·.proposalID = p) := by
    simpa [Function.comp_def] using rows
  unfold listByProposal
  rw [same]

end MemoryAuditStore

/-! ## What the table holds -/

theorem scanAudit_auditRow {r : AuditRecord} (inside : InYears r.recordedAt) :
    scanAudit (auditRow r) = .ok r := by
  unfold scanAudit auditRow
  simp only [parseTime_formatTime inside, Open.ofText_text]

theorem mapM_scanAudit {rs : List AuditRecord} (inside : ∀ r ∈ rs, InYears r.recordedAt) :
    (rs.map auditRow).mapM scanAudit = .ok rs := by
  induction rs with
  | nil => rfl
  | cons r rs ih =>
      rw [List.map_cons, List.mapM_cons, scanAudit_auditRow (inside r List.mem_cons_self),
        ih fun r' member => inside r' (List.mem_cons_of_mem r member)]
      rfl

/-- The order of `ListByProposal`, on the records. -/
abbrev writtenFirst : AuditRecord → AuditRecord → Prop :=
  Table.orderBy (fun r => formatTime r.recordedAt) AuditRecord.recordID

/-- The table holds the records, in order, and can read all of them. -/
structure Holds (records : List AuditRecord) (t : AuditTable) : Prop where
  rows : t.rows = records.map auditRow
  inside : ∀ r ∈ records, InYears r.recordedAt

theorem holds_empty : Holds [] .empty := ⟨rfl, by simp⟩

/-- The time and the other fields are compared apart, which compares the records. -/
theorem differs_iff (a b : AuditRecord) :
    (!(a.recordedAt == b.recordedAt) ||
        decide ({ a with recordedAt := ⟨0⟩ } ≠ { b with recordedAt := ⟨0⟩ })) = true ↔ a ≠ b := by
  obtain ⟨⟩ := a
  obtain ⟨⟩ := b
  simp only [Bool.or_eq_true, Bool.not_eq_true', beq_eq_false_iff_ne, decide_eq_true_eq, ne_eq,
    AuditRecord.mk.injEq, and_true]
  tauto

/-- A row the store can read is reported as `appendAudit` compares it. -/
theorem reportExisting_auditRow {record existing : AuditRecord}
    (inside : InYears existing.recordedAt) :
    AuditTable.reportExisting record (auditRow existing) =
      if existing = record then none else some (.append (.conflict record.recordID)) := by
  unfold AuditTable.reportExisting
  rw [scanAudit_auditRow inside]
  simp only [differs_iff, ne_eq, ite_not]

namespace Holds

variable {records : List AuditRecord} {t : AuditTable} (holds : Holds records t)

include holds

theorem find? (id : GoString) : t.find? id = (records.find? (·.recordID = id)).map auditRow := by
  unfold Table.find?
  rw [holds.rows, List.find?_map]
  rfl

/-- **`Append` keeps the records `appendAudit` keeps**, and reports what it reports. -/
theorem append {rec : AuditRecord} {now : Time} (inside : InYears (stamped rec now).recordedAt) :
    (t.append none rec now).2 = (appendAudit records rec now).2.map .append ∧
      Holds (appendAudit records rec now).1 (t.append none rec now).1 := by
  have lookup := holds.find? rec.recordID
  have required : (rec.recordID = [] ∨ rec.proposalID = [] ∨ rec.phase.text = []) ↔
      complete rec = false := by
    simp only [complete, Bool.not_eq_false', Bool.or_eq_true, beq_iff_eq, or_assoc]
  unfold appendAudit
  rcases t.append_cases rec now with ⟨missing, refused⟩ | ⟨all, fresh, accepted, added⟩ |
    ⟨all, row, found, reported⟩
  · rw [if_pos (required.mpr missing), refused]
    exact ⟨rfl, holds⟩
  · rw [fresh] at lookup
    rw [if_neg (by simp [required, all]), Option.map_eq_none_iff.mp lookup.symm, accepted]
    refine ⟨rfl, ?_, ?_⟩
    · rw [added, holds.rows, List.map_append, List.map_singleton]
    · simp only [List.mem_append, List.mem_singleton]
      rintro r (old | rfl)
      · exact holds.inside r old
      · exact inside
  · rw [found] at lookup
    obtain ⟨existing, there, rfl⟩ := Option.map_eq_some_iff.mp lookup.symm
    have readable := holds.inside existing (List.mem_of_find?_eq_some there)
    rw [if_neg (by simp [required, all]), there, reported, reportExisting_auditRow readable]
    dsimp only
    by_cases same : existing = stamped rec now
    · rw [if_pos same, if_pos same]
      exact ⟨rfl, holds⟩
    · rw [if_neg same, if_neg same, stamped_recordID]
      exact ⟨rfl, holds⟩

/-- **`ListByProposal` returns the records of the proposal**, by the text of their time. -/
theorem listByProposal (p : GoString) : t.listByProposal none p =
    .ok ((records.filter (·.proposalID = p)).insertionSort writtenFirst) := by
  have chosen : t.select (·.proposalID = p) = (records.filter (·.proposalID = p)).map auditRow := by
    unfold Table.select
    rw [holds.rows, List.filter_map]
    rfl
  have ordered := List.map_insertionSort writtenFirst AuditTable.listed auditRow
    (records.filter (·.proposalID = p)) (fun _ _ _ _ => Iff.rfl)
  unfold AuditTable.listByProposal Table.selectBy
  simp only
  rw [chosen, ← ordered]
  refine mapM_scanAudit fun r member => holds.inside r ?_
  exact (List.mem_filter.mp ((List.mem_insertionSort _).mp member)).1

end Holds

/-! ## Runs of successful calls -/

/-- A call of `Append`: the record, and what the clock then shows. -/
abbrev AppendCall := AuditRecord × Time

/-- The records the calls write. -/
def written (calls : List AppendCall) : List AuditRecord := calls.map fun call => stamped call.1 call.2

/-- A call that succeeds. -/
def AuditTable.appended (t : AuditTable) (call : AppendCall) : Option AuditTable :=
  match t.append none call.1 call.2 with
  | (t', none) => some t'
  | (_, some _) => none

def MemoryAuditStore.appended (s : MemoryAuditStore) (call : AppendCall) : Option MemoryAuditStore :=
  match s.append none call.1 call.2 with
  | (s', none) => some s'
  | (_, some _) => none

/-- A call under a new ID that succeeds was complete, and added its record. -/
theorem Holds.appended {records : List AuditRecord} {t t' : AuditTable} {call : AppendCall}
    (holds : Holds records t) (inside : InYears (stamped call.1 call.2).recordedAt)
    (fresh : call.1.recordID ∉ records.map AuditRecord.recordID)
    (accepted : t.appended call = some t') :
    complete call.1 = true ∧ Holds (records ++ [stamped call.1 call.2]) t' := by
  obtain ⟨reported, kept⟩ := holds.append inside
  have absent : records.find? (·.recordID = call.1.recordID) = none := by
    refine List.find?_eq_none.mpr fun r member same => fresh ?_
    exact List.mem_map.mpr ⟨r, member, by simpa using same⟩
  have succeeded : (t.append none call.1 call.2).2 = none ∧ (t.append none call.1 call.2).1 = t' := by
    unfold AuditTable.appended at accepted
    split at accepted
    · rename_i result
      exact ⟨by rw [result], by rw [result]; exact Option.some.inj accepted⟩
    · cases accepted
  unfold appendAudit at reported kept
  rw [absent] at reported kept
  rw [succeeded.1] at reported
  rw [succeeded.2] at kept
  split at reported
  · cases reported
  · rename_i all
    rw [if_neg all] at kept
    exact ⟨by simpa [complete, and_assoc] using all, kept⟩

/-- **Over a run of successful calls under distinct IDs** the table holds what was written,
and the memory store, called alike, lists it. -/
theorem Holds.run {calls : List AppendCall} {records : List AuditRecord} {t t' : AuditTable}
    {s : MemoryAuditStore} (holds : Holds records t) (alike : s.records = records)
    (inside : ∀ r ∈ written calls, InYears r.recordedAt)
    (distinct : (records.map AuditRecord.recordID ++ calls.map (·.1.recordID)).Nodup)
    (ran : exec AuditTable.appended t calls = some t') :
    Holds (records ++ written calls) t' ∧
      ∃ s', exec MemoryAuditStore.appended s calls = some s' ∧ s'.records = records ++ written calls := by
  induction calls generalizing records t s with
  | nil =>
      obtain rfl := Option.some.inj ran
      unfold written
      rw [List.map_nil, List.append_nil]
      exact ⟨holds, s, rfl, alike⟩
  | cons call calls ih =>
      obtain ⟨u, accepted, rest⟩ := Option.bind_eq_some_iff.mp ran
      rw [List.map_cons, List.nodup_append] at distinct
      obtain ⟨old, new, apart⟩ := distinct
      have fresh : call.1.recordID ∉ records.map AuditRecord.recordID := fun there =>
        apart _ there _ List.mem_cons_self rfl
      obtain ⟨all, next⟩ := holds.appended (inside _ List.mem_cons_self) fresh accepted
      have pushed : s.appended call = some (s.push (stamped call.1 call.2)) := by
        simp [MemoryAuditStore.appended, MemoryAuditStore.append, all]
      have later := ih (s := s.push (stamped call.1 call.2)) next
        (by rw [← alike]; rfl) (fun r member => inside r (List.mem_cons_of_mem _ member)) ?_ rest
      · rw [List.append_assoc] at later
        refine ⟨later.1, ?_⟩
        obtain ⟨s', ran', there⟩ := later.2
        exact ⟨s', by rw [exec, pushed]; exact ran', there⟩
      · rw [List.map_append, List.append_assoc, List.nodup_append]
        simp only [List.map_cons, List.map_nil, List.singleton_append, stamped_recordID]
        exact ⟨old, new, apart⟩

/-! ## The order of a listing -/

/-- Records of increasing times are listed in their order exactly if no fraction begins a
later one in the same second. -/
theorem pairwise_writtenFirst_iff {records : List AuditRecord}
    (inside : ∀ r ∈ records, InYears r.recordedAt)
    (increasing : records.Pairwise fun r r' => r.recordedAt.ns < r'.recordedAt.ns) :
    records.Pairwise writtenFirst ↔
      records.Pairwise fun r r' => ¬ Begins r.recordedAt r'.recordedAt := by
  constructor
  · intro ordered
    refine (ordered.and increasing).imp_of_mem ?_
    rintro r r' member member' ⟨first, before⟩ begins
    have later := formatTime_gt (inside r member) (inside r' member') before begins
    rcases first with less | ⟨same, -⟩
    · exact List.lt_asymm less later
    · have equal : formatTime r.recordedAt = formatTime r'.recordedAt := same
      rw [equal] at later
      exact List.lt_irrefl _ later
  · intro apart
    refine (apart.and increasing).imp_of_mem ?_
    rintro r r' member member' ⟨differ, before⟩
    exact Or.inl (formatTime_lt (inside r member) (inside r' member') before differ)

/-- **When `ListByProposal` keeps insertion order.**  After any run of successful `Append`
calls with distinct IDs and increasing times of the years 0 to 9999 it returns the
proposal's rows, each once; in insertion order, as the memory store does, exactly if no row
is followed in the same second by one whose fraction its own digits begin. -/
theorem listByProposal_ordered_iff (calls : List AppendCall) (t : AuditTable)
    (ran : exec AuditTable.appended .empty calls = some t)
    (distinct : (calls.map (·.1.recordID)).Nodup)
    (increasing : (written calls).Pairwise fun r r' => r.recordedAt.ns < r'.recordedAt.ns)
    (inside : ∀ r ∈ written calls, InYears r.recordedAt) (p : GoString) :
    let rows := (written calls).filter (·.proposalID = p)
    (∃ s, exec MemoryAuditStore.appended .new calls = some s ∧ s.listByProposal none p = .ok rows) ∧
    ∃ listing, t.listByProposal none p = .ok listing ∧ listing.Perm rows ∧
      (listing = rows ↔ rows.Pairwise fun r r' => ¬ Begins r.recordedAt r'.recordedAt) := by
  obtain ⟨holds, s, ran', kept⟩ := holds_empty.run (s := .new) rfl inside (by simpa using distinct) ran
  rw [List.nil_append] at holds kept
  refine ⟨⟨s, ran', by rw [s.listByProposal_eq, kept]⟩, _, holds.listByProposal p,
    List.perm_insertionSort _ _, ?_⟩
  rw [Table.insertionSort_eq_iff]
  exact pairwise_writtenFirst_iff (fun r member => inside r (List.mem_filter.mp member).1)
    (increasing.filter _)

/-- A row written at an instant. -/
def sampleAudit (recordID : GoString) (ns : ℤ) : AuditRecord where
  recordID
  proposalID := ascii "p"
  workflowID := ascii "w"
  runID := ascii "r"
  phase := .named .revalidation
  verdict := .named .pass
  targetID := ascii "t"
  command := ascii "c"
  detail := []
  recordedAt := ⟨ns⟩

/-- Two rows, a tenth of a second apart. -/
def tenthCalls : List AppendCall :=
  [(sampleAudit (ascii "a") 63850161605000000000, ⟨1⟩),
   (sampleAudit (ascii "b") 63850161605100000000, ⟨1⟩)]

/-- **A row a tenth of a second after a whole one is listed before it.** -/
theorem listByProposal_reversed :
    (written tenthCalls).Pairwise (fun r r' => r.recordedAt.ns < r'.recordedAt.ns) ∧
    (∀ r ∈ written tenthCalls, InYears r.recordedAt) ∧ (tenthCalls.map (·.1.recordID)).Nodup ∧
    ∃ t, exec AuditTable.appended .empty tenthCalls = some t ∧
      t.listByProposal none (ascii "p") = .ok (written tenthCalls).reverse ∧
      (written tenthCalls).reverse ≠ written tenthCalls := by
  have seen : (exec AuditTable.appended .empty tenthCalls).map
      (fun t => t.listByProposal none (ascii "p")) = some (.ok (written tenthCalls).reverse) := by
    decide +kernel
  obtain ⟨t, ran, listed⟩ := Option.map_eq_some_iff.mp seen
  exact ⟨by decide, by decide, by decide, t, ran, listed, by decide⟩

/-- Two rows, a second and a tenth apart. -/
def secondCalls : List AppendCall :=
  [(sampleAudit (ascii "a") 63850161605000000000, ⟨1⟩),
   (sampleAudit (ascii "b") 63850161606100000000, ⟨1⟩)]

theorem listByProposal_ordered_sample :
    ∃ t, exec AuditTable.appended .empty secondCalls = some t ∧
      t.listByProposal none (ascii "p") = .ok (written secondCalls) := by
  have seen : (exec AuditTable.appended .empty secondCalls).isSome := by decide +kernel
  obtain ⟨t, ran⟩ := Option.isSome_iff_exists.mp seen
  have own : (written secondCalls).filter (·.proposalID = ascii "p") = written secondCalls := by decide
  obtain ⟨-, listing, listed, -, ordered⟩ := listByProposal_ordered_iff secondCalls t ran (by decide)
    (by decide) (by decide) (ascii "p")
  rw [own] at ordered
  rw [ordered.mpr (by decide)] at listed
  exact ⟨t, ran, listed⟩

end SentryGate.Audit
