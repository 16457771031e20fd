/-
# Audit.Conflicts -- when a write contradicts what is stored

`Append` and `AppendDecision` accept a write under a known ID if it says what is stored
there, and report a conflict otherwise.  A store that was only ever given records with IDs
of their own has nothing else to compare with, so it reports none, whatever the order of
the calls and however often each is made (`AuditTable.append_agrees`,
`Store.appendDecision_agrees`).  The database keeps rows of text, which it may fail to read
back but never reads back as something else.

An audit row without a time is left out: `Append` gives it the time of the call, so a repeated
call would contradict the first.
-/
import SentryGate.Audit.Repeats

namespace SentryGate.Audit

open Theory Theory.Text Contracts Decision

set_option autoImplicit false

/-! ## The table of audit rows -/

namespace AuditTable

variable {W : Set AuditRecord} {t : AuditTable}

/-- Every row was written for one of the records. -/
def WrittenFor (W : Set AuditRecord) (t : AuditTable) : Prop :=
  ∀ row ∈ t.rows, ∃ rec ∈ W, ∃ now, row = auditRow (stamped rec now)

theorem WrittenFor.append {ctx : Context} {rec : AuditRecord} {now : Time} (prior : WrittenFor W t)
    (member : rec ∈ W) : WrittenFor W (t.append ctx rec now).1 := by
  intro row there
  rcases t.append_rows ctx rec now with same | added
  · rw [same] at there
    exact prior row there
  · rw [added] at there
    rcases List.mem_append.mp there with old | new
    · exact prior row old
    · exact ⟨rec, member, now, List.mem_singleton.mp new⟩

theorem WrittenFor.after {calls : List (Context × AppendCall)} (prior : WrittenFor W t)
    (members : ∀ call ∈ calls, call.2.1 ∈ W) : WrittenFor W (t.after calls) := by
  induction calls generalizing t with
  | nil => exact prior
  | cons call calls ih =>
      exact ih (prior.append (members call List.mem_cons_self))
        fun call' later => members call' (List.mem_cons_of_mem _ later)

/-- A row is never read back as another record than it was written for. -/
theorem reportExisting_self (rec : AuditRecord) (id : GoString) :
    reportExisting rec (auditRow rec) ≠ some (.append (.conflict id)) := by
  by_cases inside : InYears rec.recordedAt
  · rw [(reportExisting_self_iff rec).mpr inside]
    simp
  · have unread : parseTime (auditRow rec).recordedAt = none := parseTime_outside inside
    unfold reportExisting scanAudit
    rw [unread]
    simp

/-- **`Append` of a row with a time reports no conflict** with rows that were written for
records with other IDs, or for this one. -/
theorem append_agrees {rec : AuditRecord} (rows : WrittenFor W t)
    (alone : ∀ rec' ∈ W, rec'.recordID = rec.recordID → rec' = rec)
    (timed : rec.recordedAt.isZero = false) (ctx : Context) (now : Time) (id : GoString) :
    (t.append ctx rec now).2 ≠ some (.append (.conflict id)) := by
  cases ctx with
  | some err =>
      unfold append
      split <;> simp
  | none =>
      rcases t.append_cases rec now with ⟨-, done⟩ | ⟨-, -, done, -⟩ | ⟨-, row, found, done⟩
      · rw [done]
        simp
      · rw [done]
        simp
      · obtain ⟨there, named⟩ := (Table.find?_eq_some_iff _ _ _).mp found
        obtain ⟨rec', member, now', rfl⟩ := rows row there
        -- the row was written for this very record, which brought its time along
        have same : rec' = rec := alone rec' member ((stamped_recordID rec' now').symm.trans named)
        subst same
        rw [done, stamped_timed timed, stamped_timed timed]
        exact reportExisting_self rec' id

end AuditTable

/-! ## The table of decisions -/

namespace Store

variable (codec : Codec) (s : Store)

/-- Every decision row was written for one of the records. -/
def WrittenFor (W : Set DecisionRecord) : Prop :=
  ∀ row ∈ s.decisions.rows, ∃ rec ∈ W, row = decisionRow codec rec

variable {codec s} {W : Set DecisionRecord}

theorem WrittenFor.after {calls : List StoreCall} (prior : WrittenFor codec s W)
    (members : ∀ ctx rec, .appendDecision ctx rec ∈ calls → rec ∈ W) :
    WrittenFor codec ((sqliteClaims codec).after s calls) W := by
  induction calls generalizing s with
  | nil => exact prior
  | cons call calls ih =>
      refine ih ?_ fun ctx rec later => members ctx rec (List.mem_cons_of_mem _ later)
      intro row there
      rcases s.call_decisions codec call with same | ⟨ctx, rec, rfl, added⟩
      · rw [same] at there
        exact prior row there
      · rw [added] at there
        rcases List.mem_append.mp there with old | new
        · exact prior row old
        · exact ⟨rec, members ctx rec List.mem_cons_self, List.mem_singleton.mp new⟩

/-- A conflict is another record under the ID. -/
theorem appendDecision_conflict {ctx : Context} {rec : DecisionRecord}
    (conflict : (s.appendDecision codec ctx rec).2 = some .decisionConflict) :
    ∃ row existing, s.decisions.find? rec.decisionID = some row ∧
      scanDecision codec row = .ok existing ∧ existing ≠ rec := by
  unfold appendDecision at conflict
  split at conflict
  · cases conflict
  split at conflict
  · cases conflict
  rcases s.insertDecision_cases (decisionRow codec rec) with ⟨-, one, -⟩ | ⟨there, kept⟩
  · dsimp only at conflict
    rw [if_pos one] at conflict
    cases conflict
  · obtain ⟨row, found⟩ := Option.isSome_iff_exists.mp there
    have found' : s.decisions.find? rec.decisionID = some row := found
    simp only [kept, Nat.zero_ne_one, if_false, found'] at conflict
    cases scan : scanDecision codec row with
    | error e => simp [scan] at conflict
    | ok existing =>
        refine ⟨row, existing, found', scan, ?_⟩
        rintro rfl
        have own : existing.equal existing = true := (DecisionRecord.equal_iff _ _).mpr rfl
        simp [scan, own] at conflict

/-- UTF-8 reasons are read back as they were written, if the time can be read. -/
theorem scanDecision_own {rec existing : DecisionRecord} (utf8 : ∀ r ∈ rec.reasons, Utf8 r.text)
    (read : scanDecision goCodec (decisionRow goCodec rec) = .ok existing) : existing = rec := by
  have timed : (goCodec.parseTime (goCodec.formatTime rec.recordedAt)).isSome := by
    cases time : goCodec.parseTime (goCodec.formatTime rec.recordedAt) with
    | some t => rfl
    | none =>
        unfold scanDecision decisionRow at read
        simp only [goCodec_reasons, time] at read
        cases read
  have own := (scanDecision_eq_iff rec).mpr ⟨utf8, (goCodec_time_iff _).mp timed⟩
  exact Except.ok.inj (read.symm.trans own)

/-- **`AppendDecision` reports no conflict** with rows that were written for records with
other IDs, or for this one. -/
theorem appendDecision_agrees {rec : DecisionRecord} (rows : WrittenFor goCodec s W)
    (alone : ∀ rec' ∈ W, rec'.decisionID = rec.decisionID → rec' = rec)
    (utf8 : ∀ r ∈ rec.reasons, Utf8 r.text) (ctx : Context) :
    (s.appendDecision goCodec ctx rec).2 ≠ some .decisionConflict := by
  intro conflict
  obtain ⟨row, existing, found, read, other⟩ := appendDecision_conflict conflict
  obtain ⟨there, named⟩ := (Table.find?_eq_some_iff _ _ _).mp found
  obtain ⟨rec', member, rfl⟩ := rows row there
  obtain rfl := alone rec' member named
  exact other (scanDecision_own utf8 read)

end Store

end SentryGate.Audit
