/-
# Audit.Repeats -- bookkeeping calls made again, on both stores

What each store recalls of the calls it accepted (`memoryRecall`, `sqliteRecall`), and so
what a repeated call does on it (`repeats_harmless`).  The memory store recalls everything.
The SQLite store compares a repeated claim, decision or audit row with what it reads back,
so it recalls what its encodings keep: times of the years 0 to 9999, UTF-8 reasons.  A row
it cannot read is accepted once and refused from then on (`claim_not_repeated`).
-/
import SentryGate.Decision.Idempotence
import SentryGate.Audit.AuditLog
import SentryGate.Audit.Equivalence

namespace SentryGate.Audit

open Theory Theory.Text Contracts Decision

set_option autoImplicit false

/-! ## The memory store -/

/-- The memory store keeps records and claims as they are. -/
def memoryRecall : memoryClaims.Recall DecisionRecord where
  decision? := MemoryStore.record?
  written := id
  reads r rec := r.equal rec = true
  readable _ := True
  keeps _ := True

/-- No call removes a record. -/
theorem mem_call {m : MemoryStore} {call : StoreCall} {r : DecisionRecord} (member : r ∈ m.records) :
    r ∈ (memoryClaims.call m call).1.records := by
  cases call with
  | appendDecision ctx rec => exact m.mem_appendDecision member
  | claimExecution ctx d owner t =>
      dsimp only [memoryClaims]
      unfold MemoryStore.claimExecution
      grind [MemoryStore.putClaim_records]
  | advanceClaim ctx d owner target t =>
      dsimp only [memoryClaims]
      unfold MemoryStore.advanceClaim
      grind [MemoryStore.putClaim_records]

theorem memoryRecall_lawful : memoryRecall.Lawful where
  kept m call id r there := by
    obtain ⟨member, named⟩ := (m.record?_eq_some_iff id r).mp there
    exact (MemoryStore.record?_eq_some_iff _ id r).mpr ⟨mem_call member, named⟩
  valid m ctx rec ok := by
    cases ctx with
    | some err => cases ok
    | none =>
        refine ⟨?_, rfl⟩
        by_contra invalid
        dsimp only [memoryClaims, MemoryStore.appendDecision] at ok
        rw [if_pos (by simpa using invalid)] at ok
        cases ok
  fresh m ctx rec absent ok := by
    refine (MemoryStore.record?_eq_some_iff _ _ _).mpr ⟨m.appendDecision_mem ok, rfl⟩
  taken m rec r valid there := by
    have done := m.appendDecision_taken valid there
    dsimp only [memoryClaims, memoryRecall]
    rw [done]
    exact ⟨rfl, by simp⟩
  named m ctx d owner t ok := by
    cases ctx with
    | some err => cases ok
    | none =>
        by_cases refused : (d == [] || !owner.valid) = true
        · dsimp only [memoryClaims, MemoryStore.claimExecution] at ok
          rw [if_pos refused] at ok
          cases ok
        · obtain ⟨named, valid⟩ : d ≠ [] ∧ owner.valid = true := by simpa using refused
          exact ⟨named, valid, rfl⟩
  acquired m ctx d owner t ok other := by
    obtain ⟨row, there, -⟩ := Option.map_eq_some_iff.mp (memoryClaims_lawful.claimed ok)
    exact ⟨row, there, Iff.rfl⟩
  report m d owner t row named valid there held := by
    obtain ⟨mine, claimed⟩ : row.owner = owner ∧ row.state = .claimed := by
      simpa [memoryClaims, holding] using held
    dsimp only [memoryClaims, memoryRecall]
    rw [claimExecution_held m there (by rw [claimed]; simp) named valid]
    simp [reportHeld, mine, claimed]
  grant m d owner target t st held allowed := by
    obtain ⟨c, there, same⟩ := Option.map_eq_some_iff.mp held
    rcases advanceClaim_cases m d owner target t with ⟨m', -, done, -⟩ | ⟨e, -, -, refused⟩
    · exact congrArg Prod.snd done
    · obtain ⟨rfl, rfl⟩ := Holding.mk.inj same
      exact absurd allowed (refused c there rfl)

/-! ## The SQLite store -/

/-- The SQLite store keeps rows of text. -/
def sqliteRecall (codec : Codec) : (sqliteClaims codec).Recall DecisionRow where
  decision? s := s.decisions.find?
  written := decisionRow codec
  reads row rec := scanDecision codec row = .ok rec
  readable row := ∃ c, scanClaim codec row = .ok c
  keeps t := (codec.parseTime (codec.formatTime t)).isSome

namespace Store

variable (codec : Codec) (s : Store)

theorem appendDecision_valid {ctx : Context} {rec : DecisionRecord}
    (ok : (s.appendDecision codec ctx rec).2 = none) : rec.validate = true ∧ ctx = none := by
  unfold appendDecision at ok
  by_cases valid : rec.validate = true
  · rw [if_neg (by simpa using valid)] at ok
    cases ctx with
    | some err => cases ok
    | none => exact ⟨valid, rfl⟩
  · rw [if_pos (by simpa using valid)] at ok
    cases ok

/-- `AppendDecision` of a valid record adds its row, or compares with the one that is
there. -/
theorem appendDecision_cases {rec : DecisionRecord} (valid : rec.validate = true) :
    (s.decisions.find? rec.decisionID = none ∧ (s.appendDecision codec none rec).2 = none ∧
      (s.appendDecision codec none rec).1.decisions.rows =
        s.decisions.rows ++ [decisionRow codec rec]) ∨
    ∃ row, s.decisions.find? rec.decisionID = some row ∧ (s.appendDecision codec none rec).1 = s ∧
      ((s.appendDecision codec none rec).2 = none ↔ scanDecision codec row = .ok rec) := by
  unfold appendDecision
  simp only [valid, Bool.not_true, Bool.false_eq_true, if_false]
  rcases s.insertDecision_cases (decisionRow codec rec) with ⟨fresh, one, rows, -⟩ | ⟨there, kept⟩
  · refine Or.inl ⟨fresh, ?_⟩
    rw [if_pos one]
    exact ⟨rfl, rows⟩
  · obtain ⟨row, found⟩ := Option.isSome_iff_exists.mp there
    refine Or.inr ⟨row, found, ?_⟩
    rw [kept]
    have found' : s.decisions.find? rec.decisionID = some row := found
    simp only [Nat.zero_ne_one, if_false, found']
    cases scan : scanDecision codec row with
    | error e => simp
    | ok existing =>
        have compared : existing.equal rec = decide (existing = rec) := by
          rw [Bool.eq_iff_iff]
          simp
        simp only [compared]
        by_cases same : existing = rec <;> simp [same]

/-- The claim methods leave the decisions alone. -/
theorem claimExecution_decisions (ctx : Context) (d : GoString) (owner : ClaimOwner) (t : Time) :
    (s.claimExecution codec ctx d owner t).1.decisions = s.decisions := by
  unfold claimExecution
  split
  · rfl
  split
  · rfl
  rcases s.upsertClaim_cases d owner (codec.formatTime t) with
    ⟨-, -, s', done, same, -⟩ | ⟨-, -, done⟩ | ⟨-, done⟩ <;> rw [done] <;> dsimp only
  · rw [if_pos rfl]
    exact same
  · rw [if_neg Nat.zero_ne_one]
    split <;> rfl

theorem advanceClaim_decisions (ctx : Context) (d : GoString) (owner : ClaimOwner)
    (target : ClaimState) (t : Time) :
    (s.advanceClaim codec ctx d owner target t).1.decisions = s.decisions := by
  unfold advanceClaim
  split
  · rfl
  rename_i sources known
  split
  · rfl
  rcases s.updateClaim_cases d owner sources target (codec.formatTime t)
      (claimSources_named known) with ⟨row, s', -, -, done, same, -⟩ | ⟨-, done⟩ <;>
    rw [done] <;> dsimp only
  · rw [if_neg (fun different => different rfl)]
    exact same
  · rw [if_pos Nat.zero_ne_one]

/-- A call leaves the decisions as they are, or appends one. -/
theorem call_decisions (call : StoreCall) :
    ((sqliteClaims codec).call s call).1.decisions.rows = s.decisions.rows ∨
      ∃ ctx rec, call = .appendDecision ctx rec ∧
        ((sqliteClaims codec).call s call).1.decisions.rows =
          s.decisions.rows ++ [decisionRow codec rec] := by
  cases call with
  | appendDecision ctx rec =>
      dsimp only [sqliteClaims]
      cases ctx with
      | some err =>
          unfold appendDecision
          split <;> exact Or.inl rfl
      | none =>
          by_cases valid : rec.validate = true
          · rcases s.appendDecision_cases codec valid with ⟨-, -, rows⟩ | ⟨-, -, same, -⟩
            · exact Or.inr ⟨none, rec, rfl, rows⟩
            · rw [same]
              exact Or.inl rfl
          · unfold appendDecision
            rw [if_pos (by simpa using valid)]
            exact Or.inl rfl
  | claimExecution ctx d owner t =>
      exact Or.inl (congrArg Table.rows (s.claimExecution_decisions codec ctx d owner t))
  | advanceClaim ctx d owner target t =>
      exact Or.inl (congrArg Table.rows (s.advanceClaim_decisions codec ctx d owner target t))

/-- No call changes the row of a decision. -/
theorem decision_kept {call : StoreCall} {id : GoString} {row : DecisionRow}
    (there : s.decisions.find? id = some row) :
    ((sqliteClaims codec).call s call).1.decisions.find? id = some row := by
  rw [Table.find?_eq_some_iff] at there ⊢
  refine ⟨?_, there.2⟩
  rcases s.call_decisions codec call with same | ⟨ctx, rec, -, added⟩
  · rw [same]
    exact there.1
  · rw [added]
    exact List.mem_append_left _ there.1

/-- A claim that was accepted has a decision and an owner with names. -/
theorem claimExecution_named {ctx : Context} {d : GoString} {owner : ClaimOwner} {t : Time}
    (ok : (s.claimExecution codec ctx d owner t).2 = none) :
    d ≠ [] ∧ owner.valid = true ∧ ctx = none := by
  unfold claimExecution at ok
  by_cases refused : (d == [] || !owner.valid) = true
  · rw [if_pos refused] at ok
    cases ok
  · rw [if_neg refused] at ok
    obtain ⟨named, valid⟩ : d ≠ [] ∧ owner.valid = true := by simpa using refused
    cases ctx with
    | some err => cases ok
    | none => exact ⟨named, valid, rfl⟩

/-- A decision is free exactly if the state column of its claim reads RELEASED. -/
theorem free_iff_released (d : GoString) :
    (s.claims.find? d).all (·.state = ascii "RELEASED") = true ↔
      Free ((s.claims.find? d).map ClaimRow.holding) := by
  refine ⟨s.free_of_released, fun free => ?_⟩
  cases held : s.claims.find? d with
  | none => rfl
  | some row =>
      have released : Open.ofText row.state = ClaimState.released := free row.holding (by rw [held]; rfl)
      have text : row.state = ascii "RELEASED" :=
        (Open.text_ofText row.state).symm.trans (congrArg Open.text released)
      rw [Option.all_some, text]
      rfl

/-- `ClaimExecution` writes the row of a free decision, or reads the one that is there. -/
theorem claimExecution_cases {d : GoString} {owner : ClaimOwner} (t : Time) (named : d ≠ [])
    (valid : owner.valid = true) :
    ((s.claims.find? d).all (·.state = ascii "RELEASED") = true ∧
      (s.claimExecution codec none d owner t).1.claims.find? d =
        some (claimedRow d owner (codec.formatTime t))) ∨
    ((s.claims.find? d).all (·.state = ascii "RELEASED") = false ∧
      s.claimExecution codec none d owner t =
        (s, match s.getClaim codec none d with
          | .error e => some (.wrapped (ascii "read existing claim") e)
          | .ok c => reportHeld owner c)) ∨
    (s.claims.find? d = none ∧ (s.claimExecution codec none d owner t).2 ≠ none) := by
  unfold claimExecution
  rw [if_neg (by simp [named, valid])]
  simp only
  rcases s.upsertClaim_cases d owner (codec.formatTime t) with
    ⟨-, free, s', done, -, finds⟩ | ⟨-, taken, done⟩ | ⟨unknown, done⟩ <;> rw [done] <;> dsimp only
  · rw [if_pos rfl, finds, if_pos rfl]
    exact Or.inl ⟨free, rfl⟩
  · rw [if_neg Nat.zero_ne_one]
    refine Or.inr (Or.inl ⟨taken, ?_⟩)
    cases s.getClaim codec none d <;> rfl
  · refine Or.inr (Or.inr ⟨?_, by simp⟩)
    cases held : s.claims.find? d with
    | none => rfl
    | some row =>
        obtain ⟨member, rfl⟩ := (s.claims.find?_eq_some_iff d row).mp held
        exact absurd unknown (Option.isSome_iff_ne_none.mp (s.references row member))

end Store

theorem scanClaim_claimedRow (codec : Codec) (d : GoString) (owner : ClaimOwner) (t : Time) :
    (∃ c, scanClaim codec (Store.claimedRow d owner (codec.formatTime t)) = .ok c) ↔
      (codec.parseTime (codec.formatTime t)).isSome := by
  unfold scanClaim Store.claimedRow
  cases codec.parseTime (codec.formatTime t) <;> simp

/-- A claim row that can be read is read with its owner and state. -/
theorem scanClaim_held {codec : Codec} {row : ClaimRow} {c : ExecutionClaim}
    (read : scanClaim codec row = .ok c) : holding c = row.holding := by
  unfold scanClaim at read
  split at read
  · cases read
  split at read
  · cases read
  cases read
  rfl

theorem sqliteRecall_lawful (codec : Codec) : (sqliteRecall codec).Lawful where
  kept s call id row there := s.decision_kept codec there
  valid s ctx rec ok := s.appendDecision_valid codec ok
  fresh s ctx rec absent ok := by
    obtain ⟨valid, rfl⟩ := s.appendDecision_valid codec ok
    rcases s.appendDecision_cases codec valid with ⟨-, -, rows⟩ | ⟨row, there, -⟩
    · refine (Table.find?_eq_some_iff _ _ _).mpr ⟨?_, rfl⟩
      show decisionRow codec rec ∈ (s.appendDecision codec none rec).1.decisions.rows
      rw [rows]
      exact List.mem_append_right _ List.mem_cons_self
    · cases absent.symm.trans there
  taken s rec row valid there := by
    rcases s.appendDecision_cases codec valid with ⟨absent, -⟩ | ⟨row', there', same, read⟩
    · cases absent.symm.trans there
    · cases there.symm.trans there'
      exact ⟨same, read⟩
  named s ctx d owner t ok := s.claimExecution_named codec ok
  acquired s ctx d owner t ok other := by
    obtain ⟨named, valid, rfl⟩ := s.claimExecution_named codec ok
    rcases s.claimExecution_cases codec t named valid with ⟨-, written⟩ | ⟨taken, -⟩ | ⟨-, refused⟩
    · exact ⟨_, written, scanClaim_claimedRow codec d owner t⟩
    · -- the decision is not free, so it is its owner's claim already
      rcases (sqliteClaims_lawful codec).accepted_effect ok with change | ⟨-, mine⟩
      · have free := (s.free_iff_released d).mpr change.row.of_acquired.1
        cases free.symm.trans taken
      · exact absurd mine other
    · exact absurd ok refused
  report s d owner t row named valid there held := by
    have own : row.holding = ⟨owner, .claimed⟩ := held
    rcases s.claimExecution_cases codec t named valid with ⟨free, -⟩ | ⟨-, read⟩ | ⟨absent, -⟩
    · have released := (s.free_iff_released d).mp free row.holding
        (congrArg (Option.map ClaimRow.holding) there)
      rw [own] at released
      cases released
    · show (s.claimExecution codec none d owner t).2 = none ↔ ∃ c, scanClaim codec row = .ok c
      rw [read]
      unfold Store.getClaim
      simp only
      rw [show s.claims.find? d = some row from there]
      cases scan : scanClaim codec row with
      | error e => simp [scan]
      | ok c =>
          obtain ⟨mine, claimed⟩ := Holding.mk.inj ((scanClaim_held scan).trans own)
          simp [scan, reportHeld, mine, claimed]
    · cases absent.symm.trans there
  grant s d owner target t st held allowed := by
    obtain ⟨row, there, own⟩ := Option.map_eq_some_iff.mp held
    obtain ⟨sources, known, member⟩ := allowed
    obtain ⟨mine, state⟩ := Holding.mk.inj own
    have found : s.claims.find? d = some row := there
    show (s.advanceClaim codec none d owner target t).2 = none
    rw [s.advanceClaim_known codec known]
    rcases s.updateClaim_cases d owner sources target (codec.formatTime t)
        (claimSources_named known) with ⟨row, s', -, -, done, -, -⟩ | ⟨refused, -⟩
    · rw [done]
      rfl
    · have source : row.holding.state ∈ sources := by
        rw [show row.holding.state = st from state]
        exact member
      have matched : Store.heldIn d owner sources row = true :=
        (Store.heldIn_iff d owner sources row).mpr
          ⟨((s.claims.find?_eq_some_iff d row).mp found).2, mine, source⟩
      rw [found, Option.any_some, matched] at refused
      cases refused

/-! ## Audit rows -/

namespace AuditTable

/-- The table after a sequence of calls of `Append`, whatever they returned. -/
def after (t : AuditTable) (calls : List (Context × AppendCall)) : AuditTable :=
  calls.foldl (fun t (ctx, rec, now) => (t.append ctx rec now).1) t

/-- Only a live call of a complete record succeeds. -/
theorem append_accepted {t : AuditTable} {ctx : Context} {rec : AuditRecord} {now : Time}
    (ok : (t.append ctx rec now).2 = none) : ctx = none ∧ complete rec = true := by
  unfold append at ok
  cases required : complete rec with
  | false =>
      rw [required] at ok
      cases ok
  | true =>
      cases ctx with
      | some err =>
          rw [required] at ok
          cases ok
      | none => exact ⟨rfl, rfl⟩

/-- A call leaves the rows as they are, or appends its own. -/
theorem append_rows (t : AuditTable) (ctx : Context) (rec : AuditRecord) (now : Time) :
    (t.append ctx rec now).1.rows = t.rows ∨
      (t.append ctx rec now).1.rows = t.rows ++ [auditRow (stamped rec now)] := by
  cases ctx with
  | some err =>
      unfold append
      split <;> exact Or.inl rfl
  | none =>
      rcases t.append_cases rec now with ⟨-, done⟩ | ⟨-, -, -, rows⟩ | ⟨-, _, -, done⟩
      · rw [done]
        exact Or.inl rfl
      · exact Or.inr rows
      · rw [done]
        exact Or.inl rfl

/-- No call changes a row. -/
theorem append_kept {t : AuditTable} {ctx : Context} {rec : AuditRecord} {now : Time} {id : GoString}
    {row : AuditRow} (there : t.find? id = some row) :
    (t.append ctx rec now).1.find? id = some row := by
  rw [Table.find?_eq_some_iff] at there ⊢
  refine ⟨?_, there.2⟩
  rcases t.append_rows ctx rec now with same | added
  · rw [same]
    exact there.1
  · rw [added]
    exact List.mem_append_left _ there.1

theorem after_kept {t : AuditTable} {calls : List (Context × AppendCall)} {id : GoString}
    {row : AuditRow} (there : t.find? id = some row) : (t.after calls).find? id = some row := by
  induction calls generalizing t with
  | nil => exact there
  | cons call calls ih => exact ih (append_kept there)

/-- A row that was just written is recognised exactly if its time can be read. -/
theorem reportExisting_self_iff (rec : AuditRecord) :
    reportExisting rec (auditRow rec) = none ↔ InYears rec.recordedAt := by
  constructor
  · intro recognised
    by_contra outside
    have unread : parseTime (auditRow rec).recordedAt = none := parseTime_outside outside
    unfold reportExisting scanAudit at recognised
    rw [unread] at recognised
    cases recognised
  · intro inside
    rw [reportExisting_auditRow inside, if_pos rfl]

/-- `Append` of a row with a time that was accepted, made again after any further calls:
nothing changes, and it is accepted exactly if the row was there before the first call, or
its time can be read. -/
def Idempotent (t : AuditTable) : Prop :=
  ∀ (ctx : Context) (rec : AuditRecord) (now : Time),
    rec.recordedAt.isZero = false → (t.append ctx rec now).2 = none →
    ∀ (others : List (Context × AppendCall)) (now' : Time),
      let later := (t.append ctx rec now).1.after others
      let again := later.append none rec now'
      again.1 = later ∧ (again.2 = none ↔ (t.find? rec.recordID).isSome ∨ InYears rec.recordedAt)

theorem idempotent (t : AuditTable) : t.Idempotent := by
  intro ctx rec now timed ok others now' later again
  obtain ⟨rfl, all⟩ := append_accepted ok
  have own := stamped_timed timed
  -- the row under the record's ID, and whether it is recognised
  obtain ⟨row, there, recognised⟩ : ∃ row, (t.append none rec now).1.find? rec.recordID = some row ∧
      (reportExisting rec row = none ↔ (t.find? rec.recordID).isSome ∨ InYears rec.recordedAt) := by
    rcases t.append_cases rec now with ⟨missing, -⟩ | ⟨-, fresh, -, rows⟩ | ⟨-, row, found, done⟩
    · cases all.symm.trans missing
    · refine ⟨auditRow rec, (Table.find?_eq_some_iff _ _ _).mpr ⟨?_, rfl⟩, ?_⟩
      · rw [rows, own]
        exact List.mem_append_right _ List.mem_cons_self
      · rw [fresh, reportExisting_self_iff]
        simp
    · rw [done, own] at ok
      refine ⟨row, by rw [done]; exact found, ?_⟩
      simp [found, show reportExisting rec row = none from ok]
  have still : later.find? rec.recordID = some row := after_kept there
  rcases later.append_cases rec now' with ⟨missing, -⟩ | ⟨-, absent, -⟩ | ⟨-, row', found, done⟩
  · cases all.symm.trans missing
  · cases absent.symm.trans still
  · cases still.symm.trans found
    rw [own] at done
    exact ⟨congrArg Prod.fst done, (congrArg (·.2 = none) done).to_iff.trans recognised⟩

end AuditTable

/-! ## The result -/

/-- The database can tell that it has made the call: it could before, or the time is of the
years 0 to 9999 and the reasons are UTF-8. -/
def Reread (s : Store) : StoreCall → Prop
  | .appendDecision _ rec => (s.decisions.find? rec.decisionID).isSome ∨ StorableRecord rec
  | .claimExecution _ d owner t =>
      (s.claims.find? d).map ClaimRow.holding = some ⟨owner, .claimed⟩ ∨ InYears t
  | .advanceClaim .. => True

theorem sqliteRecall_kept : (sqliteRecall goCodec).Kept = Reread := by
  funext s call
  cases call with
  | appendDecision ctx rec => exact congrArg (_ ∨ ·) (propext (scanDecision_eq_iff rec))
  | claimExecution ctx d owner t => exact congrArg (_ ∨ ·) (propext (goCodec_time_iff t))
  | advanceClaim => rfl

theorem memoryRecall_kept : memoryRecall.Kept = fun _ _ => True := by
  funext m call
  cases call with
  | appendDecision ctx rec =>
      exact eq_true (Or.inr ((DecisionRecord.equal_iff rec rec).mpr rfl))
  | claimExecution => exact eq_true (Or.inr trivial)
  | advanceClaim => rfl

/-- **A bookkeeping call that is executed again does no harm.**  On either store the claim
stays with its owner where it is, a release yields to an owner who has claimed since, the
fence is never passed twice, and no row changes.  The memory store accepts the repeated
call; the database does exactly if it can read back what the first one wrote. -/
theorem repeats_harmless (m : MemoryStore) (s : Store) (t : AuditTable) :
    memoryClaims.Idempotent (fun _ _ => True) m ∧ (sqliteClaims goCodec).Idempotent Reread s ∧
      t.Idempotent := by
  refine ⟨?_, ?_, t.idempotent⟩
  · rw [← memoryRecall_kept]
    exact memoryRecall_lawful.idempotent memoryClaims_lawful m
  · rw [← sqliteRecall_kept]
    exact (sqliteRecall_lawful goCodec).idempotent (sqliteClaims_lawful goCodec) s

/-- The first instant of the year 10000. -/
def lateTime : Time := ⟨3652059 * 86400 * 10 ^ 9⟩

/-- **A claim of the year 10000 is accepted, and refused when it is made again.** -/
theorem claim_not_repeated :
    let s := (Store.new.appendDecision goCodec none sampleRecord).1
    let first := s.claimExecution goCodec none (ascii "d") sampleOwner lateTime
    first.2 = none ∧ (first.1.claimExecution goCodec none (ascii "d") sampleOwner lateTime).2 =
      some (.wrapped (ascii "read existing claim") (.unavailable timestampText)) := by
  decide +kernel

end SentryGate.Audit
