/-
# Audit.Equivalence -- the SQLite store behaves as the in-memory one

Every operation of the two stores, run one after another under live contexts: the
SQLite `Store` gives the answers of `MemoryStore`.  The proof is a simulation: the tables
hold, in order, the rows of exactly the records and claims of the in-memory store
(`Represents`).

It holds for any encodings that keep times of the years 0 to 9999 and lists of UTF-8 strings
(`Codec.Lawful`), as those of the code do (`goCodec_lawful`).
-/
import SentryGate.Theory.Machine
import SentryGate.Audit.Lifecycle
import SentryGate.Audit.Timestamp

namespace SentryGate.Audit

open Theory Theory.Text Theory.Machine Contracts Decision

set_option autoImplicit false

/-! ## Operations and their answers -/

/-- What `errors.Is` tells about an error of a store. -/
inductive ErrorClass where
  | invalidDecisionRecord | decisionConflict | decisionNotFound
  | claimHeld | claimNotHeld | claimNotFound | invalidClaim
  | other
  deriving DecidableEq

def errorClass : StoreError → ErrorClass
  | .contextEnded _ | .unavailable _ => .other
  | .invalidDecisionRecord => .invalidDecisionRecord
  | .decisionConflict => .decisionConflict
  | .decisionNotFound => .decisionNotFound
  | .invalidClaim _ => .invalidClaim
  | .claimHeld _ => .claimHeld
  | .claimNotHeld | .invalidTarget _ => .claimNotHeld
  | .claimNotFound => .claimNotFound
  | .wrapped _ err => errorClass err

inductive Operation where
  | appendDecision (rec : DecisionRecord)
  | getDecision (decisionID : GoString)
  | listDecisionsByProposal (proposalID : GoString)
  | claimExecution (decisionID : GoString) (owner : ClaimOwner) (t : Time)
  | advanceClaim (decisionID : GoString) (owner : ClaimOwner) (target : ClaimState) (t : Time)
  | getClaim (decisionID : GoString)

/-- What an operation returns: nil or an error, a record, a list, a claim. -/
inductive Answer where
  | status (err : Option ErrorClass)
  | decision (result : Except ErrorClass DecisionRecord)
  | decisions (result : Except ErrorClass (List DecisionRecord))
  | claim (result : Except ErrorClass ExecutionClaim)
  deriving DecidableEq

/-- The methods of the interfaces `Store` and `ClaimStore`. -/
structure Methods (σ : Type) where
  appendDecision : σ → Context → DecisionRecord → σ × Option StoreError
  getDecision : σ → Context → GoString → Except StoreError DecisionRecord
  listDecisionsByProposal : σ → Context → GoString → Except StoreError (List DecisionRecord)
  claimExecution : σ → Context → GoString → ClaimOwner → Time → σ × Option StoreError
  advanceClaim : σ → Context → GoString → ClaimOwner → ClaimState → Time → σ × Option StoreError
  getClaim : σ → Context → GoString → Except StoreError ExecutionClaim

def status {σ : Type} (result : σ × Option StoreError) : σ × Answer :=
  (result.1, .status (result.2.map errorClass))

/-- An operation under a live context. -/
def Methods.answer {σ : Type} (methods : Methods σ) (s : σ) : Operation → σ × Answer
  | .appendDecision rec => status (methods.appendDecision s none rec)
  | .getDecision decisionID =>
      (s, .decision ((methods.getDecision s none decisionID).mapError errorClass))
  | .listDecisionsByProposal proposalID =>
      (s, .decisions ((methods.listDecisionsByProposal s none proposalID).mapError errorClass))
  | .claimExecution decisionID owner t => status (methods.claimExecution s none decisionID owner t)
  | .advanceClaim decisionID owner target t =>
      status (methods.advanceClaim s none decisionID owner target t)
  | .getClaim decisionID =>
      (s, .claim ((methods.getClaim s none decisionID).mapError errorClass))

def memoryMethods : Methods MemoryStore where
  appendDecision := MemoryStore.appendDecision
  getDecision := MemoryStore.getDecision
  listDecisionsByProposal := MemoryStore.listDecisionsByProposal
  claimExecution := MemoryStore.claimExecution
  advanceClaim := MemoryStore.advanceClaim
  getClaim := MemoryStore.getClaim

def sqliteMethods (codec : Codec) : Methods Store where
  appendDecision := Store.appendDecision codec
  getDecision := Store.getDecision codec
  listDecisionsByProposal := Store.listDecisionsByProposal codec
  claimExecution := Store.claimExecution codec
  advanceClaim := Store.advanceClaim codec
  getClaim := Store.getClaim codec

/-! ## What can be stored -/

def StorableClaim (c : ExecutionClaim) : Prop := InYears c.claimedAt ∧ InYears c.updatedAt

/-- The operation carries UTF-8 reasons and times of the years 0 to 9999. -/
def Storable : Operation → Prop
  | .appendDecision rec => StorableRecord rec
  | .claimExecution _ _ t => InYears t
  | .advanceClaim _ _ _ t => InYears t
  | _ => True

/-- The row of a claim. -/
def claimRow (codec : Codec) (c : ExecutionClaim) : ClaimRow where
  decisionID := c.decisionID
  workflowID := c.owner.workflowID
  runID := c.owner.runID
  claimToken := c.owner.token
  state := c.state.text
  claimedAt := codec.formatTime c.claimedAt
  updatedAt := codec.formatTime c.updatedAt

section RoundTrip

variable {codec : Codec} (lawful : codec.Lawful)

include lawful

theorem scanClaim_claimRow {c : ExecutionClaim} (storable : StorableClaim c) :
    scanClaim codec (claimRow codec c) = .ok c := by
  unfold scanClaim claimRow
  simp only [lawful.time _ storable.1, lawful.time _ storable.2, Open.ofText_text, ClaimRow.owner]

theorem mapM_scanDecision (recs : List DecisionRecord) (storable : ∀ r ∈ recs, StorableRecord r) :
    (recs.map (decisionRow codec)).mapM (scanDecision codec) = .ok recs := by
  induction recs with
  | nil => rfl
  | cons r recs ih =>
      rw [List.map_cons, List.mapM_cons,
        scanDecision_decisionRow lawful (storable r List.mem_cons_self),
        ih fun r' member => storable r' (List.mem_cons_of_mem r member)]
      rfl

end RoundTrip

/-! ## The simulation -/

/-- The tables hold the records, in order, and the claims of the in-memory store. -/
structure Represents (codec : Codec) (m : MemoryStore) (s : Store) : Prop where
  records : s.decisions.rows = m.records.map (decisionRow codec)
  claims : ∀ d, s.claims.find? d = (m.claims d).map (claimRow codec)
  storedRecords : ∀ rec ∈ m.records, StorableRecord rec
  storedClaims : ∀ d c, m.claims d = some c → StorableClaim c

namespace Represents

variable {codec : Codec} {m : MemoryStore} {s : Store} (represents : Represents codec m s)

include represents

/-- A lookup finds the row of the record under the same ID. -/
theorem find (d : GoString) :
    s.decisions.find? d = (m.record? d).map (decisionRow codec) := by
  ext row
  rw [Table.find?_eq_some_iff, represents.records, List.mem_map, Option.map_eq_some_iff]
  constructor
  · rintro ⟨⟨rec, member, rfl⟩, named⟩
    exact ⟨rec, (m.record?_eq_some_iff d rec).mpr ⟨member, named⟩, rfl⟩
  · rintro ⟨rec, known, rfl⟩
    obtain ⟨member, named⟩ := (m.record?_eq_some_iff d rec).mp known
    exact ⟨⟨rec, member, rfl⟩, named⟩

theorem known_iff (d : GoString) :
    (s.decisions.find? d).isSome = (m.byID d).isSome := by
  rw [represents.find, Option.isSome_map, Bool.eq_iff_iff, Option.isSome_iff_ne_none,
    Option.isSome_iff_ne_none, Ne, m.record?_eq_none_iff]

/-- The WHERE of the upsert sees a claim that is RELEASED. -/
theorem released (d : GoString) :
    (s.claims.find? d).all (·.state = ascii "RELEASED") = (m.claims d).all (·.state = .released) := by
  rw [represents.claims]
  cases m.claims d with
  | none => rfl
  | some c =>
      rw [Option.map_some, Option.all_some, Option.all_some, Bool.eq_iff_iff, decide_eq_true_eq,
        decide_eq_true_eq]
      exact Open.text_injective.eq_iff (b := ClaimState.released)

/-- The stores stay in step when a claim is written to both. -/
theorem putClaim {c : ExecutionClaim} (known : (m.byID c.decisionID).isSome)
    (storable : StorableClaim c) {s' : Store} (decisions : s'.decisions = s.decisions)
    (finds : ∀ d, s'.claims.find? d =
      if d = c.decisionID then some (claimRow codec c) else s.claims.find? d) :
    Represents codec (m.putClaim c known) s' where
  records := by rw [decisions, represents.records, m.putClaim_records]
  claims d := by
    rw [finds, m.putClaim_claims]
    split
    · rfl
    · exact represents.claims d
  storedRecords := represents.storedRecords
  storedClaims d c' held := by
    rw [m.putClaim_claims] at held
    split at held
    · cases held
      exact storable
    · exact represents.storedClaims d c' held

/-- The upsert of `ClaimExecution`: it acquires the claim as the atomic method does, finds
it taken, or finds no decision. -/
theorem upsertClaim {d : GoString} {owner : ClaimOwner} {t : Time} (storable : InYears t)
    (named : d ≠ []) (valid : owner.valid = true) :
    (∃ m' s', s.upsertClaim d owner (codec.formatTime t) = (s', .ok 1) ∧
      m.claimExecution none d owner t = (m', none) ∧ Represents codec m' s') ∨
    (s.upsertClaim d owner (codec.formatTime t) = (s, .ok 0) ∧
      ∃ c, m.claims d = some c ∧ c.state ≠ .released) ∨
    (s.upsertClaim d owner (codec.formatTime t) = (s, .error .decisionNotFound) ∧
      m.claimExecution none d owner t = (m, some .decisionNotFound)) := by
  rw [claimExecution_statements m d owner t named valid]
  unfold Audit.upsertClaim
  rcases s.upsertClaim_cases d owner (codec.formatTime t) with
    ⟨known, free, s', done, decisions, finds⟩ | ⟨known, taken, done⟩ | ⟨unknown, done⟩
  · rw [represents.known_iff] at known
    rw [represents.released] at free
    rw [dif_pos known, if_pos free]
    exact Or.inl ⟨_, s', done, rfl,
      represents.putClaim known ⟨storable, storable⟩ decisions finds⟩
  · rw [represents.released] at taken
    refine Or.inr (Or.inl ⟨done, ?_⟩)
    cases held : m.claims d with
    | none =>
        rw [held] at taken
        cases taken
    | some c =>
        rw [held] at taken
        exact ⟨c, rfl, by simpa using taken⟩
  · have absent : ¬ (m.byID d).isSome = true := by
      rw [← represents.known_iff, unknown]
      exact Bool.false_ne_true
    rw [dif_neg absent]
    exact Or.inr (Or.inr ⟨done, rfl⟩)

theorem advanceClaim (d : GoString) (owner : ClaimOwner) (target : ClaimState) {t : Time}
    (storable : InYears t) :
    (m.advanceClaim none d owner target t).2 = (s.advanceClaim codec none d owner target t).2 ∧
      Represents codec (m.advanceClaim none d owner target t).1
        (s.advanceClaim codec none d owner target t).1 := by
  have matched_iff : ∀ (sources : List ClaimState) (c : ExecutionClaim), m.claims d = some c →
      (Store.heldIn d owner sources (claimRow codec c) = true ↔
        c.owner = owner ∧ c.state ∈ sources) := by
    intro sources c held
    rw [Store.heldIn_iff]
    simp only [claimRow, ClaimRow.owner, ClaimRow.holding, Open.ofText_text, m.keyed d c held,
      true_and]
  cases known : claimSources target with
  | none =>
      rw [m.advanceClaim_unknown known, s.advanceClaim_unknown codec known]
      exact ⟨rfl, represents⟩
  | some sources =>
      rw [s.advanceClaim_known codec known]
      rcases s.updateClaim_cases d owner sources target (codec.formatTime t)
          (claimSources_named known) with
        ⟨row, s', found, matched, done, decisions, finds⟩ | ⟨missed, done⟩ <;> rw [done] <;>
        dsimp only
      · rw [represents.claims, Option.map_eq_some_iff] at found
        obtain ⟨c, held, rfl⟩ := found
        obtain ⟨mine, member⟩ := (matched_iff sources c held).mp matched
        obtain ⟨recorded, granted⟩ := m.advanceClaim_granted (t := t) known held mine member
        rw [granted, if_neg (fun different => different rfl)]
        obtain rfl := m.keyed d c held
        exact ⟨rfl, represents.putClaim recorded ⟨(represents.storedClaims _ c held).1, storable⟩
          decisions finds⟩
      · rw [m.advanceClaim_refused known, if_pos Nat.zero_ne_one]
        · exact ⟨rfl, represents⟩
        · intro c held granted
          rw [represents.claims, held, Option.map_some, Option.any_some,
            (matched_iff sources c held).mpr granted] at missed
          cases missed

variable (lawful : codec.Lawful)

include lawful

theorem scan_record {d : GoString} {rec : DecisionRecord} (known : m.record? d = some rec) :
    scanDecision codec (decisionRow codec rec) = .ok rec :=
  scanDecision_decisionRow lawful
    (represents.storedRecords rec ((m.record?_eq_some_iff d rec).mp known).1)

theorem appendDecision {rec : DecisionRecord} (storable : StorableRecord rec) :
    (m.appendDecision none rec).2 = (s.appendDecision codec none rec).2 ∧
      Represents codec (m.appendDecision none rec).1 (s.appendDecision codec none rec).1 := by
  unfold Store.appendDecision
  by_cases valid : rec.validate = true
  · simp only [valid, Bool.not_true, Bool.false_eq_true, if_false]
    cases known : m.record? rec.decisionID with
    | none =>
        have fresh := (m.record?_eq_none_iff _).mp known
        rw [m.appendDecision_new valid fresh]
        rcases s.insertDecision_cases (decisionRow codec rec) with
          ⟨-, one, rows, same⟩ | ⟨there, -⟩
        · rw [if_pos one]
          refine ⟨rfl, ?_, ?_, ?_, represents.storedClaims⟩
          · rw [rows, represents.records, m.putRecord_records, List.map_append, List.map_singleton]
          · intro d
            rw [same, m.putRecord_claims]
            exact represents.claims d
          · intro r member
            rw [m.putRecord_records] at member
            rcases List.mem_append.mp member with old | new
            · exact represents.storedRecords r old
            · rw [List.mem_singleton.mp new]
              exact storable
        · rw [show (decisionRow codec rec).decisionID = rec.decisionID from rfl,
            represents.find, known] at there
          cases there
    | some r =>
        rw [m.appendDecision_taken valid known]
        rcases s.insertDecision_cases (decisionRow codec rec) with ⟨fresh, -⟩ | ⟨-, nothing⟩
        · rw [show (decisionRow codec rec).decisionID = rec.decisionID from rfl,
            represents.find, known] at fresh
          cases fresh
        · rw [nothing]
          simp only [Nat.zero_ne_one, if_false, represents.find, known, Option.map_some,
            represents.scan_record lawful known]
          by_cases same : r.equal rec = true <;> simp only [same, if_true, if_false, Bool.not_true,
            Bool.not_false, Bool.false_eq_true] <;> exact ⟨trivial, represents⟩
  · unfold MemoryStore.appendDecision
    simp only [valid, Bool.not_false, if_true]
    exact ⟨trivial, represents⟩

theorem getDecision (d : GoString) :
    m.getDecision none d = s.getDecision codec none d := by
  unfold MemoryStore.getDecision Store.getDecision
  dsimp only
  rw [represents.find]
  cases known : m.record? d with
  | none => rfl
  | some rec =>
      rw [Option.map_some]
      dsimp only
      rw [represents.scan_record lawful known]

theorem listDecisionsByProposal (p : GoString) :
    m.listDecisionsByProposal none p = s.listDecisionsByProposal codec none p := by
  have rows : s.decisions.select (·.proposalID = p) =
      (m.records.filter (·.proposalID == p)).map (decisionRow codec) := by
    unfold Table.select
    rw [represents.records, List.filter_map]
    refine congrArg _ (List.filter_congr fun r _ => ?_)
    exact (beq_eq_decide r.proposalID p).symm
  unfold MemoryStore.listDecisionsByProposal Store.listDecisionsByProposal
  dsimp only
  rw [rows, mapM_scanDecision lawful _ fun r member =>
    represents.storedRecords r (List.mem_of_mem_filter member)]

theorem getClaim (d : GoString) : m.getClaim none d = s.getClaim codec none d := by
  unfold MemoryStore.getClaim Store.getClaim
  dsimp only
  rw [represents.claims]
  cases held : m.claims d with
  | none => rfl
  | some c =>
      rw [Option.map_some]
      dsimp only
      rw [scanClaim_claimRow lawful (represents.storedClaims d c held)]

theorem claimExecution (d : GoString) (owner : ClaimOwner) {t : Time} (storable : InYears t) :
    (m.claimExecution none d owner t).2 = (s.claimExecution codec none d owner t).2 ∧
      Represents codec (m.claimExecution none d owner t).1
        (s.claimExecution codec none d owner t).1 := by
  unfold Store.claimExecution
  by_cases refused : (d == [] || !owner.valid) = true
  · unfold MemoryStore.claimExecution
    simp only [refused, if_true]
    exact ⟨trivial, represents⟩
  obtain ⟨named, valid⟩ : d ≠ [] ∧ owner.valid = true := by simpa using refused
  rw [if_neg refused]
  dsimp only
  rcases represents.upsertClaim storable named valid with
    ⟨m', s', done, memory, next⟩ | ⟨done, c, held, taken⟩ | ⟨done, memory⟩ <;> rw [done] <;>
    dsimp only
  · rw [memory, if_pos rfl]
    exact ⟨rfl, next⟩
  · rw [claimExecution_held m held taken named valid, if_neg Nat.zero_ne_one,
      ← represents.getClaim lawful]
    unfold MemoryStore.getClaim
    rw [held]
    exact ⟨rfl, represents⟩
  · rw [memory]
    exact ⟨rfl, represents⟩

/-- One operation: the same answer, and the stores stay in step. -/
theorem answer {op : Operation} (storable : Storable op) :
    (memoryMethods.answer m op).2 = ((sqliteMethods codec).answer s op).2 ∧
      Represents codec (memoryMethods.answer m op).1 ((sqliteMethods codec).answer s op).1 := by
  cases op <;> dsimp only [Methods.answer, memoryMethods, sqliteMethods, status]
  case appendDecision rec =>
    obtain ⟨same, next⟩ := represents.appendDecision lawful storable
    exact ⟨by rw [same], next⟩
  case getDecision d => exact ⟨by rw [represents.getDecision lawful d], represents⟩
  case listDecisionsByProposal p =>
    exact ⟨by rw [represents.listDecisionsByProposal lawful p], represents⟩
  case claimExecution d owner t =>
    obtain ⟨same, next⟩ := represents.claimExecution lawful d owner storable
    exact ⟨by rw [same], next⟩
  case advanceClaim d owner target t =>
    obtain ⟨same, next⟩ := represents.advanceClaim d owner target storable
    exact ⟨by rw [same], next⟩
  case getClaim d => exact ⟨by rw [represents.getClaim lawful d], represents⟩

end Represents

/-- Two new stores. -/
theorem represents_new (codec : Codec) : Represents codec .new .new where
  records := rfl
  claims _ := rfl
  storedRecords := by simp [MemoryStore.new]
  storedClaims := by simp [MemoryStore.new]

/-! ## The result -/

/-- **The stores give the same answers.**  Over every sequence of operations with UTF-8
reasons and times of the years 0 to 9999, started empty. -/
theorem stores_agree (codec : Codec) (lawful : codec.Lawful) (operations : List Operation)
    (storable : ∀ op ∈ operations, Storable op) :
    outputs memoryMethods.answer .new operations =
      outputs (sqliteMethods codec).answer .new operations := by
  refine outputs_eq (R := Represents codec) (P := Storable) ?_ (represents_new codec) operations
    storable
  intro m s op accepted represents
  exact represents.answer lawful accepted

def sampleRecord : DecisionRecord where
  decisionID := ascii "d"
  stage := .ingress
  proposalID := ascii "p"
  agentID := ascii "a"
  requestHash := ascii "h"
  command := ascii "c"
  targetID := ascii "t"
  environment := ascii "e"
  verdict := .allow
  reasons := [.named .environmentAllowed]
  policyVersion := ascii "v"
  policyDigest := []
  workflowID := ascii "w"
  traceID := []
  recordedAt := ⟨1⟩

def sampleOwner : ClaimOwner where
  workflowID := ascii "w"
  runID := ascii "r"
  token := ascii "k"

theorem sampleRecord_storable : StorableRecord sampleRecord := by
  refine ⟨?_, by decide⟩
  intro reason member
  rw [List.mem_singleton.mp member]
  exact ⟨"ENVIRONMENT_ALLOWED".toList, by decide⟩

/-- Two records under one ID, two owners, a claim that is fenced. -/
def sampleOperations : List Operation :=
  [.appendDecision sampleRecord, .appendDecision { sampleRecord with agentID := ascii "b" },
   .claimExecution (ascii "d") sampleOwner ⟨2⟩,
   .claimExecution (ascii "d") { sampleOwner with runID := ascii "s" } ⟨3⟩,
   .advanceClaim (ascii "d") sampleOwner .executing ⟨4⟩, .getClaim (ascii "d"),
   .listDecisionsByProposal (ascii "p")]

theorem stores_agree_sample :
    (∀ op ∈ sampleOperations, Storable op) ∧
    outputs memoryMethods.answer .new sampleOperations =
      outputs (sqliteMethods goCodec).answer .new sampleOperations := by
  have storable : ∀ op ∈ sampleOperations, Storable op := by
    simp only [sampleOperations, List.forall_mem_cons, Storable, List.not_mem_nil,
      IsEmpty.forall_iff, implies_true, and_true]
    exact ⟨sampleRecord_storable, sampleRecord_storable, by decide, by decide, by decide⟩
  exact ⟨storable, stores_agree goCodec goCodec_lawful sampleOperations storable⟩

end SentryGate.Audit
