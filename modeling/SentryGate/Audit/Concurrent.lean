/-
# Audit.Concurrent -- concurrent callers of the SQLite claim store

Any number of callers run `ClaimExecution`, `AdvanceClaim` and `GetClaim`, and their SQL
statements interleave.  `AdvanceClaim` and `GetClaim` are one statement each;
`ClaimExecution` is an upsert and, where that changed nothing, a read.

* `release_between` -- the read may find a claim that was RELEASED after the upsert
  found it taken.  The caller is then told that the claim is held, which no atomic
  `ClaimExecution` would have said at any moment of the call.
* `claims_linearizable` -- in a run where no such read finds a RELEASED claim, every
  call behaves as one atomic operation of `MemoryStore`, at its last statement.
-/
import SentryGate.Theory.Linearize
import SentryGate.Audit.Equivalence

namespace SentryGate.Audit

open Theory Theory.Text Theory.Machine Theory.Counting Theory.Linearize Contracts Decision

set_option autoImplicit false

/-! ## The calls -/

inductive ClaimOp where
  | claimExecution (decisionID : GoString) (owner : ClaimOwner) (t : Time)
  | advanceClaim (decisionID : GoString) (owner : ClaimOwner) (target : ClaimState) (t : Time)
  | getClaim (decisionID : GoString)
  deriving DecidableEq

/-- What a call returns. -/
inductive Outcome where
  | status (err : Option StoreError)
  | claim (result : Except StoreError ExecutionClaim)
  deriving DecidableEq

/-- The calls as `MemoryStore` implements them, each at once. -/
def atomic (m : MemoryStore) : ClaimOp → MemoryStore × Outcome
  | .claimExecution decisionID owner t =>
      let result := m.claimExecution none decisionID owner t
      (result.1, .status result.2)
  | .advanceClaim decisionID owner target t =>
      let result := m.advanceClaim none decisionID owner target t
      (result.1, .status result.2)
  | .getClaim decisionID => (m, .claim (m.getClaim none decisionID))

/-- How far a call has come: before its first statement, before the read of
`ClaimExecution`, or done with its statements. -/
inductive Phase where
  | waiting
  | reading
  | finished (out : Outcome)

structure Caller where
  call : Call ClaimOp Outcome
  phase : Phase

structure Concurrent where
  clock : Nat
  store : Store
  callers : List Caller

def Concurrent.initial (store : Store) : Concurrent := ⟨0, store, []⟩

def Concurrent.calls (s : Concurrent) : List (Call ClaimOp Outcome) := s.callers.map Caller.call

/-- A caller begins a call, runs its next statement, or gets its result. -/
inductive Action where
  | start (op : ClaimOp)
  | statement (i : Nat)
  | respond (i : Nat)

/-- The next statement of a call. -/
def statement (codec : Codec) (store : Store) : ClaimOp → Phase → Store × Phase
  | .claimExecution decisionID owner t, .waiting =>
      if decisionID == [] || !owner.valid then
        (store, .finished (.status (some (.invalidClaim decisionID))))
      else match store.upsertClaim decisionID owner (codec.formatTime t) with
        | (store', .error e) => (store', .finished (.status (some e)))
        | (store', .ok n) => (store', if n = 1 then .finished (.status none) else .reading)
  | .claimExecution decisionID owner _, .reading =>
      match store.getClaim codec none decisionID with
      | .error e => (store, .finished (.status (some (.wrapped (ascii "read existing claim") e))))
      | .ok c => (store, .finished (.status (reportHeld owner c)))
  | .advanceClaim decisionID owner target t, .waiting =>
      let result := store.advanceClaim codec none decisionID owner target t
      (result.1, .finished (.status result.2))
  | .getClaim decisionID, .waiting =>
      (store, .finished (.claim (store.getClaim codec none decisionID)))
  | _, phase => (store, phase)

def Concurrent.step (codec : Codec) (s : Concurrent) : Action → Option Concurrent
  | .start op => some { s with
      clock := s.clock + 1
      callers := s.callers ++ [{ call := ⟨op, s.clock, none⟩, phase := .waiting }] }
  | .statement i =>
      match s.callers[i]? with
      | none | some ⟨_, .finished _⟩ => none
      | some caller =>
          let (store, phase) := statement codec s.store caller.call.op caller.phase
          some { clock := s.clock + 1, store, callers := s.callers.set i { caller with phase } }
  | .respond i =>
      match s.callers[i]? with
      | some ⟨⟨op, began, none⟩, .finished out⟩ => some { s with
          clock := s.clock + 1
          callers := s.callers.set i ⟨⟨op, began, some (s.clock, out)⟩, .finished out⟩ }
      | _ => none

/-! ## A release between the two statements -/

/-- What a caller can tell from a result: success, or the class of the error. -/
def Outcome.coarse : Outcome → Answer
  | .status err => .status (err.map errorClass)
  | .claim result => .claim (result.mapError errorClass)

/-- The atomic calls, up to the class of their errors. -/
def atomicClass (m : MemoryStore) (op : ClaimOp) : MemoryStore × Answer :=
  ((atomic m op).1, (atomic m op).2.coarse)

/-- A call, up to the class of its error. -/
def coarseCall (c : Call ClaimOp Outcome) : Call ClaimOp Answer where
  op := c.op
  began := c.began
  returned := c.returned.map fun (e, out) => (e, out.coarse)

/-- The decision is recorded, and free or claimed by `owner`. -/
def Claimable (owner : ClaimOwner) (d : GoString) (m : MemoryStore) : Prop :=
  (m.byID d).isSome ∧ (Free (m.holding? d) ∨ m.holding? d = some ⟨owner, .claimed⟩)

/-- `owner` claims the decision, or gives it up. -/
def ClaimsOrReleases (owner : ClaimOwner) (d : GoString) (op : ClaimOp) : Prop :=
  (∃ t, op = .claimExecution d owner t) ∨ ∃ t, op = .advanceClaim d owner .released t

theorem atomic_byID (m : MemoryStore) (op : ClaimOp) : (atomic m op).1.byID = m.byID := by
  cases op with
  | claimExecution d owner t =>
      dsimp only [atomic, MemoryStore.claimExecution]
      repeat' split
      all_goals rfl
  | advanceClaim d owner target t =>
      dsimp only [atomic, MemoryStore.advanceClaim]
      repeat' split
      all_goals rfl
  | getClaim d => rfl

/-- While nobody else acts on the decision, it stays claimable by its owner. -/
theorem Claimable.kept {owner : ClaimOwner} {d : GoString} {m : MemoryStore} {op : ClaimOp}
    (claimable : Claimable owner d m) (own : ClaimsOrReleases owner d op) :
    Claimable owner d (atomic m op).1 := by
  refine ⟨by rw [atomic_byID]; exact claimable.1, ?_⟩
  rcases own with ⟨t, rfl⟩ | ⟨t, rfl⟩
  · rcases memoryClaims_lawful.outcome m (.claimExecution none d owner t) with
      ⟨e, done⟩ | ⟨m', done, effect⟩ <;> dsimp only [atomic, memoryClaims] at done ⊢ <;> rw [done]
    · exact claimable.2
    · rcases effect with change | ⟨rfl, mine⟩
      · exact Or.inr change.row.of_acquired.2
      · exact Or.inr mine
  · rcases memoryClaims_lawful.outcome m (.advanceClaim none d owner .released t) with
      ⟨e, done⟩ | ⟨m', done, effect⟩ <;> dsimp only [atomic, memoryClaims] at done ⊢ <;> rw [done]
    · exact claimable.2
    · obtain ⟨st, -, -, next⟩ := (ClaimStore.Changes.row effect).of_advanced
      refine Or.inl fun h held => ?_
      cases held.symm.trans next
      rfl

/-- A claimable decision is not refused to its owner. -/
theorem Claimable.not_refused {owner : ClaimOwner} {d : GoString} {m : MemoryStore} {t : Time}
    (claimable : Claimable owner d m) {err : StoreError}
    (failed : (m.claimExecution none d owner t).2 = some err) : errorClass err ≠ .claimHeld := by
  obtain ⟨known, row⟩ := claimable
  unfold MemoryStore.claimExecution at failed
  dsimp only at failed
  split at failed
  · cases failed
    simp [errorClass]
  split at failed
  · cases failed
  · rename_i c' held
    rcases row with free | mine
    · have released : c'.state = .released := free (holding c') (by simp [MemoryStore.holding?, held])
      rw [if_pos released] at failed
      cases failed
    · have own : c'.owner = owner ∧ c'.state = .claimed := by
        simpa [MemoryStore.holding?, held, holding] using mine
      simp [own] at failed

/-- **An owner who is alone on a decision is never told that the claim is held**, in
whatever order its claims and releases take effect. -/
theorem alone_not_refused {owner : ClaimOwner} {d : GoString} {m₀ m : MemoryStore}
    {calls : List (Call ClaimOp Answer)} (claimable : Claimable owner d m₀)
    (own : ∀ c ∈ calls, ClaimsOrReleases owner d c.op)
    (linearizable : Linearizable atomicClass m₀ calls m) {i e : Nat} {t : Time}
    {c : Call ClaimOp Answer} (found : calls[i]? = some c)
    (isClaim : c.op = .claimExecution d owner t)
    (refused : c.returned = some (e, .status (some .claimHeld))) : False := by
  obtain ⟨order, lin⟩ := linearizable
  obtain ⟨before, earlier, answered⟩ := lin.explains found refused
  have still : ∀ m, Claimable owner d m → ∀ ops : List ClaimOp,
      (∀ op ∈ ops, ClaimsOrReleases owner d op) →
      Claimable owner d (afterInputs atomicClass m ops) := by
    intro m claimable ops
    induction ops generalizing m with
    | nil => exact fun _ => claimable
    | cons op ops ih =>
        intro all
        exact ih _ (claimable.kept (all op List.mem_cons_self))
          fun op' member => all op' (List.mem_cons_of_mem op member)
  have now := still m₀ claimable before fun op member => by
    obtain ⟨c', there, rfl⟩ := earlier op member
    exact own c' there
  rw [isClaim] at answered
  dsimp only [atomicClass, atomic, Outcome.coarse] at answered
  rw [Answer.status.injEq, Option.map_eq_some_iff] at answered
  obtain ⟨err, result, held⟩ := answered
  exact now.not_refused result held

/-- One recorded decision without a claim, in either store. -/
def sampleMemory : MemoryStore := (MemoryStore.new.appendDecision none sampleRecord).1

def sampleStore : Store := (Store.new.appendDecision goCodec none sampleRecord).1

/-- An owner claims; claims again, and the upsert changes nothing; releases; and only then
the second claim reads the row. -/
def releaseRun : List Action :=
  [.start (.claimExecution (ascii "d") sampleOwner ⟨2⟩), .statement 0, .respond 0,
   .start (.claimExecution (ascii "d") sampleOwner ⟨3⟩), .statement 1,
   .start (.advanceClaim (ascii "d") sampleOwner .released ⟨4⟩), .statement 2, .respond 2,
   .statement 1, .respond 1]

/-- **The second claim of `releaseRun` is refused, and no order of atomic operations
refuses it.** -/
theorem release_between :
    ∃ s, exec (Concurrent.step goCodec) (.initial sampleStore) releaseRun = some s ∧
      ∀ m, ¬ Linearizable atomicClass sampleMemory (s.calls.map coarseCall) m := by
  have seen : (exec (Concurrent.step goCodec) (.initial sampleStore) releaseRun).map
      (fun s => s.calls.map coarseCall) = some
      [⟨.claimExecution (ascii "d") sampleOwner ⟨2⟩, 0, some (2, .status none)⟩,
       ⟨.claimExecution (ascii "d") sampleOwner ⟨3⟩, 3, some (9, .status (some .claimHeld))⟩,
       ⟨.advanceClaim (ascii "d") sampleOwner .released ⟨4⟩, 5, some (7, .status none)⟩] := by
    decide +kernel
  obtain ⟨s, ran, calls⟩ := Option.map_eq_some_iff.mp seen
  refine ⟨s, ran, fun m linearizable => ?_⟩
  rw [calls] at linearizable
  have claimable : Claimable sampleOwner (ascii "d") sampleMemory :=
    ⟨by decide, Or.inl fun h held => by cases held⟩
  refine alone_not_refused claimable ?_ linearizable (i := 1) rfl rfl rfl
  simp [ClaimsOrReleases]

/-! ## One statement -/

/-- The times of a call are of the years 0 to 9999. -/
def ClaimOp.storable : ClaimOp → Bool
  | .claimExecution _ _ t | .advanceClaim _ _ _ t => decide (InYears t)
  | .getClaim _ => true

/-- The next statement does not read a RELEASED claim for `ClaimExecution`. -/
def readsTaken (store : Store) : ClaimOp → Phase → Bool
  | .claimExecution decisionID _ _, .reading =>
      (store.claims.find? decisionID).all (·.state ≠ ascii "RELEASED")
  | _, _ => true

/-- A call before its read: a well-formed `ClaimExecution` of a decision with a claim. -/
def Reads (m : MemoryStore) (op : ClaimOp) : Prop :=
  ∃ decisionID owner t, op = .claimExecution decisionID owner t ∧ decisionID ≠ [] ∧
    owner.valid = true ∧ (m.claims decisionID).isSome

/-- The claims an atomic call leaves are at least those it found. -/
theorem atomic_claims_kept (m : MemoryStore) (op : ClaimOp) {d : GoString}
    (there : (m.claims d).isSome) : ((atomic m op).1.claims d).isSome := by
  have kept : ∀ call, ((memoryClaims.call m call).1.claims d).isSome := by
    intro call
    obtain ⟨w, change⟩ := memoryClaims_lawful.change m call d
    have after := change.kept (by simpa [ClaimStore.holding?, memoryClaims] using there)
    simpa [ClaimStore.holding?, memoryClaims] using after
  cases op with
  | claimExecution e owner t => exact kept (.claimExecution none e owner t)
  | advanceClaim e owner target t => exact kept (.advanceClaim none e owner target t)
  | getClaim e => exact there

section Statement

variable {codec : Codec} {m : MemoryStore} {store : Store} (lawful : codec.Lawful)
  (represents : Represents codec m store)

include lawful represents

/-- A first statement is the whole atomic call, or finds the claim taken. -/
theorem statement_waiting {op : ClaimOp} (storable : op.storable = true) :
    (∃ m' store' out, statement codec store op .waiting = (store', .finished out) ∧
      atomic m op = (m', out) ∧ Represents codec m' store') ∨
    (statement codec store op .waiting = (store, .reading) ∧ Reads m op) := by
  cases op with
  | claimExecution d owner t =>
      have inYears : InYears t := of_decide_eq_true storable
      unfold statement atomic
      dsimp only
      by_cases refused : (d == [] || !owner.valid) = true
      · refine Or.inl ⟨m, store, .status (some (.invalidClaim d)), ?_, ?_, represents⟩
        · rw [if_pos refused]
        · unfold MemoryStore.claimExecution
          simp only [refused, if_true]
      obtain ⟨named, valid⟩ : d ≠ [] ∧ owner.valid = true := by simpa using refused
      rw [if_neg refused]
      rcases represents.upsertClaim inYears named valid with
        ⟨m', s', done, memory, next⟩ | ⟨done, c, held, -⟩ | ⟨done, memory⟩ <;> rw [done] <;>
        dsimp only
      · rw [memory, if_pos rfl]
        exact Or.inl ⟨m', s', _, rfl, rfl, next⟩
      · rw [if_neg Nat.zero_ne_one]
        exact Or.inr ⟨rfl, d, owner, t, rfl, named, valid, by rw [held]; rfl⟩
      · rw [memory]
        exact Or.inl ⟨m, store, _, rfl, rfl, represents⟩
  | advanceClaim d owner target t =>
      obtain ⟨same, next⟩ := represents.advanceClaim d owner target (of_decide_eq_true storable)
      refine Or.inl ⟨_, _, _, rfl, ?_, next⟩
      unfold atomic
      dsimp only
      rw [same]
  | getClaim d =>
      refine Or.inl ⟨m, store, _, rfl, ?_, represents⟩
      unfold atomic
      dsimp only
      rw [represents.getClaim lawful d]

/-- The read of a claim that is still taken is the whole atomic call. -/
theorem statement_reading {op : ClaimOp} (reads : Reads m op)
    (settled : readsTaken store op .reading = true) :
    ∃ out, statement codec store op .reading = (store, .finished out) ∧
      atomic m op = (m, out) := by
  obtain ⟨d, owner, t, rfl, named, valid, there⟩ := reads
  obtain ⟨c, held⟩ := Option.isSome_iff_exists.mp there
  have taken : c.state ≠ .released := by
    intro released
    dsimp only [readsTaken] at settled
    rw [represents.claims, held, Option.map_some, Option.all_some, decide_eq_true_eq] at settled
    exact settled (congrArg Open.text released)
  refine ⟨.status (reportHeld owner c), ?_, ?_⟩
  · unfold statement
    dsimp only
    rw [← represents.getClaim lawful]
    unfold MemoryStore.getClaim
    rw [held]
  · unfold atomic
    dsimp only
    rw [claimExecution_held m held taken named valid]

end Statement

/-! ## Whole runs -/

/-- How far the call has come, told from the order of the calls that took effect. -/
def Caller.Progress (m : MemoryStore) (order : List (Turn ClaimOp Outcome)) (i : Nat)
    (caller : Caller) : Prop :=
  match caller.phase with
  | .finished out => ⟨i, caller.call.op, out⟩ ∈ order
  | .waiting => i ∉ order.map Turn.index ∧ caller.call.returned = none
  | .reading => i ∉ order.map Turn.index ∧ caller.call.returned = none ∧ Reads m caller.call.op

/-- Another call takes effect. -/
theorem Caller.Progress.take {m : MemoryStore} {order : List (Turn ClaimOp Outcome)} {i : Nat}
    {caller : Caller} (progress : caller.Progress m order i) (turn : Turn ClaimOp Outcome)
    (other : i ≠ turn.index) (op : ClaimOp) :
    caller.Progress (atomic m op).1 (order ++ [turn]) i := by
  have absent : i ∉ order.map Turn.index → i ∉ (order ++ [turn]).map Turn.index := by
    intro before after
    rw [List.map_append, List.mem_append] at after
    rcases after with old | new
    · exact before old
    · exact other (by simpa using new)
  obtain ⟨call, phase⟩ := caller
  cases phase with
  | waiting => exact ⟨absent progress.1, progress.2⟩
  | reading =>
      obtain ⟨before, pending, d, owner, t, isClaim, named, valid, there⟩ := progress
      exact ⟨absent before, pending, d, owner, t, isClaim, named, valid,
        atomic_claims_kept m op there⟩
  | finished out => exact List.mem_append_left _ progress

/-- The order of the calls' last statements explains the run so far. -/
structure Explained (codec : Codec) (m₀ : MemoryStore) (s : Concurrent) (m : MemoryStore)
    (order : List (Turn ClaimOp Outcome)) : Prop where
  lin : Linearization atomic m₀ s.calls m order
  represents : Represents codec m s.store
  calls : ∀ c ∈ s.calls, c.began < s.clock ∧ c.op.storable = true
  progress : ∀ (i : Nat) (caller : Caller), s.callers[i]? = some caller → caller.Progress m order i

/-- Calls have times of the years 0 to 9999, and no read of `ClaimExecution` finds a
RELEASED claim. -/
def Concurrent.settled (s : Concurrent) : Action → Bool
  | .start op => op.storable
  | .statement i => (s.callers[i]?).all fun caller =>
      readsTaken s.store caller.call.op caller.phase
  | .respond _ => true

theorem Concurrent.asked {s : Concurrent} {i : Nat} {caller : Caller}
    (found : s.callers[i]? = some caller) : s.calls[i]? = some caller.call := by
  unfold calls
  rw [List.getElem?_map, found]
  rfl

/-- The calls do not change with a caller's phase. -/
theorem Concurrent.calls_set {s : Concurrent} {i : Nat} {caller : Caller}
    (found : s.callers[i]? = some caller) (phase : Phase) :
    (s.callers.set i { caller with phase }).map Caller.call = s.calls := by
  have bound := (List.getElem?_eq_some_iff.mp found).1
  unfold calls
  refine List.ext_getElem? fun j => ?_
  rw [List.getElem?_map, List.getElem?_map]
  by_cases other : i = j
  · subst other
    rw [List.getElem?_set_self bound, found]
    rfl
  · rw [List.getElem?_set_ne other]

namespace Explained

variable {codec : Codec} {m₀ m : MemoryStore} {s s' : Concurrent}
  {order : List (Turn ClaimOp Outcome)} (explained : Explained codec m₀ s m order)

include explained

theorem calls_later : ∀ c ∈ s.calls, c.began < s.clock + 1 ∧ c.op.storable = true := by
  intro c member
  obtain ⟨began, storable⟩ := explained.calls c member
  exact ⟨Nat.lt_succ_of_lt began, storable⟩

theorem start {op : ClaimOp} (storable : op.storable = true)
    (stepped : s.step codec (.start op) = some s') : Explained codec m₀ s' m order := by
  cases stepped
  constructor
  case lin =>
    have lin := explained.lin.begin (c := ⟨op, s.clock, none⟩) rfl
    simpa [Concurrent.calls] using lin
  case represents => exact explained.represents
  case calls =>
    intro c member
    simp only [Concurrent.calls, List.map_append, List.mem_append, List.map_singleton,
      List.mem_singleton] at member
    rcases member with old | rfl
    · exact explained.calls_later c old
    · exact ⟨Nat.lt_succ_self _, storable⟩
  case progress =>
    intro i caller found
    rcases getElem?_concat_some found with old | ⟨rfl, rfl⟩
    · exact explained.progress i caller old
    · refine ⟨?_, rfl⟩
      intro member
      obtain ⟨turn, there, same⟩ := List.mem_map.mp member
      obtain ⟨c, found, -⟩ := explained.lin.honest turn there
      have bound := (List.getElem?_eq_some_iff.mp found).1
      simp only [Concurrent.calls, List.length_map] at bound
      omega

/-- The statement that ends a call. -/
theorem finish {i : Nat} {caller : Caller} (found : s.callers[i]? = some caller)
    (fresh : i ∉ order.map Turn.index) (pending : caller.call.returned = none)
    {store : Store} {m' : MemoryStore} {out : Outcome}
    (effect : atomic m caller.call.op = (m', out)) (next : Represents codec m' store) :
    Explained codec m₀
      ⟨s.clock + 1, store, s.callers.set i { caller with phase := .finished out }⟩ m'
      (order ++ [⟨i, caller.call.op, out⟩]) := by
  constructor
  case lin =>
    unfold Concurrent.calls
    rw [Concurrent.calls_set found]
    exact explained.lin.take (Concurrent.asked found) pending fresh effect
  case represents => exact next
  case calls =>
    unfold Concurrent.calls
    rw [Concurrent.calls_set found]
    exact explained.calls_later
  case progress =>
    intro j caller' found'
    rcases getElem?_set_some found' with ⟨rfl, rfl⟩ | ⟨other, old⟩
    · exact List.mem_append_right _ (List.mem_singleton_self _)
    · have progress := (explained.progress j caller' old).take ⟨i, caller.call.op, out⟩ other
        caller.call.op
      rw [effect] at progress
      exact progress

/-- The upsert that finds the claim taken. -/
theorem read_next {i : Nat} {caller : Caller} (found : s.callers[i]? = some caller)
    (waiting : caller.phase = .waiting) (reads : Reads m caller.call.op) :
    Explained codec m₀
      ⟨s.clock + 1, s.store, s.callers.set i { caller with phase := .reading }⟩ m order := by
  constructor
  case lin =>
    unfold Concurrent.calls
    rw [Concurrent.calls_set found]
    exact explained.lin
  case represents => exact explained.represents
  case calls =>
    unfold Concurrent.calls
    rw [Concurrent.calls_set found]
    exact explained.calls_later
  case progress =>
    intro j caller' found'
    rcases getElem?_set_some found' with ⟨rfl, rfl⟩ | ⟨-, old⟩
    · have progress := explained.progress j caller found
      unfold Caller.Progress at progress
      rw [waiting] at progress
      exact ⟨progress.1, progress.2, reads⟩
    · exact explained.progress j caller' old

theorem statement (lawful : codec.Lawful) {i : Nat} (settled : s.settled (.statement i) = true)
    (stepped : s.step codec (.statement i) = some s') :
    ∃ m' order', Explained codec m₀ s' m' order' := by
  unfold Concurrent.step at stepped
  dsimp only at stepped
  cases found : s.callers[i]? with
  | none =>
      rw [found] at stepped
      cases stepped
  | some caller =>
      have progress := explained.progress i caller found
      have storable := (explained.calls _ (List.mem_of_getElem? (Concurrent.asked found))).2
      dsimp only [Concurrent.settled] at settled
      rw [found, Option.all_some] at settled
      rw [found] at stepped
      obtain ⟨call, phase⟩ := caller
      cases phase with
      | finished out => cases stepped
      | waiting =>
          dsimp only at stepped
          rcases statement_waiting lawful explained.represents storable with
            ⟨m', store', out, done, effect, next⟩ | ⟨done, reads⟩ <;> rw [done] at stepped <;>
            cases stepped
          · exact ⟨m', _, explained.finish found progress.1 progress.2 effect next⟩
          · exact ⟨m, order, explained.read_next found rfl reads⟩
      | reading =>
          dsimp only at stepped
          obtain ⟨fresh, pending, reads⟩ := progress
          obtain ⟨out, done, effect⟩ :=
            statement_reading lawful explained.represents reads settled
          rw [done] at stepped
          cases stepped
          exact ⟨m, _, explained.finish found fresh pending effect explained.represents⟩

theorem respond {i : Nat} (stepped : s.step codec (.respond i) = some s') :
    Explained codec m₀ s' m order := by
  unfold Concurrent.step at stepped
  dsimp only at stepped
  split at stepped
  · rename_i op began out found
    cases stepped
    have taken : ⟨i, op, out⟩ ∈ order := explained.progress i _ found
    have asked := Concurrent.asked found
    constructor
    case lin =>
      have lin := explained.lin.returns asked taken fun c member => (explained.calls c member).1
      unfold Concurrent.calls
      rw [List.map_set]
      exact lin
    case represents => exact explained.represents
    case calls =>
      unfold Concurrent.calls
      rw [List.map_set]
      intro c member
      rcases List.mem_or_eq_of_mem_set member with old | rfl
      · exact explained.calls_later c old
      · exact explained.calls_later ⟨op, began, none⟩ (List.mem_of_getElem? asked)
    case progress =>
      intro j caller' found'
      rcases getElem?_set_some found' with ⟨rfl, rfl⟩ | ⟨-, old⟩
      · exact taken
      · exact explained.progress j caller' old
  · cases stepped

end Explained

theorem explained_initial {codec : Codec} {m₀ : MemoryStore} {store : Store}
    (represents : Represents codec m₀ store) :
    Explained codec m₀ (.initial store) m₀ [] where
  lin := .nil atomic m₀
  represents := represents
  calls := by simp [Concurrent.initial, Concurrent.calls]
  progress := by simp [Concurrent.initial]

/-- **Concurrent calls are linearizable while no read of `ClaimExecution` finds a RELEASED
claim**: what they return, and the store they leave, is what some order of atomic
`MemoryStore` operations gives that respects which call returned before which began. -/
theorem claims_linearizable (codec : Codec) (lawful : codec.Lawful) (m₀ : MemoryStore)
    (store : Store) (represents : Represents codec m₀ store) (s : Concurrent)
    (run : Steps (Concurrent.step codec) (admits Concurrent.settled) (.initial store) s) :
    ∃ m, Represents codec m s.store ∧ Linearizable atomic m₀ s.calls m := by
  have explained : ∃ m order, Explained codec m₀ s m order := by
    refine run.invariant (P := fun s => ∃ m order, Explained codec m₀ s m order) ?_
      ⟨m₀, [], explained_initial represents⟩
    rintro s action s' ⟨m, order, explained⟩ settled stepped
    cases action with
    | start op => exact ⟨m, order, explained.start settled stepped⟩
    | statement i => exact explained.statement lawful settled stepped
    | respond i => exact ⟨m, order, explained.respond stepped⟩
  obtain ⟨m, order, explained⟩ := explained
  exact ⟨m, explained.represents, order, explained.lin⟩

/-- The second claim reads the row before the release. -/
def settledRun : List Action :=
  [.start (.claimExecution (ascii "d") sampleOwner ⟨2⟩), .statement 0, .respond 0,
   .start (.claimExecution (ascii "d") sampleOwner ⟨3⟩), .statement 1,
   .start (.advanceClaim (ascii "d") sampleOwner .released ⟨4⟩), .statement 1, .statement 2,
   .respond 2, .respond 1]

theorem represents_sample : Represents goCodec sampleMemory sampleStore :=
  ((represents_new goCodec).appendDecision goCodec_lawful sampleRecord_storable).2

theorem claims_linearizable_sample :
    ∃ s, exec (Concurrent.step goCodec) (.initial sampleStore) settledRun = some s ∧
      s.calls.length = 3 ∧
      ∃ m, Represents goCodec m s.store ∧ Linearizable atomic sampleMemory s.calls m := by
  have seen : (execWhile (Concurrent.step goCodec) Concurrent.settled (.initial sampleStore)
      settledRun).map (fun s => s.calls.length) = some 3 := by
    decide +kernel
  obtain ⟨s, ran, three⟩ := Option.map_eq_some_iff.mp seen
  exact ⟨s, exec_of_execWhile ran, three, claims_linearizable goCodec goCodec_lawful
    sampleMemory sampleStore represents_sample s (steps_of_execWhile ran)⟩

end SentryGate.Audit
