/-
# Workflows.Effects -- all answers of a simulated target agree

Any sequence of Dispatch, Reconcile and Compensate calls on one `SimulatedAdapter`: any
keys, any targets, also different ones under one key, contexts that live or have ended.

A key's record is written once and never taken back, every SUCCESS or FAILURE that is
reported is that record, and the record determines how often the key took effect
(`Consistent`).  So all confirmed answers for a key are one outcome, and the number of
mutations is settled by the first of them (`effects_settled`).

A call reads and writes nothing but its own key (`call_elsewhere`, `call_local`): what is
reported for a key, and what becomes of it, is what its own calls alone would lead to.
-/
import SentryGate.Theory.Machine
import SentryGate.Workflows.Simulated

namespace SentryGate.Workflows

open Theory.Text Theory.Machine Contracts Decision

set_option autoImplicit false

namespace SimulatedAdapter

/-! ## Calls -/

inductive Call where
  | dispatch (ctx : Context) (req : DispatchRequest)
  | reconcile (ctx : Context) (req : DispatchRequest)
  | compensate (ctx : Context) (req : DispatchRequest)

def Call.key : Call → GoString
  | .dispatch _ req | .reconcile _ req | .compensate _ req => req.idempotencyKey

/-- One call: the adapter after it, and the outcome it reports. -/
def call (s : SimulatedAdapter) : Call → SimulatedAdapter × Option DispatchOutcome
  | .dispatch ctx req => ((s.dispatch ctx req).1, some (s.dispatch ctx req).2)
  | .reconcile ctx req => ((s.reconcile ctx req).1, some (s.reconcile ctx req).2)
  | .compensate ctx req => ((s.compensate ctx req).1, none)

/-- The adapter after a sequence of calls. -/
abbrev after (s : SimulatedAdapter) (calls : List Call) : SimulatedAdapter :=
  afterInputs call s calls

/-- The outcomes reported for a key along a sequence of calls. -/
def reported (key : GoString) : SimulatedAdapter → List Call → List DispatchOutcome
  | _, [] => []
  | s, c :: calls =>
      (if c.key = key then (s.call c).2.toList else []) ++ reported key (s.call c).1 calls

/-! ## Other keys -/

/-- The two adapters agree on everything about a key. -/
structure SameAt (key : GoString) (s t : SimulatedAdapter) : Prop where
  effects : s.effects key = t.effects key
  mutations : s.mutations key = t.mutations key
  compensations : s.compensations key = t.compensations key

variable {s t : SimulatedAdapter} {key : GoString}

theorem SameAt.same : SameAt key s s := ⟨rfl, rfl, rfl⟩

theorem SameAt.trans {u : SimulatedAdapter} (first : SameAt key s t) (second : SameAt key t u) :
    SameAt key s u :=
  ⟨first.effects.trans second.effects, first.mutations.trans second.mutations,
    first.compensations.trans second.compensations⟩

/-- A call does not touch the other keys. -/
theorem call_elsewhere (s : SimulatedAdapter) {c : Call} (other : key ≠ c.key) :
    SameAt key (s.call c).1 s := by
  cases c with
  | dispatch ctx req =>
      have apart : key ≠ req.idempotencyKey := other
      show SameAt key (s.dispatch ctx req).1 s
      unfold dispatch
      simp only
      split
      · exact .same
      · repeat' split
        all_goals constructor <;> simp [apply, fence, apart]
  | reconcile ctx req =>
      have apart : key ≠ req.idempotencyKey := other
      show SameAt key (s.reconcile ctx req).1 s
      unfold reconcile
      repeat' split
      all_goals constructor <;> simp [fence, apart]
  | compensate ctx req =>
      have apart : key ≠ req.idempotencyKey := other
      show SameAt key (s.compensate ctx req).1 s
      unfold compensate
      split
      · exact .same
      · constructor <;> simp [apart]

theorem SameAt.apply (same : SameAt key s t) {effect : DispatchOutcome}
    (fresh : s.effects key = none) (fresh' : t.effects key = none)
    (mutates : Consistent (some effect) 1) :
    SameAt key (s.apply key effect fresh mutates) (t.apply key effect fresh' mutates) := by
  constructor <;> simp [SimulatedAdapter.apply, same.mutations, same.compensations]

theorem SameAt.fence (same : SameAt key s t) {detail : GoString}
    (fresh : s.effects key = none) (fresh' : t.effects key = none) :
    SameAt key (s.fence key detail fresh).1 (t.fence key detail fresh').1 := by
  constructor <;> simp [SimulatedAdapter.fence, same.mutations, same.compensations]

section Branches

variable {ctx : Context} {req : DispatchRequest}

theorem dispatch_known {e : DispatchOutcome} (known : s.effects req.idempotencyKey = some e) :
    s.dispatch ctx req = (s, e) := by
  unfold dispatch
  simp only
  split <;> simp_all

theorem dispatch_fresh (fresh : s.effects req.idempotencyKey = none) :
    s.dispatch ctx req =
      if ctx.isSome then
        s.fence req.idempotencyKey
          (ascii "simulated: not sent, context ended before dispatch; key fenced") fresh
      else if req.proposal.targetID = failingNodeID then
        (s.apply req.idempotencyKey partlyAppliedEffect fresh (Or.inr ⟨rfl, rfl⟩),
          partlyAppliedEffect)
      else if req.proposal.targetID = lostResponseNodeID then
        (s.apply req.idempotencyKey appliedEffect fresh (Or.inl ⟨rfl, rfl⟩),
          unknownOutcome (ascii "simulated: change applied but the response was lost"))
      else if req.proposal.targetID = unreachableNodeID ∨
          req.proposal.targetID = partitionedNodeID then
        (s, unknownOutcome (ascii "simulated: no response from target"))
      else (s.apply req.idempotencyKey appliedEffect fresh (Or.inl ⟨rfl, rfl⟩), appliedEffect) := by
  unfold dispatch
  simp only
  split
  · simp_all
  · rfl

theorem reconcile_known {e : DispatchOutcome} (known : s.effects req.idempotencyKey = some e)
    (alive : ¬ctx.isSome) : s.reconcile ctx req = (s, e) := by
  unfold reconcile
  rw [if_neg alive]
  split <;> simp_all

theorem reconcile_fresh (fresh : s.effects req.idempotencyKey = none) (alive : ¬ctx.isSome) :
    s.reconcile ctx req =
      if req.proposal.targetID = partitionedNodeID then
        (s, unknownOutcome (ascii "simulated: target not reachable for status queries"))
      else
        s.fence req.idempotencyKey
          (ascii "simulated: target has no record of this key; " ++
            ascii "key fenced so it cannot take effect later") fresh := by
  unfold reconcile
  rw [if_neg alive]
  split
  · simp_all
  · rfl

theorem SameAt.dispatch (ctx : Context) (same : SameAt req.idempotencyKey s t) :
    (s.dispatch ctx req).2 = (t.dispatch ctx req).2 ∧
      SameAt req.idempotencyKey (s.dispatch ctx req).1 (t.dispatch ctx req).1 := by
  cases known : s.effects req.idempotencyKey with
  | some e =>
      rw [dispatch_known known, dispatch_known (same.effects ▸ known)]
      exact ⟨rfl, same⟩
  | none =>
      have known' : t.effects req.idempotencyKey = none := same.effects ▸ known
      rw [dispatch_fresh known, dispatch_fresh known']
      repeat' split
      · exact ⟨rfl, same.fence known known'⟩
      · exact ⟨rfl, same.apply known known' (Or.inr ⟨rfl, rfl⟩)⟩
      · exact ⟨rfl, same.apply known known' (Or.inl ⟨rfl, rfl⟩)⟩
      · exact ⟨rfl, same⟩
      · exact ⟨rfl, same.apply known known' (Or.inl ⟨rfl, rfl⟩)⟩

theorem SameAt.reconcile (ctx : Context) (same : SameAt req.idempotencyKey s t) :
    (s.reconcile ctx req).2 = (t.reconcile ctx req).2 ∧
      SameAt req.idempotencyKey (s.reconcile ctx req).1 (t.reconcile ctx req).1 := by
  by_cases ended : ctx.isSome
  · unfold SimulatedAdapter.reconcile
    rw [if_pos ended, if_pos ended]
    exact ⟨rfl, same⟩
  cases known : s.effects req.idempotencyKey with
  | some e =>
      rw [reconcile_known known ended, reconcile_known (same.effects ▸ known) ended]
      exact ⟨rfl, same⟩
  | none =>
      have known' : t.effects req.idempotencyKey = none := same.effects ▸ known
      rw [reconcile_fresh known ended, reconcile_fresh known' ended]
      split
      · exact ⟨rfl, same⟩
      · exact ⟨rfl, same.fence known known'⟩

theorem SameAt.compensate (same : SameAt req.idempotencyKey s t) :
    SameAt req.idempotencyKey (s.compensate ctx req).1 (t.compensate ctx req).1 := by
  unfold SimulatedAdapter.compensate
  split
  · exact same
  · exact ⟨same.effects, same.mutations, by simp [same.compensations]⟩

end Branches

/-- A call looks at nothing but its own key. -/
theorem call_local {c : Call} (same : SameAt c.key s t) :
    (s.call c).2 = (t.call c).2 ∧ SameAt c.key (s.call c).1 (t.call c).1 := by
  cases c with
  | dispatch ctx req =>
      obtain ⟨answer, next⟩ := SameAt.dispatch ctx same
      exact ⟨congrArg some answer, next⟩
  | reconcile ctx req =>
      obtain ⟨answer, next⟩ := SameAt.reconcile ctx same
      exact ⟨congrArg some answer, next⟩
  | compensate ctx req => exact ⟨rfl, SameAt.compensate same⟩

/-- **Calls with other keys do not matter**: leaving them out changes neither what is
reported for the key nor what becomes of it. -/
theorem after_own_calls (same : SameAt key s t) (calls : List Call) :
    reported key s calls = reported key t (calls.filter (·.key = key)) ∧
      SameAt key (s.after calls) (t.after (calls.filter (·.key = key))) := by
  induction calls generalizing s t with
  | nil => exact ⟨rfl, same⟩
  | cons c calls ih =>
      by_cases own : c.key = key
      · subst own
        obtain ⟨answer, next⟩ := call_local same
        obtain ⟨answers, last⟩ := ih next
        rw [List.filter_cons_of_pos (by simp)]
        refine ⟨?_, last⟩
        unfold reported
        rw [answer, answers]
      · obtain ⟨answers, last⟩ := ih ((s.call_elsewhere (Ne.symm own)).trans same)
        rw [List.filter_cons_of_neg (by simpa using own)]
        refine ⟨?_, last⟩
        conv_lhs => unfold reported
        rw [if_neg own, answers, List.nil_append]

/-! ## What is reported is the record -/

/-- A record of a key is never taken back. -/
theorem call_kept (c : Call) {e : DispatchOutcome} (known : s.effects key = some e) :
    (s.call c).1.effects key = some e := by
  cases c with
  | dispatch ctx req => exact (dispatch_answers ctx req s).kept key e known
  | reconcile ctx req => exact (reconcile_answers ctx req s).kept key e known
  | compensate ctx req =>
      show (s.compensate ctx req).1.effects key = some e
      rw [compensate_effects]
      exact known

theorem after_kept (calls : List Call) {e : DispatchOutcome} (known : s.effects key = some e) :
    (s.after calls).effects key = some e := by
  induction calls generalizing s with
  | nil => exact known
  | cons c calls ih => exact ih (call_kept c known)

/-- A confirmed answer is the record of its key. -/
theorem call_confirmed (s : SimulatedAdapter) (c : Call) {o : DispatchOutcome}
    (answered : (s.call c).2 = some o) (certain : o.status ≠ .unknown) :
    (s.call c).1.effects c.key = some o := by
  cases c with
  | dispatch ctx req =>
      cases answered
      exact (dispatch_answers ctx req s).confirmed certain
  | reconcile ctx req =>
      cases answered
      exact (reconcile_answers ctx req s).confirmed certain
  | compensate ctx req => cases answered

/-- Every confirmed answer for a key, however long ago, is its record now. -/
theorem reported_confirmed {calls : List Call} {o : DispatchOutcome}
    (answered : o ∈ reported key s calls) (certain : o.status ≠ .unknown) :
    (s.after calls).effects key = some o := by
  induction calls generalizing s with
  | nil => cases answered
  | cons c calls ih =>
      unfold reported at answered
      rcases List.mem_append.mp answered with here | later
      · split at here
        · rename_i own
          subst own
          exact after_kept calls (s.call_confirmed c (by simpa using here) certain)
        · cases here
      · exact ih later

/-- The count of a key is 0 or 1 by its record. -/
theorem mutations_le_one (s : SimulatedAdapter) (key : GoString) : s.mutations key ≤ 1 := by
  have consistent := s.consistent key
  unfold Consistent at consistent
  split at consistent
  · omega
  · rcases consistent with ⟨-, once⟩ | ⟨-, count⟩
    · omega
    · split at count <;> omega

/-- `Reconcile` fences a key or answers: the target is not mutated. -/
theorem reconcile_mutations (s : SimulatedAdapter) (ctx : Context) (req : DispatchRequest) :
    (s.reconcile ctx req).1.mutations = s.mutations := by
  unfold reconcile
  repeat' split
  all_goals rfl

/-! ## All runs -/

/-- An outcome that settles the change. -/
def Settles (o : DispatchOutcome) : Prop := o.status = .success ∨ o.status = .failure

theorem Settles.certain {o : DispatchOutcome} (settles : Settles o) : o.status ≠ .unknown := by
  intro unknown
  rcases settles with success | failure
  · rw [success] at unknown
    cases unknown
  · rw [failure] at unknown
    cases unknown

/-- The outcome changed the target: SUCCESS, or a FAILURE that was partly applied. -/
def Mutated (o : DispatchOutcome) : Prop :=
  o.status = .success ∨ (o.status = .failure ∧ o.partiallyApplied = true)

/-- The outcome did not change the target: a FAILURE that was not partly applied. -/
def Refused (o : DispatchOutcome) : Prop := o.status = .failure ∧ o.partiallyApplied = false

/-- The record says whether the key took effect. -/
theorem mutations_of_record (s : SimulatedAdapter) {o : DispatchOutcome}
    (known : s.effects key = some o) :
    (s.mutations key = 1 ↔ Mutated o) ∧ (s.mutations key = 0 ↔ Refused o) := by
  have consistent := s.consistent key
  rw [known] at consistent
  unfold Mutated Refused
  rcases consistent with ⟨success, once⟩ | ⟨failure, count⟩
  · simp [success, once]
  · cases applied : o.partiallyApplied <;> simp [failure, count, applied]

/-- **All answers for a key agree, and settle what happened to it.**  Over any calls, from
any state of the adapter: a key takes effect at most once, every SUCCESS or FAILURE reported
for it is one outcome, and once there is one the count is what it says and stays so.
Reconcile never mutates the target, and what becomes of a key is what its own calls alone
would lead to. -/
theorem effects_settled (s : SimulatedAdapter) (calls : List Call) (key : GoString) :
    (s.after calls).mutations key ≤ 1 ∧
    (∀ o ∈ reported key s calls, ∀ o' ∈ reported key s calls,
      Settles o → Settles o' → o = o') ∧
    (∀ o ∈ reported key s calls, Settles o →
      ∀ more, (s.after (calls ++ more)).mutations key = (s.after calls).mutations key ∧
        ((s.after (calls ++ more)).mutations key = 1 ↔ Mutated o) ∧
        ((s.after (calls ++ more)).mutations key = 0 ↔ Refused o)) ∧
    (∀ ctx req, ((s.after calls).call (.reconcile ctx req)).1.mutations =
      (s.after calls).mutations) ∧
    reported key s calls = reported key s (calls.filter (·.key = key)) ∧
    SameAt key (s.after calls) (s.after (calls.filter (·.key = key))) := by
  refine ⟨(s.after calls).mutations_le_one key, ?_, ?_, ?_, after_own_calls .same calls⟩
  · intro o answered o' answered' settles settles'
    have known := reported_confirmed answered settles.certain
    rw [reported_confirmed answered' settles'.certain] at known
    exact (Option.some.inj known).symm
  · intro o answered settles more
    have known := reported_confirmed answered settles.certain
    have kept : (s.after (calls ++ more)).effects key = some o := by
      unfold after
      rw [afterInputs_append]
      exact after_kept more known
    obtain ⟨once, never⟩ := (s.after (calls ++ more)).mutations_of_record kept
    refine ⟨?_, once, never⟩
    have before := (s.after calls).mutations_of_record known
    have bound := (s.after calls).mutations_le_one key
    have bound' := (s.after (calls ++ more)).mutations_le_one key
    rcases Nat.le_one_iff_eq_zero_or_eq_one.mp bound with none | one
    · rw [none, never.mpr (before.2.mp none)]
    · rw [one, once.mpr (before.1.mp one)]
  · intro ctx req
    exact (s.after calls).reconcile_mutations ctx req

/-- A lost response, a status query under the same key for another target, a late dispatch:
the key took effect once, and the two answers given are the recorded SUCCESS. -/
theorem effects_settled_lost_response :
    let lost : DispatchRequest := ⟨ascii "k", ⟨ascii "p", ascii "c", lostResponseNodeID, []⟩⟩
    let other : DispatchRequest := ⟨ascii "k", ⟨ascii "p", ascii "c", failingNodeID, []⟩⟩
    let calls : List Call := [.dispatch none lost, .reconcile none other]
    reported (ascii "k") new calls =
      [unknownOutcome (ascii "simulated: change applied but the response was lost"),
        appliedEffect] ∧
    Settles appliedEffect ∧
    ((new.after (calls ++ [.dispatch none other])).mutations (ascii "k") = 1 ↔
      Mutated appliedEffect) := by
  intro lost other calls
  have answers : reported (ascii "k") new calls =
      [unknownOutcome (ascii "simulated: change applied but the response was lost"),
        appliedEffect] := by
    decide +kernel
  have settles : Settles appliedEffect := Or.inl rfl
  refine ⟨answers, settles, ?_⟩
  obtain ⟨-, -, settled, -⟩ := effects_settled new calls (ascii "k")
  exact (settled appliedEffect (by rw [answers]; simp) settles [.dispatch none other]).2.1

end SimulatedAdapter

end SentryGate.Workflows
