/-
# Workflows.Reconciliation -- the schedule of reconcileDispatch

`reconcileDispatch` of `workflows/saga.go`, from the point where the workflow enters it to
the outcome it returns, for every infinite supply of answers.  Answer `2 * k` is that of the
`k`-th ReconcileDispatch activity, answer `2 * k + 1` that of the wait after it.

`Reconciles last n` says everything about a call that returns after activity `last`: the
activities and waits in their order, each wait `min(10s * 2^k, 30min)` and inside the window,
and the outcome of the last activity returned, all before it being UNKNOWN.  `Clock` is what
is asked of the workflow clock: it never goes back, and a wait that returns nil took its time.

The loop tests `Now.Sub(start) + wait > window` in 64 bits: `Sub` saturates and the sum wraps
around.  Where the clock stays below 2^63 ns after the start at each test that matters, the
call conforms, and nowhere else (`reconcileDispatch_conforms_iff`); a clock that jumps ahead
further keeps it waiting for ever (`reconcileDispatch_endless`).
-/
import SentryGate.Theory.Backoff
import SentryGate.Workflows.AuditTrail
import SentryGate.Workflows.Rejection

namespace SentryGate.Workflows

open Theory.Text Theory.Backoff Contracts

set_option autoImplicit false

/-! ## The waits -/

/-- The `k`-th wait of the schedule. -/
def reconcileWait (k : Nat) : Int := backoff reconcileFirstWait reconcileMaxWait k

theorem reconcileWait_zero : reconcileWait 0 = reconcileFirstWait := backoff_zero (by decide)

/-- The loop's own update computes the schedule. -/
theorem reconcileWait_succ (k : Nat) :
    reconcileWait (k + 1) = min (2 * reconcileWait k) reconcileMaxWait :=
  backoff_succ (by decide) k

theorem reconcileWait_pos (k : Nat) : 0 < reconcileWait k :=
  backoff_pos (by decide) (by decide) k

theorem reconcileWait_le (k : Nat) : reconcileWait k ≤ reconcileMaxWait := Int.min_le_right _ _

/-- Doubling a wait stays far below an int64. -/
theorem two_mul_reconcileWait_lt (k : Nat) : 2 * reconcileWait k < 2 ^ 63 := by
  have bound := two_mul_backoff_le reconcileFirstWait reconcileMaxWait k
  have cap : 2 * reconcileMaxWait < 2 ^ 63 := by decide
  exact lt_of_le_of_lt bound cap

/-- The first 55 waits do not fit into the window. -/
theorem not_waited_le_window :
    ¬waited reconcileFirstWait reconcileMaxWait 55 ≤ reconcileWindow := by
  decide +kernel

/-- At this point the workflow waits no longer than the longest wait. -/
def Point.Short : Point → Prop
  | .reconcile _ wait | .reconcileSleep _ wait _ => wait ≤ reconcileMaxWait
  | _ => True

theorem Point.Short.resume {sdk : Sdk} {req : ExecutionRequest} {prior : Thread} {e : Event}
    (short : prior.point.Short) : (resume sdk req prior e).point.Short := by
  have origin := resume_origin sdk req prior e
  cases after : (Workflows.resume sdk req prior e).point with
  | reconcile start wait =>
      rw [after] at origin
      rcases origin with entered | ⟨wait', last, -, rfl⟩
      · have first : (Workflows.resume sdk req prior e).point =
            .reconcile e.now reconcileFirstWait := by
          simp only [Workflows.resume, entered]
          rfl
        cases after.symm.trans first
        exact (by decide : reconcileFirstWait ≤ reconcileMaxWait)
      · exact Int.min_le_right _ _
  | reconcileSleep start wait last =>
      rw [after] at origin
      rw [origin.1] at short
      exact short
  | _ => trivial

/-! ## The 64-bit test -/

section Test

variable {t start : Time} {wait : Int}

theorem sub_of_lt (after : start.ns ≤ t.ns) (fits : t.ns - start.ns < 2 ^ 63) :
    t.sub start = t.ns - start.ns := by
  have inside : max (-2 ^ 63) (min (2 ^ 63 - 1) (t.ns - start.ns)) = t.ns - start.ns := by omega
  exact inside

theorem sub_of_ge (beyond : 2 ^ 63 ≤ t.ns - start.ns) : t.sub start = 2 ^ 63 - 1 := by
  have outside : max (-2 ^ 63) (min (2 ^ 63 - 1) (t.ns - start.ns)) = 2 ^ 63 - 1 := by omega
  exact outside

/-- Where the sum fits, the test is the comparison it is written as. -/
theorem addDuration_sub_of_lt (after : start.ns ≤ t.ns) (positive : 0 < wait)
    (fits : t.ns - start.ns + wait < 2 ^ 63) :
    addDuration (t.sub start) wait = t.ns - start.ns + wait := by
  rw [sub_of_lt after (by omega)]
  exact Int.bmod_eq_of_le (by omega) (by omega)

theorem bmod_neg {d : Int} (above : 2 ^ 63 ≤ d) (below : d < 2 ^ 64) : d.bmod (2 ^ 64) < 0 := by
  rw [Int.bmod_def]
  split <;> omega

/-- Where it does not, the sum comes out negative. -/
theorem addDuration_sub_of_ge (after : start.ns ≤ t.ns) (positive : 0 < wait)
    (small : wait < 2 ^ 63) (overflows : 2 ^ 63 ≤ t.ns - start.ns + wait) :
    addDuration (t.sub start) wait < 0 := by
  rcases Int.lt_or_le (t.ns - start.ns) (2 ^ 63) with fits | beyond
  · rw [sub_of_lt after fits]
    exact bmod_neg overflows (by omega)
  · rw [sub_of_ge beyond]
    have wraps : 2 ^ 63 ≤ 2 ^ 63 - 1 + wait := by omega
    exact bmod_neg wraps (by omega)

end Test

/-! ## The run of the loop -/

/-- A call of `reconcileDispatch`: the workflow at the transition to
RECONCILIATION_REQUIRED, the answer to it that starts the call, and all answers after it. -/
structure ReconcileCall where
  sdk : Sdk
  req : ExecutionRequest
  prior : Thread
  required : prior.point = .requireReconciliation
  entry : Event
  events : Nat → Event

namespace ReconcileCall

/-- `start := workflow.Now(ctx)`. -/
def start (c : ReconcileCall) : Time := c.entry.now

/-- The thread after `n` answers. -/
def thread (c : ReconcileCall) : Nat → Thread
  | 0 => resume c.sdk c.req c.prior c.entry
  | n + 1 => resume c.sdk c.req (c.thread n) (c.events n)

/-- What the loop makes of the answer to its `k`-th activity. -/
def outcome (c : ReconcileCall) (k : Nat) : DispatchOutcome :=
  reconcileOutcome c.sdk (c.events (2 * k)).reply.getOutcome

/-- The workflow clock never goes back, and a wait that returns nil took its time. -/
structure Clock (c : ReconcileCall) : Prop where
  forward : ∀ n, (c.thread n).now.ns ≤ (c.events n).now.ns
  slept : ∀ n start wait last, (c.thread n).point = .reconcileSleep start wait last →
    (c.events n).reply.error? = none → (c.thread n).now.ns + wait ≤ (c.events n).now.ns

/-- The call returns after `n` answers, with the outcome of activity `last`. -/
structure Returns (c : ReconcileCall) (last n : Nat) : Prop where
  /-- At most 55 activities. -/
  bounded : last < 55
  ended : n = 2 * last + 1 ∨ n = 2 * last + 2
  asks : ∀ k ≤ last, (c.thread (2 * k)).point = .reconcile c.start (reconcileWait k)
  /-- Each wait is of the schedule, is doubled without overflow, and ends in the window. -/
  waits : ∀ k, 2 * k + 1 < n →
    (c.thread (2 * k + 1)).point = .reconcileSleep c.start (reconcileWait k) (c.outcome k) ∧
    2 * reconcileWait k < 2 ^ 63 ∧
    (c.thread (2 * k + 1)).now.ns + reconcileWait k ≤ c.start.ns + reconcileWindow
  unconfirmed : ∀ k < last, (c.outcome k).status = .unknown
  returns : (c.thread n).point = .auditReconciliation (c.outcome last)

/-- The answer to the `k`-th activity does not end the loop. -/
def GoesOn (c : ReconcileCall) (k : Nat) : Prop :=
  (c.outcome k).status = .unknown ∧
    addDuration ((c.events (2 * k)).now.sub c.start) (reconcileWait k) ≤ reconcileWindow

/-- Neither that answer nor the wait after it ends the loop. -/
def Continues (c : ReconcileCall) (k : Nat) : Prop :=
  c.GoesOn k ∧ (c.events (2 * k + 1)).reply.error? = none

variable {c : ReconcileCall} {k : Nat}

theorem thread_zero (c : ReconcileCall) :
    (c.thread 0).point = .reconcile c.start (reconcileWait 0) ∧ (c.thread 0).now = c.start := by
  rw [reconcileWait_zero]
  unfold thread resume
  simp only [c.required]
  exact ⟨rfl, rfl⟩

section Ask

variable (asks : (c.thread (2 * k)).point = .reconcile c.start (reconcileWait k))
include asks

theorem thread_answered : c.thread (2 * k + 1) =
    resumeReconcile c.sdk { c.thread (2 * k) with now := (c.events (2 * k)).now } c.start
      (reconcileWait k) (c.events (2 * k)).reply.getOutcome := by
  conv_lhs => unfold thread resume
  simp only [asks]

theorem thread_goesOn (on : c.GoesOn k) :
    (c.thread (2 * k + 1)).point = .reconcileSleep c.start (reconcileWait k) (c.outcome k) ∧
      (c.thread (2 * k + 1)).now = (c.events (2 * k)).now := by
  obtain ⟨unknown, inside⟩ := on
  rw [thread_answered asks]
  unfold resumeReconcile
  simp only
  split
  · rename_i ends
    rcases ends with known | beyond
    · exact absurd unknown known
    · exact absurd inside (Int.not_le.mpr beyond)
  · exact ⟨rfl, rfl⟩

theorem thread_returns (done : ¬c.GoesOn k) :
    (c.thread (2 * k + 1)).point = .auditReconciliation (c.outcome k) := by
  rw [thread_answered asks]
  unfold resumeReconcile
  simp only
  split
  · rfl
  · rename_i goes
    push Not at goes
    exact absurd goes done

end Ask

section Sleep

variable (sleeps : (c.thread (2 * k + 1)).point =
  .reconcileSleep c.start (reconcileWait k) (c.outcome k))
include sleeps

theorem thread_slept (woke : (c.events (2 * k + 1)).reply.error? = none) :
    (c.thread (2 * (k + 1))).point = .reconcile c.start (reconcileWait (k + 1)) ∧
      (c.thread (2 * (k + 1))).now = (c.events (2 * k + 1)).now := by
  rw [reconcileWait_succ]
  show (resume c.sdk c.req (c.thread (2 * k + 1)) (c.events (2 * k + 1))).point = _ ∧
    (resume c.sdk c.req (c.thread (2 * k + 1)) (c.events (2 * k + 1))).now = _
  unfold resume
  simp only [sleeps, woke]
  exact ⟨rfl, rfl⟩

theorem thread_interrupted (ended : (c.events (2 * k + 1)).reply.error? ≠ none) :
    (c.thread (2 * k + 2)).point = .auditReconciliation (c.outcome k) := by
  obtain ⟨err, failed⟩ := Option.ne_none_iff_exists'.mp ended
  show (resume _ _ (c.thread (2 * k + 1)) _).point = _
  unfold resume
  simp only [sleeps, failed]
  rfl

end Sleep

/-! ## Reaching an activity -/

/-- While nothing ends the loop it stands at the activities in turn. -/
theorem thread_asks (on : ∀ j < k, c.Continues j) :
    (c.thread (2 * k)).point = .reconcile c.start (reconcileWait k) := by
  induction k with
  | zero => exact c.thread_zero.1
  | succ k ih =>
      have asks := ih fun j before => on j (Nat.lt_succ_of_lt before)
      obtain ⟨goes, woke⟩ := on k (Nat.lt_succ_self k)
      exact (thread_slept (thread_goesOn asks goes).1 woke).1

theorem thread_reconciling (on : ∀ j < k, c.Continues j) {i : Nat} (within : i ≤ 2 * k) :
    (c.thread i).point.reconciling = true := by
  obtain ⟨j, rfl | rfl⟩ := Nat.even_or_odd' i
  · rw [thread_asks fun j' before => on j' (by omega)]
    rfl
  · have asks := thread_asks (c := c) (k := j) fun j' before => on j' (by omega)
    rw [(thread_goesOn asks (on j (by omega)).1).1]
    rfl

theorem thread_short (c : ReconcileCall) (n : Nat) : (c.thread n).point.Short := by
  induction n with
  | zero =>
      rw [c.thread_zero.1]
      exact reconcileWait_le 0
  | succ n ih => exact ih.resume

/-- A thread shows the time of its last answer, or the one it showed before. -/
theorem thread_now (c : ReconcileCall) (n : Nat) :
    (c.thread (n + 1)).now = (c.events n).now ∨ (c.thread (n + 1)).now = (c.thread n).now :=
  resume_now c.sdk c.req (c.thread n) (c.events n)

theorem start_le_now (clock : c.Clock) (n : Nat) : c.start.ns ≤ (c.thread n).now.ns := by
  induction n with
  | zero => rw [c.thread_zero.2]
  | succ n ih =>
      rcases c.thread_now n with same | same <;> rw [same]
      · exact le_trans ih (clock.forward n)
      · exact ih

/-- The waits before an activity have passed on the clock. -/
theorem waited_le_now (clock : c.Clock) (on : ∀ j < k, c.Continues j) :
    c.start.ns + waited reconcileFirstWait reconcileMaxWait k ≤ (c.thread (2 * k)).now.ns := by
  have began : (c.thread (2 * 0)).now.ns = c.start.ns := by rw [c.thread_zero.2]
  rw [← began]
  refine elapsed_ge (t := fun j => (c.thread (2 * j)).now.ns) fun j before => ?_
  have asks := thread_asks (c := c) (k := j) fun j' earlier => on j' (by omega)
  obtain ⟨goes, woke⟩ := on j before
  obtain ⟨sleeps, since⟩ := thread_goesOn asks goes
  have passed := clock.slept (2 * j + 1) _ _ _ sleeps woke
  have answered := clock.forward (2 * j)
  rw [since] at passed
  rw [(thread_slept sleeps woke).2]
  show (c.thread (2 * j)).now.ns + reconcileWait j ≤ _
  omega

/-- The sum the loop tests fits in 64 bits at every activity that confirms nothing. -/
def InRange (c : ReconcileCall) : Prop :=
  ∀ k, (∀ i ≤ 2 * k, (c.thread i).point.reconciling = true) → (c.outcome k).status = .unknown →
    (c.events (2 * k)).now.ns - c.start.ns + reconcileWait k < 2 ^ 63

/-- In range, a wait is only started where it ends in the window. -/
theorem ends_in_window (clock : c.Clock) (range : c.InRange) (on : ∀ j < k, c.Continues j)
    (goes : c.GoesOn k) :
    (c.events (2 * k)).now.ns + reconcileWait k ≤ c.start.ns + reconcileWindow := by
  have fits := range k (fun i within => thread_reconciling on within) goes.1
  have after := le_trans (start_le_now clock (2 * k)) (clock.forward (2 * k))
  have test := goes.2
  rw [addDuration_sub_of_lt after (reconcileWait_pos k) fits] at test
  have test : (c.events (2 * k)).now.ns - c.start.ns + reconcileWait k ≤ reconcileWindow := test
  omega

/-- In range, one of the first 55 activities or waits ends the loop. -/
theorem stops (clock : c.Clock) (range : c.InRange) : ∃ k < 55, ¬c.Continues k := by
  by_contra endless
  push Not at endless
  have before : ∀ j < 54, c.Continues j := fun j lt => endless j (by omega)
  have inside := ends_in_window clock range before (endless 54 (by decide)).1
  have spent := waited_le_now clock before
  have answered := clock.forward (2 * 54)
  refine not_waited_le_window ?_
  rw [waited_succ]
  show waited reconcileFirstWait reconcileMaxWait 54 + reconcileWait 54 ≤ reconcileWindow
  omega

/-- A clock that advances by the longest wait from answer to answer. -/
theorem clock_of_steady (begins : c.start.ns ≤ (c.events 0).now.ns)
    (steady : ∀ n, (c.events n).now.ns + reconcileMaxWait ≤ (c.events (n + 1)).now.ns) :
    c.Clock := by
  have later : ∀ n, (c.events n).now.ns + 30 * 60 * 10 ^ 9 ≤ (c.events (n + 1)).now.ns := steady
  have shown : ∀ n, (c.thread (n + 1)).now.ns ≤ (c.events n).now.ns := by
    intro n
    induction n with
    | zero =>
        rcases c.thread_now 0 with same | same <;> rw [same]
        rw [c.thread_zero.2]
        exact begins
    | succ n ih =>
        have next := later n
        rcases c.thread_now (n + 1) with same | same <;> rw [same]
        omega
  constructor
  · intro n
    cases n with
    | zero =>
        rw [c.thread_zero.2]
        exact begins
    | succ n =>
        have before := shown n
        have next := later n
        omega
  · intro n start (wait : Int) last sleeps _
    cases n with
    | zero => cases c.thread_zero.1.symm.trans sleeps
    | succ n =>
        have short := c.thread_short (n + 1)
        rw [sleeps] at short
        have short : wait ≤ 30 * 60 * 10 ^ 9 := short
        have before := shown n
        have next := later n
        omega

/-! ## The call as a whole -/

/-- In range the call returns as its comment says. -/
theorem returns_of_inRange (clock : c.Clock) (range : c.InRange) : ∃ last n, c.Returns last n := by
  classical
  obtain ⟨k, small, ends⟩ := stops clock range
  have some_stop : ∃ k, ¬c.Continues k := ⟨k, ends⟩
  obtain ⟨last, ended, first⟩ : ∃ last, ¬c.Continues last ∧ ∀ j < last, c.Continues j :=
    ⟨Nat.find some_stop, Nat.find_spec some_stop,
      fun j before => not_not.mp (Nat.find_min some_stop before)⟩
  have bounded : last < 55 := by
    by_contra beyond
    exact ends (first k (by omega))
  have asks : ∀ k ≤ last, (c.thread (2 * k)).point = .reconcile c.start (reconcileWait k) :=
    fun k within => thread_asks fun j before => first j (by omega)
  have waits : ∀ k ≤ last, c.GoesOn k →
      (c.thread (2 * k + 1)).point = .reconcileSleep c.start (reconcileWait k) (c.outcome k) ∧
      2 * reconcileWait k < 2 ^ 63 ∧
      (c.thread (2 * k + 1)).now.ns + reconcileWait k ≤ c.start.ns + reconcileWindow := by
    intro k within goes
    obtain ⟨sleeps, since⟩ := thread_goesOn (asks k within) goes
    refine ⟨sleeps, two_mul_reconcileWait_lt k, ?_⟩
    rw [since]
    exact ends_in_window clock range (fun j before => first j (by omega)) goes
  have unconfirmed : ∀ k < last, (c.outcome k).status = .unknown :=
    fun k before => (first k before).1.1
  by_cases goes : c.GoesOn last
  · -- the last wait was interrupted
    have interrupted : (c.events (2 * last + 1)).reply.error? ≠ none := fun woke =>
      ended ⟨goes, woke⟩
    refine ⟨last, 2 * last + 2, bounded, Or.inr rfl, asks, ?_, unconfirmed,
      thread_interrupted (waits last le_rfl goes).1 interrupted⟩
    intro k before
    rcases Nat.lt_or_ge k last with earlier | here
    · exact waits k earlier.le (first k earlier).1
    · obtain rfl : k = last := by omega
      exact waits k le_rfl goes
  · -- the last answer confirmed an outcome, or left no time for a wait
    refine ⟨last, 2 * last + 1, bounded, Or.inl rfl, asks, ?_, unconfirmed,
      thread_returns (asks last le_rfl) goes⟩
    intro k before
    exact waits k (by omega) (first k (by omega)).1

/-- Out of range the call starts a wait that ends behind the window. -/
theorem inRange_of_returns (clock : c.Clock) {last n : Nat} (ret : c.Returns last n) :
    c.InRange := by
  intro k inside unknown
  by_contra overflows
  have returned : (c.thread n).point.reconciling = false := by
    rw [ret.returns]
    rfl
  have within : k ≤ last := by
    by_contra beyond
    have still := inside n (by have := ret.ended; omega)
    rw [returned] at still
    cases still
  have after := le_trans (start_le_now clock (2 * k)) (clock.forward (2 * k))
  have positive := reconcileWait_pos k
  have doubled := two_mul_reconcileWait_lt k
  have wraps := addDuration_sub_of_ge after positive (by omega) (Int.not_lt.mp overflows)
  have goes : c.GoesOn k := ⟨unknown, le_trans wraps.le (by decide)⟩
  obtain ⟨sleeps, since⟩ := thread_goesOn (ret.asks k within) goes
  have waiting : 2 * k + 1 ≠ n := by
    rintro rfl
    rw [sleeps] at returned
    cases returned
  obtain ⟨-, -, ends⟩ := ret.waits k (by have := ret.ended; omega)
  rw [since] at ends
  have window : c.start.ns + reconcileWindow < c.start.ns + 2 ^ 63 :=
    Int.add_lt_add_left (by decide) _
  omega

end ReconcileCall

/-- **The schedule of reconcileDispatch.**  For every supply of answers and every clock that
never goes back and advances over each wait, the call returns after at most 55 activities,
waiting `min(10s * 2^k, 30min)` each time and never beyond the window, with the first
confirmed outcome or the last UNKNOWN -- exactly if the sum it tests stays in 64 bits. -/
theorem reconcileDispatch_conforms_iff (c : ReconcileCall) (clock : c.Clock) :
    (∃ last n, c.Returns last n) ↔ c.InRange := by
  constructor
  · rintro ⟨last, n, ret⟩
    exact ReconcileCall.inRange_of_returns clock ret
  · exact ReconcileCall.returns_of_inRange clock

/-! ## Two calls -/

/-- The workflow of a demo request, about to reconcile. -/
def reconcileEntry : Thread :=
  { Thread.initial ⟨0⟩ with point := .requireReconciliation, dispatching := true }

/-- The target confirms when it is asked for the fourth time, three hours after the start. -/
def confirmedCall : ReconcileCall where
  sdk := plainSdk
  req := demoRequest (ascii "n")
  prior := reconcileEntry
  required := rfl
  entry := ⟨.done, ⟨0⟩⟩
  events n :=
    ⟨if n % 2 = 1 then .done
      else .outcome (if n < 6 then unknownOutcome [] else SimulatedAdapter.appliedEffect),
      ⟨n * reconcileMaxWait⟩⟩

/-- Nothing is ever confirmed, and the clock jumps ahead 2^63 ns before the first answer. -/
def jumpedCall : ReconcileCall where
  sdk := plainSdk
  req := demoRequest (ascii "n")
  prior := reconcileEntry
  required := rfl
  entry := ⟨.done, ⟨0⟩⟩
  events n := ⟨.outcome (unknownOutcome []), ⟨2 ^ 63 + n * reconcileMaxWait⟩⟩

theorem confirmedCall_clock : confirmedCall.Clock := by
  refine ReconcileCall.clock_of_steady (by decide) fun n => ?_
  show (n : Int) * (30 * 60 * 10 ^ 9) + 30 * 60 * 10 ^ 9 ≤ (n + 1 : Nat) * (30 * 60 * 10 ^ 9)
  omega

theorem confirmedCall_returns : confirmedCall.Returns 3 7 := by
  have early : ∀ k < 3, (confirmedCall.outcome k).status = .unknown ∧
      addDuration ((confirmedCall.events (2 * k)).now.sub confirmedCall.start) (reconcileWait k) ≤
        reconcileWindow ∧
      (confirmedCall.events (2 * k + 1)).reply.error? = none ∧
      (confirmedCall.events (2 * k)).now.ns + reconcileWait k ≤
        confirmedCall.start.ns + reconcileWindow := by decide +kernel
  have goes : ∀ k < 3, confirmedCall.GoesOn k := fun k before =>
    ⟨(early k before).1, (early k before).2.1⟩
  have asks : ∀ k ≤ 3, (confirmedCall.thread (2 * k)).point =
      .reconcile confirmedCall.start (reconcileWait k) := fun k within =>
    ReconcileCall.thread_asks fun j before =>
      ⟨goes j (by omega), (early j (by omega)).2.2.1⟩
  have confirmed : ¬ confirmedCall.GoesOn 3 := by
    rintro ⟨unknown, -⟩
    cases unknown
  refine ⟨by decide, Or.inl rfl, asks, fun k before => ?_, fun k before => (early k before).1,
    ReconcileCall.thread_returns (asks 3 le_rfl) confirmed⟩
  obtain ⟨sleeps, since⟩ := ReconcileCall.thread_goesOn (asks k (by omega)) (goes k (by omega))
  refine ⟨sleeps, two_mul_reconcileWait_lt k, ?_⟩
  rw [since]
  exact (early k (by omega)).2.2.2

/-- Three results are UNKNOWN, each followed by a wait, and the fourth is SUCCESS. -/
theorem reconcileDispatch_conforms_confirmed :
    confirmedCall.Clock ∧ confirmedCall.Returns 3 7 ∧
      (confirmedCall.outcome 3).status = .success ∧ confirmedCall.InRange :=
  ⟨confirmedCall_clock, confirmedCall_returns, rfl,
    (reconcileDispatch_conforms_iff confirmedCall confirmedCall_clock).mp
      ⟨3, 7, confirmedCall_returns⟩⟩

theorem jumpedCall_events (n : Nat) :
    (jumpedCall.events n).now.ns = 2 ^ 63 + n * (30 * 60 * 10 ^ 9) := rfl

theorem jumpedCall_continues (k : Nat) : jumpedCall.Continues k := by
  have positive := reconcileWait_pos k
  have doubled := two_mul_reconcileWait_lt k
  have jumped := jumpedCall_events (2 * k)
  have began : jumpedCall.start.ns = 0 := rfl
  have wraps : addDuration ((jumpedCall.events (2 * k)).now.sub jumpedCall.start)
      (reconcileWait k) < 0 :=
    addDuration_sub_of_ge (by omega) positive (by omega) (by omega)
  exact ⟨⟨rfl, le_trans wraps.le (by decide)⟩, rfl⟩

theorem jumpedCall_clock : jumpedCall.Clock := by
  refine ReconcileCall.clock_of_steady (by decide) fun n => ?_
  have here := jumpedCall_events n
  have next := jumpedCall_events (n + 1)
  show _ + 30 * 60 * 10 ^ 9 ≤ _
  omega

/-- **A clock that jumps ahead by 2^63 ns keeps the loop waiting for ever**: the difference
saturates, the sum with the wait is negative, and no test ends the loop any more. -/
theorem reconcileDispatch_endless :
    jumpedCall.Clock ∧ (∀ n, (jumpedCall.thread n).point.reconciling = true) ∧
      ¬∃ last n, jumpedCall.Returns last n := by
  have inside : ∀ n, (jumpedCall.thread n).point.reconciling = true := fun n =>
    ReconcileCall.thread_reconciling (k := n) (fun j _ => jumpedCall_continues j) (by omega)
  refine ⟨jumpedCall_clock, inside, ?_⟩
  rintro ⟨last, n, ret⟩
  have still := inside n
  rw [ret.returns] at still
  cases still

end SentryGate.Workflows
