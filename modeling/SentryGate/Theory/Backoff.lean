/-
# Theory.Backoff -- waits that double up to a cap

* `backoff first cap k` -- the `k`-th wait; a loop that doubles its last wait up to the cap
  computes it (`backoff_succ`), and no step of that leaves `2 * cap` (`two_mul_backoff_le`).
* `elapsed_ge` -- a clock that moves on by at least the wait each time has passed the sum of
  the waits, so a window on that clock bounds how often a loop can wait.
-/
import Mathlib.Algebra.BigOperators.Intervals
import Mathlib.Algebra.Order.Ring.Int

namespace SentryGate.Theory.Backoff

set_option autoImplicit false

variable {first cap : Int} {k n : Nat}

/-- The `k`-th wait: doubled `k` times, and no more than the cap. -/
def backoff (first cap : Int) (k : Nat) : Int := min (first * 2 ^ k) cap

theorem backoff_zero (below : first ≤ cap) : backoff first cap 0 = first := by
  simp [backoff, below]

theorem backoff_succ (nonneg : 0 ≤ cap) (k : Nat) :
    backoff first cap (k + 1) = min (2 * backoff first cap k) cap := by
  have doubled : first * 2 ^ (k + 1) = 2 * (first * 2 ^ k) := by
    rw [Int.pow_succ, Int.mul_comm 2, Int.mul_assoc]
  unfold backoff
  rw [doubled]
  omega

theorem two_mul_backoff_le (first cap : Int) (k : Nat) : 2 * backoff first cap k ≤ 2 * cap :=
  Int.mul_le_mul_of_nonneg_left (Int.min_le_right _ _) (by decide)

theorem backoff_pos (hf : 0 < first) (hc : 0 < cap) (k : Nat) : 0 < backoff first cap k :=
  lt_min (Int.mul_pos hf (Int.pow_pos (by decide))) hc

/-- The time spent in the first `n` waits. -/
def waited (first cap : Int) (n : Nat) : Int := ∑ k ∈ Finset.range n, backoff first cap k

theorem waited_succ (first cap : Int) (n : Nat) :
    waited first cap (n + 1) = waited first cap n + backoff first cap n :=
  Finset.sum_range_succ _ _

/-- The clock has moved on by at least the waits. -/
theorem elapsed_ge {t : Nat → Int}
    (waits : ∀ k < n, t k + backoff first cap k ≤ t (k + 1)) :
    t 0 + waited first cap n ≤ t n := by
  induction n with
  | zero => simp [waited]
  | succ n ih =>
      have before := ih fun k lt => waits k (Nat.lt_succ_of_lt lt)
      have step := waits n (Nat.lt_succ_self n)
      rw [waited_succ]
      omega

end SentryGate.Theory.Backoff
