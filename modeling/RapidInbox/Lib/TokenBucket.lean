import Mathlib.Tactic.Linarith
import Mathlib.Tactic.Positivity
import Mathlib.Algebra.Order.Field.Basic

/-!
# Token buckets

A bucket is filled at a constant rate up to its capacity.  How full it is can be computed whenever it
is asked for: doing so in between changes nothing.
-/

namespace TokenBucket

variable {K : Type} [Field K] [LinearOrder K]

/-- What a bucket with `tokens` holds after some time. -/
def level (capacity rate tokens elapsed : K) : K := min capacity (tokens + elapsed * rate)

variable {capacity rate tokens elapsed more : K}

theorem level_le_capacity : level capacity rate tokens elapsed ≤ capacity := min_le_left _ _

/-- A bucket that is not over-full keeps its tokens. -/
theorem level_zero (h : tokens ≤ capacity) : level capacity rate tokens 0 = tokens := by
  rw [level, zero_mul, add_zero, min_eq_right h]

variable [IsStrictOrderedRing K]

theorem level_nonneg (hcapacity : 0 ≤ capacity) (hrate : 0 ≤ rate) (htokens : 0 ≤ tokens)
    (helapsed : 0 ≤ elapsed) : 0 ≤ level capacity rate tokens elapsed :=
  le_min hcapacity (by positivity)

/-- The level may be computed in between. -/
theorem level_level (hrate : 0 ≤ rate) (hmore : 0 ≤ more) :
    level capacity rate (level capacity rate tokens elapsed) more =
      level capacity rate tokens (elapsed + more) := by
  have hfull : capacity ≤ capacity + more * rate := le_add_of_nonneg_right (mul_nonneg hmore hrate)
  unfold level
  rw [← min_add_add_right, ← min_assoc, min_eq_left hfull, add_mul, add_assoc]

/-- No more is added than the rate allows. -/
theorem level_add_le (hrate : 0 ≤ rate) (hmore : 0 ≤ more) :
    level capacity rate tokens (elapsed + more) ≤
      level capacity rate tokens elapsed + more * rate := by
  rw [← level_level hrate hmore]
  exact min_le_right _ _

end TokenBucket
