import Mathlib

/-! The level of a token bucket: it refills evenly over a window and never above its
size. Filling for two spans one after the other is filling for both. -/

set_option autoImplicit false

namespace Ccrc.Library

namespace TokenBucket

variable {K : Type} [Field K] [LinearOrder K] [IsStrictOrderedRing K]

/-- The level after a span of time. -/
def fill (size window level span : K) : K := min size (level + span * size / window)

variable {size window level span : K}

theorem fill_le_size : fill size window level span ≤ size := min_le_left _ _

theorem fill_le_flow : fill size window level span ≤ level + span * size / window :=
  min_le_right _ _

theorem fill_zero (bounded : level ≤ size) : fill size window level 0 = level := by
  simp [fill, bounded]

section

variable (sizePos : 0 < size) (windowPos : 0 < window)

include sizePos windowPos

theorem flow_nonneg (later : 0 ≤ span) : 0 ≤ span * size / window := by positivity

theorem le_fill (bounded : level ≤ size) (later : 0 ≤ span) :
    level ≤ fill size window level span := by
  have flow := flow_nonneg sizePos windowPos later
  exact le_min bounded (by linarith)

/-- Filling bit by bit is filling at once. -/
theorem fill_fill {more : K} (later : 0 ≤ span) (later' : 0 ≤ more) :
    fill size window (fill size window level span) more =
      fill size window level (span + more) := by
  have flow := flow_nonneg sizePos windowPos later
  have flow' := flow_nonneg sizePos windowPos later'
  have sum : (span + more) * size / window = span * size / window + more * size / window := by
    ring
  unfold fill
  rw [sum]
  rcases le_total size (level + span * size / window) with full | below
  · rw [min_eq_left full, min_eq_left (by linarith), min_eq_left (by linarith)]
  · rw [min_eq_right below, add_assoc]

theorem fill_full (later : 0 ≤ span) : fill size window size span = size := by
  have flow := flow_nonneg sizePos windowPos later
  exact min_eq_left (by linarith)

/-- The time that a bucket needs to hold `asked`. -/
theorem le_fill_of_span {asked : K} (fits : asked ≤ size)
    (waited : (asked - level) * window / size ≤ span) : asked ≤ fill size window level span := by
  refine le_min fits ?_
  rw [div_le_iff₀ sizePos] at waited
  have enough : asked - level ≤ span * size / window := by
    rw [le_div_iff₀ windowPos]
    exact waited
  linarith

end

end TokenBucket

end Ccrc.Library
