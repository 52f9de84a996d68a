import Mathlib
import TradeDesk.Numeric

/-!
# The exact reading of the rules

The sizing and routing rules are written over any `Numeric` type. Read at the rationals, every
operation is the field's own and every value is finite, so a rule read at `ℚ` is its exact
arithmetic: the meaning a statement about the rules has when it says "arithmetic is exact".

The helpers that combine comparisons become the lattice operations of `ℚ`: `larger` is `max`,
`smaller` is `min`, and `clamp lo hi` is `max lo ∘ min hi`. These are simp lemmas, so a proof about
a rule at `ℚ` unfolds the rule and continues in ordered-field arithmetic.
-/

namespace TradeDesk

/-- The rationals as a number type of the rules: the field's operations, exact conversions, and
every value finite. -/
instance numericRat : Numeric ℚ where
  approx x := x
  finite _ := true
  decLt := fun a b => inferInstanceAs (Decidable (a < b))
  decLe := fun a b => inferInstanceAs (Decidable (a ≤ b))

namespace Numeric

@[simp] theorem zero_rat : (zero : ℚ) = 0 := by
  simp [zero]

@[simp] theorem approx_rat (x : ℚ) : approx x = x := rfl

@[simp] theorem finite_rat (x : ℚ) : finite x = true := rfl

/-- The decimal one the rules write is the rational one. -/
theorem one_point_rat : (1.0 : ℚ) = 1 := by norm_num

/-- The decimal zero the rules write is the rational zero. -/
theorem zero_point_rat : (0.0 : ℚ) = 0 := by norm_num

/-- The decimal hundred the rules write, the percent scale. -/
theorem hundred_point_rat : (100.0 : ℚ) = 100 := by norm_num

/-- The decimal ten thousand the rules write, the basis-point scale. -/
theorem ten_thousand_point_rat : (10000.0 : ℚ) = 10000 := by norm_num

/-- Of two rationals `larger` keeps the second only when it is strictly greater: the maximum. -/
@[simp] theorem larger_rat (a b : ℚ) : larger a b = max a b := by
  unfold larger
  rw [max_def_lt]

/-- Of two rationals `smaller` keeps the second only when it is strictly less: the minimum. -/
@[simp] theorem smaller_rat (a b : ℚ) : smaller a b = min a b := by
  unfold smaller
  split
  · next h => exact (min_eq_right h.le).symm
  · next h => exact (min_eq_left (not_lt.1 h)).symm

/-- A left-to-right sum of rationals is their sum. -/
@[simp] theorem sumLeft_rat (xs : List ℚ) : sumLeft xs = xs.sum := by
  rw [sumLeft, zero_rat, List.sum_eq_foldl]

/-- Holding a rational to `[0, 1]`, in the order the rules write it, is the usual clamp. -/
theorem clamp_unit_rat (x : ℚ) : clamp 0.0 1.0 x = min 1 (max 0 x) := by
  simp only [clamp, larger_rat, smaller_rat]
  norm_num
  rw [max_min_distrib_left]
  simp

/-- A rational held to `[0, 1]` lies in it. -/
theorem clamp_unit_mem (x : ℚ) : 0 ≤ clamp 0.0 1.0 x ∧ clamp 0.0 1.0 x ≤ 1 := by
  rw [clamp_unit_rat]
  exact ⟨le_min zero_le_one (le_max_left 0 x), min_le_left 1 _⟩

end Numeric

end TradeDesk
