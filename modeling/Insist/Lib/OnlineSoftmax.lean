/-
**Sums of exponentials in one pass.**

A loop adds up `exp (score j) * value j` relative to a reference that moves from term to term, and rescales what
it has so far whenever the reference moves. The running maximum is one such reference; nothing here depends on
which one it is.

* `online_sum` — the running total is the sum of the terms, relative to the last reference;
* `online_quotient` — the reference cancels in the quotient of two such totals.
-/
import Mathlib.Analysis.SpecialFunctions.Exp

namespace Insist.Lib

open Finset

variable (score value reference total : ℕ → ℝ)

theorem online_sum (start : total 0 = 0)
    (step : ∀ n, total (n + 1) =
      total n * Real.exp (reference n - reference (n + 1)) + Real.exp (score n - reference (n + 1)) * value n)
    (n : ℕ) : total n = Real.exp (-reference n) * ∑ j ∈ range n, Real.exp (score j) * value j := by
  induction n with
  | zero => rw [start, range_zero, sum_empty, mul_zero]
  | succ n ih =>
      have moved : Real.exp (-reference n) * Real.exp (reference n - reference (n + 1)) =
          Real.exp (-reference (n + 1)) := by
        rw [← Real.exp_add]
        congr 1
        ring
      have added : Real.exp (score n - reference (n + 1)) =
          Real.exp (-reference (n + 1)) * Real.exp (score n) := by
        rw [← Real.exp_add]
        congr 1
        ring
      calc total (n + 1)
          = Real.exp (-reference n) * Real.exp (reference n - reference (n + 1)) *
                (∑ j ∈ range n, Real.exp (score j) * value j) +
              Real.exp (score n - reference (n + 1)) * value n := by rw [step, ih]; ring
        _ = Real.exp (-reference (n + 1)) *
              ((∑ j ∈ range n, Real.exp (score j) * value j) + Real.exp (score n) * value n) := by
            rw [moved, added]; ring
        _ = _ := by rw [← sum_range_succ]

/-- **The quotient does not depend on the reference.** -/
theorem online_quotient (weights : ℕ → ℝ) (start : total 0 = 0) (start' : weights 0 = 0)
    (step : ∀ n, total (n + 1) =
      total n * Real.exp (reference n - reference (n + 1)) + Real.exp (score n - reference (n + 1)) * value n)
    (step' : ∀ n, weights (n + 1) =
      weights n * Real.exp (reference n - reference (n + 1)) + Real.exp (score n - reference (n + 1)))
    (n : ℕ) : total n / weights n =
      (∑ j ∈ range n, Real.exp (score j) * value j) / ∑ j ∈ range n, Real.exp (score j) := by
  have ones := online_sum score (fun _ => 1) reference weights start' (fun n => by rw [step', mul_one]) n
  simp only [mul_one] at ones
  rw [online_sum score value reference total start step n, ones, mul_div_mul_left _ _ (Real.exp_ne_zero _)]

end Insist.Lib
