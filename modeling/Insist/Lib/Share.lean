/-
**Shares of a whole.**

Positive weights, each divided by the sum of all: the softmax of a row, the weights of an average.

* `share_pos`, `sum_share`, `share_le_iff` — the shares are positive, add up to 1, and are ordered as the
  weights are;
* `share_le_mul_share` — where the proportions of the weights change by no more than a factor, so do the shares;
* `quotient_eq_sum_share` — a quotient of two sums is an average by shares, and `quotient_mem_Icc` keeps it
  between the bounds of what is averaged.
-/
import Mathlib.Algebra.BigOperators.Field
import Mathlib.Algebra.Order.BigOperators.Ring.Finset
import Mathlib.Order.Interval.Set.Basic

namespace Insist.Lib

open Finset

variable {ι F : Type*} [Field F] {all : Finset ι} {weight : ι → F}

/-- The part that a weight has in the sum. -/
def share (all : Finset ι) (weight : ι → F) (i : ι) : F := weight i / ∑ j ∈ all, weight j

/-- **A quotient of two sums is an average by shares.** -/
theorem quotient_eq_sum_share (value : ι → F) :
    (∑ i ∈ all, weight i * value i) / ∑ i ∈ all, weight i = ∑ i ∈ all, share all weight i * value i := by
  rw [sum_div]
  exact sum_congr rfl fun i _ => by rw [share, mul_div_right_comm]

section Positive

variable [LinearOrder F] [IsStrictOrderedRing F] (positive : ∀ i ∈ all, 0 < weight i)

include positive

theorem share_pos {i : ι} (member : i ∈ all) : 0 < share all weight i :=
  div_pos (positive i member) (sum_pos positive ⟨i, member⟩)

/-- **The shares add up to 1.** -/
theorem sum_share (some : all.Nonempty) : ∑ i ∈ all, share all weight i = 1 := by
  simp only [share]
  rw [← sum_div]
  exact div_self (sum_pos positive some).ne'

/-- The shares are ordered as the weights are. -/
theorem share_le_iff (some : all.Nonempty) {i j : ι} :
    share all weight i ≤ share all weight j ↔ weight i ≤ weight j :=
  div_le_div_iff_of_pos_right (sum_pos positive some)

/-- **Shares change no more than proportions do.** -/
theorem share_le_mul_share {other : ι → F} {ratio : F} (positive' : ∀ i ∈ all, 0 < other i)
    (close : ∀ i ∈ all, ∀ j ∈ all, weight i * other j ≤ ratio * (other i * weight j)) {i : ι}
    (member : i ∈ all) :
    share all weight i ≤ ratio * share all other i := by
  have total : 0 < ∑ j ∈ all, weight j := sum_pos positive ⟨i, member⟩
  have total' : 0 < ∑ j ∈ all, other j := sum_pos positive' ⟨i, member⟩
  rw [share, share, ← mul_div_assoc, div_le_div_iff₀ total total', mul_sum, mul_sum]
  refine sum_le_sum fun j inside => ?_
  rw [mul_assoc]
  exact close i member j inside

/-- **A quotient of two sums stays between the bounds of the values.** -/
theorem quotient_mem_Icc (some : all.Nonempty) {value : ι → F} {low high : F}
    (bounds : ∀ i ∈ all, low ≤ value i ∧ value i ≤ high) :
    (∑ i ∈ all, weight i * value i) / ∑ i ∈ all, weight i ∈ Set.Icc low high := by
  have total : 0 < ∑ i ∈ all, weight i := sum_pos positive some
  constructor
  · rw [le_div_iff₀ total, mul_sum]
    refine sum_le_sum fun i member => ?_
    rw [mul_comm low]
    exact mul_le_mul_of_nonneg_left (bounds i member).1 (positive i member).le
  · rw [div_le_iff₀ total, mul_sum]
    refine sum_le_sum fun i member => ?_
    rw [mul_comm high]
    exact mul_le_mul_of_nonneg_left (bounds i member).2 (positive i member).le

end Positive

end Insist.Lib
