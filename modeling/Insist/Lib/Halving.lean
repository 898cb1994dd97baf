/-
**Sums by halving.**

A turn of a tree reduction adds to every place below its stride the place one stride on. The stride of the first
turn is half of the width, and is halved from turn to turn as long as it stays above a bound; the places below
twice the bound are then summed up in another way.

* `sum_halve` — a turn leaves the sum of twice as many places in those below its stride;
* `Lossless` — for what is zero from some place on, the widths of all turns are even, or end behind that place;
* `sum_halvings` — then the reduction leaves the sum of all places;
* `exists_lossy` — and otherwise it does not, already for what is zero at all places but one;
* `lossless_of_two_pow`, `two_pow_of_lossless` — for what may be nonzero everywhere, the lossless widths are the
  powers of two times twice the bound.
-/
import Mathlib.Algebra.BigOperators.Group.Finset.Piecewise
import Mathlib.Algebra.Ring.Parity

namespace Insist.Lib

variable {M : Type*} [AddCommMonoid M]

/-- A turn with this stride. -/
def halve (stride : ℕ) (values : ℕ → M) (place : ℕ) : M :=
  if place < stride then values place + values (place + stride) else values place

/-- The strides of the turns, while they are above the bound. -/
def stridesAbove (bound width : ℕ) : List ℕ :=
  if bound < width / 2 then width / 2 :: stridesAbove bound (width / 2) else []

/-- What all turns leave. -/
def halvings (bound width : ℕ) (values : ℕ → M) : ℕ → M :=
  (stridesAbove bound width).foldl (fun values stride => halve stride values) values

/-- Of values that are zero from place `count` on, none is lost and none is added twice: a turn leaves out the
last place of an odd width, and what comes after the turns takes in the places below twice the bound. -/
def Lossless (bound count width : ℕ) : Prop :=
  if bound < width / 2 then (Even width ∨ count < width) ∧ Lossless bound count (width / 2)
  else width = 2 * bound ∨ count ≤ min width (2 * bound)

theorem stridesAbove_of_lt {bound width : ℕ} (more : bound < width / 2) :
    stridesAbove bound width = width / 2 :: stridesAbove bound (width / 2) := by
  rw [stridesAbove, if_pos more]

theorem stridesAbove_of_not_lt {bound width : ℕ} (last : ¬ bound < width / 2) :
    stridesAbove bound width = [] := by
  rw [stridesAbove, if_neg last]

theorem lossless_of_lt {bound count width : ℕ} (more : bound < width / 2) :
    Lossless bound count width ↔ (Even width ∨ count < width) ∧ Lossless bound count (width / 2) := by
  rw [Lossless, if_pos more]

theorem lossless_of_not_lt {bound count width : ℕ} (last : ¬ bound < width / 2) :
    Lossless bound count width ↔ width = 2 * bound ∨ count ≤ min width (2 * bound) := by
  rw [Lossless, if_neg last]

theorem halvings_of_lt {bound width : ℕ} (more : bound < width / 2) (values : ℕ → M) :
    halvings bound width values = halvings bound (width / 2) (halve (width / 2) values) := by
  rw [halvings, stridesAbove_of_lt more, List.foldl_cons]
  rfl

theorem halvings_of_not_lt {bound width : ℕ} (last : ¬ bound < width / 2) (values : ℕ → M) :
    halvings bound width values = values := by
  rw [halvings, stridesAbove_of_not_lt last, List.foldl_nil]

/-! ### What a turn keeps -/

/-- **A turn leaves the sum of twice as many places.** -/
theorem sum_halve (stride : ℕ) (values : ℕ → M) :
    ∑ place ∈ Finset.range stride, halve stride values place = ∑ place ∈ Finset.range
    (2 * stride), values place := by
  rw [two_mul, Finset.sum_range_add, ← Finset.sum_add_distrib]
  refine Finset.sum_congr rfl fun place inside => ?_
  rw [halve, if_pos (Finset.mem_range.mp inside), Nat.add_comm place stride]

/-- What is zero from some place on stays so. -/
theorem halve_eq_zero {count stride : ℕ} {values : ℕ → M} (zero : ∀ place, count ≤ place → values place = 0)
    (place : ℕ) (beyond : count ≤ place) : halve stride values place = 0 := by
  unfold halve
  rw [zero place beyond, zero (place + stride) (beyond.trans (Nat.le_add_right _ _)), add_zero, ite_self]

/-- Places from which on everything is zero do not count. -/
theorem sum_range_of_zero {count width : ℕ} {values : ℕ → M} (zero : ∀ place, count ≤ place → values place = 0)
    (wide : count ≤ width) :
    ∑ place ∈ Finset.range width, values place = ∑ place ∈ Finset.range count, values place := by
  refine (Finset.sum_subset (Finset.range_subset_range.mpr wide) fun place _ outside => zero place ?_).symm
  exact Nat.le_of_not_lt fun inside => outside (Finset.mem_range.mpr inside)

/-- **A lossless reduction leaves the sum of all places.** -/
theorem sum_halvings {bound count width : ℕ} {values : ℕ → M} (lossless : Lossless bound count width)
    (zero : ∀ place, count ≤ place → values place = 0) :
    ∑ place ∈ Finset.range (2 * bound), halvings bound width values place =
      ∑ place ∈ Finset.range width, values place := by
  induction width using Nat.strong_induction_on generalizing values with
  | _ width ih =>
      by_cases more : bound < width / 2
      · obtain ⟨even, rest⟩ := (lossless_of_lt more).mp lossless
        have smaller : width / 2 < width := by omega
        rw [halvings_of_lt more, ih _ smaller rest (halve_eq_zero zero), sum_halve]
        rcases even with even | few
        · rw [Nat.two_mul_div_two_of_even even]
        · rw [sum_range_of_zero zero (show count ≤ 2 * (width / 2) by omega),
            sum_range_of_zero zero (show count ≤ width by omega)]
      · rw [halvings_of_not_lt more]
        rcases (lossless_of_not_lt more).mp lossless with same | few
        · rw [same]
        · rw [sum_range_of_zero zero (few.trans (min_le_right _ _)),
            sum_range_of_zero zero (few.trans (min_le_left _ _))]

/-! ### What a turn loses -/

section Lossy

variable {unit : M}

/-- A turn does not move a value in the lower half. -/
theorem halve_single_of_lt {stride place : ℕ} (low : place < stride) :
    halve stride (Pi.single place unit) = Pi.single place unit := by
  funext other
  unfold halve
  split_ifs with inside
  · rw [Pi.single_eq_of_ne (show other + stride ≠ place by omega), add_zero]
  · rfl

/-- Nor one behind the places that it takes in. -/
theorem halve_single_of_le {stride place : ℕ} (high : 2 * stride ≤ place) :
    halve stride (Pi.single place unit) = Pi.single place unit := by
  funext other
  unfold halve
  split_ifs with inside
  · rw [Pi.single_eq_of_ne (show other + stride ≠ place by omega), add_zero]
  · rfl

/-- A value in the upper half is added to its place in the lower half, and stays where it was. -/
theorem halve_single_self {stride : ℕ} (some : 0 < stride) :
    halve stride (Pi.single stride unit) = Pi.single 0 unit + Pi.single stride unit := by
  funext other
  unfold halve
  rw [Pi.add_apply]
  by_cases first : other = 0
  · subst first
    rw [if_pos some, Nat.zero_add, Pi.single_eq_same, Pi.single_eq_same, add_comm]
  · rw [Pi.single_eq_of_ne first, zero_add]
    split_ifs with inside
    · rw [Pi.single_eq_of_ne (show other + stride ≠ stride by omega), add_zero]
    · rfl

/-- The turns do not reach a value behind the width. -/
theorem halvings_single {bound width place : ℕ} (behind : width ≤ place) :
    halvings bound width (Pi.single place unit) = Pi.single place unit := by
  induction width using Nat.strong_induction_on with
  | _ width ih =>
      by_cases more : bound < width / 2
      · rw [halvings_of_lt more, halve_single_of_le (by omega), ih _ (by omega) (by omega)]
      · rw [halvings_of_not_lt more]

theorem sum_single {place width : ℕ} :
    ∑ other ∈ Finset.range width, (Pi.single place unit : ℕ → M) other = if place < width then unit else 0 := by
  rw [Finset.sum_pi_single']
  simp only [Finset.mem_range]

/-- **A reduction that is not lossless loses a value, or adds one twice.** -/
theorem exists_lossy {bound count width : ℕ} (wide : 2 * bound ≤ width) (lossy : ¬ Lossless bound count width)
    (nonzero : unit ≠ 0) (twice : unit + unit ≠ unit) :
    ∃ place < min count width,
      ∑ other ∈ Finset.range (2 * bound), halvings bound width (Pi.single place unit) other ≠ unit := by
  have lost {place : ℕ} (behind : 2 * bound ≤ place) :
      ∑ other ∈ Finset.range (2 * bound), (Pi.single place unit : ℕ → M) other ≠ unit := by
    rw [sum_single, if_neg (by omega)]
    exact nonzero.symm
  induction width using Nat.strong_induction_on with
  | _ width ih =>
      by_cases more : bound < width / 2
      · rw [lossless_of_lt more, not_and_or, not_or, Nat.not_even_iff_odd] at lossy
        by_cases odd : Odd width ∧ ¬ count < width
        · -- the last place of an odd width
          have whole := Nat.two_mul_div_two_add_one_of_odd odd.1
          refine ⟨width - 1, by omega, ?_⟩
          rw [halvings_of_lt more, halve_single_of_le (by omega), halvings_single (by omega)]
          exact lost (by omega)
        · have rest := lossy.resolve_left odd
          by_cases wide' : 2 * bound ≤ width / 2
          · obtain ⟨place, inside, wrong⟩ := ih _ (by omega) wide' rest
            refine ⟨place, by omega, ?_⟩
            rwa [halvings_of_lt more, halve_single_of_lt (by omega)]
          · -- the first place of the upper half is still there after the last turn
            have last : ¬ bound < width / 2 / 2 := by omega
            rw [lossless_of_not_lt last, not_or] at rest
            refine ⟨width / 2, by omega, ?_⟩
            rw [halvings_of_lt more, halvings_of_not_lt last, halve_single_self (by omega)]
            simp only [Pi.add_apply]
            rw [Finset.sum_add_distrib, sum_single, sum_single, if_pos (by omega), if_pos (by omega)]
            exact twice
      · rw [lossless_of_not_lt more, not_or] at lossy
        refine ⟨2 * bound, by omega, ?_⟩
        rw [halvings_of_not_lt more]
        exact lost le_rfl

end Lossy

/-! ### Powers of two -/

theorem lossless_of_two_pow {bound count : ℕ} (some : 0 < bound) (exponent : ℕ) :
    Lossless bound count (2 * bound * 2 ^ exponent) := by
  induction exponent with
  | zero => exact (lossless_of_not_lt (by omega)).mpr (Or.inl (by omega))
  | succ exponent ih =>
      have half : 2 * bound * 2 ^ (exponent + 1) = 2 * (2 * bound * 2 ^ exponent) := by
        rw [Nat.pow_succ, ← Nat.mul_assoc, Nat.mul_comm]
      have least : bound < 2 * bound * 2 ^ exponent :=
        (by omega : bound < 2 * bound).trans_le (Nat.le_mul_of_pos_right _ (Nat.two_pow_pos exponent))
      rw [half, lossless_of_lt (by omega), Nat.mul_div_cancel_left _ Nat.two_pos]
      exact ⟨Or.inl (even_two_mul _), ih⟩

theorem two_pow_of_lossless {bound count width : ℕ} (wide : 2 * bound ≤ width) (full : width ≤ count)
    (lossless : Lossless bound count width) : ∃ exponent, width = 2 * bound * 2 ^ exponent := by
  induction width using Nat.strong_induction_on with
  | _ width ih =>
      by_cases more : bound < width / 2
      · obtain ⟨even, rest⟩ := (lossless_of_lt more).mp lossless
        have whole := Nat.two_mul_div_two_of_even (even.resolve_right (by omega))
        by_cases wide' : 2 * bound ≤ width / 2
        · obtain ⟨exponent, same⟩ := ih _ (by omega) wide' (by omega) rest
          refine ⟨exponent + 1, ?_⟩
          rw [Nat.pow_succ, ← Nat.mul_assoc, ← same, Nat.mul_comm, whole]
        · rw [lossless_of_not_lt (by omega)] at rest
          omega
      · rcases (lossless_of_not_lt more).mp lossless with same | few
        · exact ⟨0, by rw [same, Nat.pow_zero, Nat.mul_one]⟩
        · exact ⟨0, by rw [Nat.pow_zero, Nat.mul_one]; omega⟩

end Insist.Lib
