/-
**Linear interpolation, and the quantiles of a list.**

A sequence of values is extended to all places between its indices by the polygonal line through them; the
`q`-quantile of a list is the value of its sorted values' line at the fraction `q` of the way from the
first of them to the last.

* `interpolate_eq` — on a segment, the line is the weighted mean of the two ends, whichever end the place
  is at;
* `interpolate_mono`, `le_interpolate`, `interpolate_le` — it grows with the sequence, and stays within the
  sequence's bounds;
* `quantile_perm`, `quantile_mono`, `quantile_mem_Icc` — so a quantile does not depend on the order of the
  values, grows with the fraction and lies among the values.
-/
import Mathlib.Algebra.Order.Floor.Ring
import Mathlib.Algebra.Order.Field.Basic
import Mathlib.Data.List.GetD
import Mathlib.Data.List.Sort
import Mathlib.Tactic.Linarith
import Mathlib.Tactic.Ring

namespace Insist.Lib

/-! ### A list as a sequence -/

section Lists

variable {K : Type*}

/-- The values of a list, of which the last goes on for ever. -/
def clamped [Zero K] (values : List K) (i : ℕ) : K := values.getD (min i (values.length - 1)) 0

theorem getElem?_min [Zero K] (values : List K) (nonempty : values ≠ []) (i : ℕ) :
    values[min i (values.length - 1)]? = some (clamped values i) := by
  have positive : 0 < values.length := List.length_pos_of_ne_nil nonempty
  have inside : min i (values.length - 1) < values.length := by omega
  rw [clamped, List.getD_eq_getElem _ _ inside, List.getElem?_eq_getElem inside]

theorem getElem?_eq_clamped [Zero K] {values : List K} {i : ℕ} (inside : i < values.length) :
    values[i]? = some (clamped values i) := by
  rw [← getElem?_min values (List.ne_nil_of_length_pos (by omega)) i]
  congr 1
  omega

theorem clamped_mem [Zero K] {values : List K} (nonempty : values ≠ []) (i : ℕ) : clamped values i ∈ values :=
  List.mem_of_getElem? (getElem?_min values nonempty i)

theorem clamped_mono [Zero K] [Preorder K] {values : List K} (sorted : values.SortedLE)
    (nonempty : values ≠ []) :
    Monotone (clamped values) := by
  intro i j order
  have positive : 0 < values.length := List.length_pos_of_ne_nil nonempty
  unfold clamped
  rw [List.getD_eq_getElem _ _ (by omega), List.getD_eq_getElem _ _ (by omega)]
  exact sorted.getElem_le_getElem_of_le (by omega)

variable [LinearOrder K]

/-- The values in order. -/
def ascending (values : List K) : List K := values.insertionSort (· ≤ ·)

theorem ascending_perm (values : List K) : (ascending values).Perm values := List.perm_insertionSort _ values

@[simp] theorem length_ascending (values : List K) : (ascending values).length = values.length :=
  List.length_insertionSort _ values

theorem ascending_sorted (values : List K) : (ascending values).SortedLE := List.sortedLE_insertionSort

theorem ascending_ne_nil {values : List K} (nonempty : values ≠ []) : ascending values ≠ [] :=
  fun empty => nonempty (List.Perm.nil_eq (empty ▸ ascending_perm values)).symm

theorem ascending_congr {values values' : List K} (perm : values'.Perm values) :
    ascending values' = ascending values :=
  ((ascending_perm values').trans (perm.trans (ascending_perm values).symm)).eq_of_sortedLE
    (ascending_sorted values') (ascending_sorted values)

end Lists

section Field

variable {K : Type*} [Field K] [LinearOrder K] [IsStrictOrderedRing K] [FloorSemiring K]

/-! ### The polygonal line of a sequence -/

/-- The value at `x` of the polygonal line through the points `(i, f i)`. -/
def interpolate (f : ℕ → K) (x : K) : K :=
  f ⌊x⌋₊ * (1 - (x - ⌊x⌋₊)) + f (⌊x⌋₊ + 1) * (x - ⌊x⌋₊)

theorem interpolate_natCast (f : ℕ → K) (n : ℕ) : interpolate f n = f n := by
  unfold interpolate
  rw [Nat.floor_natCast, sub_self, sub_zero, mul_one, mul_zero, add_zero]

/-- The line on the segment from `n` to `n + 1`, both ends included. -/
theorem interpolate_eq (f : ℕ → K) {n : ℕ} {x : K} (lower : n ≤ x) (upper : x ≤ n + 1) :
    interpolate f x = f n * (n + 1 - x) + f (n + 1) * (x - n) := by
  rcases eq_or_lt_of_le upper with rfl | inside
  · have place : ((n : K) + 1) = ((n + 1 : ℕ) : K) := by push_cast; rfl
    rw [place, interpolate_natCast]
    push_cast
    ring
  · have floor : ⌊x⌋₊ = n := by
      rw [Nat.floor_eq_iff (le_trans (Nat.cast_nonneg n) lower)]
      exact ⟨lower, inside⟩
    unfold interpolate
    rw [floor]
    ring

theorem fract_nonneg {x : K} (nonneg : 0 ≤ x) : 0 ≤ x - ⌊x⌋₊ := sub_nonneg.mpr (Nat.floor_le nonneg)

theorem fract_le_one (x : K) : x - ⌊x⌋₊ ≤ 1 := by
  have above : x < ⌊x⌋₊ + 1 := Nat.lt_floor_add_one x
  linarith

/-- A weighted mean is at least the smaller end. -/
theorem le_interpolate {f : ℕ → K} {bound x : K} (nonneg : 0 ≤ x) (low : bound ≤ f ⌊x⌋₊)
    (next : bound ≤ f (⌊x⌋₊ + 1)) : bound ≤ interpolate f x := by
  have left : bound * (1 - (x - ⌊x⌋₊)) ≤ f ⌊x⌋₊ * (1 - (x - ⌊x⌋₊)) :=
    mul_le_mul_of_nonneg_right low (sub_nonneg.mpr (fract_le_one x))
  have right : bound * (x - ⌊x⌋₊) ≤ f (⌊x⌋₊ + 1) * (x - ⌊x⌋₊) :=
    mul_le_mul_of_nonneg_right next (fract_nonneg nonneg)
  calc bound = bound * (1 - (x - ⌊x⌋₊)) + bound * (x - ⌊x⌋₊) := by ring
    _ ≤ interpolate f x := add_le_add left right

/-- A weighted mean is at most the greater end. -/
theorem interpolate_le {f : ℕ → K} {bound x : K} (nonneg : 0 ≤ x) (low : f ⌊x⌋₊ ≤ bound)
    (next : f (⌊x⌋₊ + 1) ≤ bound) : interpolate f x ≤ bound := by
  have left : f ⌊x⌋₊ * (1 - (x - ⌊x⌋₊)) ≤ bound * (1 - (x - ⌊x⌋₊)) :=
    mul_le_mul_of_nonneg_right low (sub_nonneg.mpr (fract_le_one x))
  have right : f (⌊x⌋₊ + 1) * (x - ⌊x⌋₊) ≤ bound * (x - ⌊x⌋₊) :=
    mul_le_mul_of_nonneg_right next (fract_nonneg nonneg)
  calc interpolate f x ≤ bound * (1 - (x - ⌊x⌋₊)) + bound * (x - ⌊x⌋₊) := add_le_add left right
    _ = bound := by ring

/-- **The line of a growing sequence grows**, within a segment and from one to a later one. -/
theorem interpolate_mono {f : ℕ → K} (mono : Monotone f) {x y : K} (nonneg : 0 ≤ x) (order : x ≤ y) :
    interpolate f x ≤ interpolate f y := by
  rcases eq_or_lt_of_le (Nat.floor_mono order) with same | later
  · have slope : 0 ≤ f (⌊y⌋₊ + 1) - f ⌊y⌋₊ := sub_nonneg.mpr (mono (Nat.le_succ _))
    have rise : 0 ≤ (f (⌊y⌋₊ + 1) - f ⌊y⌋₊) * (y - x) := mul_nonneg slope (sub_nonneg.mpr order)
    unfold interpolate
    rw [same]
    linarith
  · calc interpolate f x ≤ f (⌊x⌋₊ + 1) := interpolate_le nonneg (mono (Nat.le_succ _)) le_rfl
      _ ≤ f ⌊y⌋₊ := mono later
      _ ≤ interpolate f y :=
        le_interpolate (le_trans nonneg order) le_rfl (mono (Nat.le_succ _))

/-! ### Quantiles -/

/-- The linearly interpolated `q`-quantile. -/
def quantile (values : List K) (q : K) : K :=
  interpolate (clamped (ascending values)) (q * (values.length - 1 : ℕ))

omit [IsStrictOrderedRing K] in
/-- **A quantile does not depend on the order of the values.** -/
theorem quantile_perm {values values' : List K} (perm : values'.Perm values) (q : K) :
    quantile values' q = quantile values q := by
  unfold quantile
  rw [ascending_congr perm, perm.length_eq]

/-- **A quantile grows with its fraction.** -/
theorem quantile_mono {values : List K} (nonempty : values ≠ []) {q r : K} (nonneg : 0 ≤ q)
    (order : q ≤ r) : quantile values q ≤ quantile values r := by
  apply interpolate_mono (clamped_mono (ascending_sorted values) (ascending_ne_nil nonempty))
  · exact mul_nonneg nonneg (Nat.cast_nonneg _)
  · exact mul_le_mul_of_nonneg_right order (Nat.cast_nonneg _)

/-- **A quantile lies between any bounds of the values.** -/
theorem quantile_mem_Icc {values : List K} (nonempty : values ≠ []) {q : K} (nonneg : 0 ≤ q)
    {least greatest : K} (bounds : ∀ value ∈ values, value ∈ Set.Icc least greatest) :
    quantile values q ∈ Set.Icc least greatest := by
  have known (i : ℕ) : clamped (ascending values) i ∈ Set.Icc least greatest :=
    bounds _ ((ascending_perm values).mem_iff.mp (clamped_mem (ascending_ne_nil nonempty) i))
  have place : 0 ≤ q * (values.length - 1 : ℕ) := mul_nonneg nonneg (Nat.cast_nonneg _)
  exact ⟨le_interpolate place (known _).1 (known _).1, interpolate_le place (known _).2 (known _).2⟩

end Field

end Insist.Lib
