/-
**The latency percentiles of the benchmarks**: `percentile_ms` of `src/vector_add.cu` and `src/reduction.cu`,
which are the same text, and `percentile` of `run_cpu_only_benchmark.py`, in exact rational arithmetic.

An access outside of its list gives `none`, and so does the conversion of a negative number to `std::size_t`;
Python counts a negative index from the list's end.

* `percentileMs_eq`, `percentile_eq` — each of the two is the linearly interpolated quantile;
* **`percentiles_agree`** — so they are the same number, independent of the order of the values, between the
  least and the greatest of them, and growing with the fraction.
-/
import Insist.Lib.Quantile
import Mathlib.Data.Rat.Floor

namespace Insist.Benchmark

open Lib

/-- `static_cast<std::size_t>`: the fraction is dropped, and what is left must not be negative. -/
def toSizeT (x : ℚ) : Option ℕ := if -1 < x then some ⌊x⌋₊ else none

/-- `percentile_ms`. -/
def percentileMs (values : List ℚ) (q : ℚ) : Option ℚ :=
  let values := ascending values
  if values = [] then some 0
  else do
    let pos := q * (values.length - 1 : ℕ)
    let lo ← toSizeT pos
    let hi := min (lo + 1) (values.length - 1)
    let frac := pos - lo
    let low ← values[lo]?
    let high ← values[hi]?
    some (low * (1 - frac) + high * frac)

/-- `ordered[index]` of Python. -/
def item (ordered : List ℚ) (index : ℤ) : Option ℚ :=
  if 0 ≤ index then ordered[index.toNat]?
  else if 0 ≤ ordered.length + index then ordered[(ordered.length + index).toNat]?
  else none

/-- `percentile`. -/
def percentile (values : List ℚ) (pct : ℚ) : Option ℚ :=
  if values = [] then some 0
  else
    let ordered := ascending values
    if ordered.length = 1 then item ordered 0
    else do
      let rank := (ordered.length - 1 : ℕ) * pct
      let lo := ⌊rank⌋
      let hi := ⌈rank⌉
      if lo = hi then item ordered lo
      else
        let low ← item ordered lo
        let high ← item ordered hi
        some (low * (hi - rank) + high * (rank - lo))

variable {values : List ℚ} {q : ℚ}

/-- The place of the `q`-quantile among the indices. -/
theorem place_le (values : List ℚ) {q : ℚ} (le_one : q ≤ 1) :
    q * (values.length - 1 : ℕ) ≤ (values.length - 1 : ℕ) :=
  mul_le_of_le_one_left (Nat.cast_nonneg _) le_one

theorem place_nonneg (values : List ℚ) {q : ℚ} (nonneg : 0 ≤ q) : 0 ≤ q * (values.length - 1 : ℕ) :=
  mul_nonneg nonneg (Nat.cast_nonneg _)

theorem toSizeT_of_nonneg {x : ℚ} (nonneg : 0 ≤ x) : toSizeT x = some ⌊x⌋₊ := if_pos (by linarith)

/-- **`percentile_ms` is the quantile.** The clamped upper neighbour is the next value, or at the last one the
last again. -/
theorem percentileMs_eq (nonempty : values ≠ []) (nonneg : 0 ≤ q) (le_one : q ≤ 1) :
    percentileMs values q = some (quantile values q) := by
  have some_values := ascending_ne_nil nonempty
  have place := place_nonneg values nonneg
  have inside : ⌊q * (values.length - 1 : ℕ)⌋₊ < values.length := by
    have floor : ⌊q * (values.length - 1 : ℕ)⌋₊ ≤ values.length - 1 :=
      Nat.floor_le_of_le (place_le values le_one)
    have positive : 0 < values.length := List.length_pos_of_ne_nil nonempty
    omega
  have low : (ascending values)[⌊q * (values.length - 1 : ℕ)⌋₊]? =
      some (clamped (ascending values) ⌊q * (values.length - 1 : ℕ)⌋₊) :=
    getElem?_eq_clamped (by rwa [length_ascending])
  have high := getElem?_min (ascending values) some_values (⌊q * (values.length - 1 : ℕ)⌋₊ + 1)
  rw [length_ascending] at high
  simp only [percentileMs, if_neg some_values, length_ascending, toSizeT_of_nonneg place, Option.bind_eq_bind,
    Option.bind_some, low, high]
  rfl

theorem item_natCast (ordered : List ℚ) (i : ℕ) : item ordered i = ordered[i]? := if_pos (Int.natCast_nonneg i)

/-- A rank within the list has a natural number as its floor. -/
theorem floor_rank {last : ℕ} {rank : ℚ} (nonneg : 0 ≤ rank) (within : rank ≤ last) :
    ∃ n : ℕ, ⌊rank⌋ = n ∧ n ≤ last := by
  obtain ⟨n, floor⟩ := Int.eq_ofNat_of_zero_le (Int.floor_nonneg.mpr nonneg)
  have below : ⌊rank⌋ ≤ ⌊(last : ℚ)⌋ := Int.floor_mono within
  rw [floor, Int.floor_natCast] at below
  exact ⟨n, floor, by exact_mod_cast below⟩

/-- Where floor and ceiling agree, the rank is a whole number. -/
theorem eq_of_whole {n : ℕ} {rank : ℚ} (floor : ⌊rank⌋ = n) (whole : ⌊rank⌋ = ⌈rank⌉) : rank = n := by
  have lower : (⌊rank⌋ : ℚ) ≤ rank := Int.floor_le rank
  have upper : rank ≤ (⌈rank⌉ : ℚ) := Int.le_ceil rank
  rw [← whole] at upper
  rw [le_antisymm upper lower, floor, Int.cast_natCast]

/-- Elsewhere they are neighbours, and the upper one is within the list. -/
theorem ceil_of_not_whole {n last : ℕ} {rank : ℚ} (within : rank ≤ last) (floor : ⌊rank⌋ = n)
    (apart : ¬ ⌊rank⌋ = ⌈rank⌉) : ⌈rank⌉ = (n + 1 : ℕ) ∧ n + 1 ≤ last := by
  have above : ⌈rank⌉ ≤ ⌊rank⌋ + 1 := Int.ceil_le_floor_add_one rank
  have order : ⌊rank⌋ ≤ ⌈rank⌉ := Int.floor_le_ceil rank
  have below : ⌈rank⌉ ≤ (last : ℤ) := Int.ceil_le.mpr (by exact_mod_cast within)
  omega

/-- **`percentile` is the quantile.** At a whole rank both neighbours are the same value; elsewhere the upper
one is the next. -/
theorem percentile_eq (nonempty : values ≠ []) (nonneg : 0 ≤ q) (le_one : q ≤ 1) :
    percentile values q = some (quantile values q) := by
  have positive : 0 < values.length := List.length_pos_of_ne_nil nonempty
  have known {i : ℕ} (inside : i ≤ values.length - 1) :
      item (ascending values) i = some (clamped (ascending values) i) := by
    rw [item_natCast]
    exact getElem?_eq_clamped (by rw [length_ascending]; omega)
  unfold percentile quantile
  simp only [if_neg nonempty, length_ascending]
  rw [mul_comm ((values.length - 1 : ℕ) : ℚ) q]
  have place := place_nonneg values nonneg
  have within := place_le values le_one
  generalize q * ((values.length - 1 : ℕ) : ℚ) = rank at *
  obtain ⟨n, floor, below⟩ := floor_rank place within
  split_ifs with single whole
  · obtain rfl : rank = (0 : ℕ) := by
      rw [single, Nat.sub_self] at within
      exact le_antisymm within (by rwa [Nat.cast_zero])
    rw [interpolate_natCast]
    exact known (Nat.zero_le _)
  · rw [eq_of_whole floor whole, Int.floor_natCast, interpolate_natCast]
    exact known below
  · obtain ⟨ceil, next⟩ := ceil_of_not_whole within floor whole
    have lower : (n : ℚ) ≤ rank := by
      have := Int.floor_le rank
      rwa [floor, Int.cast_natCast] at this
    have upper : rank ≤ n + 1 := by
      have := Int.le_ceil rank
      rw [ceil] at this
      exact_mod_cast this
    rw [interpolate_eq _ lower upper, floor, ceil, known below, known next]
    simp

example : percentile [3, 1, 2] (19 / 20) = some (29 / 10) := by decide +kernel

/-- The two neighbours of a rank within the list are places of the list. -/
theorem rank_inside (nonempty : values ≠ []) (nonneg : 0 ≤ q) (le_one : q ≤ 1) :
    0 ≤ ⌊((values.length - 1 : ℕ) : ℚ) * q⌋ ∧ ⌈((values.length - 1 : ℕ) : ℚ) * q⌉ < values.length := by
  rw [mul_comm]
  have positive : 0 < values.length := List.length_pos_of_ne_nil nonempty
  have above : ⌈q * ((values.length - 1 : ℕ) : ℚ)⌉ ≤ (values.length - 1 : ℕ) :=
    Int.ceil_le.mpr (by exact_mod_cast place_le values le_one)
  exact ⟨Int.floor_nonneg.mpr (place_nonneg values nonneg), by omega⟩

/-- **The percentiles of the benchmarks agree.** For values and fractions `q ≤ r` between 0 and 1, both
functions return the linearly interpolated quantile. The neighbours of the rank are places of the list; the
result is the same for every order of the values, lies between the least and the greatest of them, and is
at `q` at most what it is at `r`. -/
theorem percentiles_agree (nonempty : values ≠ []) {r : ℚ} (nonneg : 0 ≤ q) (order : q ≤ r) (le_one : r ≤ 1) :
    (percentileMs values q = some (quantile values q) ∧ percentile values q = some (quantile values q)) ∧
    (percentileMs values r = some (quantile values r) ∧ percentile values r = some (quantile values r)) ∧
    (0 ≤ ⌊((values.length - 1 : ℕ) : ℚ) * q⌋ ∧ ⌈((values.length - 1 : ℕ) : ℚ) * q⌉ < values.length) ∧
    (∀ values', values'.Perm values →
      percentileMs values' q = percentileMs values q ∧ percentile values' q = percentile values q) ∧
    (∃ least greatest, values.min? = some least ∧ values.max? = some greatest ∧
      least ≤ quantile values q ∧ quantile values q ≤ greatest) ∧
    quantile values q ≤ quantile values r := by
  have below : q ≤ 1 := le_trans order le_one
  have above : 0 ≤ r := le_trans nonneg order
  refine ⟨⟨percentileMs_eq nonempty nonneg below, percentile_eq nonempty nonneg below⟩,
    ⟨percentileMs_eq nonempty above le_one, percentile_eq nonempty above le_one⟩,
    rank_inside nonempty nonneg below, ?_, ?_, quantile_mono nonempty nonneg order⟩
  · intro values' perm
    have nonempty' : values' ≠ [] := fun empty => nonempty (List.Perm.nil_eq (empty ▸ perm)).symm
    rw [percentileMs_eq nonempty' nonneg below, percentileMs_eq nonempty nonneg below,
      percentile_eq nonempty' nonneg below, percentile_eq nonempty nonneg below, quantile_perm perm]
    exact ⟨rfl, rfl⟩
  · obtain ⟨least, first⟩ := Option.ne_none_iff_exists'.mp (List.min?_eq_none_iff.not.mpr nonempty)
    obtain ⟨greatest, last⟩ := Option.ne_none_iff_exists'.mp (List.max?_eq_none_iff.not.mpr nonempty)
    have within := quantile_mem_Icc nonempty nonneg fun value member =>
      ⟨(List.min?_eq_some_iff.mp first).2 value member, (List.max?_eq_some_iff.mp last).2 value member⟩
    exact ⟨least, greatest, first, last, within.1, within.2⟩

/-- The reported percentiles of three times. -/
theorem percentile_three :
    percentileMs [3, 1, 2] (1 / 2) = percentile [3, 1, 2] (1 / 2) ∧
      quantile [3, 1, 2] (1 / 2 : ℚ) ≤ quantile [3, 1, 2] (19 / 20) := by
  obtain ⟨⟨ms, python⟩, _, _, _, _, mono⟩ :=
    percentiles_agree (q := 1 / 2) (r := 19 / 20) (show ([3, 1, 2] : List ℚ) ≠ [] by decide) (by norm_num)
      (by norm_num) (by norm_num)
  exact ⟨ms.trans python.symm, mono⟩

end Insist.Benchmark
