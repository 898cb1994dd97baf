/-
**`softmax_block_kernel` against `softmax_naive_kernel`**, with floats read as exact reals.

Between the two reductions no barrier keeps thread 0 from overwriting the maximum in `smem[0]` with its part of
the sum before another warp has read it.

* `shifted_eq_softmax` — the quotient of a row does not depend on what is subtracted, as long as it is the same
  for all columns;
* `agrees_iff` — the kernel writes what the naive one writes, under every schedule, exactly if no other warp has
  a column, or thread 0's part of the sum happens to be the maximum in every row.
-/
import Insist.Kernels.SoftmaxLaunch
import Mathlib.Analysis.SpecialFunctions.Exp

namespace Insist.Kernels.Softmax

open Lib Lib.Simt FloatOps FloatInf Memory

/-! ### The softmax of a row -/

section Reals

variable (x : ℕ → ℝ) (cols row : ℕ)

/-- The softmax of a row. -/
noncomputable def softmax (c : ℕ) : ℝ :=
  Real.exp (x (row * cols + c)) / ∑ c' ∈ Finset.range cols, Real.exp (x (row * cols + c'))

/-- The greatest element of a row. -/
noncomputable def largest : ℝ := ⨆ c : Fin cols, x (row * cols + c)

/-- What thread 0 of so many threads adds up: the exponentials of the columns that their number divides. -/
noncomputable def firstPart (threads : ℕ) : ℝ :=
  ∑ c ∈ Finset.range cols with threads ∣ c, Real.exp (x (row * cols + c) - largest x cols row)

/-- The quotient of a row from which the columns subtract these values. -/
noncomputable def shifted (shift : ℕ → ℝ) (c : ℕ) : ℝ :=
  Real.exp (x (row * cols + c) - shift c) / ∑ c' ∈ Finset.range cols, Real.exp (x (row * cols + c') - shift c')

variable {x cols row}

/-- **Subtracting the same value everywhere changes nothing.** -/
theorem shifted_eq_softmax {shift : ℕ → ℝ} {value : ℝ} (same : ∀ c < cols, shift c = value) {c : ℕ}
    (bound : c < cols) :
    shifted x cols row shift c = softmax x cols row c := by
  have factor : ∀ c < cols, Real.exp (x (row * cols + c) - shift c) =
      Real.exp (x (row * cols + c)) * Real.exp (-value) := by
    intro c bound
    rw [same c bound, sub_eq_add_neg, Real.exp_add]
  unfold shifted softmax
  rw [factor c bound, Finset.sum_congr rfl fun c' member => factor c' (Finset.mem_range.mp member),
    ← Finset.sum_mul,
    mul_div_mul_right _ _ (Real.exp_pos _).ne']

/-- **If some columns subtract another value, what the others get is not the softmax.** -/
theorem shifted_ne_softmax {shift : ℕ → ℝ} {first other : ℝ} (apart : first ≠ other)
    (two : ∀ c < cols, shift c = first ∨ shift c = other) (here : shift 0 = first) {c : ℕ} (bound : c < cols)
    (there : shift c = other) : shifted x cols row shift 0 ≠ softmax x cols row 0 := by
  have some : 0 < cols := by omega
  rw [← @shifted_eq_softmax x cols row (fun _ => first) first (fun _ _ => rfl) 0 some]
  unfold shifted
  rw [here]
  intro same
  have member : c ∈ Finset.range cols := Finset.mem_range.mpr bound
  simp only [div_eq_mul_inv] at same
  have sums := inv_injective (mul_left_cancel₀ (Real.exp_pos (x (row * cols + 0) - first)).ne' same)
  -- the columns that subtract the other value are all too great, or all too small
  rcases apart.lt_or_gt with less | greater
  · refine (Finset.sum_lt_sum (fun c' member' => ?_) ⟨c, member, ?_⟩).ne sums
    · rcases two c' (Finset.mem_range.mp member') with same | same
      · rw [same]
      · exact Real.exp_le_exp.mpr (by rw [same]; linarith)
    · exact Real.exp_lt_exp.mpr (by rw [there]; linarith)
  · refine (Finset.sum_lt_sum (fun c' member' => ?_) ⟨c, member, ?_⟩).ne' sums
    · rcases two c' (Finset.mem_range.mp member') with same | same
      · rw [same]
      · exact Real.exp_le_exp.mpr (by rw [same]; linarith)
    · exact Real.exp_lt_exp.mpr (by rw [there]; linarith)

/-! ### The kernels' floats are these reals -/

theorem fold_add_coe (columns : Finset ℕ) (value : ℕ → ℝ) :
    (columns.fold add zero fun c => ((value c : ℝ) : EReal)) = ((∑ c ∈ columns, value c : ℝ) : EReal) := by
  induction columns using Finset.induction_on with
  | empty => rfl
  | insert c columns fresh ih => rw [Finset.fold_insert fresh, ih, add_coe, Finset.sum_insert fresh]

theorem weight_coe (x : ℕ → ℝ) (maxVal : ℝ) (c : ℕ) :
    weight (fun index => (x index : EReal)) cols row maxVal c = Real.exp (x (row * cols + c) - maxVal) := by
  rw [weight, sub_coe, exp_coe]

theorem rowMax_coe (x : ℕ → ℝ) (some : 0 < cols) : rowMax
    (fun index => (x index : EReal)) cols row = largest x cols row := by
  have : Nonempty (Fin cols) := ⟨⟨0, some⟩⟩
  obtain ⟨c, attained⟩ := exists_eq_ciSup_of_finite (f := fun c : Fin cols => x (row * cols + c))
  show (Finset.range cols).sup (fun c => ((x (row * cols + c) : ℝ) : EReal)) = largest x cols row
  refine le_antisymm (Finset.sup_le fun c member => ?_) ?_
  · exact EReal.coe_le_coe_iff.mpr
      (le_ciSup (f := fun c : Fin cols => x (row * cols + c)) (Finite.bddAbove_range _)
        ⟨c, Finset.mem_range.mp member⟩)
  · rw [largest, ← attained]
    exact Finset.le_sup (f := fun c => ((x (row * cols + c) : ℝ) : EReal)) (Finset.mem_range.mpr c.isLt)

theorem firstSum_coe (x : ℕ → ℝ) (some : 0 < cols) (threads : ℕ) :
    firstSum (fun index => (x index : EReal)) cols threads row = firstPart x cols row threads := by
  have columns : strided cols threads 0 = (Finset.range cols).filter (threads ∣ ·) := by
    ext c
    rw [mem_strided, Finset.mem_filter, Finset.mem_range, Nat.dvd_iff_mod_eq_zero]
  rw [firstSum, rowMax_coe x some, columns]
  simp only [funext (weight_coe x (largest x cols row)), fold_add_coe]
  rfl

theorem quotient_coe (x : ℕ → ℝ) {threads : ℕ} {maxVal : ℕ → EReal} {shift : ℕ → ℝ}
    (same : ∀ c < cols, maxVal (c % threads) = shift c) {c : ℕ} (bound : c < cols) :
    quotient (fun index => (x index : EReal)) cols threads row maxVal c = shifted x cols row shift c := by
  have terms : ∀ c < cols, weight (fun index => (x index : EReal)) cols row (maxVal (c % threads)) c =
      Real.exp (x (row * cols + c) - shift c) := by
    intro c bound
    rw [same c bound, weight_coe]
  rw [quotient, terms c bound, Finset.fold_congr fun c' member =>
    terms c' (Finset.mem_range.mp member), fold_add_coe,
    div_coe]
  rfl

end Reals

/-! ### The two kernels -/

/-- The kernels can always be run to their ends, and whatever the schedule, `softmax_block_kernel` has then
written what `softmax_naive_kernel` has: the softmax of every row, and nothing else. -/
def Agrees (x : ℕ → ℝ) (rows cols threads : ℕ) (y : ℕ → EReal) : Prop :=
  (∃ written, BlockEnds (fun index => (x index : EReal)) rows cols threads y written) ∧
    ∀ written naive, BlockEnds (fun index => (x index : EReal)) rows cols threads y written →
      NaiveEnds (fun index => (x index : EReal)) rows cols threads y naive → written = naive ∧
        ∀ row < rows, ∀ c < cols, written (row * cols + c) = (softmax x cols row c : ℝ)

section

variable {x : ℕ → ℝ} {rows cols exponent : ℕ} {y written naive : ℕ → EReal}

/-- What the memory of a block may hold at first. -/
noncomputable def anyOwn : Own EReal := ⟨fun _ => 0, fun _ => ⟨0, 0, 0, 0⟩⟩

/-- **What `softmax_naive_kernel` writes.** -/
theorem naive_is_softmax (some : 0 < cols)
    (ends : NaiveEnds (fun index => (x index : EReal)) rows cols (2 ^ exponent) y naive) :
    (∀ row < rows, ∀ c < cols, naive (row * cols + c) = (softmax x cols row c : ℝ)) ∧
      ∀ index, rows * cols ≤ index → naive index = y index := by
  obtain ⟨inside, outside⟩ := row_of_launch (fun row part inCode operation member tid =>
    inRow_of_naive inCode member tid) ends
  refine ⟨fun row bound c column => ?_, outside⟩
  obtain ⟨own, memory', ran, same⟩ := inside ⟨row, bound⟩
  rw [same c column, naive_writes (Nat.two_pow_pos exponent) ran column, rowMax_coe x some,
    ← @shifted_eq_softmax x cols row (fun _ => largest x cols row) _ (fun _ _ => rfl) c column]
  exact @quotient_coe cols row x 1 (fun _ => largest x cols row) _ (fun _ _ => rfl) c column

/-- The threads have read the maximum where it matters. -/
theorem block_is_softmax (some : 0 < cols)
    (safe : 2 ^ exponent ≤ warpSize ∨ cols ≤ warpSize ∨
      ∀ row < rows, firstPart x cols row (2 ^ exponent) = largest x cols row)
    (ends : BlockEnds (fun index => (x index : EReal)) rows cols (2 ^ exponent) y written) :
    (∀ row < rows, ∀ c < cols, written (row * cols + c) = (softmax x cols row c : ℝ)) ∧
      ∀ index, rows * cols ≤ index → written index = y index := by
  obtain ⟨inside, outside⟩ := row_of_launch (fun row part inCode operation member tid =>
    inRow_of_block inCode member tid) ends
  refine ⟨fun row bound c column => ?_, outside⟩
  obtain ⟨own, memory', ran, same⟩ := inside ⟨row, bound⟩
  obtain ⟨maxVal, two, quotients⟩ := kernel_runs ran
  have top : ∀ c < cols, maxVal (c % 2 ^ exponent) = largest x cols row := by
    intro c column
    have thread := Nat.mod_lt c (Nat.two_pow_pos exponent)
    rw [← rowMax_coe x some]
    rcases two _ thread with largest | ⟨high, low⟩
    · exact largest
    · rcases safe with few | few | lucky
      · exact absurd (thread.trans_le few) (Nat.not_lt.mpr high)
      · exact absurd ((Nat.mod_le c _).trans_lt (column.trans_le few)) (Nat.not_lt.mpr high)
      · rw [low, firstSum_coe x some, lucky row bound, rowMax_coe x some]
  rw [same c column, quotients c column, quotient_coe x top column, shifted_eq_softmax (fun _ _ => rfl) column]

/-- When the race is lost in some row, the first column is not what it should be. -/
theorem exists_wrong (some : 0 < cols) (threads : warpSize < 2 ^ exponent) (columns : warpSize < cols) {row : ℕ}
    (bound : row < rows) (unlucky : firstPart x cols row (2 ^ exponent) ≠ largest x cols row) (y : ℕ → EReal) :
    ∃ written, BlockEnds (fun index => (x index : EReal)) rows cols (2 ^ exponent) y written ∧
      written (row * cols + 0) ≠ (softmax x cols row 0 : ℝ) := by
  obtain ⟨memory', maxVal, ran, race, quotients⟩ :=
    exists_kernel_race (fun index => (x index : EReal)) cols row exponent (y, anyOwn)
  obtain ⟨written, ends, same⟩ := launch_of_row (fun row part inCode operation member tid =>
    inRow_of_block inCode member tid) (⟨row, bound⟩ : Fin rows) ran
  refine ⟨written, ends, ?_⟩
  let shift (c : ℕ) : ℝ :=
    if c % 2 ^ exponent < warpSize then largest x cols row else firstPart x cols row (2 ^ exponent)
  have shifts : ∀ c < cols, maxVal (c % 2 ^ exponent) = shift c := by
    intro c _
    rw [race _ (Nat.mod_lt c (Nat.two_pow_pos exponent)), rowMax_coe x some, firstSum_coe x some]
    unfold shift
    split_ifs <;> rfl
  rw [same 0 some, quotients 0 some, quotient_coe x shifts some]
  refine fun equal => shifted_ne_softmax (Ne.symm unlucky) (fun c _ => ?_) ?_ columns ?_
    (EReal.coe_injective equal)
  · unfold shift
    split_ifs
    · exact Or.inl rfl
    · exact Or.inr rfl
  · exact if_pos (by rw [Nat.zero_mod]; decide)
  · exact if_neg (by rw [Nat.mod_eq_of_lt threads]; exact Nat.lt_irrefl _)

/-- **`softmax_block_kernel` agrees with `softmax_naive_kernel` under every schedule** exactly if its block is
one warp, or the row fits into the first warp, or in every row the sum of thread 0 equals the maximum, so that
it does not matter which of them a warp reads. -/
theorem agrees_iff (some : 0 < cols) (y : ℕ → EReal) :
    Agrees x rows cols (2 ^ exponent) y ↔
      2 ^ exponent ≤ warpSize ∨ cols ≤ warpSize ∨
        ∀ row < rows, firstPart x cols row (2 ^ exponent) = largest x cols row := by
  constructor
  · rintro ⟨_, agree⟩
    by_contra risky
    obtain ⟨threads, risky⟩ := not_or.mp risky
    obtain ⟨columns, unlucky⟩ := not_or.mp risky
    push Not at threads columns unlucky
    obtain ⟨row, bound, unlucky⟩ := unlucky
    obtain ⟨written, ends, wrong⟩ := exists_wrong some threads columns bound unlucky y
    obtain ⟨naive, naiveEnds⟩ : ∃ naive, NaiveEnds (fun index => (x index : EReal)) rows cols
        (2 ^ exponent) y naive :=
      exists_ends _ _ y fun _ => anyOwn
    exact wrong ((agree written naive ends naiveEnds).2 row bound 0 some)
  · intro safe
    refine ⟨exists_ends _ _ y fun _ => anyOwn, fun written naive ends naiveEnds => ?_⟩
    obtain ⟨inside, outside⟩ := block_is_softmax some safe ends
    obtain ⟨inside', outside'⟩ := naive_is_softmax some naiveEnds
    refine ⟨?_, inside⟩
    ext index
    rcases Nat.lt_or_ge index (rows * cols) with bound | past
    · have row := Nat.div_lt_of_lt_mul (Nat.mul_comm rows cols ▸ bound)
      have column := Nat.mod_lt index some
      have address : index / cols * cols + index % cols = index := Nat.div_add_mod' index cols
      rw [← address, inside _ row _ column, inside' _ row _ column]
    · rw [outside index past, outside' index past]

/-- With one warp there is no race. -/
theorem one_warp_agrees : Agrees (fun _ => 1) 2 40 (2 ^ 5) (fun _ => 0) :=
  (agrees_iff (by decide) _).mpr (Or.inl (by decide))

/-- With two warps and a row of zeros, the second warp can subtract 1, the sum of thread 0, instead of 0. -/
theorem two_warps_disagree : ¬ Agrees (fun _ => 0) 1 64 (2 ^ 6) (fun _ => 0) := by
  rintro ⟨_, agree⟩
  have columns : (Finset.range 64).filter (2 ^ 6 ∣ ·) = {0} := by decide
  have part : firstPart (fun _ => 0) 64 0 (2 ^ 6) = 1 := by
    rw [firstPart, columns, Finset.sum_singleton, largest, ciSup_const, sub_zero, Real.exp_zero]
  obtain ⟨written, ends, wrong⟩ :=
    @exists_wrong (fun _ => 0) 1 64 6 (by decide) (by decide) (by decide) 0 (by decide)
    (by rw [part, largest, ciSup_const]; exact one_ne_zero) (fun _ => 0)
  obtain ⟨naive, naiveEnds⟩ : ∃ naive, NaiveEnds (fun _ => ((0 : ℝ) : EReal)) 1 64 (2 ^ 6) (fun _ => 0) naive :=
    exists_ends _ _ _ fun _ => anyOwn
  exact wrong ((agree written naive ends naiveEnds).2 0 (by decide) 0 (by decide))

end

end Insist.Kernels.Softmax
