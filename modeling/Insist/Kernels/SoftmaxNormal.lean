/- **What `softmax_block_kernel` writes under every schedule**, with floats read as exact reals and indices as
unbounded.

A warp that reads `smem[0]` too late subtracts the sum of thread 0 in place of the maximum. The row that comes
out is then not the softmax, but it is still a row of shares: `shifted`, with a shift that every thread keeps
for all of its columns.

* `shifted_share` — the quotient of a row is the share of its shifted exponentials;
* `shifted_le`, `softmax_le` — how far a row is from the softmax whose shifts differ by no more than a distance;
* `row_is_shifted` — every row that a launch writes is of this kind;
* **`block_is_normalised`** — so in every run every row is positive, adds up to 1, has the columns of each
  thread in the order of the input, and is off by no more than the two values that a thread can have read.
-/
import Insist.Kernels.SoftmaxRace
import Insist.Lib.Share

namespace Insist.Kernels.Softmax

open Lib Lib.Simt FloatOps FloatInf Memory

variable {x : ℕ → ℝ} {rows cols row exponent : ℕ} {y written : ℕ → EReal}

/-! ### Rows of shares -/

/-- The exponentials of a row, each after its own shift. -/
noncomputable def shiftedExp (x : ℕ → ℝ) (cols row : ℕ) (shift : ℕ → ℝ) (c : ℕ) : ℝ :=
  Real.exp (x (row * cols + c) - shift c)

theorem shifted_share (shift : ℕ → ℝ) (c : ℕ) :
    shifted x cols row shift c = share (Finset.range cols) (shiftedExp x cols row shift) c := rfl

theorem softmax_share (c : ℕ) :
    softmax x cols row c = share (Finset.range cols) (fun c => Real.exp (x (row * cols + c))) c := rfl

/-- The shifts of two columns differ by no more than this. -/
def ShiftsWithin (cols : ℕ) (shift : ℕ → ℝ) (distance : ℝ) : Prop :=
  ∀ c < cols, ∀ c' < cols, shift c - shift c' ≤ distance

section Distance

variable {shift : ℕ → ℝ} {distance : ℝ} (within : ShiftsWithin cols shift distance)

include within

/-- **The row is not much more than the softmax.** -/
theorem shifted_le {c : ℕ} (bound : c < cols) :
    shifted x cols row shift c ≤ Real.exp distance * softmax x cols row c := by
  rw [shifted_share, softmax_share]
  refine share_le_mul_share (fun c _ => Real.exp_pos _) (fun c _ => Real.exp_pos _)
    (fun c member c' member' => ?_)
    (Finset.mem_range.mpr bound)
  have far := within c' (Finset.mem_range.mp member') c (Finset.mem_range.mp member)
  rw [← Real.exp_add, ← Real.exp_add, ← Real.exp_add, Real.exp_le_exp]
  linarith

/-- **Nor much less.** -/
theorem softmax_le {c : ℕ} (bound : c < cols) :
    softmax x cols row c ≤ Real.exp distance * shifted x cols row shift c := by
  rw [shifted_share, softmax_share]
  refine share_le_mul_share (fun c _ => Real.exp_pos _) (fun c _ => Real.exp_pos _)
    (fun c member c' member' => ?_)
    (Finset.mem_range.mpr bound)
  have far := within c (Finset.mem_range.mp member) c' (Finset.mem_range.mp member')
  rw [← Real.exp_add, ← Real.exp_add, ← Real.exp_add, Real.exp_le_exp]
  linarith

end Distance

/-! ### The rows of a launch -/

/-- What a thread can have subtracted. -/
noncomputable def readShift (x : ℕ → ℝ) (cols row threads : ℕ) (late : ℕ → Prop) [DecidablePred late]
    (c : ℕ) : ℝ :=
  if late (c % threads) then firstPart x cols row threads else largest x cols row

/-- Two threads subtract values no further apart than the two that they can have read. -/
theorem readShift_within (x : ℕ → ℝ) (cols row threads : ℕ) (late : ℕ → Prop) [DecidablePred late] :
    ShiftsWithin cols (readShift x cols row threads late) |firstPart x cols row threads -
    largest x cols row| := by
  intro c _ c' _
  have nonneg := abs_nonneg (firstPart x cols row threads - largest x cols row)
  have above := le_abs_self (firstPart x cols row threads - largest x cols row)
  have below := neg_abs_le (firstPart x cols row threads - largest x cols row)
  unfold readShift
  split_ifs <;> linarith

/-- **Every row that a launch writes is a quotient by threads, each of which has read the maximum, or, outside
the first warp, the sum of thread 0.** -/
theorem row_is_shifted (some : 0 < cols)
    (ends : BlockEnds (fun index => (x index : EReal)) rows cols (2 ^ exponent) y written)
    (bound : row < rows) :
    ∃ late : ℕ → Prop, ∃ _ : DecidablePred late, (∀ tid, late tid → warpSize ≤ tid) ∧
      ∀ c < cols, written (row * cols + c) =
        (shifted x cols row (readShift x cols row (2 ^ exponent) late) c : ℝ) := by
  classical
  obtain ⟨inside, _⟩ := row_of_launch (fun row part inCode operation member tid =>
    inRow_of_block inCode member tid) ends
  obtain ⟨own, memory', ran, same⟩ := inside ⟨row, bound⟩
  obtain ⟨maxVal, two, quotients⟩ := kernel_runs ran
  let late (tid : ℕ) : Prop := warpSize ≤ tid ∧ maxVal tid = firstPart x cols row (2 ^ exponent)
  refine ⟨late, inferInstance, fun tid high => high.1, fun c column => ?_⟩
  have shifts : ∀ c < cols, maxVal (c % 2 ^ exponent) = readShift x cols row (2 ^ exponent) late c := by
    intro c _
    unfold readShift
    split_ifs with read
    · exact read.2
    · rcases two _ (Nat.mod_lt c (Nat.two_pow_pos exponent)) with top | ⟨high, low⟩
      · rw [top, rowMax_coe x some]
      · exact absurd ⟨high, low.trans (firstSum_coe x some _)⟩ read
  rw [same c column, quotients c column, quotient_coe x shifts column]

/-- What a row is like after any run. -/
structure Normalised (x : ℕ → ℝ) (cols row threads : ℕ) (p : ℕ → ℝ) : Prop where
  positive : ∀ c < cols, 0 < p c
  total : ∑ c ∈ Finset.range cols, p c = 1
  ordered : ∀ c < cols, ∀ c' < cols, c % threads = c' % threads →
    (p c ≤ p c' ↔ x (row * cols + c) ≤ x (row * cols + c'))
  above : ∀ c < cols, p c ≤ Real.exp |firstPart x cols row threads - largest x cols row| * softmax x cols row c
  below : ∀ c < cols, softmax x cols row c ≤ Real.exp |firstPart x cols row threads - largest x cols row| * p c

/-- A row whose threads have each subtracted one of the two values. -/
theorem normalised_of_readShift (some : 0 < cols) (threads : ℕ) (late : ℕ → Prop) [DecidablePred late] :
    Normalised x cols row threads (shifted x cols row (readShift x cols row threads late)) := by
  have nonempty : (Finset.range cols).Nonempty := Finset.nonempty_range_iff.mpr some.ne'
  have weights : ∀ c ∈ Finset.range cols, 0 < shiftedExp x cols row (readShift x cols row threads late) c :=
    fun c _ => Real.exp_pos _
  have within := readShift_within x cols row threads late
  refine ⟨fun c bound => ?_, ?_, fun c _ c' _ thread => ?_, fun c bound => shifted_le within bound,
    fun c bound => softmax_le within bound⟩
  · rw [shifted_share]
    exact share_pos weights (Finset.mem_range.mpr bound)
  · simp only [shifted_share]
    exact sum_share weights nonempty
  · have shift : readShift x cols row threads late c = readShift x cols row threads late c' := by
      rw [readShift, readShift, thread]
    rw [shifted_share, shifted_share, share_le_iff weights nonempty, shiftedExp, shiftedExp, shift,
      Real.exp_le_exp,
      sub_le_sub_iff_right]

/-- A row that a launch has written. -/
theorem exists_normalised (some : 0 < cols)
    (ends : BlockEnds (fun index => (x index : EReal)) rows cols (2 ^ exponent) y written)
    (bound : row < rows) :
    ∃ p : ℕ → ℝ, Normalised x cols row (2 ^ exponent) p ∧ ∀ c < cols, written
    (row * cols + c) = (p c : EReal) := by
  obtain ⟨late, decidable, _, quotients⟩ := row_is_shifted some ends bound
  exact ⟨_, normalised_of_readShift some (2 ^ exponent) late, quotients⟩

/-- A launch writes nothing else. -/
theorem kept_of_blockEnds
    (ends : BlockEnds (fun index => (x index : EReal)) rows cols (2 ^ exponent) y written) {index : ℕ}
    (beyond : rows * cols ≤ index) : written index = y index :=
  (row_of_launch (fun _ _ inCode _ member tid => inRow_of_block inCode member tid) ends).2 index beyond

/-- **`softmax_block_kernel` normalises every row, whoever wins the race**, with exact and unbounded arithmetic:
whatever the order of its warps, every row that it writes is positive and adds up to 1, has the columns that one
thread serves in the order of the input, and is off from the softmax by no more than a factor, the exponential
of the distance between the two values that a thread can have read; and it writes nothing else. -/
theorem block_is_normalised (some : 0 < cols)
    (ends : BlockEnds (fun index => (x index : EReal)) rows cols (2 ^ exponent) y written) :
    (∀ row < rows, ∃ p : ℕ → ℝ, Normalised x cols row (2 ^ exponent) p ∧
      ∀ c < cols, written (row * cols + c) = (p c : EReal)) ∧
    ∀ index, rows * cols ≤ index → written index = y index :=
  ⟨fun _ bound => exists_normalised some ends bound, fun _ beyond => kept_of_blockEnds ends beyond⟩

/-- Two warps and a row of zeros, where the race matters. -/
theorem two_warps_normalised :
    ∃ written, BlockEnds (fun _ => ((0 : ℝ) : EReal)) 1 64 (2 ^ 6) (fun _ => 0) written ∧
      ∃ p : ℕ → ℝ, Normalised (fun _ => 0) 64 0 (2 ^ 6) p ∧ ∀ c < 64, written (0 * 64 + c) = (p c : EReal) := by
  obtain ⟨written, ends⟩ : ∃ written, BlockEnds (fun _ => ((0 : ℝ) : EReal)) 1 64 (2 ^ 6)
      (fun _ => 0) written :=
    exists_ends _ _ _ fun _ => anyOwn
  exact ⟨written, ends, (block_is_normalised (x := fun _ => 0) (by decide) ends).1 0 (by decide)⟩

end Insist.Kernels.Softmax
