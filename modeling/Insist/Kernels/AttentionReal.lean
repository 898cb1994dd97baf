/-
**The tiled kernel computes attention**, with exact real arithmetic.

* `dotOf_eq` — the turns of the lanes and the tree of shuffles add up the products of all dimensions;
* `attended_eq` — the online softmax ends in the quotient of the sums over all keys of the row, whatever `m`
  starts with;
* `tiled_computes_attention` — so `solve` writes softmax attention, under every schedule.
-/
import Insist.Kernels.AttentionLaunch
import Insist.Lib.OnlineSoftmax
import Insist.Lib.Strided

namespace Insist.Kernels.Attention

open Lib FloatOps FloatScale

/-! ### The dot product -/

section Dot

variable {D : ℕ} (q k : ℕ → ℝ)

/-- A lane adds up its own dimensions. -/
theorem partialDot_eq {lane : ℕ} (inside : lane < warpSize) (turns : ℕ) :
    partialDot D q k lane turns = ∑ d ∈ stridedUpTo D warpSize lane turns, q d * k d := by
  induction turns with
  | zero => rw [stridedUpTo_zero, Finset.sum_empty]; rfl
  | succ turns ih =>
      rw [partialDot, ih]
      exact (fold_stridedUpTo_succ (· + ·) (0 : ℝ) (fun d => q d * k d) inside turns).symm

/-- After the shuffle by `offset`, the first lanes have the sums of so many lanes. -/
theorem shuffleAdd_eq (offset : ℕ) (fits : 2 * offset ≤ warpSize) {values : ℕ → ℝ}
    (before : ∀ lane < 2 * offset, values lane = ∑ d ∈ strided D (2 * offset) lane, q d * k d) :
    ∀ lane < offset, shuffleAdd values offset lane = ∑ d ∈ strided D offset lane, q d * k d := by
  intro lane inside
  have partner : lane + offset < warpSize := by omega
  rw [shuffleAdd, if_pos partner, before lane (by omega), before (lane + offset) (by omega)]
  exact fold_strided_half (· + ·) (0 : ℝ) (fun d => q d * k d) (add_zero 0) inside

/-- **The dot product.** -/
theorem dotOf_eq (small : D ≤ maxD) : dotOf D q k = ∑ d ∈ Finset.range D, q d * k d := by
  have lanes : ∀ lane < 2 * 16, partialDot D q k lane maxDPerLane =
      ∑ d ∈ strided D (2 * 16) lane, q d * k d := by
    intro lane inside
    rw [partialDot_eq q k inside, stridedUpTo_all small]
    rfl
  have sixteen := shuffleAdd_eq q k 16 (by decide) lanes
  have eight := shuffleAdd_eq q k 8 (by decide) sixteen
  have four := shuffleAdd_eq q k 4 (by decide) eight
  have two := shuffleAdd_eq q k 2 (by decide) four
  have one := shuffleAdd_eq q k 1 (by decide) two
  refine (one 0 Nat.one_pos).trans ?_
  exact fold_strided_one (· + ·) (0 : ℝ) fun d => q d * k d

end Dot

/-! ### Softmax attention -/

section Attention

variable (Q K V : ℕ → ℝ) (H S D b h i : ℕ)

/-- `s_ij`, the scaled product of a query row and a key row. -/
noncomputable def score (j : ℕ) : ℝ :=
  (∑ d ∈ Finset.range D, Q (addressOf H S D b h i d) * K (addressOf H S D b h j d)) / √D

/-- The keys that a row sees. -/
def visible (S : ℕ) (causal : ℤ) (i : ℕ) : Finset ℕ := {j ∈ Finset.range S | causal = 0 ∨ j ≤ i}

/-- The denominator of the softmax. -/
noncomputable def denominator (causal : ℤ) : ℝ := ∑ j ∈ visible S causal i, Real.exp (score Q K H S D b h i j)

/-- An element of softmax attention. -/
noncomputable def attention (causal : ℤ) (d : ℕ) : ℝ :=
  (∑ j ∈ visible S causal i, Real.exp (score Q K H S D b h i j) * V (addressOf H S D b h j d)) /
    denominator Q K H S D b h i causal

theorem scoreOf_eq (small : D ≤ maxD) (j : ℕ) :
    scoreOf D (rowOf H S D b h Q i) (rowOf H S D b h K j) = score Q K H S D b h i j := by
  show dotOf D _ _ * (1 / √((D : ℤ) : ℝ)) = _
  rw [dotOf_eq _ _ small, Int.cast_natCast, mul_one_div]
  rfl

variable {S i}

theorem visible_eq (row : i < S) (causal : ℤ) : visible S causal i = Finset.range (kvEnd S causal i) := by
  ext j
  rw [visible, Finset.mem_filter, Finset.mem_range, Finset.mem_range]
  by_cases all : causal = 0
  · rw [kvEnd, if_neg (not_not.mpr all)]
    simp only [all, true_or, and_true]
  · rw [kvEnd, if_pos all]
    simp only [all, false_or]
    omega

/-- **The denominator is never zero**, as every row sees a key. -/
theorem denominator_pos (row : i < S) (causal : ℤ) : 0 < denominator Q K H S D b h i causal := by
  refine Finset.sum_pos (fun j _ => Real.exp_pos _) ?_
  rw [visible_eq row, Finset.nonempty_range_iff]
  exact (kvEnd_pos causal row).ne'

/-- **The online softmax ends in attention.** -/
theorem attended_eq (small : D ≤ maxD) (row : i < S) (causal : ℤ) (d : ℕ) :
    attended Q K V H S D b h i (kvEnd S causal i) d = attention Q K V H S D b h i causal d := by
  rw [attention, denominator, visible_eq row]
  simp only [← scoreOf_eq Q K H S D b h i small]
  let online (keys : ℕ) : Online ℝ := rowOnline Q K V H S D b h i keys d
  refine online_quotient _ (fun j => V (addressOf H S D b h j d)) (fun keys => (online keys).m)
    (fun keys => (online keys).acc) (fun keys => (online keys).l) rfl rfl (fun keys => ?_) (fun keys => ?_) _
  · simp only [online, rowOnline_succ Q K V H S D b h i keys d]
    rfl
  · simp only [online, rowOnline_succ Q K V H S D b h i keys d]
    rfl

end Attention

/-- **The tiled `solve` computes attention**: with exact real arithmetic it always ends, and however its blocks
and their warps are scheduled, it writes every element of `O` once, with softmax attention, and nothing else. -/
theorem tiled_computes_attention {B H S D : ℕ} (batches : 0 < B) (heads : 0 < H) (rows : 0 < S)
    (dimensions : 0 < D)
    (small : D ≤ maxD) (Q K V : ℕ → ℝ) (causal : ℤ) (output : Output ℝ) :
    (∃ output', TiledSolve Q K V B H S D causal output output') ∧
      ∀ output', TiledSolve Q K V B H S D causal output output' →
        (∀ b < B, ∀ h < H, ∀ i < S, ∀ d < D,
          output'.writes (addressOf H S D b h i d) = output.writes (addressOf H S D b h i d) + 1 ∧
            0 < denominator Q K H S D b h i causal ∧
            output'.value (addressOf H S D b h i d) = attention Q K V H S D b h i causal d) ∧
        ∀ address, (∀ b < B, ∀ h < H, ∀ i < S, ∀ d < D, address ≠ addressOf H S D b h i d) →
          output'.writes address = output.writes address ∧ output'.value address = output.value address := by
  refine ⟨exists_tiledSolve batches heads rows dimensions small Q K V causal output, fun output' solved => ?_⟩
  have attends := solved.attends batches heads rows dimensions small
  refine ⟨fun b batch h head i row d dimension => ⟨?_, denominator_pos Q K H D b h row causal, ?_⟩,
    fun address outside => ?_⟩
  · exact congrArg Prod.snd (attends.inside b batch h head i row d dimension)
  · rw [attends.value batch head row dimension, attended_eq Q K V H D b h small row]
  · have same := attends.outside address outside
    exact ⟨congrArg Prod.snd same, congrArg Prod.fst same⟩

/-- The last element of nine rows of 33 dimensions, with the causal mask. -/
theorem last_element_attended :
    ∃ output : Output ℝ, TiledSolve (fun address => (address : ℝ)) (fun _ => 1) (fun address => (address : ℝ))
        (1 : ℕ) (1 : ℕ) (9 : ℕ) (33 : ℕ) 1 .blank output ∧
      output.writes (addressOf 1 9 33 0 0 8 32) = 1 ∧
      output.value (addressOf 1 9 33 0 0 8 32) =
        attention (fun address => (address : ℝ)) (fun _ => 1)
            (fun address => (address : ℝ)) 1 9 33 0 0 8 1 32 := by
  obtain ⟨⟨output, solved⟩, all⟩ :=
    tiled_computes_attention (B := 1) (H := 1) (S := 9) (D := 33) (by decide) (by decide)
    (by decide) (by decide) (by decide) (fun address => (address : ℝ)) (fun _ => 1)
    (fun address => (address : ℝ)) 1 .blank
  obtain ⟨written, _, value⟩ := (all output solved).1 0 (by decide) 0 (by decide) 8 (by decide) 32 (by decide)
  exact ⟨output, solved, written, value⟩

end Insist.Kernels.Attention
