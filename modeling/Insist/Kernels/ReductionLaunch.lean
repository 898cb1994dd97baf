/- **Launches of `reduce_sum_stage1_kernel`.** They are taken to run: that a device refuses blocks of more than
1024 threads is not part of the program.

* `OfBlock` — a statement that is framed by what the device keeps for its own block;
  `block_of_launch` — so a launch is, block by block, what its blocks do by themselves;
* `sum_loaded` — the threads of a block take the elements of their block, each once; `sum_blocks` — the blocks
  take all elements;
* `gridSize_eq`, `gridSize_lt` — the number of blocks is the one that the elements need, as long as it is an
  `int`;
* `Suits` — what the number of elements and the size of the blocks have to be;
* `correct_of_two_pow`, `two_pow_of_suits` — the powers of two from 64 on suit all numbers of elements that the
  blocks can take, and with an element for every thread no other size does;
* `correct_iff_suits` — **the partial sums are right for all inputs exactly if the launch suits**.
-/
import Insist.Kernels.ReductionBlock
import Insist.Lib.Frame
import Mathlib.Algebra.BigOperators.Intervals
import Mathlib.Order.Interval.Finset.Nat

namespace Insist.Kernels.Reduction

open Lib Lib.Simt Memory

variable {x : ℕ → ℝ} {n blockDim block : ℕ}

/-! ### Blocks that keep to themselves -/

/-- What the device keeps for a block. -/
def kept (block : ℕ) (device : Device ℝ) : ℝ × Finset ℕ := (device.sums block, device.accessed block)

/-- What the device keeps for the others. -/
def keptElsewhere (block : ℕ) (device : Device ℝ) (other : {other // other ≠ block}) :
    ℝ × Finset ℕ := kept other device

/-- The statement changes what the device keeps for its block only, and does not look at the rest. -/
abbrev OfBlock (block : ℕ) (statement : Memory ℝ → Memory ℝ) : Prop :=
  Framed (kept block) (keptElsewhere block) statement

namespace OfBlock

theorem access (places : Finset ℕ) : OfBlock block fun memory : Memory ℝ => memory.access block places where
  keeps memory := by
    funext other
    simp only [keptElsewhere, kept, sums_access, accessed_access, Function.update_of_ne other.2]
  depends first second seen own := by
    obtain ⟨sums, accessed⟩ := Prod.mk.inj seen
    refine ⟨?_, own⟩
    simp only [kept, sums_access, accessed_access, Function.update_self, sums, accessed]

theorem after_access {statement : Memory ℝ → Memory ℝ} (ofBlock : OfBlock block statement) (places : Finset ℕ) :
    OfBlock block fun memory => statement (memory.access block places) :=
  ofBlock.comp (access places)

/-- A value that a thread computes from what is its own. -/
theorem setSum (tid : ℕ) (value : Memory ℝ → ℝ)
    (own : ∀ memory device, value (device, memory.2) = value memory) :
    OfBlock block fun memory : Memory ℝ => memory.setSum tid (value memory) :=
  .of_own (fun _ => rfl) fun memory device => by
    rw [Memory.setSum, Memory.setSum, own memory device]

theorem setShared (place : ℕ) (value : Memory ℝ → ℝ)
    (own : ∀ memory device, value (device, memory.2) = value memory) :
    OfBlock block fun memory : Memory ℝ => memory.setShared place (value memory) :=
  .of_own (fun _ => rfl) fun memory device => by
    rw [Memory.setShared, Memory.setShared, own memory device]

theorem setPartial : OfBlock block fun memory : Memory ℝ => memory.setPartial block (memory.smem 0) where
  keeps memory := by
    funext other
    simp only [keptElsewhere, kept, Memory.setPartial, Function.update_of_ne other.2]
  depends first second seen own := by
    obtain ⟨_, accessed⟩ := Prod.mk.inj seen
    refine ⟨?_, own⟩
    simp only [kept, Memory.setPartial, Memory.smem, Function.update_self, own, accessed]

end OfBlock

/-- **All statements of the kernel keep to their block.** -/
theorem ofBlock_of_kernel {instruction : Instruction (Memory ℝ)}
    (inCode : InCode (reduceSumStage1Kernel x n blockDim block) instruction) (warp : ℕ) :
    OfBlock block (instruction warp) := by
  rcases cases_of_inCode inCode with ⟨operation, listed, rfl⟩ | ⟨stride, _, rfl⟩ | ⟨offset, _, rfl⟩ | rfl
  · refine .lanewise (fun tid _ => ?_) warp
    simp only [List.mem_cons, List.not_mem_nil, or_false] at listed
    rcases listed with rfl | rfl | rfl | rfl
    · exact OfBlock.setSum tid _ fun _ _ => rfl
    · exact .congr (fun _ => takeFirst_eq tid)
        (OfBlock.setSum tid (fun memory => memory.sum tid + _) fun _ _ => rfl)
    · exact .congr (fun _ => takeSecond_eq tid)
        (OfBlock.setSum tid (fun memory => memory.sum tid + _) fun _ _ => rfl)
    · exact (OfBlock.setShared tid (fun memory => memory.sum tid) fun _ _ => rfl).after_access {tid}
  · refine .lanewise (fun tid _ => ?_) warp
    by_cases active : tid < stride
    · have stored : OfBlock block fun memory : Memory ℝ =>
          memory.setShared tid (memory.smem tid + memory.smem (tid + stride)) :=
        OfBlock.setShared tid _ fun _ _ => rfl
      exact .congr (fun _ => reduce_of_lt active) (stored.after_access {tid, tid + stride})
    · exact .congr (fun _ => reduce_of_not_lt active) .skip
  · by_cases first : warp = 0
    · subst first
      have stored : OfBlock block fun memory : Memory ℝ => (memory.1, { memory.2 with
          smem := fun place =>
            if place < min warpSize blockDim then FloatOps.add (memory.smem place)
              (memory.smem (place + offset))
            else memory.smem place }) :=
        .of_own (fun _ => rfl) fun _ _ => rfl
      exact .congr (fun _ => if_pos rfl) (stored.after_access _)
    · exact .congr (fun _ => lastWarp_of_ne first) .skip
  · refine .lanewise (fun tid _ => ?_) warp
    by_cases first : tid = 0
    · subst first
      exact .congr (fun _ => writePartial_zero) (OfBlock.setPartial.after_access {0})
    · exact .congr (fun _ => writePartial_of_ne first) .skip

/-- **A launch is, block by block, what its blocks do by themselves.** -/
theorem block_of_launch {device device' : Device ℝ} (ends : LaunchEnds x n blockDim device device')
    (index : Fin (gridSize n blockDim).toNat) :
    ∃ own memory', Runs (warps blockDim) (reduceSumStage1Kernel x n blockDim index) (device, own) memory' ∧
      kept index memory'.1 = kept index device' := by
  have framed : FramedBlocks
      (fun index : Fin (gridSize n blockDim).toNat => reduceSumStage1Kernel x n blockDim index)
      (fun index => kept index) fun index => keptElsewhere index :=
    fun _ _ inCode warp => ofBlock_of_kernel inCode warp
  exact framed.block_of_ends (fun other different first second same =>
    congrFun same ⟨index, fun same => different (Fin.ext same.symm)⟩) ends

/-! ### The elements of the blocks -/

/-- Without an overflow, the first element of a thread. -/
theorem global_eq {tid : ℕ} (fits : 2 * blockDim * (block + 1) ≤ 2 ^ 64) (inside : tid < blockDim) :
    global blockDim block tid = 2 * blockDim * block + tid ∧
      (global blockDim block tid + blockDim) % 2 ^ 64 = 2 * blockDim * block + (blockDim + tid) := by
  have order : block * blockDim * 2 = 2 * blockDim * block := by ring
  rw [Nat.mul_succ] at fits
  have first : global blockDim block tid = 2 * blockDim * block + tid := by
    rw [global, order]
    exact Nat.mod_eq_of_lt (by omega)
  refine ⟨first, ?_⟩
  rw [first, Nat.mod_eq_of_lt (by omega)]
  omega

/-- The elements of a block. -/
def blockSum (x : ℕ → ℝ) (n blockDim block : ℕ) : ℝ :=
  ∑ i ∈ Finset.Ico (2 * blockDim * block) (min n (2 * blockDim * (block + 1))), x i

/-- The elements of a block, with those that are not there. -/
theorem blockSum_eq : blockSum x n blockDim block =
    ∑ i ∈ Finset.Ico (2 * blockDim * block) (2 * blockDim * (block + 1)), if i < n then x i else 0 := by
  rw [blockSum, min_comm, ← Finset.Ico_filter_lt, Finset.sum_filter]

/-- **The threads of a block take its elements, each once.** -/
theorem sum_loaded (fits : 2 * blockDim * (block + 1) ≤ 2 ^ 64) :
    ∑ tid ∈ Finset.range blockDim, loaded x n blockDim block tid = blockSum x n blockDim block := by
  have width : 2 * blockDim * (block + 1) - 2 * blockDim * block = blockDim + blockDim := by
    rw [Nat.mul_succ, Nat.add_sub_cancel_left, two_mul]
  rw [blockSum_eq, Finset.sum_Ico_eq_sum_range, width, Finset.sum_range_add, ← Finset.sum_add_distrib]
  refine Finset.sum_congr rfl fun tid inside => ?_
  obtain ⟨first, second⟩ := global_eq fits (Finset.mem_range.mp inside)
  rw [loaded, second, first]

/-- A thread behind the last element has none. -/
theorem loaded_eq_zero (fits : 2 * blockDim * (block + 1) ≤ 2 ^ 64) {tid : ℕ} (inside : tid < blockDim)
    (beyond : n ≤ tid) : loaded x n blockDim block tid = 0 := by
  obtain ⟨first, second⟩ := global_eq fits inside
  rw [loaded, second, first, if_neg (by omega), if_neg (by omega), add_zero]

/-- **The blocks take the elements that they have room for.** -/
theorem sum_blocks (blocks : ℕ) :
    ∑ block ∈ Finset.range blocks, blockSum x n blockDim block =
      ∑ i ∈ Finset.range (2 * blockDim * blocks), if i < n then x i else 0 := by
  induction blocks with
  | zero => simp
  | succ blocks ih =>
      rw [Finset.sum_range_succ, ih, blockSum_eq]
      exact Finset.sum_range_add_sum_Ico _ (Nat.mul_le_mul_left _ (Nat.le_succ blocks))

/-! ### The number of blocks -/

theorem gridSize_lt (n blockSize : ℕ) : (gridSize n blockSize).toNat < 2 ^ 31 := by
  have bound : gridSize n blockSize < ((2 ^ 32 : ℕ) + 1) / 2 := Int.bmod_lt (by decide)
  omega

/-- **As long as it is an `int`, the number of blocks is the one that the elements need.** -/
theorem gridSize_eq {blockSize : ℕ} (some : 0 < blockSize) (small : blockSize < 2 ^ 31)
    (few : n ≤ 2 * blockSize * (2 ^ 31 - 1)) :
    (gridSize n blockSize).toNat = (n + 2 * blockSize - 1) / (2 * blockSize) := by
  have quotient : (n + 2 * blockSize - 1) / (2 * blockSize) < 2 ^ 31 := by
    refine Nat.div_lt_of_lt_mul ?_
    omega
  unfold gridSize
  rw [Nat.mul_comm blockSize 2, Nat.mod_eq_of_lt (by omega)]
  generalize (n + 2 * blockSize - 1) / (2 * blockSize) = blocks at quotient ⊢
  rw [Int.bmod_eq_of_le (by omega) (by omega), Int.toNat_natCast]

/-- So the blocks have room for all elements. -/
theorem room_of_few {blockSize : ℕ} (some : 0 < blockSize) (small : blockSize < 2 ^ 31)
    (few : n ≤ 2 * blockSize * (2 ^ 31 - 1)) : n ≤ 2 * blockSize * (gridSize n blockSize).toNat := by
  rw [gridSize_eq some small few, Nat.mul_comm]
  exact le_groups_mul (by omega) n

/-! ### Launches that are right -/

/-- The blocks have accessed no shared memory yet. -/
def Fresh (device : Device ℝ) : Prop := ∀ block, device.accessed block = ∅

/-- The blocks have accessed their own shared arrays only, and written the sums of their elements, which make up
the sum of all. -/
structure Reduces (x : ℕ → ℝ) (n blockSize : ℕ) (device : Device ℝ) : Prop where
  inside : ∀ block < (gridSize n blockSize).toNat, ∀ place ∈ device.accessed block, place < blockSize
  sums : ∀ block < (gridSize n blockSize).toNat, device.sums block = blockSum x n blockSize block
  total : ∑ block ∈ Finset.range (gridSize n blockSize).toNat, device.sums block = ∑ i ∈ Finset.range n, x i

/-- Whatever the input is, and however the warps are scheduled, the launch reduces it. -/
def Correct (n blockSize : ℕ) : Prop :=
  ∀ (x : ℕ → ℝ) (device device' : Device ℝ), Fresh device → LaunchEnds x n blockSize device device' →
    Reduces x n blockSize device'

/-- There is nothing to add up; or the blocks are so large that the last stage stays within their shared arrays,
the halving of their size loses none of the elements, and the number of blocks is an `int`. -/
def Suits (n blockSize : ℕ) : Prop :=
  n = 0 ∨ 64 ≤ blockSize ∧ Lossless 32 n blockSize ∧ n ≤ 2 * blockSize * (2 ^ 31 - 1)

/-- A block of a launch whose size is lossless writes the sum of its elements. -/
theorem sums_of_lossless (wide : 64 ≤ blockDim) (lossless : Lossless 32 n blockDim)
    (fits : 2 * blockDim * (block + 1) ≤ 2 ^ 64) {memory memory' : Memory ℝ}
    (ran : Runs (warps blockDim) (reduceSumStage1Kernel x n blockDim block) memory memory') :
    memory'.1.sums block = blockSum x n blockDim block := by
  let values (tid : ℕ) : ℝ := if tid < blockDim then loaded x n blockDim block tid else 0
  have same (tid : ℕ) (inside : tid < blockDim) : loaded x n blockDim block tid = values tid :=
    (if_pos inside).symm
  have zero (tid : ℕ) (beyond : n ≤ tid) : values tid = 0 := by
    by_cases inside : tid < blockDim
    · rw [← same tid inside, loaded_eq_zero fits inside beyond]
    · exact if_neg inside
  calc memory'.1.sums block = ∑ place ∈ Finset.range 64, halvings 32 blockDim values place :=
    sums_of_kernel wide same ran
    _ = ∑ tid ∈ Finset.range blockDim, values tid := sum_halvings lossless zero
    _ = ∑ tid ∈ Finset.range blockDim, loaded x n blockDim block tid :=
        Finset.sum_congr rfl fun tid inside => (same tid (Finset.mem_range.mp inside)).symm
    _ = blockSum x n blockDim block := sum_loaded fits

/-- **A launch that suits is right.** -/
theorem correct_of_suits {blockSize : ℕ} (some : 0 < blockSize) (small : blockSize < 2 ^ 31)
    (suits : Suits n blockSize) : Correct n blockSize := by
  intro x device device' fresh ends
  rcases suits with rfl | ⟨wide, lossless, few⟩
  · have none : (gridSize 0 blockSize).toNat = 0 := by
      rw [gridSize_eq some small (Nat.zero_le _), Nat.zero_add]
      exact Nat.div_eq_of_lt (by omega)
    constructor
    · intro block inside
      omega
    · intro block inside
      omega
    · rw [none, Finset.sum_range_zero, Finset.sum_range_zero]
  have sums (block : ℕ) (inside : block < (gridSize n blockSize).toNat) :
      device'.sums block = blockSum x n blockSize block := by
    obtain ⟨own, memory', ran, same⟩ := block_of_launch ends ⟨block, inside⟩
    have bound := gridSize_lt n blockSize
    have fits : 2 * blockSize * (block + 1) ≤ 2 ^ 32 * 2 ^ 31 := Nat.mul_le_mul (by omega) (by omega)
    rw [← (Prod.mk.inj same).1]
    exact sums_of_lossless wide lossless (fits.trans (by decide)) ran
  constructor
  · have initially : Inside blockSize device := fun block place member => by
      rw [fresh block] at member
      cases member
    have kept := ends.keeps (Inside blockSize)
      (fun _ _ inCode warp _ _ before => Inside.kernel wide inCode warp before) initially
    exact fun block _ => kept block
  · exact sums
  · have room := room_of_few some small few
    rw [Finset.sum_congr rfl fun block inside => sums block (Finset.mem_range.mp inside), sum_blocks,
      sum_range_of_zero (fun i beyond => if_neg (Nat.not_lt.mpr beyond)) room]
    exact Finset.sum_congr rfl fun i inside => if_pos (Finset.mem_range.mp inside)

/-- **Every power of two from 64 on suits**, as far as a device runs blocks of this size. -/
theorem correct_of_two_pow (exponent : ℕ) (small : 64 * 2 ^ exponent < 2 ^ 31)
    (few : n ≤ 2 * (64 * 2 ^ exponent) * (2 ^ 31 - 1)) : Correct n (64 * 2 ^ exponent) :=
  correct_of_suits (Nat.mul_pos (by decide) (Nat.two_pow_pos exponent)) small
    (Or.inr ⟨Nat.le_mul_of_pos_right 64 (Nat.two_pow_pos exponent),
      lossless_of_two_pow (by decide) exponent, few⟩)

/-- **With an element for every thread of a block, no other size suits.** -/
theorem two_pow_of_suits {blockSize : ℕ} (some : 0 < blockSize) (full : blockSize ≤ n)
    (suits : Suits n blockSize) :
    ∃ exponent, blockSize = 64 * 2 ^ exponent := by
  rcases suits with none | ⟨wide, lossless, _⟩
  · omega
  · exact two_pow_of_lossless wide full lossless

/-! ### Launches that are not -/

/-- Every launch can be finished. -/
theorem exists_launchEnds (x : ℕ → ℝ) (n blockSize : ℕ) :
    ∃ device device' : Device ℝ, Fresh device ∧ LaunchEnds x n blockSize device device' := by
  obtain ⟨device', ends⟩ := exists_ends (warps blockSize)
    (fun block : Fin (gridSize n blockSize).toNat => reduceSumStage1Kernel x n blockSize block)
    (⟨fun _ => 0, fun _ => ∅⟩ : Device ℝ) fun _ => ⟨fun _ => 0, fun _ => 0⟩
  exact ⟨_, device', fun _ => rfl, ends⟩

/-- More elements than an `int` of blocks can take are not all added. -/
theorem not_correct_of_many {blockSize : ℕ} (many : 2 * blockSize * (2 ^ 31 - 1) < n) :
    ¬ Correct n blockSize := by
  intro correct
  have bound := gridSize_lt n blockSize
  have left : 2 * blockSize * (gridSize n blockSize).toNat < n :=
    (Nat.mul_le_mul_left _ (by omega)).trans_lt many
  obtain ⟨device, device', fresh, ends⟩ :=
    exists_launchEnds (Pi.single (2 * blockSize * (gridSize n blockSize).toNat) 1) n blockSize
  have reduces := correct _ device device' fresh ends
  have total := reduces.total
  rw [sum_single, if_pos left, Finset.sum_congr rfl fun block inside =>
    reduces.sums block (Finset.mem_range.mp inside),
    sum_blocks] at total
  refine zero_ne_one (α := ℝ) (Eq.trans (Finset.sum_eq_zero fun i inside => ?_).symm total)
  rw [Pi.single_eq_of_ne (Finset.mem_range.mp inside).ne, ite_self]

/-- A block with fewer than 64 threads leaves its shared array. -/
theorem not_correct_of_narrow {blockSize : ℕ} (some : 0 < blockSize) (narrow : blockSize < 64)
    (blocks : 0 < (gridSize n blockSize).toNat) : ¬ Correct n blockSize := by
  intro correct
  obtain ⟨device, device', fresh, ends⟩ := exists_launchEnds 0 n blockSize
  obtain ⟨own, memory', ran, same⟩ := block_of_launch ends ⟨0, blocks⟩
  obtain ⟨place, member, beyond⟩ := accesses_beyond some narrow ran
  have accessed : place ∈ device'.accessed 0 := by
    rw [← (Prod.mk.inj same).2]
    exact member
  exact absurd ((correct 0 device device' fresh ends).inside 0 blocks place accessed) (Nat.not_lt.mpr beyond)

/-- A block whose size is not lossless adds up something else. -/
theorem not_correct_of_lossy {blockSize : ℕ} (wide : 64 ≤ blockSize) (small : blockSize < 2 ^ 31)
    (lossy : ¬ Lossless 32 n blockSize) (blocks : 0 < (gridSize n blockSize).toNat) :
    ¬ Correct n blockSize := by
  intro correct
  obtain ⟨place, bound, wrong⟩ := exists_lossy wide lossy (one_ne_zero (α := ℝ)) (by norm_num)
  obtain ⟨device, device', fresh, ends⟩ := exists_launchEnds (Pi.single place 1) n blockSize
  obtain ⟨own, memory', ran, same⟩ := block_of_launch ends ⟨0, blocks⟩
  have fits : 2 * blockSize * (0 + 1) ≤ 2 ^ 64 := by omega
  have alone (tid : ℕ) (inside : tid < blockSize) :
      loaded (Pi.single place 1) n blockSize 0 tid = (Pi.single place 1 : ℕ → ℝ) tid := by
    obtain ⟨first, second⟩ := global_eq fits inside
    rw [loaded, second, first, Nat.mul_zero, Nat.zero_add, Nat.zero_add,
      Pi.single_eq_of_ne (show blockSize + tid ≠ place by omega), ite_self, add_zero]
    by_cases here : tid = place
    · rw [if_pos (by omega)]
    · rw [Pi.single_eq_of_ne here, ite_self]
  have written := (correct _ device device' fresh ends).sums 0 blocks
  rw [← (Prod.mk.inj same).1] at written
  refine wrong ((sums_of_kernel wide alone ran).symm.trans (written.trans ?_))
  rw [blockSum_eq, Nat.mul_zero, Finset.sum_eq_single_of_mem place
    (Finset.mem_Ico.mpr ⟨Nat.zero_le _, by omega⟩)]
  · rw [if_pos (by omega), Pi.single_eq_same]
  · intro i _ different
    rw [Pi.single_eq_of_ne different, ite_self]

theorem correct_iff {blockSize : ℕ} (some : 0 < blockSize) (small : blockSize < 2 ^ 31) :
    Correct n blockSize ↔ Suits n blockSize := by
  refine ⟨fun correct => ?_, correct_of_suits some small⟩
  by_cases none : n = 0
  · exact Or.inl none
  have few : n ≤ 2 * blockSize * (2 ^ 31 - 1) := Nat.le_of_not_lt fun many => not_correct_of_many many correct
  have room := room_of_few some small few
  have blocks : 0 < (gridSize n blockSize).toNat := by
    by_contra zero
    rw [Nat.eq_zero_of_not_pos zero] at room
    omega
  have wide : 64 ≤ blockSize := Nat.le_of_not_lt fun narrow => not_correct_of_narrow some narrow blocks correct
  have lossless : Lossless 32 n blockSize := by
    by_contra lossy
    exact not_correct_of_lossy wide small lossy blocks correct
  exact Or.inr ⟨wide, lossless, few⟩

/-- What `--block` accepts is an `int`. -/
theorem parseI32_lt {text : List Char} {blockSize : ℕ} (accepted : parseI32 text = some (blockSize : ℤ)) :
    blockSize < 2 ^ 31 := by
  unfold parseI32 at accepted
  simp only at accepted
  split_ifs at accepted with refused
  have bound : Int.bmod (strtol text).1 (2 ^ 32) < ((2 ^ 32 : ℕ) + 1) / 2 := Int.bmod_lt (by decide)
  have same := Option.some.inj accepted
  omega

/-- **For every number of elements and every size of the blocks that `--block` accepts, the partial sums of all
inputs are right exactly if the launch suits.** -/
theorem correct_iff_suits {text : List Char} {blockSize : ℕ} (accepted : parseI32 text = some (blockSize : ℤ))
    (positive : 0 < blockSize) (n : UInt64) : Correct n.toNat blockSize ↔ Suits n.toNat blockSize :=
  correct_iff positive (parseI32_lt accepted)

/-- The default of the program: 268435456 elements, in blocks of 256 threads. -/
theorem default_correct : Correct 268435456 256 := by
  have accepted : parseI32 ['2', '5', '6'] = some ((256 : ℕ) : ℤ) := by decide
  refine (correct_iff_suits accepted (by decide) 268435456).mpr (Or.inr ⟨by decide, ?_, by decide⟩)
  exact lossless_of_two_pow (by decide) 2

/-- A block of 32 threads reads behind its shared array, and a full block of 96 threads adds 16 elements
twice. -/
theorem uneven_incorrect : (parseI32 ['3', '2'] = some 32 ∧ ¬ Correct 1 32) ∧
    (parseI32 ['9', '6'] = some 96 ∧ ¬ Correct 96 96) := by
  have lossy : ¬ Lossless 32 96 96 := by
    rw [lossless_of_lt (by decide), lossless_of_not_lt (by decide)]
    omega
  refine ⟨⟨by decide, not_correct_of_narrow (by decide) (by decide) ?_⟩, by decide,
    not_correct_of_lossy (by decide) (by decide) lossy ?_⟩
  · decide
  · decide

end Insist.Kernels.Reduction
