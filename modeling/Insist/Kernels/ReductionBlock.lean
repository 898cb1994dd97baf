/-
**One block of `reduce_sum_stage1_kernel`**, over exact real arithmetic.

* `smem_of_loadPhase` — every thread leaves the sum of its two elements in `smem`;
* `smem_of_reducePhase`, `smem_of_reducePhases` — the turns of the loop are the turns of a reduction by halving;
* `lastPhase_runs` — what the first warp makes of the block, whatever the other warps do;
* `sums_of_kernel` — so a block with at least 64 threads writes the sum of the first 64 places that the
  reduction leaves;
* `Inside`, `accesses_beyond` — it accesses its own shared array only, and a smaller block does not.
-/
import Insist.Kernels.Reduction
import Insist.Lib.Halving

namespace Insist.Kernels.Reduction

open Lib Lib.Simt Memory

/-- The strides of the loop are those of a reduction by halving, down to 32. -/
theorem strides_eq (width : ℕ) : strides (width / 2) = stridesAbove 32 width := by
  induction width using Nat.strong_induction_on with
  | _ width ih =>
      rw [strides, stridesAbove]
      by_cases more : 32 < width / 2
      · rw [if_pos more, if_pos more, ih _ (by omega)]
      · rw [if_neg more, if_neg more]

section

variable {x : ℕ → ℝ} {n blockDim block : ℕ} {memory memory' : Memory ℝ}

/-! ### The elements of a thread -/

/-- The sum of the elements of a thread. -/
def loaded (x : ℕ → ℝ) (n blockDim block tid : ℕ) : ℝ :=
  (if global blockDim block tid < n then x (global blockDim block tid) else 0) +
    if (global blockDim block tid + blockDim) % 2 ^ 64 <
      n then x ((global blockDim block tid + blockDim) % 2 ^ 64)
    else 0

/-- What a thread finds in its own variables. -/
def ownOf (tid : ℕ) (memory : Memory ℝ) : ℝ × ℝ := (memory.sum tid, memory.smem tid)

/-- An element that is not there adds nothing. -/
theorem setSum_add_zero (tid : ℕ) : memory.setSum tid (memory.sum tid + 0) = memory := by
  rw [add_zero, setSum, Memory.sum, Function.update_eq_self]

theorem takeFirst_eq (tid : ℕ) : takeFirst x n blockDim block tid memory = memory.setSum tid
    (memory.sum tid + if global blockDim block tid < n then x (global blockDim block tid) else 0) := by
  unfold takeFirst
  split_ifs with more
  · rfl
  · rw [setSum_add_zero]

theorem takeSecond_eq (tid : ℕ) : takeSecond x n blockDim block tid memory = memory.setSum tid
    (memory.sum tid + if (global blockDim block tid + blockDim) % 2 ^ 64 < n then
      x ((global blockDim block tid + blockDim) % 2 ^ 64) else 0) := by
  unfold takeSecond
  split_ifs with more
  · rfl
  · rw [setSum_add_zero]

/-- **Every thread leaves the sum of its elements.** -/
theorem smem_of_loadPhase (ran : Runs (warps blockDim) [loadPhase x n blockDim block] memory memory') {tid : ℕ}
    (inside : tid < blockDim) : memory'.smem tid = loaded x n blockDim block tid := by
  have seen := view_of_threads (by decide) (le_groups_mul (by decide) blockDim) inside (ownOf tid) ?_ ?_ ran
  · refine (congrArg Prod.snd seen).trans ?_
    simp only [runThread, List.foldl_cons, List.foldl_nil, ownOf, initSum, takeFirst_eq,
      takeSecond_eq, storeSum,
      smem_setShared, sum_setSum, Function.update_self]
    rw [show (FloatOps.zero : ℝ) = 0 from rfl, zero_add]
    rfl
  · intro operation member first second same
    obtain ⟨sum, smem⟩ := Prod.mk.inj same
    simp only [List.mem_cons, List.not_mem_nil, or_false] at member
    rcases member with rfl | rfl | rfl | rfl
    · simp only [ownOf, initSum, sum_setSum, smem_setSum, Function.update_self, smem]
    · simp only [ownOf, takeFirst_eq, sum_setSum, smem_setSum, Function.update_self, sum, smem]
    · simp only [ownOf, takeSecond_eq, sum_setSum, smem_setSum, Function.update_self, sum, smem]
    · simp only [ownOf, storeSum, sum_setShared, smem_setShared, sum_access, Function.update_self, sum]
  · intro other _ different operation member now
    have apart := Ne.symm different
    simp only [List.mem_cons, List.not_mem_nil, or_false] at member
    rcases member with rfl | rfl | rfl | rfl
    · simp only [ownOf, initSum, sum_setSum, smem_setSum, Function.update_of_ne apart]
    · simp only [ownOf, takeFirst_eq, sum_setSum, smem_setSum, Function.update_of_ne apart]
    · simp only [ownOf, takeSecond_eq, sum_setSum, smem_setSum, Function.update_of_ne apart]
    · simp only [ownOf, storeSum, sum_setShared, smem_setShared, sum_access, smem_access,
        Function.update_of_ne apart]

/-! ### The loop -/

theorem reduce_of_lt {stride tid : ℕ} (active : tid < stride) :
    reduce block stride tid memory = (memory.access block {tid, tid + stride}).setShared tid
      (memory.smem tid + memory.smem (tid + stride)) :=
  if_pos active

theorem reduce_of_not_lt {stride tid : ℕ} (idle : ¬ tid < stride) : reduce block stride tid memory = memory :=
  if_neg idle

/-- **A turn of the loop is one of a reduction by halving.** -/
theorem smem_of_reducePhase {stride place : ℕ} (inside : place < blockDim)
    (ran : Runs (warps blockDim) [reducePhase blockDim block stride] memory memory') :
    memory'.smem place = halve stride memory.smem place := by
  have issued : Runs (warps blockDim) [[reduce block stride].map (lanewise warpSize blockDim)] memory
    memory' := ran
  have seen := view_of_threads (by decide) (le_groups_mul (by decide) blockDim) inside
    (fun memory => (memory.smem place, memory.smem (place + stride))) ?_ ?_ issued
  · have here : memory'.smem place = (reduce block stride place memory).smem place := congrArg Prod.fst seen
    rw [here, halve]
    by_cases active : place < stride
    · rw [reduce_of_lt active, if_pos active, smem_setShared, Function.update_self]
    · rw [reduce_of_not_lt active, if_neg active]
  · intro operation member first second same
    obtain rfl := List.mem_singleton.mp member
    obtain ⟨low, high⟩ := Prod.mk.inj same
    by_cases active : place < stride
    · have apart : place + stride ≠ place := by omega
      simp only [reduce_of_lt active, smem_setShared, smem_access, Function.update_self,
        Function.update_of_ne apart,
        low, high]
    · simp only [reduce_of_not_lt active, low, high]
  · intro other _ different operation member now
    obtain rfl := List.mem_singleton.mp member
    by_cases active : other < stride
    · have apart : place + stride ≠ other := by omega
      simp only [reduce_of_lt active, smem_setShared, smem_access, Function.update_of_ne (Ne.symm different),
        Function.update_of_ne apart]
    · rw [reduce_of_not_lt active]

/-- What is the same within the width is the same there after a turn. -/
theorem halve_congr {first second : ℕ → ℝ} {stride width : ℕ} (fits : 2 * stride ≤ width)
    (same : ∀ place < width, first place = second place) (place : ℕ) (inside : place < width) :
    halve stride first place = halve stride second place := by
  unfold halve
  by_cases active : place < stride
  · rw [if_pos active, if_pos active, same place inside, same (place + stride) (by omega)]
  · rw [if_neg active, if_neg active, same place inside]

/-- **The loop is a reduction by halving**, within the block's own places. -/
theorem smem_of_reducePhases {width : ℕ} (fits : width ≤ blockDim) {values : ℕ → ℝ}
    (same : ∀ place < blockDim, memory.smem place = values place)
    (ran : Runs (warps blockDim) ((stridesAbove 32 width).map (reducePhase blockDim block)) memory memory') :
    ∀ place < blockDim, memory'.smem place = halvings 32 width values place := by
  induction width using Nat.strong_induction_on generalizing memory values with
  | _ width ih =>
      by_cases more : 32 < width / 2
      · rw [stridesAbove_of_lt more, List.map_cons, runs_cons] at ran
        obtain ⟨middle, first, rest⟩ := ran
        rw [halvings_of_lt more]
        refine ih (width / 2) (by omega) (by omega) (fun place inside => ?_) rest
        rw [smem_of_reducePhase inside first]
        exact halve_congr (by omega) same place inside
      · rw [stridesAbove_of_not_lt more, List.map_nil, runs_nil] at ran
        rw [ran, halvings_of_not_lt more]
        exact same

/-! ### The first warp -/

theorem lastWarp_of_ne {offset warp : ℕ} (other : warp ≠ 0) :
    lastWarp blockDim block offset warp memory = memory :=
  if_neg other

theorem writePartial_zero :
    writePartial block 0 memory = (memory.access block {0}).setPartial block (memory.smem 0) :=
  if_pos rfl

theorem writePartial_of_ne {tid : ℕ} (other : tid ≠ 0) : writePartial block tid memory = memory := if_neg other

/-- **Whatever the other warps do, the last stage is what the first warp makes of it.** -/
theorem lastPhase_runs (some : 0 < blockDim)
    (ran : Runs (warps blockDim) [lastPhase blockDim block] memory memory') :
    memory' = runWarp (lastPhase blockDim block) 0 memory := by
  refine view_of_runs (groups_pos (by decide) some) (fun memory : Memory ℝ => memory)
    (fun _ _ _ _ same => by rw [same]) ?_ ran
  intro other _ different instruction member now
  simp only [lastPhase, List.mem_append, List.mem_map, List.mem_singleton] at member
  rcases member with ⟨offset, _, rfl⟩ | rfl
  · exact lastWarp_of_ne different
  · refine lanewise_of_idle (fun tid member memory => writePartial_of_ne fun first => different ?_) now
    rw [← ((mem_lanes (by decide)).mp member).2, first]
    rfl

/-- A statement of the last stage, on the places of the warp. -/
theorem smem_of_lastWarp (wide : warpSize ≤ blockDim) {offset place : ℕ} (lane : place < warpSize) :
    (lastWarp blockDim block offset 0 memory).smem place = memory.smem place + memory.smem
    (place + offset) := by
  have inside : place < min warpSize blockDim := by omega
  exact if_pos inside

/-- Each statement leaves the sum of twice as many places. -/
theorem sum_of_lastWarp (wide : warpSize ≤ blockDim) {offset : ℕ} (narrow : offset ≤ warpSize) :
    ∑ place ∈ Finset.range offset, (lastWarp blockDim block offset 0 memory).smem place =
      ∑ place ∈ Finset.range (2 * offset), memory.smem place := by
  rw [← sum_halve]
  refine Finset.sum_congr rfl fun place inside => ?_
  have below := Finset.mem_range.mp inside
  rw [smem_of_lastWarp wide (by omega), halve, if_pos below]

theorem writePartial_first (some : 0 < blockDim) :
    lanewise warpSize blockDim (writePartial block) 0 memory =
      (memory.access block {0}).setPartial block (memory.smem 0) :=
  lanewise_of_single (by decide) some (fun other different _ => writePartial_of_ne different) memory

/-- **The last stage writes the sum of the first 64 places.** -/
theorem sums_of_lastPhase (wide : warpSize ≤ blockDim)
    (ran : Runs (warps blockDim) [lastPhase blockDim block] memory memory') :
    memory'.1.sums block = ∑ place ∈ Finset.range 64, memory.smem place := by
  have some : 0 < blockDim := (by decide : 0 < warpSize).trans_le wide
  rw [lastPhase_runs some ran]
  simp only [runWarp, lastPhase, List.map_cons, List.map_nil, List.cons_append, List.nil_append,
    List.foldl_cons,
    List.foldl_nil, writePartial_first some]
  show Function.update _ block _ block = _
  rw [Function.update_self, ← Finset.sum_range_one fun place => Memory.smem _ place,
    sum_of_lastWarp wide (by decide), sum_of_lastWarp wide (by decide), sum_of_lastWarp wide (by decide),
    sum_of_lastWarp wide (by decide), sum_of_lastWarp wide (by decide), sum_of_lastWarp wide (by decide)]

/-! ### The whole block -/

/-- **A block writes what the reduction leaves in the first 64 places.** -/
theorem sums_of_kernel (wide : 64 ≤ blockDim) {values : ℕ → ℝ}
    (same : ∀ tid < blockDim, loaded x n blockDim block tid = values tid)
    (ran : Runs (warps blockDim) (reduceSumStage1Kernel x n blockDim block) memory memory') :
    memory'.1.sums block = ∑ place ∈ Finset.range 64, halvings 32 blockDim values place := by
  rw [reduceSumStage1Kernel, strides_eq, runs_append] at ran
  obtain ⟨reduced, before, last⟩ := ran
  obtain ⟨filled, first, turns⟩ := runs_append.mp before
  rw [sums_of_lastPhase (le_trans (by decide) wide) last]
  refine Finset.sum_congr rfl fun place inside => ?_
  refine smem_of_reducePhases le_rfl (fun tid bound => ?_) turns place
    ((Finset.mem_range.mp inside).trans_le wide)
  rw [smem_of_loadPhase first bound, same tid bound]

/-! ### The places that are accessed -/

/-- The blocks have accessed places of their own shared arrays only. -/
def Inside (blockDim : ℕ) (device : Device ℝ) : Prop :=
  ∀ block, ∀ place ∈ device.accessed block, place < blockDim

theorem mem_access {places : Finset ℕ} {other place : ℕ} :
    place ∈ (memory.access block places).1.accessed other ↔
    place ∈ memory.1.accessed other ∨ other = block ∧ place ∈ places := by
  rw [accessed_access]
  by_cases same : other = block
  · subst same
    rw [Function.update_self, Finset.mem_union]
    simp
  · rw [Function.update_of_ne same]
    simp [same]

theorem Inside.access {places : Finset ℕ} (inside : Inside blockDim memory.1)
    (fits : ∀ place ∈ places, place < blockDim) : Inside blockDim (memory.access block places).1 := by
  intro other place member
  rcases mem_access.mp member with before | ⟨_, now⟩
  · exact inside other place before
  · exact fits place now

theorem le_of_mem_strides {first stride : ℕ} (member : stride ∈ strides first) : stride ≤ first := by
  induction first using Nat.strong_induction_on with
  | _ first ih =>
      rw [strides] at member
      split_ifs at member with more
      · rcases List.mem_cons.mp member with rfl | later
        · exact le_rfl
        · exact (ih (first / 2) (by omega) later).trans (Nat.div_le_self _ _)
      · cases member

/-- The statements of the kernel. -/
theorem cases_of_inCode {instruction : Instruction (Memory ℝ)}
    (inCode : InCode (reduceSumStage1Kernel x n blockDim block) instruction) :
    (∃ operation ∈ [initSum, takeFirst x n blockDim block, takeSecond x n blockDim block, storeSum block],
      instruction = lanewise warpSize blockDim operation) ∨
    (∃ stride ≤ blockDim / 2, instruction = lanewise warpSize blockDim (reduce block stride)) ∨
    (∃ offset ≤ 32, instruction = lastWarp blockDim block offset) ∨
    instruction = lanewise warpSize blockDim (writePartial block) := by
  obtain ⟨phase, member, issued⟩ := inCode
  simp only [reduceSumStage1Kernel, List.mem_append, List.mem_singleton, List.mem_map] at member
  rcases member with (rfl | ⟨stride, turn, rfl⟩) | rfl
  · obtain ⟨operation, listed, rfl⟩ := List.mem_map.mp issued
    exact Or.inl ⟨operation, listed, rfl⟩
  · exact Or.inr (Or.inl ⟨stride, le_of_mem_strides turn, List.mem_singleton.mp issued⟩)
  · simp only [lastPhase, List.mem_append, List.mem_map, List.mem_singleton] at issued
    rcases issued with ⟨offset, listed, rfl⟩ | rfl
    · refine Or.inr (Or.inr (Or.inl ⟨offset, ?_, rfl⟩))
      revert offset
      decide
    · exact Or.inr (Or.inr (Or.inr rfl))

/-- A statement that all lanes carry out stays inside if each of them does. -/
theorem Inside.lanewise {operation : Operation ℝ}
    (each : ∀ tid < blockDim, ∀ now : Memory ℝ, Inside blockDim now.1 → Inside blockDim (operation tid now).1)
    (warp : ℕ) (inside : Inside blockDim memory.1) :
    Inside blockDim (Simt.lanewise warpSize blockDim operation warp memory).1 :=
  lanewise_keeps (fun now : Memory ℝ => Inside blockDim now.1) each warp inside

/-- **A block with at least 64 threads accesses its own places only.** -/
theorem Inside.kernel (wide : 64 ≤ blockDim) {instruction : Instruction (Memory ℝ)}
    (inCode : InCode (reduceSumStage1Kernel x n blockDim block) instruction) (warp : ℕ)
    (inside : Inside blockDim memory.1) : Inside blockDim (instruction warp memory).1 := by
  rcases cases_of_inCode inCode with ⟨operation, listed, rfl⟩ | ⟨stride, half, rfl⟩ | ⟨offset,
    narrow, rfl⟩ | rfl
  · refine Inside.lanewise (fun tid bound now before => ?_) warp inside
    simp only [List.mem_cons, List.not_mem_nil, or_false] at listed
    rcases listed with rfl | rfl | rfl | rfl
    · exact before
    · rw [takeFirst_eq]
      exact before
    · rw [takeSecond_eq]
      exact before
    · exact before.access fun place here => (Finset.mem_singleton.mp here) ▸ bound
  · refine Inside.lanewise (fun tid bound now before => ?_) warp inside
    by_cases active : tid < stride
    · rw [reduce_of_lt active]
      refine before.access fun place here => ?_
      rcases Finset.mem_insert.mp here with rfl | here
      · exact bound
      · rw [Finset.mem_singleton.mp here]
        omega
    · rw [reduce_of_not_lt active]
      exact before
  · by_cases first : warp = 0
    · subst first
      refine inside.access fun place here => ?_
      simp only [Finset.mem_union, Finset.mem_image, Finset.mem_range, warpSize] at here
      rcases here with lane | ⟨lane, below, rfl⟩
      · omega
      · omega
    · rwa [lastWarp_of_ne first]
  · refine Inside.lanewise (fun tid bound now before => ?_) warp inside
    by_cases first : tid = 0
    · rw [first, writePartial_zero]
      exact before.access fun place here => by rw [Finset.mem_singleton.mp here]; omega
    · rwa [writePartial_of_ne first]

/-- **A smaller block accesses a place behind its shared array.** -/
theorem accesses_beyond (some : 0 < blockDim) (narrow : blockDim < 64)
    (ran : Runs (warps blockDim) (reduceSumStage1Kernel x n blockDim block) memory memory') :
    ∃ place ∈ memory'.1.accessed block, blockDim ≤ place := by
  obtain ⟨reduced, _, last⟩ := runs_append.mp ran
  refine ⟨min warpSize blockDim - 1 + 32, ?_, by simp only [warpSize]; omega⟩
  refine last.establishes (groups_pos (by decide) some) (List.mem_append_left _ List.mem_cons_self)
    (fun now : Memory ℝ => min warpSize blockDim - 1 + 32 ∈ now.1.accessed block) (fun now => ?_) ?_
  · refine mem_access.mpr (Or.inr ⟨rfl, ?_⟩)
    refine Finset.mem_union_right _ (Finset.mem_image_of_mem _ (Finset.mem_range.mpr ?_))
    simp only [warpSize]
    omega
  · intro instruction issued warp now before
    rcases List.mem_append.mp issued with listed | listed
    · obtain ⟨offset, _, rfl⟩ := List.mem_map.mp listed
      by_cases first : warp = 0
      · subst first
        exact mem_access.mpr (Or.inl before)
      · rwa [lastWarp_of_ne first]
    · obtain rfl := List.mem_singleton.mp listed
      refine lanewise_keeps (fun now : Memory ℝ => min warpSize blockDim - 1 + 32 ∈ now.1.accessed block)
        (fun tid _ now before => ?_) warp before
      by_cases first : tid = 0
      · rw [first, writePartial_zero]
        exact mem_access.mpr (Or.inl before)
      · rwa [writePartial_of_ne first]

end

end Insist.Kernels.Reduction
