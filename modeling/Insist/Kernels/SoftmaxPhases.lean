/-
**The phases of `softmax_block_kernel`**, over exact real arithmetic.

* `smem_of_maxPhase`, `smem_of_sumPhase` — what the threads leave in `smem` for the reductions;
* `smem_of_reduce` — a reduction leaves the fold of the whole row in `smem[0]`;
* `SumPoint` — where a thread can be between the two reductions: thread 0 overwrites the maximum in `smem[0]`
  with its part of the sum, and only its own warp is sure to have read it before;
* `kernel_runs` — what every run of a block makes of its row; `exists_kernel_race` — a run in which all other
  warps come too late.
-/
import Insist.Kernels.Softmax
import Insist.Lib.Strided

namespace Insist.Kernels.Softmax

open Lib Lib.Simt FloatOps FloatInf Memory

/-- A phase is issued warp by warp. -/
abbrev PhaseRuns (blockSize : ℕ) (code : List (Operation EReal)) (memory memory' : Memory EReal) : Prop :=
  Runs (warps blockSize) [code.map (lanewise warpSize blockSize)] memory memory'

/-- All turns of a reduction are issued. -/
abbrev ReduceRuns (blockSize : ℕ) (combine : EReal → EReal → EReal) (memory memory' : Memory EReal) : Prop :=
  Runs (warps blockSize)
    ((strides (blockSize / 2)).map fun stride => [reduce combine stride].map (lanewise warpSize blockSize))
    memory memory'

/-- The five parts of the kernel. -/
theorem kernel_runs_iff {x : ℕ → EReal} {cols blockSize row : ℕ} {memory memory' : Memory EReal} :
    Runs (warps blockSize) (softmaxBlockKernel x cols blockSize row) memory memory' ↔
      ∃ maxima reduced sums total, PhaseRuns blockSize (maxPhase x cols blockSize row) memory maxima ∧
        ReduceRuns blockSize fmax maxima reduced ∧ PhaseRuns blockSize
          (sumPhase x cols blockSize row) reduced sums ∧
        ReduceRuns blockSize add sums total ∧ PhaseRuns blockSize
            (normalizePhase cols blockSize row) total memory' := by
  simp only [softmaxBlockKernel, operations, List.map_append, List.map_cons, List.map_nil,
    List.map_map, runs_append]
  constructor
  · rintro ⟨total, ⟨sums, ⟨reduced, ⟨maxima, first, second⟩, third⟩, fourth⟩, fifth⟩
    exact ⟨maxima, reduced, sums, total, first, second, third, fourth, fifth⟩
  · rintro ⟨maxima, reduced, sums, total, first, second, third, fourth, fifth⟩
    exact ⟨total, ⟨sums, ⟨reduced, ⟨maxima, first, second⟩, third⟩, fourth⟩, fifth⟩

section

variable {x : ℕ → EReal} {cols blockSize row : ℕ} {memory memory' : Memory EReal}

/-! ### The maximum of each thread -/

/-- What a thread has in `local_max` after so many turns. -/
noncomputable def maxUpTo (x : ℕ → EReal) (cols blockSize row tid turns : ℕ) : EReal :=
  (stridedUpTo cols blockSize tid turns).fold fmax negInf fun c => x (row * cols + c)

/-- An operation of one thread does not touch the local variables of another, nor its place in `smem`. -/
def Private (operation : Operation EReal) : Prop :=
  ∀ (tid other : ℕ) (memory : Memory EReal), tid ≠ other →
    (operation other memory).registers tid = memory.registers tid ∧
    (operation other memory).smem tid = memory.smem tid

theorem private_of_maxPhase {operation : Operation EReal} (member : operation ∈ maxPhase x cols blockSize row) :
    Private operation := by
  intro tid other memory different
  simp only [maxPhase, List.mem_append, List.mem_singleton, List.mem_map] at member
  rcases member with (rfl | ⟨turn, _, rfl⟩) | rfl
  · simp [initMax, different]
  · by_cases more : other + turn * blockSize < cols
    · simp [takeMax_of_lt memory more, different]
    · simp [takeMax_of_not_lt memory more]
  · simp [storeMax, different]

theorem maxPhase_outline (x : ℕ → EReal) (cols blockSize row : ℕ) :
    LaneOutline warpSize blockSize (maxPhase x cols blockSize row) fun tid place memory =>
      (0 < place → (memory.registers tid).localMax = maxUpTo x cols blockSize row tid (place - 1)) ∧
        (place = turns cols blockSize + 2 → memory.smem tid = (memory.registers tid).localMax) := by
  constructor
  · intro tid inside place operation found memory before
    rcases getElem?_loop found with first | ⟨turn, inLoop, rfl, rfl⟩ | ⟨rest, rfl, last⟩
    · obtain ⟨rfl, rfl⟩ : place = 0 ∧ initMax = operation := by
        simpa [List.getElem?_singleton] using first
      refine ⟨fun _ => ?_, fun last => by omega⟩
      simp only [initMax, registers_setRegisters, Function.update_self, maxUpTo, Nat.zero_add, Nat.sub_self,
        stridedUpTo_zero, Finset.fold_empty]
    · have so_far := before.1 (by simp)
      refine ⟨fun _ => ?_, fun last => by simp at last; omega⟩
      simp only [List.length_singleton, Nat.add_sub_cancel_left, Nat.add_sub_cancel] at so_far ⊢
      unfold maxUpTo at so_far ⊢
      rw [Nat.add_comm 1 turn, fold_stridedUpTo_succ fmax negInf _ inside]
      by_cases more : tid + turn * blockSize < cols
      · rw [takeMax_of_lt memory more, if_pos more, registers_setRegisters, Function.update_self, so_far]
      · rw [takeMax_of_not_lt memory more, if_neg more]
        exact so_far
    · obtain ⟨rfl, rfl⟩ : rest = 0 ∧ storeMax = operation := by
        simpa [List.getElem?_singleton] using last
      have so_far := before.1 (by simp)
      refine ⟨fun _ => ?_, fun _ => ?_⟩
      · simp only [List.length_singleton, Nat.add_zero, Nat.add_sub_cancel_left, Nat.add_sub_cancel] at so_far ⊢
        unfold maxUpTo at so_far ⊢
        have enough : cols ≤ turns cols blockSize * blockSize := le_groups_mul (by omega) cols
        rw [stridedUpTo_all enough] at so_far
        rw [stridedUpTo_all (enough.trans (Nat.mul_le_mul_right _ (Nat.le_add_left _ _)))]
        exact so_far
      · simp [storeMax]
  · intro tid _ other _ different here place operation found _ memory before _
    obtain ⟨registers, smem⟩ := private_of_maxPhase (List.mem_of_getElem? found) tid other memory different
    rwa [registers, smem]

/-- **After the first phase the places in `smem` hold the maxima of the threads' columns.** -/
theorem smem_of_maxPhase (ran : PhaseRuns blockSize (maxPhase x cols blockSize row) memory memory') {tid : ℕ}
    (inside : tid < blockSize) :
    memory'.smem tid = (strided cols blockSize tid).fold fmax negInf fun c => x (row * cols + c) := by
  have last := (maxPhase_outline x cols blockSize row).runs (by decide)
    (le_groups_mul (by decide) blockSize) ran
    (fun tid _ => ⟨fun early => absurd early (Nat.lt_irrefl 0), fun early => by omega⟩) tid inside
  have length : (maxPhase x cols blockSize row).length = turns cols blockSize + 2 := by
    simp [maxPhase]
  rw [length] at last
  rw [last.2 rfl, last.1 (by omega), maxUpTo, stridedUpTo_all]
  exact (le_groups_mul (by omega) cols).trans (Nat.mul_le_mul_right _ (Nat.le_add_right _ 1))

/-! ### The reductions -/

section Reduction

variable {combine : EReal → EReal → EReal}

/-- A turn of a reduction combines the places of the lower half with those of the upper one. -/
theorem smem_of_turn {stride tid : ℕ} (inside : tid < stride) (half : 2 * stride ≤ blockSize)
    (ran : PhaseRuns blockSize [reduce combine stride] memory memory') :
    memory'.smem tid = combine (memory.smem tid) (memory.smem (tid + stride)) := by
  have seen := view_of_threads (by decide) (le_groups_mul (by decide) blockSize) (show tid < blockSize by omega)
    (fun memory => (memory.smem tid, memory.smem (tid + stride))) ?_ ?_ ran
  · have here : memory'.smem tid = (reduce combine stride tid memory).smem tid := congrArg Prod.fst seen
    rw [here, reduce_of_lt memory inside, smem_setShared, Function.update_self]
  · intro operation member first second same
    obtain rfl := List.mem_singleton.mp member
    obtain ⟨low, high⟩ := Prod.mk.inj same
    have apart : tid + stride ≠ tid := by omega
    simp only [reduce_of_lt _ inside, smem_setShared, Function.update_self,
      Function.update_of_ne apart, low, high]
  · intro other _ different operation member memory
    obtain rfl := List.mem_singleton.mp member
    by_cases active : other < stride
    · have apart : tid + stride ≠ other := by omega
      simp only [reduce_of_lt _ active, smem_setShared, Function.update_of_ne (Ne.symm different),
        Function.update_of_ne apart]
    · rw [reduce_of_not_lt memory active]

/-- A turn of a reduction changes nothing but `smem`. -/
theorem others_of_reduce (ran : ReduceRuns blockSize combine memory memory') :
    memory'.registers = memory.registers ∧ memory'.y = memory.y := by
  refine ran.keeps (fun now : Memory EReal => now.registers = memory.registers ∧ now.y = memory.y) ?_ ⟨rfl, rfl⟩
  intro phase member instruction inside warp now before
  obtain ⟨stride, _, rfl⟩ := List.mem_map.mp member
  obtain rfl := List.mem_singleton.mp inside
  refine lanewise_keeps (fun now : Memory EReal => now.registers = memory.registers ∧ now.y = memory.y)
    ?_ warp before
  intro tid _ now before
  by_cases active : tid < stride
  · rw [reduce_of_lt now active]
    exact before
  · rw [reduce_of_not_lt now active]
    exact before

theorem strides_zero : strides 0 = [] := by
  rw [strides, if_pos rfl]

theorem strides_two_pow (exponent : ℕ) : strides (2 ^ (exponent + 1) / 2) = 2 ^ exponent :: strides
    (2 ^ exponent / 2) := by
  have half : 2 ^ (exponent + 1) / 2 = 2 ^ exponent := by
    rw [Nat.pow_succ, Nat.mul_div_cancel _ two_pos]
  rw [half, strides, if_neg (Nat.two_pow_pos exponent).ne']

/-- **A reduction leaves the fold of all columns in `smem[0]`.** -/
theorem smem_of_reduce [Std.Commutative combine] [Std.Associative combine] {unit : EReal}
    (unit_unit : combine unit unit = unit) {value : ℕ → EReal} {exponent : ℕ} (fits : 2 ^ exponent ≤ blockSize)
    (parts : ∀ tid < 2 ^ exponent, memory.smem tid = (strided cols (2 ^ exponent) tid).fold combine unit value)
    (ran : Runs (warps blockSize)
      ((strides (2 ^ exponent / 2)).map fun stride => [reduce combine stride].map (lanewise warpSize blockSize))
      memory memory') :
    memory'.smem 0 = (Finset.range cols).fold combine unit value := by
  induction exponent generalizing memory with
  | zero =>
      rw [show strides (2 ^ 0 / 2) = [] from strides_zero, List.map_nil, runs_nil] at ran
      rw [ran, parts 0 (Nat.two_pow_pos 0)]
      exact fold_strided_one combine unit value
  | succ exponent ih =>
      have double : 2 ^ (exponent + 1) = 2 * 2 ^ exponent := by rw [Nat.pow_succ, Nat.mul_comm]
      rw [strides_two_pow, List.map_cons, runs_cons] at ran
      obtain ⟨middle, first, rest⟩ := ran
      refine ih (by omega) (fun tid inside => ?_) rest
      rw [smem_of_turn inside (by omega) first, parts tid (by omega),
        parts (tid + 2 ^ exponent) (by omega), double]
      exact fold_strided_half combine unit value unit_unit inside

end Reduction

/-! ### The sums, and the race for `smem[0]` -/

/-- What `expf(row_x[c] - max_val)` is. -/
noncomputable def weight (x : ℕ → EReal) (cols row : ℕ) (maxVal : EReal) (c : ℕ) : EReal :=
  exp (sub (x (row * cols + c)) maxVal)

/-- What a thread has in `local_sum` after so many turns. -/
noncomputable def sumUpTo (x : ℕ → EReal) (cols blockSize row : ℕ) (maxVal : EReal) (tid turns : ℕ) : EReal :=
  (stridedUpTo cols blockSize tid turns).fold add zero (weight x cols row maxVal)

theorem sumUpTo_succ (maxVal : EReal) {tid : ℕ} (inside : tid < blockSize) (turns : ℕ) :
    sumUpTo x cols blockSize row maxVal tid (turns + 1) =
      if tid + turns * blockSize < cols then
        add (sumUpTo x cols blockSize row maxVal tid turns) (weight x cols row maxVal (tid + turns * blockSize))
      else sumUpTo x cols blockSize row maxVal tid turns :=
  fold_stridedUpTo_succ add zero _ inside turns

theorem sumUpTo_all (maxVal : EReal) (some : 0 < blockSize) (tid : ℕ) {turns' : ℕ}
    (enough : turns cols blockSize ≤ turns') :
    sumUpTo x cols blockSize row maxVal tid turns' =
      (strided cols blockSize tid).fold add zero (weight x cols row maxVal) := by
  rw [sumUpTo, stridedUpTo_all ((le_groups_mul some cols).trans (Nat.mul_le_mul_right _ enough))]

/-- Where a thread is between the two reductions, when `top` is the maximum that the first has left in `smem[0]`
and `low` the sum of thread 0. -/
structure SumPoint (x : ℕ → EReal) (cols blockSize row : ℕ) (top low : EReal) (tid place : ℕ)
    (memory : Memory EReal) : Prop where
  /-- The thread has not read `smem[0]`. -/
  unread : place = 0 → memory.smem 0 = top ∨ warpSize ≤ tid ∧ memory.smem 0 = low
  /-- Thread 0 has not overwritten it. -/
  kept : tid = 0 → place < turns cols blockSize + 3 → memory.smem 0 = top
  read : 0 < place →
    (memory.registers tid).maxVal = top ∨ warpSize ≤ tid ∧ (memory.registers tid).maxVal = low
  summed : 1 < place → (memory.registers tid).localSum =
    sumUpTo x cols blockSize row (memory.registers tid).maxVal tid (place - 2)
  written : ∀ c < cols, c % blockSize = tid → c / blockSize + 2 < place →
    memory.y (row * cols + c) = weight x cols row (memory.registers tid).maxVal c
  stored : place = turns cols blockSize + 3 → memory.smem tid = (memory.registers tid).localSum

/-- The operations between the two reductions. -/
theorem sumPhase_cases {place : ℕ} {operation : Operation EReal}
    (found : (sumPhase x cols blockSize row)[place]? = some operation) :
    (place = 0 ∧ operation = loadMax) ∨ (place = 1 ∧ operation = initSum) ∨
      (∃ turn < turns cols blockSize, place = turn + 2 ∧ operation = takeSum x cols blockSize row turn) ∨
      (place = turns cols blockSize + 2 ∧ operation = storeSum) := by
  rcases getElem?_loop found with first | ⟨turn, inLoop, rfl, rfl⟩ | ⟨rest, rfl, last⟩
  · match place, first with
    | 0, first => exact Or.inl ⟨rfl, (Option.some.inj first).symm⟩
    | 1, first => exact Or.inr (Or.inl ⟨rfl, (Option.some.inj first).symm⟩)
  · exact Or.inr (Or.inr (Or.inl ⟨turn, inLoop, Nat.add_comm _ _, rfl⟩))
  · obtain ⟨rfl, rfl⟩ : rest = 0 ∧ storeSum = operation := by
      simpa [List.getElem?_singleton] using last
    exact Or.inr (Or.inr (Or.inr ⟨Nat.add_comm 2 _, rfl⟩))

theorem SumPoint.own {top low : EReal} {tid place : ℕ} {operation : Operation EReal} (inside : tid < blockSize)
    (point : SumPoint x cols blockSize row top low tid place memory)
    (found : (sumPhase x cols blockSize row)[place]? = some operation) :
    SumPoint x cols blockSize row top low tid (place + 1) (operation tid memory) := by
  rcases sumPhase_cases found with ⟨rfl, rfl⟩ | ⟨rfl, rfl⟩ | ⟨turn, inLoop, rfl, rfl⟩ | ⟨rfl, rfl⟩
  · refine ⟨fun early => by omega, fun first _ => point.kept first (by omega), fun _ => ?_,
      fun late => by omega, ?_,
      fun last => by omega⟩
    · simpa [loadMax] using point.unread rfl
    · intro c _ _ late
      generalize c / blockSize = turn at late
      omega
  · refine ⟨fun early => by omega, fun first _ => point.kept first (by omega), fun _ => ?_, fun _ => ?_, ?_,
      fun last => by omega⟩
    · simpa [initSum] using point.read Nat.one_pos
    · simp [initSum, sumUpTo, stridedUpTo_zero]
    · intro c _ _ late
      generalize c / blockSize = turn at late
      omega
  · have summed := point.summed (by omega)
    rw [Nat.add_sub_cancel] at summed
    by_cases more : tid + turn * blockSize < cols
    · rw [takeSum_of_lt memory more]
      refine ⟨fun early => by omega, fun first _ => ?_, fun _ => ?_, fun _ => ?_, ?_, fun last => by omega⟩
      · exact point.kept first (by omega)
      · simpa using point.read (by omega)
      · rw [registers_setRegisters, Function.update_self, show turn + 2 + 1 - 2 = turn + 1 by omega]
        show add (memory.registers tid).localSum _ =
          sumUpTo x cols blockSize row (memory.registers tid).maxVal tid (turn + 1)
        rw [sumUpTo_succ _ inside, if_pos more, summed]
        rfl
      · intro c bound same late
        rw [y_setRegisters, y_setY, registers_setRegisters, Function.update_self]
        by_cases here : c = tid + turn * blockSize
        · rw [here, Function.update_self]
          rfl
        · rw [Function.update_of_ne (by omega)]
          refine point.written c bound same ?_
          have other := mt (column_eq_iff inside).mpr here
          have apart : c / blockSize ≠ turn := fun turns => other ⟨same, turns⟩
          generalize c / blockSize = taken at late apart
          omega
    · rw [takeSum_of_not_lt memory more]
      refine ⟨fun early => by omega, fun first _ => point.kept first (by omega), fun _ => point.read (by omega),
        fun _ => ?_, fun c bound same late => ?_, fun last => by omega⟩
      · rw [summed, show turn + 2 + 1 - 2 = turn + 1 by omega, sumUpTo_succ _ inside, if_neg more]
      · refine point.written c bound same ?_
        have other : c / blockSize ≠ turn := fun turns =>
          more ((column_eq_iff inside).mpr ⟨same, turns⟩ ▸ bound)
        generalize c / blockSize = taken at late other
        omega
  · refine ⟨fun early => by omega, fun _ early => by omega, fun _ => ?_, fun _ => ?_,
      fun c bound same late => ?_,
      fun _ => ?_⟩
    · exact point.read (by omega)
    · have summed := point.summed (by omega)
      rw [Nat.add_sub_cancel] at summed
      rw [storeSum, registers_setShared, summed, sumUpTo_all _ (by omega) _ le_rfl,
        sumUpTo_all _ (by omega) _ (by omega)]
    · exact point.written c bound same (Nat.add_lt_add_right (div_lt_groups (by omega) bound) 2)
    · simp [storeSum]

theorem private_of_sumPhase {place : ℕ} {operation : Operation EReal}
    (found : (sumPhase x cols blockSize row)[place]? = some operation) : Private operation := by
  intro tid other memory different
  rcases sumPhase_cases found with ⟨rfl, rfl⟩ | ⟨rfl, rfl⟩ | ⟨turn, _, rfl, rfl⟩ | ⟨rfl, rfl⟩
  · simp [loadMax, different]
  · simp [initSum, different]
  · by_cases more : other + turn * blockSize < cols
    · simp [takeSum_of_lt memory more, different]
    · simp [takeSum_of_not_lt memory more]
  · simp [storeSum, different]

/-- A thread writes its own columns only. -/
theorem y_of_sumPhase {place : ℕ} {operation : Operation EReal}
    (found : (sumPhase x cols blockSize row)[place]? = some operation) {other c : ℕ}
    (inside : other < blockSize)
    (apart : c % blockSize ≠ other) (memory : Memory EReal) :
    (operation other memory).y (row * cols + c) = memory.y (row * cols + c) := by
  rcases sumPhase_cases found with ⟨rfl, rfl⟩ | ⟨rfl, rfl⟩ | ⟨turn, _, rfl, rfl⟩ | ⟨rfl, rfl⟩
  · simp [loadMax]
  · simp [initSum]
  · by_cases more : other + turn * blockSize < cols
    · have different : c ≠ other + turn * blockSize := fun same => apart ((column_eq_iff inside).mp same).1
      simp [takeSum_of_lt memory more, different]
    · rw [takeSum_of_not_lt memory more]
  · simp [storeSum]

/-- `smem[0]` is what it was, or thread 0 has just stored its sum there. -/
theorem smem_of_sumPhase {place : ℕ} {operation : Operation EReal}
    (found : (sumPhase x cols blockSize row)[place]? = some operation) (other : ℕ) (memory : Memory EReal) :
    (operation other memory).smem 0 = memory.smem 0 ∨
      other = 0 ∧ place = turns cols blockSize + 2 ∧
        (operation other memory).smem 0 = (memory.registers other).localSum := by
  rcases sumPhase_cases found with ⟨rfl, rfl⟩ | ⟨rfl, rfl⟩ | ⟨turn, _, rfl, rfl⟩ | ⟨rfl, rfl⟩
  · exact Or.inl (by simp [loadMax])
  · exact Or.inl (by simp [initSum])
  · refine Or.inl ?_
    by_cases more : other + turn * blockSize < cols
    · simp [takeSum_of_lt memory more]
    · rw [takeSum_of_not_lt memory more]
  · by_cases first : other = 0
    · subst first
      exact Or.inr ⟨rfl, rfl, by simp [storeSum]⟩
    · exact Or.inl (by simp [storeSum, Ne.symm first])

theorem SumPoint.undisturbed {top low : EReal} {tid other here place : ℕ} {operation : Operation EReal}
    (sum : low = (strided cols blockSize 0).fold add zero (weight x cols row top))
    (inside : other < blockSize) (different : tid ≠ other)
    (lockstep : tid / warpSize = other / warpSize → here = place ∨ here = place + 1)
    (mine : SumPoint x cols blockSize row top low tid here memory)
    (theirs : SumPoint x cols blockSize row top low other place memory)
    (found : (sumPhase x cols blockSize row)[place]? = some operation) :
    SumPoint x cols blockSize row top low tid here (operation other memory) := by
  obtain ⟨registers, smem⟩ := private_of_sumPhase found tid other memory different
  refine ⟨fun early => ?_, fun first before => ?_, fun late => ?_, fun late => ?_, fun c bound same late => ?_,
    fun last => ?_⟩
  · rcases smem_of_sumPhase found other memory with same | ⟨rfl, rfl, stored⟩
    · rw [same]
      exact mine.unread early
    · -- thread 0 overwrites the maximum: its own warp has read it, the others may not have
      have top_read : (memory.registers 0).maxVal = top :=
        (theirs.read (by omega)).resolve_right fun high => absurd high.1 (by decide)
      refine Or.inr ⟨Nat.le_of_not_lt fun first => ?_, ?_⟩
      · have together : tid / warpSize = 0 / warpSize := by
          rw [Nat.div_eq_of_lt first, Nat.zero_div]
        rcases lockstep together with same | same <;> omega
      · rw [stored, theirs.summed (by omega), top_read, sumUpTo_all _ inside _ (by omega), sum]
  · subst first
    rw [smem]
    exact mine.kept rfl before
  · rw [registers]
    exact mine.read late
  · rw [registers]
    exact mine.summed late
  · rw [registers, y_of_sumPhase found inside (same ▸ different)]
    exact mine.written c bound same late
  · rw [registers, smem]
    exact mine.stored last

theorem sumPhase_outline {top low : EReal}
    (sum : low = (strided cols blockSize 0).fold add zero (weight x cols row top)) :
    LaneOutline warpSize blockSize (sumPhase x cols blockSize row) (SumPoint x cols blockSize row top low) where
  own _ inside _ _ found _ point := point.own inside found
  undisturbed _ _ _ inside different _ _ _ found lockstep _ mine theirs :=
    mine.undisturbed sum inside different lockstep theirs found

theorem SumPoint.start {top low : EReal} (reduced : memory.smem 0 = top) (tid : ℕ) :
    SumPoint x cols blockSize row top low tid 0 memory := by
  refine ⟨fun _ => Or.inl reduced, fun _ _ => reduced, fun early => by omega, fun early => by omega, ?_,
    fun last => by omega⟩
  exact fun c _ _ late => absurd late (Nat.not_lt_zero _)

theorem length_sumPhase : (sumPhase x cols blockSize row).length = turns cols blockSize + 3 := by
  simp [sumPhase]

/-- **In every run, each thread has read the maximum or the sum of thread 0**, and made its part of the row from
that. The warp of thread 0 has read the maximum. -/
theorem sumPhase_read (ran : PhaseRuns blockSize (sumPhase x cols blockSize row) memory memory') {tid : ℕ}
    (inside : tid < blockSize) :
    SumPoint x cols blockSize row (memory.smem 0)
      ((strided cols blockSize 0).fold add zero (weight x cols row (memory.smem 0))) tid
      (turns cols blockSize + 3) memory' := by
  have last := (sumPhase_outline rfl).runs (by decide) (le_groups_mul (by decide) blockSize) ran
    (fun tid _ => SumPoint.start rfl tid) tid inside
  rwa [length_sumPhase] at last

/-- Where a thread is after the first warp has finished, which has left the sum of thread 0 in `smem[0]`. -/
def Late (cols blockSize : ℕ) (low : EReal) (tid place : ℕ) (memory : Memory EReal) : Prop :=
  if tid < warpSize then place = turns cols blockSize + 3
  else memory.smem 0 = low ∧ (0 < place → (memory.registers tid).maxVal = low)

/-- Only the first operation assigns `max_val`. -/
theorem maxVal_of_sumPhase {place : ℕ} {operation : Operation EReal}
    (found : (sumPhase x cols blockSize row)[place]? = some operation) (tid : ℕ) (memory : Memory EReal) :
    ((operation tid memory).registers tid).maxVal =
      if place = 0 then memory.smem 0 else (memory.registers tid).maxVal := by
  rcases sumPhase_cases found with ⟨rfl, rfl⟩ | ⟨rfl, rfl⟩ | ⟨turn, _, rfl, rfl⟩ | ⟨rfl, rfl⟩
  · simp [loadMax]
  · simp [initSum]
  · by_cases more : tid + turn * blockSize < cols
    · simp [takeSum_of_lt memory more]
    · simp [takeSum_of_not_lt memory more]
  · simp [storeSum]

theorem late_outline (low : EReal) :
    LaneOutline warpSize blockSize (sumPhase x cols blockSize row) (Late cols blockSize low) := by
  have past {operation : Operation EReal} {place : ℕ}
      (found : (sumPhase x cols blockSize row)[place]? = some operation) : place ≠
      turns cols blockSize + 3 := by
    rintro rfl
    have bound := (List.getElem?_eq_some_iff.mp found).1
    rw [length_sumPhase] at bound
    omega
  constructor
  · intro tid inside place operation found memory late
    unfold Late at late ⊢
    split_ifs at late ⊢ with first
    · exact absurd late (past found)
    · obtain ⟨sum, read⟩ := late
      refine ⟨?_, fun _ => ?_⟩
      · rcases smem_of_sumPhase found tid memory with same | ⟨rfl, _, _⟩
        · rw [same, sum]
        · exact absurd (by decide) first
      · rw [maxVal_of_sumPhase found]
        split_ifs with start
        · exact sum
        · exact read (by omega)
  · intro tid _ other inside different here place operation found _ memory late theirs
    obtain ⟨registers, _⟩ := private_of_sumPhase found tid other memory different
    by_cases first : tid < warpSize
    · rw [Late, if_pos first] at late ⊢
      exact late
    by_cases early : other < warpSize
    · rw [Late, if_pos early] at theirs
      exact absurd theirs (past found)
    · rw [Late, if_neg first] at late ⊢
      refine ⟨?_, registers ▸ late.2⟩
      rcases smem_of_sumPhase found other memory with same | ⟨rfl, _, _⟩
      · rw [same, late.1]
      · exact absurd (by decide) early

/-- **There is a run in which all warps but the first read the sum of thread 0** where they expect the
maximum. -/
theorem sumPhase_race (x : ℕ → EReal) (cols row : ℕ) {blockSize : ℕ} (some : 0 < blockSize)
    (memory : Memory EReal) :
    ∃ memory', PhaseRuns blockSize (sumPhase x cols blockSize row) memory memory' ∧
      ∀ tid < blockSize, warpSize ≤ tid → (memory'.registers tid).maxVal =
        (strided cols blockSize 0).fold add zero (weight x cols row (memory.smem 0)) := by
  let low := (strided cols blockSize 0).fold add zero (weight x cols row (memory.smem 0))
  have outline : LaneOutline warpSize blockSize (sumPhase x cols blockSize row)
      (SumPoint x cols blockSize row (memory.smem 0) low) := sumPhase_outline rfl
  have ahead : ∀ memory', (∀ tid < blockSize, tid < warpSize →
    SumPoint x cols blockSize row (memory.smem 0) low tid
      (sumPhase x cols blockSize row).length memory') → ∀ tid < blockSize, Late cols blockSize low tid
        (if tid < warpSize then (sumPhase x cols blockSize row).length else 0) memory' := by
    intro memory' first tid inside
    have done := first 0 some (by decide)
    rw [length_sumPhase] at done ⊢
    by_cases early : tid < warpSize
    · rw [Late, if_pos early, if_pos early]
    · rw [Late, if_neg early, if_neg early]
      refine ⟨?_, fun early => absurd early (Nat.lt_irrefl 0)⟩
      have top_read := (done.read (by omega)).resolve_right fun high => absurd high.1 (by decide)
      rw [done.stored rfl, done.summed (by omega), top_read, sumUpTo_all _ some _ (by omega)]
  obtain ⟨memory', ran, late⟩ :=
    outline.runs_first (by decide) (le_groups_mul (by decide) blockSize) (groups_pos (by decide) some)
    (late_outline low)
    (fun tid _ => SumPoint.start rfl tid) ahead
  refine ⟨memory', ran, fun tid inside high => ?_⟩
  have mine := late tid inside
  rw [Late, if_neg (by omega)] at mine
  exact mine.2 (by rw [length_sumPhase]; omega)

/-! ### The division -/

theorem normalizePhase_cases {place : ℕ} {operation : Operation EReal}
    (found : (normalizePhase cols blockSize row)[place]? = some operation) :
    (place = 0 ∧ operation = loadSum) ∨
      ∃ turn < turns cols blockSize, place = turn + 1 ∧ operation = normalize cols blockSize row turn := by
  rw [← List.append_nil (normalizePhase cols blockSize row)] at found
  rcases getElem?_loop found with first | ⟨turn, inLoop, rfl, rfl⟩ | ⟨rest, rfl, last⟩
  · obtain ⟨rfl, rfl⟩ : place = 0 ∧ loadSum = operation := by
      simpa [List.getElem?_singleton] using first
    exact Or.inl ⟨rfl, rfl⟩
  · exact Or.inr ⟨turn, inLoop, Nat.add_comm 1 turn, rfl⟩
  · cases last

/-- Where a thread is in the last phase, that started with this memory. -/
structure NormalizePoint (cols blockSize row : ℕ) (start : Memory EReal) (tid place : ℕ)
    (memory : Memory EReal) :
    Prop where
  kept : memory.smem 0 = start.smem 0
  read : 0 < place → (memory.registers tid).sumVal = start.smem 0
  written : ∀ c < cols, c % blockSize = tid → memory.y (row * cols + c) =
    if c / blockSize + 1 < place then div (start.y (row * cols + c)) (start.smem 0)
      else start.y (row * cols + c)

theorem normalizePhase_outline (start : Memory EReal) : LaneOutline warpSize blockSize
    (normalizePhase cols blockSize row) (NormalizePoint cols blockSize row start) := by
  constructor
  · intro tid inside place operation found memory point
    rcases normalizePhase_cases found with ⟨rfl, rfl⟩ | ⟨turn, inLoop, rfl, rfl⟩
    · refine ⟨point.kept, fun _ => ?_, fun c bound same => ?_⟩
      · simp [loadSum, point.kept]
      · have written := point.written c bound same
        rw [if_neg (Nat.not_lt_zero _)] at written
        rw [if_neg (by generalize c / blockSize = turn; omega)]
        exact written
    · by_cases more : tid + turn * blockSize < cols
      · rw [normalize_of_lt memory more]
        refine ⟨point.kept, fun _ => point.read (by omega), fun c bound same => ?_⟩
        by_cases here : c = tid + turn * blockSize
        · have turns := ((column_eq_iff inside).mp here).2
          have old := point.written c bound same
          rw [if_neg (by omega)] at old
          rw [if_pos (by omega), y_setY, ← here, Function.update_self, old, point.read (by omega)]
        · rw [y_setY, Function.update_of_ne (by omega), point.written c bound same]
          have other : c / blockSize ≠ turn := fun turns => here ((column_eq_iff inside).mpr ⟨same, turns⟩)
          generalize c / blockSize = taken at other
          by_cases early : taken < turn
          · rw [if_pos (by omega), if_pos (by omega)]
          · rw [if_neg (by omega), if_neg (by omega)]
      · rw [normalize_of_not_lt memory more]
        refine ⟨point.kept, fun _ => point.read (by omega), fun c bound same => ?_⟩
        rw [point.written c bound same]
        have other : c / blockSize ≠ turn :=
          fun turns => more ((column_eq_iff inside).mpr ⟨same, turns⟩ ▸ bound)
        generalize c / blockSize = taken at other
        by_cases early : taken < turn
        · rw [if_pos (by omega), if_pos (by omega)]
        · rw [if_neg (by omega), if_neg (by omega)]
  · intro tid _ other inside different here place operation found _ memory mine _
    rcases normalizePhase_cases found with ⟨rfl, rfl⟩ | ⟨turn, _, rfl, rfl⟩
    · refine ⟨mine.kept, fun late => ?_, mine.written⟩
      simpa [loadSum, different] using mine.read late
    · by_cases more : other + turn * blockSize < cols
      · rw [normalize_of_lt memory more]
        refine ⟨mine.kept, mine.read, fun c bound same => ?_⟩
        have apart : c ≠ other + turn * blockSize := by
          intro here
          exact different (same.symm.trans ((column_eq_iff inside).mp here).1)
        rw [y_setY, Function.update_of_ne (by omega)]
        exact mine.written c bound same
      · rw [normalize_of_not_lt memory more]
        exact mine

/-- **The last phase divides the row by what is in `smem[0]`.** -/
theorem y_of_normalizePhase (some : 0 < blockSize)
    (ran : PhaseRuns blockSize (normalizePhase cols blockSize row) memory memory') {c : ℕ} (bound : c < cols) :
    memory'.y (row * cols + c) = div (memory.y (row * cols + c)) (memory.smem 0) := by
  have start (tid : ℕ) : NormalizePoint cols blockSize row memory tid 0 memory :=
    ⟨rfl, fun early => absurd early (Nat.lt_irrefl 0), fun c _ _ => (if_neg (Nat.not_lt_zero _)).symm⟩
  have last := (normalizePhase_outline memory).runs (by decide) (le_groups_mul (by decide) blockSize) ran
    (fun tid _ => start tid)
    (c % blockSize) (Nat.mod_lt c some)
  have length : (normalizePhase cols blockSize row : List (Operation EReal)).length =
      turns cols blockSize + 1 := by
    simp [normalizePhase]
  have turn : c / blockSize < turns cols blockSize := div_lt_groups some bound
  rw [last.written c bound rfl, length, if_pos (Nat.add_lt_add_right turn 1)]

/-! ### The whole kernel -/

/-- The maximum of a row. -/
noncomputable def rowMax (x : ℕ → EReal) (cols row : ℕ) : EReal :=
  (Finset.range cols).fold fmax negInf fun c => x (row * cols + c)

/-- The sum of thread 0: the columns that the number of threads divides. -/
noncomputable def firstSum (x : ℕ → EReal) (cols blockSize row : ℕ) : EReal :=
  (strided cols blockSize 0).fold add zero (weight x cols row (rowMax x cols row))

/-- What the kernel makes of a column if the threads have these values in `max_val`. -/
noncomputable def quotient (x : ℕ → EReal) (cols blockSize row : ℕ) (maxVal : ℕ → EReal) (c : ℕ) : EReal :=
  div (weight x cols row (maxVal (c % blockSize)) c)
    ((Finset.range cols).fold add zero fun c => weight x cols row (maxVal (c % blockSize)) c)

/-- What comes after the sums are stored. -/
theorem y_of_sums {exponent : ℕ} {top low : EReal} {sums total : Memory EReal}
    (points : ∀ tid < 2 ^ exponent,
      SumPoint x cols (2 ^ exponent) row top low tid (turns cols (2 ^ exponent) + 3) sums)
    (reduced : ReduceRuns (2 ^ exponent) add sums total)
    (ran : PhaseRuns (2 ^ exponent) (normalizePhase cols (2 ^ exponent) row) total memory') {c : ℕ}
    (bound : c < cols) :
    memory'.y (row * cols + c) =
      quotient x cols (2 ^ exponent) row (fun tid => (sums.registers tid).maxVal) c := by
  have some : 0 < 2 ^ exponent := Nat.two_pow_pos exponent
  have inside := Nat.mod_lt c some
  have sum : total.smem 0 = (Finset.range cols).fold add zero fun c =>
      weight x cols row (sums.registers (c % 2 ^ exponent)).maxVal c := by
    refine smem_of_reduce (add_zero (0 : EReal)) le_rfl (fun tid inside => ?_) reduced
    rw [(points tid inside).stored rfl, (points tid inside).summed (by omega), sumUpTo_all _ some _ (by omega)]
    refine Finset.fold_congr fun c member => ?_
    rw [(mem_strided.mp member).2]
  rw [y_of_normalizePhase some ran bound, sum, (others_of_reduce reduced).2,
    (points _ inside).written c bound rfl
    (Nat.add_lt_add_right (div_lt_groups some bound) 2 |>.trans (Nat.lt_succ_self _))]
  rfl

/-- **Every run of a block**: the threads of the first warp have read the maximum of the row, and each other one
that or the sum of thread 0. -/
theorem kernel_runs {exponent : ℕ} (ran : Runs (warps (2 ^ exponent))
    (softmaxBlockKernel x cols (2 ^ exponent) row) memory memory') :
    ∃ maxVal : ℕ → EReal,
      (∀ tid < 2 ^ exponent, maxVal tid = rowMax x cols row ∨
        warpSize ≤ tid ∧ maxVal tid = firstSum x cols (2 ^ exponent) row) ∧
      ∀ c < cols, memory'.y (row * cols + c) = quotient x cols (2 ^ exponent) row maxVal c := by
  obtain ⟨maxima, reduced, sums, total, first, second, third, fourth, fifth⟩ := kernel_runs_iff.mp ran
  have top : reduced.smem 0 = rowMax x cols row :=
    smem_of_reduce (max_self _) le_rfl (fun tid inside => smem_of_maxPhase first inside) second
  have points {tid : ℕ} (inside : tid < 2 ^ exponent) := sumPhase_read third inside
  refine ⟨fun tid => (sums.registers tid).maxVal, fun tid inside => ?_, fun c bound =>
    y_of_sums (fun tid inside => points inside) fourth fifth bound⟩
  have read := (points inside).read (by omega)
  rwa [top] at read

/-- **A run of a block in which the race is lost**: all threads outside the first warp have read the sum of
thread 0. -/
theorem exists_kernel_race (x : ℕ → EReal) (cols row exponent : ℕ) (memory : Memory EReal) :
    ∃ memory' maxVal, Runs (warps (2 ^ exponent)) (softmaxBlockKernel x cols (2 ^ exponent) row)
    memory memory' ∧
      (∀ tid < 2 ^ exponent, maxVal tid =
        if tid < warpSize then rowMax x cols row else firstSum x cols (2 ^ exponent) row) ∧
      ∀ c < cols, memory'.y (row * cols + c) = quotient x cols (2 ^ exponent) row maxVal c := by
  have some : 0 < 2 ^ exponent := Nat.two_pow_pos exponent
  obtain ⟨maxima, first⟩ := exists_runs (warps (2 ^ exponent))
    [(maxPhase x cols (2 ^ exponent) row).map (lanewise warpSize (2 ^ exponent))] memory
  obtain ⟨reduced, second⟩ : ∃ reduced, ReduceRuns (2 ^ exponent) fmax maxima reduced := exists_runs _ _ maxima
  obtain ⟨sums, third, race⟩ := sumPhase_race x cols row some reduced
  obtain ⟨total, fourth⟩ : ∃ total, ReduceRuns (2 ^ exponent) add sums total := exists_runs _ _ sums
  obtain ⟨memory', fifth⟩ : ∃ memory', PhaseRuns (2 ^ exponent)
      (normalizePhase cols (2 ^ exponent) row) total memory' :=
    exists_runs _ _ total
  have top : reduced.smem 0 = rowMax x cols row :=
    smem_of_reduce (max_self _) le_rfl (fun tid inside => smem_of_maxPhase first inside) second
  have points {tid : ℕ} (inside : tid < 2 ^ exponent) := sumPhase_read third inside
  refine ⟨memory', fun tid => (sums.registers tid).maxVal,
    kernel_runs_iff.mpr ⟨maxima, reduced, sums, total, first, second, third, fourth, fifth⟩,
    fun tid inside => ?_,
    fun c bound => y_of_sums (fun tid inside => points inside) fourth fifth bound⟩
  split_ifs with early
  · have read := ((points inside).read (by omega)).resolve_right fun high => absurd high.1 (by omega)
    rwa [top] at read
  · refine (race tid inside (by omega)).trans ?_
    rw [top]
    rfl

end

end Insist.Kernels.Softmax
