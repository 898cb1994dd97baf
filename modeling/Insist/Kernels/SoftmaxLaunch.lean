/-
**Launches of the softmax kernels, and the naive kernel.**

* `InRow` — an operation that is framed by one row of `y`; all operations of both kernels are;
* `row_of_launch`, `launch_of_row` — so a launch is, row by row, what its blocks do by themselves;
* `naive_writes` — `softmax_naive_kernel` writes the quotients of the row's exponentials and their sum, under
  every schedule.
-/
import Insist.Kernels.SoftmaxPhases
import Insist.Lib.Frame

namespace Insist.Kernels.Softmax

open Lib Lib.Simt FloatOps FloatInf Memory

variable {α : Type*} {cols row rows : ℕ}

/-! ### Blocks that keep to their row -/

/-- The columns of a row. -/
def rowOf (cols row : ℕ) (y : ℕ → α) (c : Fin cols) : α := y (row * cols + c)

/-- What is not in a row. -/
def elsewhere (cols row : ℕ) (y : ℕ → α) (index : {index // ∀ c < cols, index ≠ row * cols + c}) : α := y index

theorem rowOf_eq_iff {y y' : ℕ → α} :
    rowOf cols row y = rowOf cols row y' ↔ ∀ c < cols, y (row * cols + c) = y' (row * cols + c) :=
  ⟨fun same c bound => congrFun same ⟨c, bound⟩, fun same => funext fun c => same c c.isLt⟩

theorem elsewhere_eq_iff {y y' : ℕ → α} :
    elsewhere cols row y = elsewhere cols row y' ↔ ∀ index, (∀ c < cols, index ≠ row * cols + c) →
    y index = y' index :=
  ⟨fun same index outside => congrFun same ⟨index, outside⟩, fun same => funext fun index => same index index.2⟩

/-- The statement reads and writes `y` in this row only. -/
abbrev InRow (cols row : ℕ) (statement : Memory α → Memory α) : Prop :=
  Framed (rowOf cols row) (elsewhere cols row) statement

/-- A statement that writes one column, of what it reads there. -/
theorem InRow.of_column {statement : Memory α → Memory α} {c : ℕ} (bound : c < cols)
    (others : ∀ memory index, index ≠ row * cols + c → (statement memory).y index = memory.y index)
    (same : ∀ memory y, y (row * cols + c) = memory.y (row * cols + c) →
      (statement memory).y (row * cols + c) = (statement (y, memory.2)).y (row * cols + c) ∧
        (statement memory).2 = (statement (y, memory.2)).2) : InRow cols row statement where
  keeps memory := elsewhere_eq_iff.mpr fun index outside => others memory index (outside c bound)
  depends (first second : Memory α) seen own := by
    obtain ⟨here, rest⟩ := same first second.1 (rowOf_eq_iff.mp seen c bound).symm
    rw [own] at here rest
    refine ⟨rowOf_eq_iff.mpr fun c' bound' => ?_, rest⟩
    by_cases written : c' = c
    · rw [written]
      exact here
    · have different : row * cols + c' ≠ row * cols + c := by omega
      calc (statement first).y (row * cols + c') = first.y (row * cols + c') := others first _ different
        _ = second.y (row * cols + c') := rowOf_eq_iff.mp seen c' bound'
        _ = (statement second).y (row * cols + c') := (others second _ different).symm

/-! ### Row by row -/

/-- The phases of a block, from the operations between its barriers. -/
abbrev phasesOf (blockSize : ℕ) (code : List (List (Operation α))) : List (Phase (Memory α)) :=
  code.map fun part => part.map (lanewise warpSize blockSize)

theorem row_ne {other c c' : ℕ} (bound : c < cols) (bound' : c' < cols) (different : other ≠ row) :
    row * cols + c ≠ other * cols + c' := by
  intro same
  have divided (row : ℕ) {c : ℕ} (bound : c < cols) : (row * cols + c) / cols = row := by
    rw [Nat.mul_comm, Nat.mul_add_div (by omega), Nat.div_eq_of_lt bound, Nat.add_zero]
  exact different ((divided other bound').symm.trans (same ▸ divided row bound))

/-- A row is elsewhere for the other rows. -/
theorem apart (row other : Fin rows) (different : other ≠ row) (y y' : ℕ → α)
    (same : elsewhere cols other y = elsewhere cols other y') : rowOf cols row y = rowOf cols row y' :=
  rowOf_eq_iff.mpr fun _ bound => elsewhere_eq_iff.mp same _ fun _ bound' =>
    row_ne bound bound' fun same => different (Fin.ext same)

section Rows

variable {count blockSize : ℕ} {code : Fin rows → List (List (Operation α))}
  (inRow : ∀ row, ∀ part ∈ code row, ∀ operation ∈ part, ∀ tid, InRow cols row (operation tid))

include inRow

theorem framedRows : FramedBlocks (fun row => phasesOf blockSize (code row))
    (fun row : Fin rows => rowOf cols row)
    fun row => elsewhere cols row := by
  rintro row _ ⟨phase, member, inside⟩ warp
  obtain ⟨part, inPart, rfl⟩ := List.mem_map.mp member
  obtain ⟨operation, listed, rfl⟩ := List.mem_map.mp inside
  exact .lanewise (fun tid _ => inRow row part inPart operation listed tid) warp

/-- **A launch is, row by row, what its blocks do by themselves**, and writes nothing else. -/
theorem row_of_launch {y written : ℕ → α}
    (ends : Ends count (fun row => phasesOf blockSize (code row)) y written) :
    (∀ row : Fin rows, ∃ own memory', Runs count (phasesOf blockSize (code row)) (y, own) memory' ∧
      ∀ c < cols, written (row * cols + c) = memory'.y (row * cols + c)) ∧
    ∀ index, rows * cols ≤ index → written index = y index := by
  constructor
  · intro row
    obtain ⟨own, memory', ran, same⟩ := (framedRows inRow).block_of_ends (apart row) ends
    exact ⟨own, memory', ran, fun c bound => (rowOf_eq_iff.mp same c bound).symm⟩
  · intro index outside
    refine (framedRows inRow).keeps_outside ends (fun now => now index) fun row first second same => ?_
    refine elsewhere_eq_iff.mp same index fun c bound here => ?_
    have fits : (row + 1) * cols ≤ rows * cols := Nat.mul_le_mul_right cols row.isLt
    rw [Nat.succ_mul] at fits
    omega

/-- What a block can do by itself, it can do in a launch. -/
theorem launch_of_row (row : Fin rows) {y : ℕ → α} {own : Own α} {memory' : Memory α}
    (ran : Runs count (phasesOf blockSize (code row)) (y, own) memory') :
    ∃ written, Ends count (fun row => phasesOf blockSize (code row)) y written ∧
      ∀ c < cols, written (row * cols + c) = memory'.y (row * cols + c) := by
  obtain ⟨written, ends, same⟩ := (framedRows inRow).ends_of_block (apart row) ran
  exact ⟨written, ends, rowOf_eq_iff.mp same⟩

end Rows

variable [FloatInf α] {x : ℕ → α} {blockSize : ℕ}

theorem inRow_of_block {operation : Operation α} {code : List (Operation α)}
    (part : code ∈ operations x cols blockSize row) (member : operation ∈ code) (tid : ℕ) :
    InRow cols row (operation tid) := by
  simp only [operations, maxPhase, sumPhase, normalizePhase, List.mem_append, List.mem_singleton,
    List.mem_map] at part
  have of_reduce (combine : α → α → α) (stride : ℕ) : InRow cols row (reduce combine stride tid) := by
    by_cases active : tid < stride
    · exact .congr (reduce_of_lt · active) (.of_own (fun _ => rfl) fun _ _ => rfl)
    · exact .congr (reduce_of_not_lt · active) .skip
  rcases part with (((rfl | ⟨stride, _, rfl⟩) | rfl) | ⟨stride, _, rfl⟩) | rfl
  · simp only [List.mem_append, List.mem_singleton, List.mem_map] at member
    rcases member with (rfl | ⟨turn, _, rfl⟩) | rfl
    · exact .of_own (fun _ => rfl) fun _ _ => rfl
    · by_cases more : tid + turn * blockSize < cols
      · exact .congr (takeMax_of_lt · more) (.of_own (fun _ => rfl) fun _ _ => rfl)
      · exact .congr (takeMax_of_not_lt · more) .skip
    · exact .of_own (fun _ => rfl) fun _ _ => rfl
  · exact List.mem_singleton.mp member ▸ of_reduce fmax stride
  · simp only [List.mem_append, List.mem_cons, List.not_mem_nil, or_false, List.mem_map] at member
    rcases member with ((rfl | rfl) | ⟨turn, _, rfl⟩) | rfl
    · exact .of_own (fun _ => rfl) fun _ _ => rfl
    · exact .of_own (fun _ => rfl) fun _ _ => rfl
    · by_cases more : tid + turn * blockSize < cols
      · refine .congr (takeSum_of_lt · more)
          (InRow.of_column more (fun memory index apart => ?_) fun memory y _ => ⟨?_, rfl⟩)
        · exact Function.update_of_ne apart _ _
        · simp [Memory.registers]
      · exact .congr (takeSum_of_not_lt · more) .skip
    · exact .of_own (fun _ => rfl) fun _ _ => rfl
  · exact List.mem_singleton.mp member ▸ of_reduce add stride
  · simp only [List.mem_append, List.mem_singleton, List.mem_map] at member
    rcases member with rfl | ⟨turn, _, rfl⟩
    · exact .of_own (fun _ => rfl) fun _ _ => rfl
    · by_cases more : tid + turn * blockSize < cols
      · refine .congr (normalize_of_lt · more) (InRow.of_column more (fun memory index apart => ?_)
          fun memory y read => ⟨?_, rfl⟩)
        · exact Function.update_of_ne apart _ _
        · rw [y_setY, y_setY, Function.update_self, Function.update_self]
          exact congrArg (div · _) read.symm
      · exact .congr (normalize_of_not_lt · more) .skip

/-! ### The naive kernel -/

theorem inRow_of_naive {code : List (Operation α)} {operation : Operation α}
    (part : code ∈ [(naiveStatements x cols row).map byFirst]) (member : operation ∈ code) (tid : ℕ) :
    InRow cols row (operation tid) := by
  obtain rfl := List.mem_singleton.mp part
  obtain ⟨statement, listed, rfl⟩ := List.mem_map.mp member
  by_cases first : tid = 0
  · refine .congr (fun memory => if_pos first) ?_
    simp only [naiveStatements, List.mem_append, List.mem_singleton, List.mem_map, List.mem_range] at listed
    rcases listed with (((rfl | ⟨c, bound, rfl⟩) | rfl) | ⟨c, bound, rfl⟩) | ⟨c, bound, rfl⟩
    · exact .of_own (fun _ => rfl) fun _ _ => rfl
    · exact .of_own (fun _ => rfl) fun _ _ => rfl
    · exact .of_own (fun _ => rfl) fun _ _ => rfl
    · refine InRow.of_column bound (fun memory index apart => Function.update_of_ne apart _ _) fun memory y
        _ => ⟨?_, rfl⟩
      simp [naiveTakeSum, Memory.registers]
    · refine InRow.of_column bound (fun memory index apart => Function.update_of_ne apart _ _) fun memory y
        read => ⟨?_, rfl⟩
      rw [naiveNormalize, naiveNormalize, y_setY, y_setY, Function.update_self, Function.update_self]
      exact congrArg (div · _) read.symm
  · exact .congr (fun memory => if_neg first) .skip

/-- Only thread 0 does anything. -/
theorem naive_runs {memory memory' : Memory α} (some : 0 < blockSize)
    (ran : Runs (warps blockSize) (softmaxNaiveKernel x cols row blockSize) memory memory') :
    memory' = (naiveStatements x cols row).foldl (fun memory statement => statement memory) memory := by
  have alone := view_of_threads (by decide) (le_groups_mul (by decide) blockSize) some
    (fun memory : Memory α => memory)
    (fun operation _ first second same => congrArg (operation 0) same)
    (fun other _ different operation member now => ?_)
    ran
  · rw [alone, runThread, List.foldl_map]
    rfl
  · obtain ⟨statement, _, rfl⟩ := List.mem_map.mp member
    exact if_neg different

section Loops

variable {x : ℕ → EReal} (memory : Memory EReal)

/-- The first loop. -/
theorem naive_max (count : ℕ) : (((List.range count).foldl (fun memory c => naiveTakeMax x cols row c memory)
    (naiveInitMax memory)).registers 0).maxVal = (Finset.range count).fold fmax negInf fun c =>
      x (row * cols + c) := by
  induction count with
  | zero => simp [naiveInitMax]
  | succ count ih =>
      rw [List.range_succ, List.foldl_append, List.foldl_cons, List.foldl_nil, naiveTakeMax,
        registers_setRegisters,
        Function.update_self]
      show fmax _ _ = _
      rw [ih, Finset.range_add_one, Finset.fold_insert Finset.notMem_range_self]
      exact max_comm _ _

/-- The second loop. -/
theorem naive_sum (count : ℕ) :
    let after := (List.range count).foldl (fun memory c => naiveTakeSum x cols row c memory)
      (naiveInitSum memory)
    (after.registers 0).maxVal = (memory.registers 0).maxVal ∧
      (after.registers 0).sumVal =
        (Finset.range count).fold add zero (weight x cols row (memory.registers 0).maxVal) ∧
      ∀ c < count, after.y (row * cols + c) = weight x cols row (memory.registers 0).maxVal c := by
  induction count with
  | zero => simp [naiveInitSum]
  | succ count ih =>
      obtain ⟨maxVal, sumVal, written⟩ := ih
      simp only [List.range_succ, List.foldl_append, List.foldl_cons, List.foldl_nil]
      generalize (List.range count).foldl (fun memory c => naiveTakeSum x cols row c memory)
        (naiveInitSum memory) =
        before at maxVal sumVal written
      refine ⟨?_, ?_, fun c bound => ?_⟩
      · simpa [naiveTakeSum] using maxVal
      · rw [Finset.range_add_one, Finset.fold_insert Finset.notMem_range_self, ← sumVal]
        refine Eq.trans ?_ (add_comm (before.registers 0).sumVal _)
        simp only [naiveTakeSum, registers_setRegisters, Function.update_self, maxVal]
        rfl
      · simp only [naiveTakeSum, y_setRegisters, y_setY]
        by_cases last : c = count
        · rw [last, Function.update_self, maxVal]
          rfl
        · rw [Function.update_of_ne (by omega)]
          exact written c (by omega)

/-- The third loop. -/
theorem naive_div (count : ℕ) :
    let after := (List.range count).foldl (fun memory c => naiveNormalize cols row c memory) memory
    (after.registers 0).sumVal = (memory.registers 0).sumVal ∧
      ∀ c, after.y (row * cols + c) = if c < count then
        div (memory.y (row * cols + c)) (memory.registers 0).sumVal else memory.y (row * cols + c) := by
  induction count with
  | zero => exact ⟨rfl, fun c => (if_neg (Nat.not_lt_zero c)).symm⟩
  | succ count ih =>
      obtain ⟨sumVal, written⟩ := ih
      simp only [List.range_succ, List.foldl_append, List.foldl_cons, List.foldl_nil]
      generalize (List.range count).foldl (fun memory c => naiveNormalize cols row c memory) memory =
        before at sumVal written
      refine ⟨sumVal, fun c => ?_⟩
      rw [naiveNormalize, y_setY]
      by_cases last : c = count
      · rw [last, Function.update_self, if_pos (Nat.lt_succ_self count), written count,
          if_neg (Nat.lt_irrefl count), sumVal]
      · rw [Function.update_of_ne (by omega), written c]
        by_cases early : c < count
        · rw [if_pos early, if_pos (by omega)]
        · rw [if_neg early, if_neg (by omega)]

/-- **The naive kernel divides the exponentials of a row by their sum.** -/
theorem naive_writes {memory memory' : Memory EReal} (some : 0 < blockSize)
    (ran : Runs (warps blockSize) (softmaxNaiveKernel x cols row blockSize) memory memory') {c : ℕ}
    (bound : c < cols) :
    memory'.y (row * cols + c) = div (weight x cols row (rowMax x cols row) c)
      ((Finset.range cols).fold add zero (weight x cols row (rowMax x cols row))) := by
  rw [naive_runs some ran]
  simp only [naiveStatements, List.foldl_append, List.foldl_cons, List.foldl_nil, List.foldl_map]
  have largest : _ = rowMax x cols row := naive_max memory cols
  obtain ⟨_, sum, written⟩ :=
    naive_sum ((List.range cols).foldl (fun memory c => naiveTakeMax x cols row c memory)
    (naiveInitMax memory)) cols
  rw [(naive_div _ cols).2 c, if_pos bound]
  rw [largest] at sum written
  rw [← sum, ← written c bound]

end Loops

end Insist.Kernels.Softmax
