/-
**The softmax kernels** (`kernels/softmax_block.cu`, `kernels/softmax_naive.cu`, and the host of
`src/softmax_bench.cu`).

One block computes one row: `softmax_block_kernel` with all of its threads, which share the array `smem` for the
maximum of the row and then for its sum, and `softmax_naive_kernel` with thread 0 only. A `Memory` is the array
`y` in the memory of the device, with what is the block's own.

Every statement of a kernel is an operation of the threads. A loop over the columns is as many operations as the
thread with the most columns makes, and a thread whose columns are used up sits the rest out. `row * cols` and
the column `c` of a thread are natural numbers, as if the index arithmetic were unbounded; for which matrices
the `int` `row * cols` does not overflow is in `Offsets`, and what the loop over the columns needs in
`SoftmaxBench`.
-/
import Insist.Kernels.FloatOps
import Insist.Lib.Grid

namespace Insist.Kernels.Softmax

open Lib Lib.Simt

/-- The lanes of a warp. -/
def warpSize : ℕ := 32

/-- The local variables of a thread. -/
structure Registers (α : Type*) where
  localMax : α
  maxVal : α
  localSum : α
  sumVal : α

/-- What is a block's own. -/
structure Own (α : Type*) where
  smem : ℕ → α
  registers : ℕ → Registers α

/-- `y`, and what is the block's own. -/
abbrev Memory (α : Type*) := (ℕ → α) × Own α

variable {α : Type*}

namespace Memory

def registers (memory : Memory α) (tid : ℕ) : Registers α := memory.2.registers tid

def smem (memory : Memory α) : ℕ → α := memory.2.smem

def y (memory : Memory α) : ℕ → α := memory.1

def setRegisters (memory : Memory α) (tid : ℕ) (registers : Registers α) : Memory α :=
  (memory.1, { memory.2 with registers := Function.update memory.2.registers tid registers })

def setShared (memory : Memory α) (index : ℕ) (value : α) : Memory α :=
  (memory.1, { memory.2 with smem := Function.update memory.2.smem index value })

def setY (memory : Memory α) (index : ℕ) (value : α) : Memory α :=
  (Function.update memory.1 index value, memory.2)

section

variable (memory : Memory α) (tid index : ℕ) (registers : Registers α) (value : α)

@[simp] theorem registers_setRegisters (other : ℕ) : (memory.setRegisters tid registers).registers other =
    Function.update memory.registers tid registers other := rfl

@[simp] theorem smem_setRegisters : (memory.setRegisters tid registers).smem = memory.smem := rfl

@[simp] theorem y_setRegisters : (memory.setRegisters tid registers).y = memory.y := rfl

@[simp] theorem registers_setShared (other : ℕ) :
    (memory.setShared index value).registers other = memory.registers other := rfl

@[simp] theorem smem_setShared : (memory.setShared index value).smem =
    Function.update memory.smem index value := rfl

@[simp] theorem y_setShared : (memory.setShared index value).y = memory.y := rfl

@[simp] theorem registers_setY (other : ℕ) :
    (memory.setY index value).registers other = memory.registers other := rfl

@[simp] theorem smem_setY : (memory.setY index value).smem = memory.smem := rfl

@[simp] theorem y_setY : (memory.setY index value).y = Function.update memory.y index value := rfl

end

end Memory

/-- A statement, as the threads of a block carry it out. -/
abbrev Operation (α : Type*) := ℕ → Memory α → Memory α

open FloatOps FloatInf

/-! ### `softmax_block_kernel` -/

section Block

variable [FloatInf α] (x : ℕ → α) (cols blockSize row : ℕ)

/-- `local_max = -CUDART_INF_F`. -/
def initMax : Operation α := fun tid memory =>
  memory.setRegisters tid { memory.registers tid with localMax := negInf }

/-- The column of a thread in a turn of its loop. -/
def column (turn tid : ℕ) : ℕ := tid + turn * blockSize

/-- A turn of the first loop. -/
def takeMax (turn : ℕ) : Operation α := fun tid memory =>
  let c := column blockSize turn tid
  if c < cols then
    memory.setRegisters tid { memory.registers tid with
      localMax := fmax (memory.registers tid).localMax (x (row * cols + c)) }
  else memory

/-- `smem[tid] = local_max`. -/
def storeMax : Operation α := fun tid memory => memory.setShared tid (memory.registers tid).localMax

/-- A turn of the loops over `stride`, with `fmaxf` or `+`. -/
def reduce (combine : α → α → α) (stride : ℕ) : Operation α := fun tid memory =>
  if tid < stride then memory.setShared tid (combine (memory.smem tid) (memory.smem (tid + stride))) else memory

/-- `max_val = smem[0]`. -/
def loadMax : Operation α := fun tid memory =>
  memory.setRegisters tid { memory.registers tid with maxVal := memory.smem 0 }

/-- `local_sum = 0.0f`. -/
def initSum : Operation α := fun tid memory =>
  memory.setRegisters tid { memory.registers tid with localSum := zero }

/-- A turn of the second loop. -/
def takeSum (turn : ℕ) : Operation α := fun tid memory =>
  let c := column blockSize turn tid
  if c < cols then
    let e := exp (sub (x (row * cols + c)) (memory.registers tid).maxVal)
    (memory.setY (row * cols + c) e).setRegisters tid { memory.registers tid with
      localSum := add (memory.registers tid).localSum e }
  else memory

/-- `smem[tid] = local_sum`. -/
def storeSum : Operation α := fun tid memory => memory.setShared tid (memory.registers tid).localSum

/-- `sum_val = smem[0]`. -/
def loadSum : Operation α := fun tid memory =>
  memory.setRegisters tid { memory.registers tid with sumVal := memory.smem 0 }

/-- A turn of the last loop. -/
def normalize (turn : ℕ) : Operation α := fun tid memory =>
  let c := column blockSize turn tid
  if c < cols then
    memory.setY (row * cols + c) (div (memory.y (row * cols + c)) (memory.registers tid).sumVal)
  else memory

section

variable {x cols blockSize row} {turn tid : ℕ} (memory : Memory α)

theorem takeMax_of_lt (more : tid + turn * blockSize < cols) : takeMax x cols blockSize row turn tid memory =
    memory.setRegisters tid { memory.registers tid with
      localMax := fmax (memory.registers tid).localMax (x (row * cols + (tid + turn * blockSize))) } :=
  if_pos more

theorem takeMax_of_not_lt (past : ¬ tid + turn * blockSize < cols) :
    takeMax x cols blockSize row turn tid memory = memory :=
  if_neg past

omit [FloatInf α] in
theorem reduce_of_lt {combine : α → α → α} {stride : ℕ} (active : tid < stride) :
    reduce combine stride tid memory = memory.setShared tid
    (combine (memory.smem tid) (memory.smem (tid + stride))) :=
  if_pos active

omit [FloatInf α] in
theorem reduce_of_not_lt {combine : α → α → α} {stride : ℕ} (idle : ¬ tid < stride) :
    reduce combine stride tid memory = memory :=
  if_neg idle

theorem takeSum_of_lt (more : tid + turn * blockSize < cols) : takeSum x cols blockSize row turn tid memory =
    (memory.setY (row * cols + (tid + turn * blockSize))
      (exp (sub (x (row * cols + (tid + turn * blockSize))) (memory.registers tid).maxVal))).setRegisters tid
        { memory.registers tid with
          localSum := add (memory.registers tid).localSum
            (exp (sub (x (row * cols + (tid + turn * blockSize))) (memory.registers tid).maxVal)) } :=
  if_pos more

theorem takeSum_of_not_lt (past : ¬ tid + turn * blockSize < cols) :
    takeSum x cols blockSize row turn tid memory = memory :=
  if_neg past

theorem normalize_of_lt (more : tid + turn * blockSize < cols) : normalize cols blockSize row turn tid memory =
    memory.setY (row * cols + (tid + turn * blockSize))
      (div (memory.y (row * cols + (tid + turn * blockSize))) (memory.registers tid).sumVal) :=
  if_pos more

theorem normalize_of_not_lt (past : ¬ tid + turn * blockSize < cols) :
    normalize cols blockSize row turn tid memory = memory :=
  if_neg past

end

/-- The turns of thread 0, which has the most. -/
def turns : ℕ := (cols + blockSize - 1) / blockSize

/-- The values of `stride` in a loop that starts with this one. -/
def strides (stride : ℕ) : List ℕ :=
  if stride = 0 then [] else stride :: strides (stride / 2)

/-- From the start to the first barrier. -/
def maxPhase : List (Operation α) :=
  [initMax] ++ (List.range (turns cols blockSize)).map (takeMax x cols blockSize row) ++ [storeMax]

/-- From the barrier behind the reduction of the maximum to the next one. -/
def sumPhase : List (Operation α) :=
  [loadMax, initSum] ++ (List.range (turns cols blockSize)).map (takeSum x cols blockSize row) ++ [storeSum]

/-- From the last barrier to the end. -/
def normalizePhase : List (Operation α) :=
  [loadSum] ++ (List.range (turns cols blockSize)).map (normalize cols blockSize row)

/-- What stands between the barriers of `softmax_block_kernel`. -/
def operations : List (List (Operation α)) :=
  [maxPhase x cols blockSize row] ++ (strides (blockSize / 2)).map (fun stride => [reduce fmax stride]) ++
    [sumPhase x cols blockSize row] ++ (strides (blockSize / 2)).map (fun stride => [reduce add stride]) ++
    [normalizePhase cols blockSize row]

/-- The warps of a block. -/
def warps : ℕ := (blockSize + warpSize - 1) / warpSize

/-- `softmax_block_kernel`. -/
def softmaxBlockKernel : List (Phase (Memory α)) :=
  (operations x cols blockSize row).map fun code => code.map (lanewise warpSize blockSize)

end Block

/-! ### `softmax_naive_kernel` -/

section Naive

variable [FloatInf α] (x : ℕ → α) (cols row : ℕ)

/-- `if (threadIdx.x == 0)`. -/
def byFirst (statement : Memory α → Memory α) : Operation α := fun tid memory =>
  if tid = 0 then statement memory else memory

/-- `max_val = -CUDART_INF_F`. -/
def naiveInitMax (memory : Memory α) : Memory α :=
  memory.setRegisters 0 { memory.registers 0 with maxVal := negInf }

/-- A turn of the first loop of `softmax_naive_kernel`. -/
def naiveTakeMax (c : ℕ) (memory : Memory α) : Memory α :=
  memory.setRegisters 0 { memory.registers 0 with
    maxVal := fmax (memory.registers 0).maxVal (x (row * cols + c)) }

/-- `sum_val = 0.0f`. -/
def naiveInitSum (memory : Memory α) : Memory α :=
  memory.setRegisters 0 { memory.registers 0 with sumVal := zero }

/-- A turn of the second loop. -/
def naiveTakeSum (c : ℕ) (memory : Memory α) : Memory α :=
  let e := exp (sub (x (row * cols + c)) (memory.registers 0).maxVal)
  (memory.setY (row * cols + c) e).setRegisters 0 { memory.registers 0 with
    sumVal := add (memory.registers 0).sumVal e }

/-- A turn of the last loop. -/
def naiveNormalize (c : ℕ) (memory : Memory α) : Memory α :=
  memory.setY (row * cols + c) (div (memory.y (row * cols + c)) (memory.registers 0).sumVal)

/-- What thread 0 does. -/
def naiveStatements : List (Memory α → Memory α) :=
  [naiveInitMax] ++ (List.range cols).map (naiveTakeMax x cols row) ++
    [naiveInitSum] ++ (List.range cols).map (naiveTakeSum x cols row) ++
    (List.range cols).map (naiveNormalize cols row)

/-- `softmax_naive_kernel`. -/
def softmaxNaiveKernel (blockSize : ℕ) : List (Phase (Memory α)) :=
  [((naiveStatements x cols row).map byFirst).map (lanewise warpSize blockSize)]

end Naive

/-! ### Launches -/

section Launch

variable [FloatInf α] (x : ℕ → α) (rows cols blockSize : ℕ)

/-- What `y` can be after `softmax_block_kernel<<<rows, blockSize>>>(x, y, rows, cols)`. -/
def BlockEnds (y written : ℕ → α) : Prop :=
  Ends (warps blockSize) (fun row : Fin rows => softmaxBlockKernel x cols blockSize row) y written

/-- What `y` can be after `softmax_naive_kernel<<<rows, blockSize>>>(x, y, rows, cols)`. -/
def NaiveEnds (y written : ℕ → α) : Prop :=
  Ends (warps blockSize) (fun row : Fin rows => softmaxNaiveKernel x cols row blockSize) y written

end Launch

end Insist.Kernels.Softmax
