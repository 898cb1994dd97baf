/-
**`reduce_sum_stage1_kernel`, and how it is launched** (`src/reduction.cu`).

Every block adds up the elements of twice as many places as it has threads: each thread takes two, the blocks'
shared array is halved as long as the stride is above 32, and the first warp adds up what is left and writes
`partial`. A `Memory` is the memory of the device, with what is the block's own; the device also keeps account
of the places of shared memory that each block has accessed.

Every statement of the kernel is an operation of the threads; the threads of the first warp carry out a
statement of the last stage in lockstep, which is that all of them read before one of them writes. `--block` is
read by `parse_i32`, and the number of blocks is an `int`. The limit that a device puts on the size of a block
is not part of the program.
-/
import Insist.Kernels.FloatOps
import Insist.Lib.Grid

namespace Insist.Kernels.Reduction

open Lib Lib.Simt

/-- The lanes of a warp. -/
def warpSize : ℕ := 32

/-- What is a block's own. -/
structure Own (α : Type*) where
  smem : ℕ → α
  /-- The local variable `sum` of each thread. -/
  sum : ℕ → α

/-- The memory of the device, as far as the kernel changes it. -/
structure Device (α : Type*) where
  /-- `partial`. -/
  sums : ℕ → α
  /-- The places of `smem` that each block has accessed. -/
  accessed : ℕ → Finset ℕ

abbrev Memory (α : Type*) := Device α × Own α

variable {α : Type*}

namespace Memory

def smem (memory : Memory α) : ℕ → α := memory.2.smem

def sum (memory : Memory α) : ℕ → α := memory.2.sum

def setShared (memory : Memory α) (place : ℕ) (value : α) : Memory α :=
  (memory.1, { memory.2 with smem := Function.update memory.2.smem place value })

def setSum (memory : Memory α) (tid : ℕ) (value : α) : Memory α :=
  (memory.1, { memory.2 with sum := Function.update memory.2.sum tid value })

def setPartial (memory : Memory α) (block : ℕ) (value : α) : Memory α :=
  ({ memory.1 with sums := Function.update memory.1.sums block value }, memory.2)

/-- The block accesses these places of `smem`. -/
def access (memory : Memory α) (block : ℕ) (places : Finset ℕ) : Memory α :=
  ({ memory.1 with
      accessed := Function.update memory.1.accessed block (memory.1.accessed block ∪ places) }, memory.2)

section

variable (memory : Memory α) (tid place block : ℕ) (value : α) (places : Finset ℕ)

@[simp] theorem smem_setShared : (memory.setShared place value).smem =
    Function.update memory.smem place value := rfl

@[simp] theorem sum_setShared : (memory.setShared place value).sum = memory.sum := rfl

@[simp] theorem device_setShared : (memory.setShared place value).1 = memory.1 := rfl

@[simp] theorem smem_setSum : (memory.setSum tid value).smem = memory.smem := rfl

@[simp] theorem sum_setSum : (memory.setSum tid value).sum = Function.update memory.sum tid value := rfl

@[simp] theorem device_setSum : (memory.setSum tid value).1 = memory.1 := rfl

@[simp] theorem smem_access : (memory.access block places).smem = memory.smem := rfl

@[simp] theorem sum_access : (memory.access block places).sum = memory.sum := rfl

@[simp] theorem sums_access : (memory.access block places).1.sums = memory.1.sums := rfl

@[simp] theorem accessed_access : (memory.access block places).1.accessed =
    Function.update memory.1.accessed block (memory.1.accessed block ∪ places) := rfl

end

end Memory

/-- A statement, as the threads of a block carry it out. -/
abbrev Operation (α : Type*) := ℕ → Memory α → Memory α

/-! ### `reduce_sum_stage1_kernel` -/

section Kernel

variable [FloatOps α] (x : ℕ → α) (n blockDim block : ℕ)

/-- `global`, an unsigned number of 64 bits. -/
def global (tid : ℕ) : ℕ := (block * blockDim * 2 + tid) % 2 ^ 64

/-- `float sum = 0.0f`. -/
def initSum : Operation α := fun tid memory => memory.setSum tid FloatOps.zero

/-- The first element of a thread. -/
def takeFirst : Operation α := fun tid memory =>
  if global blockDim block tid < n then
    memory.setSum tid (FloatOps.add (memory.sum tid) (x (global blockDim block tid)))
  else memory

/-- The second one. -/
def takeSecond : Operation α := fun tid memory =>
  if (global blockDim block tid + blockDim) % 2 ^ 64 < n then
    memory.setSum tid (FloatOps.add (memory.sum tid) (x ((global blockDim block tid + blockDim) % 2 ^ 64)))
  else memory

/-- `smem[tid] = sum`. -/
def storeSum : Operation α := fun tid memory => (memory.access block {tid}).setShared tid (memory.sum tid)

/-- A turn of the loop over `stride`. -/
def reduce (stride : ℕ) : Operation α := fun tid memory =>
  if tid < stride then
    (memory.access block {tid, tid + stride}).setShared tid
      (FloatOps.add (memory.smem tid) (memory.smem (tid + stride)))
  else memory

/-- `vsmem[tid] += vsmem[tid + offset]`, for the threads of the first warp in lockstep. -/
def lastWarp (offset : ℕ) : Instruction (Memory α) := fun warp memory =>
  if warp = 0 then
    let lanes := Finset.range (min warpSize blockDim)
    let memory := memory.access block (lanes ∪ lanes.image (· + offset))
    (memory.1, { memory.2 with
      smem := fun place =>
        if place < min warpSize blockDim then FloatOps.add (memory.smem place) (memory.smem (place + offset))
        else memory.smem place })
  else memory

/-- `if (tid == 0) partial[blockIdx.x] = smem[0]`. -/
def writePartial : Operation α := fun tid memory =>
  if tid = 0 then (memory.access block {0}).setPartial block (memory.smem 0) else memory

/-- The values of `stride` in a loop that starts with this one. -/
def strides (stride : ℕ) : List ℕ :=
  if 32 < stride then stride :: strides (stride / 2) else []

/-- From the start to the first barrier. -/
def loadPhase : Phase (Memory α) :=
  [initSum, takeFirst x n blockDim block, takeSecond x n blockDim block, storeSum block].map
    (lanewise warpSize blockDim)

/-- A turn of the loop, up to its barrier. -/
def reducePhase (stride : ℕ) : Phase (Memory α) := [lanewise warpSize blockDim (reduce block stride)]

/-- From the last barrier to the end. -/
def lastPhase : Phase (Memory α) :=
  [32, 16, 8, 4, 2, 1].map (lastWarp blockDim block) ++ [lanewise warpSize blockDim (writePartial block)]

/-- `reduce_sum_stage1_kernel`. -/
def reduceSumStage1Kernel : List (Phase (Memory α)) :=
  [loadPhase x n blockDim block] ++ (strides (blockDim / 2)).map (reducePhase blockDim block) ++
    [lastPhase blockDim block]

/-- The warps of a block. -/
def warps : ℕ := (blockDim + warpSize - 1) / warpSize

end Kernel

/-! ### `main` -/

/-- `isspace`. -/
def isSpace (char : Char) : Bool := char == ' ' || (9 ≤ char.toNat && char.toNat ≤ 13)

/-- The number that these digits write. -/
def ofDigits (digits : List Char) : ℤ :=
  digits.foldl (fun value digit => 10 * value + (digit.toNat - '0'.toNat : ℤ)) 0

/-- `strtol` with base 10: the number, at most 64 bits wide, and the rest of the text; without a digit nothing
is taken. -/
def strtol (text : List Char) : ℤ × List Char :=
  let (sign, body) : ℤ × List Char :=
    match text.dropWhile isSpace with
    | '-' :: body => (-1, body)
    | '+' :: body => (1, body)
    | body => (1, body)
  match body.takeWhile Char.isDigit with
  | [] => (0, text)
  | digits => (max (-2 ^ 63) (min (2 ^ 63 - 1) (sign * ofDigits digits)), body.dropWhile Char.isDigit)

/-- `parse_i32`; `none` where it exits. -/
def parseI32 (text : List Char) : Option ℤ :=
  let (v, rest) := strtol text
  if rest = text ∨ rest ≠ [] ∨ v ≤ 0 then none else some (Int.bmod v (2 ^ 32))

/-- `grid_size`: the quotient has 64 bits, and is made an `int`. -/
def gridSize (n blockSize : ℕ) : ℤ :=
  Int.bmod (((n + blockSize * 2 - 1) % 2 ^ 64 / (blockSize * 2) : ℕ) : ℤ) (2 ^ 32)

/-- What the device can hold after
`reduce_sum_stage1_kernel<<<grid_size, block_size, shared_bytes>>>(d_x, d_partial, n)`; without a positive
number of blocks none runs. -/
def LaunchEnds [FloatOps α] (x : ℕ → α) (n blockSize : ℕ) (device device' : Device α) : Prop :=
  Ends (warps blockSize)
    (fun block : Fin (gridSize n blockSize).toNat => reduceSumStage1Kernel x n blockSize block) device device'

end Insist.Kernels.Reduction
