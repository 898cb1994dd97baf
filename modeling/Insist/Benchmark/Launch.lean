/- **The launches of the bandwidth benchmarks**: `main` of `src/vector_add.cu` and `src/reduction.cu`, from the
options to the end.

The options are texts: `parse_u64` reads any number of 64 bits, and `parse_i32` makes an `int` of any positive
number that a `long` can hold. What the CUDA runtime answers is arbitrary, but for what is documented of a
launch: it fails when a dimension is 0 or above its limit (2^31 - 1 blocks, 1024 threads), and a dimension is an
`int` made unsigned. All calls go through `CHECK_CUDA`, a launch through the `cudaGetLastError` after it, so
`main` exits with an error when one fails. The texts that `main` prints are left out, and its rates are looked
at apart.

* `VectorAddRight`, `ReductionRight` — what the sizes are to be, and what they are for;
* `possible_benchmark_iff` — `main` gets to its end only with launches within the limits, if it makes any;
* `gridOf_eq` — the number of blocks, as long as nothing wraps;
* `vectorAddRight_iff`, `reductionRight_iff` — the sizes are right exactly if they fit;
* **`sound_iff_harmless`** — the launch arithmetic is sound exactly for harmless arguments.
-/
import Insist.Kernels.Reduction
import Insist.Lib.Answers
import Mathlib.Algebra.Order.Floor.Div

namespace Insist.Benchmark

open Lib Kernels.Reduction

/-! ### The options -/

/-- `strtoull` with base 10: a number that is too large becomes the largest one, a minus sign negates modulo
2^64; without a digit nothing is taken. -/
def strtoull (text : List Char) : ℕ × List Char :=
  let (sign, body) : ℤ × List Char :=
    match text.dropWhile isSpace with
    | '-' :: body => (-1, body)
    | '+' :: body => (1, body)
    | body => (1, body)
  match body.takeWhile Char.isDigit with
  | [] => (0, text)
  | digits =>
      (if ofDigits digits < 2 ^ 64 then (sign * ofDigits digits % 2 ^ 64).toNat else 2 ^ 64 - 1,
        body.dropWhile Char.isDigit)

/-- `parse_u64`; `none` where it exits. -/
def parseU64 (text : List Char) : Option ℕ :=
  let (v, rest) := strtoull text
  if rest = text ∨ rest ≠ [] then none else some v

/-! ### Conversions -/

/-- A number made a `std::uint64_t`, or a `std::size_t`. -/
def toU64 (value : ℤ) : ℕ := (value % 2 ^ 64).toNat

/-- `static_cast<int>`. -/
def toInt (value : ℕ) : ℤ := Int.bmod value (2 ^ 32)

/-- An `int` made the `unsigned int` of a `dim3`. -/
def toDim (value : ℤ) : ℕ := (value % 2 ^ 32).toNat

/-! ### Calls -/

/-- `<<<gridDim, blockDim, sharedBytes>>>`. -/
structure Launch where
  gridDim : ℕ
  blockDim : ℕ
  sharedBytes : ℕ := 0
deriving DecidableEq, Repr

/-- What `main` calls and can fail. -/
inductive Call
  | getDevice
  | getDeviceProperties
  | malloc (bytes : ℕ)
  | memset (value bytes : ℕ)
  /-- A launch; its failure is reported by the next `cudaGetLastError`. -/
  | launch (launch : Launch)
  | getLastError
  | deviceSynchronize
  | eventCreate
  | eventRecord
  | eventElapsedTime
  | eventDestroy
  | free
  /-- `std::vector::reserve`, which throws. -/
  | reserve (size : ℕ)
deriving DecidableEq, Repr

/-- The documented limits of a launch. -/
def Launch.Valid (launch : Launch) : Prop :=
  1 ≤ launch.gridDim ∧ launch.gridDim < 2 ^ 31 ∧ 1 ≤ launch.blockDim ∧ launch.blockDim ≤ 1024

instance decidableValid (launch : Launch) : Decidable launch.Valid :=
  inferInstanceAs (Decidable (_ ∧ _ ∧ _ ∧ _))

/-- What is documented of a call that succeeds. The `max_size` of a vector is below 2^63. -/
def Call.Possible : Call → Prop
  | .launch dims => dims.Valid
  | .reserve size => size < 2 ^ 63
  | .getDevice | .getDeviceProperties | .malloc _ | .memset _ _ | .getLastError | .deviceSynchronize
  | .eventCreate | .eventRecord | .eventElapsedTime | .eventDestroy | .free => True

instance decidablePossible : DecidablePred Call.Possible
  | .launch dims => decidableValid dims
  | .reserve size => inferInstanceAs (Decidable (size < 2 ^ 63))
  | .getDevice | .getDeviceProperties | .malloc _ | .memset _ _ | .getLastError | .deviceSynchronize
  | .eventCreate | .eventRecord | .eventElapsedTime | .eventDestroy | .free => isTrue trivial

/-- The surroundings of `main`. -/
abbrev Runtime := Answers Call.Possible

/-- Between the warm-up and the rounds that are timed. -/
def prepare (repeats : ℤ) : List Call :=
  [.getLastError, .deviceSynchronize, .eventCreate, .eventCreate, .reserve (toU64 repeats),
    .reserve (toU64 repeats)]

/-- A round that is timed. -/
def timedRound (launch : Launch) : List Call :=
  [.deviceSynchronize, .eventRecord, .launch launch, .eventRecord, .deviceSynchronize, .getLastError,
    .eventElapsedTime]

/-- From the first launch to the end, where `main` frees this many arrays. -/
def benchmark (launch : Launch) (warmup repeats : ℤ) (arrays : ℕ) : List Call :=
  List.replicate warmup.toNat (Call.launch launch) ++ prepare repeats ++
    (List.replicate repeats.toNat (timedRound launch)).flatten ++ List.replicate 2 Call.eventDestroy ++
    List.replicate arrays Call.free

/-! ### `main` -/

/-- The sizes `main` has computed: the bytes of each `cudaMalloc`, and the two numbers of the launches. -/
structure Sizes where
  allocated : List ℕ
  gridSize : ℤ
  blockSize : ℤ
deriving DecidableEq, Repr

/-- A division of two `std::uint64_t`. -/
def quotient (dividend divisor : ℕ) : Option ℕ := if divisor = 0 then none else some (dividend / divisor)

/-- `main` of `vector_add.cu`, with the values of its options. -/
def vectorAdd (runtime : Runtime) (n : ℕ) (blockSize warmup repeats : ℤ) : Except Failure Sizes := do
  let bytes := n * 4 % 2 ^ 64
  let setup : List Call :=
    [.getDevice, .getDeviceProperties, .malloc bytes, .malloc bytes, .malloc bytes, .memset 1 bytes,
      .memset 2 bytes, .memset 0 bytes]
  check (runtime.all 0 setup)
  let blocks ← defined (quotient ((n + toU64 blockSize + (2 ^ 64 - 1)) % 2 ^ 64) (toU64 blockSize))
  let gridSize := toInt blocks
  let launch : Launch := { gridDim := toDim gridSize, blockDim := toDim blockSize }
  check (runtime.all setup.length (benchmark launch warmup repeats 3))
  return { allocated := [bytes, bytes, bytes], gridSize := gridSize, blockSize := blockSize }

/-- `main` of `reduction.cu`, with the values of its options. -/
def reduction (runtime : Runtime) (n : ℕ) (blockSize warmup repeats : ℤ) : Except Failure Sizes := do
  let inputBytes := n * 4 % 2 ^ 64
  let setup : List Call := [.getDevice, .getDeviceProperties]
  check (runtime.all 0 setup)
  let width := toU64 blockSize * 2 % 2 ^ 64
  let blocks ← defined (quotient ((n + width + (2 ^ 64 - 1)) % 2 ^ 64) width)
  let gridSize := toInt blocks
  let partialBytes := toU64 gridSize * 4 % 2 ^ 64
  let launch : Launch :=
    { gridDim := toDim gridSize, blockDim := toDim blockSize, sharedBytes := toU64 blockSize * 4 % 2 ^ 64 }
  let arrays : List Call :=
    [.malloc inputBytes, .malloc partialBytes, .memset 1 inputBytes, .memset 0 partialBytes]
  check (runtime.all setup.length (arrays ++ benchmark launch warmup repeats 2))
  return { allocated := [inputBytes, partialBytes], gridSize := gridSize, blockSize := blockSize }

/-- The texts of the options. One that is not given has its default, which is one of the texts it accepts. -/
structure Options where
  n : List Char
  block : List Char
  warmup : List Char
  repeats : List Char

/-- The start of `main`: the options are read. -/
def withOptions (options : Options) (program : ℕ → ℤ → ℤ → ℤ → Except Failure Sizes) :
    Except Failure Sizes := do
  let n ← orExit (parseU64 options.n)
  let warmup ← orExit (parseI32 options.warmup)
  let repeats ← orExit (parseI32 options.repeats)
  let blockSize ← orExit (parseI32 options.block)
  program n blockSize warmup repeats

/-- `idx` of `vector_add_kernel`. -/
def idx (blockDim block tid : ℕ) : ℕ := (block * blockDim + tid) % 2 ^ 64

/-! ### What is to be computed -/

/-- The sizes of `vector_add` are right: every array has room for `n` floats, the blocks are as many as the
elements need, every element is some thread's, and a thread keeps to the arrays. -/
structure VectorAddRight (n : ℕ) (sizes : Sizes) : Prop where
  block : 1 ≤ sizes.blockSize
  allocated : sizes.allocated = [4 * n, 4 * n, 4 * n]
  grid : sizes.gridSize = (n ⌈/⌉ sizes.blockSize.toNat : ℕ)
  covered : ∀ i < n, ∃ block < sizes.gridSize.toNat, ∃ tid < sizes.blockSize.toNat,
    idx sizes.blockSize.toNat block tid = i
  inside : ∀ block < sizes.gridSize.toNat, ∀ tid < sizes.blockSize.toNat,
    idx sizes.blockSize.toNat block tid < n →
      ∀ bytes ∈ sizes.allocated, 4 * idx sizes.blockSize.toNat block tid + 4 ≤ bytes

/-- The places of `x` that a thread of `reduce_sum_stage1_kernel` looks at. -/
def looked (blockDim block tid : ℕ) : List ℕ :=
  [global blockDim block tid, (global blockDim block tid + blockDim) % 2 ^ 64]

/-- The sizes of `reduction` are right. -/
structure ReductionRight (n : ℕ) (sizes : Sizes) : Prop where
  block : 1 ≤ sizes.blockSize
  allocated : sizes.allocated = [4 * n, 4 * sizes.gridSize.toNat]
  grid : sizes.gridSize = (n ⌈/⌉ (2 * sizes.blockSize.toNat) : ℕ)
  covered : ∀ i < n, ∃ block < sizes.gridSize.toNat, ∃ tid < sizes.blockSize.toNat,
    i ∈ looked sizes.blockSize.toNat block tid
  inside : ∀ block < sizes.gridSize.toNat,
    (∀ tid < sizes.blockSize.toNat, ∀ place ∈ looked sizes.blockSize.toNat block tid, place < n →
      4 * place + 4 ≤ sizes.allocated.getD 0 0) ∧
    4 * block + 4 ≤ sizes.allocated.getD 1 0

/-! ### When it is -/

/-- At least one thread in a block, a number of bytes below 2^64, and a number of blocks that is an `int`. -/
structure Fits (perThread n : ℕ) (blockSize : ℤ) : Prop where
  block : 1 ≤ blockSize
  bytes : 4 * n < 2 ^ 64
  blocks : n ≤ perThread * blockSize.toNat * (2 ^ 31 - 1)

/-- The launch is within the limits, whatever the number of blocks has become. -/
def Live (perThread n : ℕ) (blockSize : ℤ) : Prop :=
  1 ≤ blockSize ∧ blockSize ≤ 1024 ∧
    let blocks := (n + perThread * blockSize.toNat - 1) % 2 ^ 64 / (perThread * blockSize.toNat)
    1 ≤ blocks % 2 ^ 32 ∧ blocks % 2 ^ 32 < 2 ^ 31

/-- The block is not empty, and the sizes fit, or `main` exits: at the `reserve` of a negative number, or at a
launch that is not within the limits. -/
def Harmless (perThread n : ℕ) (blockSize warmup repeats : ℤ) : Prop :=
  blockSize ≠ 0 ∧
    (Fits perThread n blockSize ∨ repeats < 0 ∨ (0 < warmup ∨ 0 < repeats) ∧ ¬ Live perThread n blockSize)

/-! ### Numbers -/

section Numbers

variable {value : ℤ} {n width : ℕ}

theorem toU64_of_nonneg (nonneg : 0 ≤ value) (small : value < 2 ^ 64) : toU64 value = value.toNat := by
  unfold toU64
  rw [Int.emod_eq_of_lt nonneg small]

/-- For an `int`, only 0 becomes 0. -/
theorem toU64_eq_zero_iff (low : -2 ^ 31 ≤ value) (high : value < 2 ^ 31) : toU64 value = 0 ↔ value = 0 := by
  unfold toU64
  omega

/-- A negative `int` becomes more than any size. -/
theorem toU64_lt_iff (low : -2 ^ 31 ≤ value) (high : value < 2 ^ 31) : toU64 value < 2 ^ 63 ↔ 0 ≤ value := by
  unfold toU64
  omega

theorem toDim_toInt (blocks : ℕ) : toDim (toInt blocks) = blocks % 2 ^ 32 := by
  have same : Int.bmod blocks (2 ^ 32) % ((2 ^ 32 : ℕ) : ℤ) = blocks % ((2 ^ 32 : ℕ) : ℤ) := Int.bmod_emod
  unfold toDim toInt
  omega

theorem toInt_lt (blocks : ℕ) : toInt blocks < 2 ^ 31 := by
  have bound : Int.bmod blocks (2 ^ 32) < ((2 ^ 32 : ℕ) + 1) / 2 := Int.bmod_lt (by decide)
  unfold toInt
  omega

theorem toInt_of_lt {blocks : ℕ} (small : blocks < 2 ^ 31) : toInt blocks = blocks :=
  Int.bmod_eq_of_le (by omega) (by omega)

/-- The rounded quotient, as long as the sum does not wrap. -/
theorem rounded_eq (some : 0 < width) (small : n + width - 1 < 2 ^ 64) :
    (n + width + (2 ^ 64 - 1)) % 2 ^ 64 / width = n ⌈/⌉ width := by
  have sum : (n + width + (2 ^ 64 - 1)) % 2 ^ 64 = n + width - 1 := by omega
  rw [Nat.ceilDiv_eq_add_pred_div, sum]

end Numbers

/-! ### The calls -/

/-- The turns of a loop are possible if it has none, or one of them is. -/
theorem forall_mem_turns {turn : List Call} {turns : ℕ} {property : Call → Prop} :
    (∀ call ∈ (List.replicate turns turn).flatten, property call) ↔
      turns = 0 ∨ ∀ call ∈ turn, property call := by
  induction turns with
  | zero => simp
  | succ turns ih =>
      rw [List.replicate_succ, List.flatten_cons, List.forall_mem_append, ih]
      constructor
      · exact fun both => Or.inr both.1
      · rintro (none | one)
        · cases none
        · exact ⟨one, Or.inr one⟩

/-- What the calls from the first launch on need. -/
theorem possible_benchmark_iff {launch : Launch} {warmup repeats : ℤ} {arrays : ℕ} (low : -2 ^ 31 ≤ repeats)
    (high : repeats < 2 ^ 31) :
    (∀ call ∈ benchmark launch warmup repeats arrays, call.Possible) ↔
      0 ≤ repeats ∧ (0 < warmup ∨ 0 < repeats → launch.Valid) := by
  have prepared : (∀ call ∈ prepare repeats, call.Possible) ↔ 0 ≤ repeats := by
    rw [← toU64_lt_iff low high]
    simp [prepare, Call.Possible]
  have timed : (∀ call ∈ timedRound launch, call.Possible) ↔ launch.Valid := by
    simp [timedRound, Call.Possible]
  have launched : (Call.launch launch).Possible ↔ launch.Valid := Iff.rfl
  have destroyed : Call.eventDestroy.Possible := trivial
  have freed : Call.free.Possible := trivial
  simp only [benchmark, List.forall_mem_append, List.forall_mem_replicate, forall_mem_turns, prepared, timed,
    launched, destroyed, freed, or_true, and_true]
  by_cases valid : launch.Valid
  · simp [valid]
  · simp only [valid, or_false, imp_false, not_or, not_lt, Int.toNat_eq_zero]
    tauto

/-! ### `main` for all answers -/

theorem sound_quotient_bind {β : Type} {good : β → Prop} (dividend divisor : ℕ) (next : ℕ → Except Failure β) :
    Sound good (defined (quotient dividend divisor) >>= next) ↔
      divisor ≠ 0 ∧ Sound good (next (dividend / divisor)) := by
  rw [sound_defined_bind]
  unfold quotient
  by_cases zero : divisor = 0
  · rw [if_pos zero]
    exact iff_of_false (fun ⟨_, impossible, _⟩ => nomatch impossible) (fun both => both.1 zero)
  · rw [if_neg zero]
    exact ⟨fun ⟨_, same, sound⟩ => ⟨zero, Option.some.inj same ▸ sound⟩, fun both => ⟨_, rfl, both.2⟩⟩

/-- The number of blocks of this width, as `main` computes it. -/
def gridOf (n width : ℕ) : ℤ := toInt ((n + width + (2 ^ 64 - 1)) % 2 ^ 64 / width)

theorem vectorAdd_sound_iff (good : Sizes → Prop) (n : ℕ) (blockSize warmup : ℤ) {repeats : ℤ}
    (low : -2 ^ 31 ≤ repeats) (high : repeats < 2 ^ 31) :
    (∀ runtime : Runtime, Sound good (vectorAdd runtime n blockSize warmup repeats)) ↔
      toU64 blockSize ≠ 0 ∧
        (0 ≤ repeats → (0 < warmup ∨ 0 < repeats → Launch.Valid
            { gridDim := toDim (gridOf n (toU64 blockSize)), blockDim := toDim blockSize }) →
          good { allocated := [n * 4 % 2 ^ 64, n * 4 % 2 ^ 64, n * 4 % 2 ^ 64]
                 gridSize := gridOf n (toU64 blockSize), blockSize := blockSize }) := by
  simp only [vectorAdd, sound_check_bind, sound_quotient_bind]
  refine Answers.forall_staged_iff.trans ?_
  rw [possible_benchmark_iff low high]
  simp only [List.forall_mem_cons, Call.Possible, List.not_mem_nil, false_implies, implies_true, and_true,
    true_implies, and_imp]
  rfl

theorem reduction_sound_iff (good : Sizes → Prop) (n : ℕ) (blockSize warmup : ℤ) {repeats : ℤ}
    (low : -2 ^ 31 ≤ repeats) (high : repeats < 2 ^ 31) :
    (∀ runtime : Runtime, Sound good (reduction runtime n blockSize warmup repeats)) ↔
      toU64 blockSize * 2 % 2 ^ 64 ≠ 0 ∧
        (0 ≤ repeats → (0 < warmup ∨ 0 < repeats → Launch.Valid
            { gridDim := toDim (gridOf n (toU64 blockSize * 2 % 2 ^ 64)), blockDim := toDim blockSize
              sharedBytes := toU64 blockSize * 4 % 2 ^ 64 }) →
          good { allocated :=
                   [n * 4 % 2 ^ 64, toU64 (gridOf n (toU64 blockSize * 2 % 2 ^ 64)) * 4 % 2 ^ 64]
                 gridSize := gridOf n (toU64 blockSize * 2 % 2 ^ 64), blockSize := blockSize }) := by
  simp only [reduction, sound_check_bind, sound_quotient_bind]
  refine Answers.forall_staged_iff.trans ?_
  rw [List.forall_mem_append, possible_benchmark_iff low high]
  simp only [List.forall_mem_cons, Call.Possible, List.not_mem_nil, false_implies, implies_true, and_true,
    true_and, true_implies, and_imp]
  rfl

/-! ### The sizes -/

section Sizes

variable {n width perThread : ℕ} {blockSize : ℤ}

/-- **The number of blocks is the one that the elements need**, if it is an `int`. -/
theorem gridOf_eq (some : 0 < width) (small : n + width - 1 < 2 ^ 64) (few : n ≤ width * (2 ^ 31 - 1)) :
    gridOf n width = (n ⌈/⌉ width : ℕ) := by
  have blocks : n ⌈/⌉ width ≤ 2 ^ 31 - 1 := (ceilDiv_le_iff_le_mul some).mpr few
  rw [gridOf, rounded_eq some small, toInt_of_lt (by omega)]

theorem few_of_gridOf (some : 0 < width) (grid : gridOf n width = (n ⌈/⌉ width : ℕ)) :
    n ≤ width * (2 ^ 31 - 1) := by
  have bound : gridOf n width < 2 ^ 31 := toInt_lt _
  exact (ceilDiv_le_iff_le_mul some).mp (by omega)

theorem bytes_eq_iff : n * 4 % 2 ^ 64 = 4 * n ↔ 4 * n < 2 ^ 64 := by omega

theorem width_of_pos (positive : 1 ≤ blockSize) (high : blockSize < 2 ^ 31) :
    toU64 blockSize = blockSize.toNat :=
  toU64_of_nonneg (by omega) (by omega)

theorem doubled_of_pos (positive : 1 ≤ blockSize) (high : blockSize < 2 ^ 31) :
    toU64 blockSize * 2 % 2 ^ 64 = 2 * blockSize.toNat := by
  rw [width_of_pos positive high]
  omega

/-- **The sizes of `vector_add` are right exactly if they fit.** -/
theorem vectorAddRight_iff (high : blockSize < 2 ^ 31) :
    VectorAddRight n
        { allocated := [n * 4 % 2 ^ 64, n * 4 % 2 ^ 64, n * 4 % 2 ^ 64]
          gridSize := gridOf n (toU64 blockSize), blockSize := blockSize } ↔
      Fits 1 n blockSize := by
  constructor
  · rintro ⟨block, allocated, grid, _, _⟩
    dsimp only at block allocated grid
    rw [width_of_pos block high] at grid
    refine ⟨block, bytes_eq_iff.mp (List.cons.inj allocated).1, ?_⟩
    rw [Nat.one_mul]
    exact few_of_gridOf (by omega) grid
  · rintro ⟨block, bytes, few⟩
    rw [Nat.one_mul] at few
    have some : 0 < blockSize.toNat := by omega
    have grid : gridOf n (toU64 blockSize) = (n ⌈/⌉ blockSize.toNat : ℕ) := by
      rw [width_of_pos block high]
      exact gridOf_eq some (by omega) few
    refine ⟨block, ?_, ?_, fun i inside => ?_, fun _ _ _ _ inside => ?_⟩
    · show [n * 4 % 2 ^ 64, n * 4 % 2 ^ 64, n * 4 % 2 ^ 64] = [4 * n, 4 * n, 4 * n]
      rw [bytes_eq_iff.mpr bytes]
    · dsimp only
      exact grid
    · refine ⟨i / blockSize.toNat, ?_, i % blockSize.toNat, Nat.mod_lt _ some, ?_⟩
      · dsimp only
        rw [grid, Int.toNat_natCast]
        exact Simt.div_lt_groups some inside
      · rw [idx, Nat.div_add_mod']
        exact Nat.mod_eq_of_lt (by omega)
    · dsimp only at inside ⊢
      intro size member
      simp only [List.mem_cons, List.not_mem_nil, or_false, or_self] at member
      omega

/-- The elements of a block of `reduction`: each thread looks at one in the first half, and at one in the
second. -/
theorem mem_looked {blockDim i : ℕ} (some : 0 < blockDim) (small : i < 2 ^ 62) (narrow : blockDim < 2 ^ 31) :
    ∃ tid < blockDim, i ∈ looked blockDim (i / (2 * blockDim)) tid := by
  have whole := Nat.div_add_mod i (2 * blockDim)
  have rest := Nat.mod_lt i (show 0 < 2 * blockDim by omega)
  have start : i / (2 * blockDim) * blockDim * 2 = 2 * blockDim * (i / (2 * blockDim)) := by ring
  generalize 2 * blockDim * (i / (2 * blockDim)) = first at whole start
  by_cases half : i % (2 * blockDim) < blockDim
  · refine ⟨i % (2 * blockDim), half, List.mem_cons.mpr (Or.inl ?_)⟩
    rw [global, start]
    omega
  · refine ⟨i % (2 * blockDim) - blockDim, by omega, List.mem_cons.mpr (Or.inr (List.mem_singleton.mpr ?_))⟩
    rw [global, start]
    omega

/-- **The sizes of `reduction` are right exactly if they fit.** -/
theorem reductionRight_iff (high : blockSize < 2 ^ 31) :
    ReductionRight n
        { allocated := [n * 4 % 2 ^ 64, toU64 (gridOf n (toU64 blockSize * 2 % 2 ^ 64)) * 4 % 2 ^ 64]
          gridSize := gridOf n (toU64 blockSize * 2 % 2 ^ 64), blockSize := blockSize } ↔
      Fits 2 n blockSize := by
  constructor
  · rintro ⟨block, allocated, grid, _, _⟩
    dsimp only at block allocated grid
    rw [doubled_of_pos block high] at grid
    exact ⟨block, bytes_eq_iff.mp (List.cons.inj allocated).1, few_of_gridOf (by omega) grid⟩
  · rintro ⟨block, bytes, few⟩
    have some : 0 < blockSize.toNat := by omega
    have grid : gridOf n (toU64 blockSize * 2 % 2 ^ 64) = (n ⌈/⌉ (2 * blockSize.toNat) : ℕ) := by
      rw [doubled_of_pos block high]
      exact gridOf_eq (by omega) (by omega) few
    have bound : gridOf n (toU64 blockSize * 2 % 2 ^ 64) < 2 ^ 31 := toInt_lt _
    generalize gridOf n (toU64 blockSize * 2 % 2 ^ 64) = gridSize at grid bound ⊢
    have sums : toU64 gridSize * 4 % 2 ^ 64 = 4 * gridSize.toNat := by
      rw [toU64_of_nonneg (by omega) (by omega)]
      omega
    refine ⟨block, ?_, grid, fun i inside => ?_, fun index inside => ⟨fun _ _ place _ below => ?_, ?_⟩⟩
    · show [n * 4 % 2 ^ 64, toU64 gridSize * 4 % 2 ^ 64] = [4 * n, 4 * gridSize.toNat]
      rw [bytes_eq_iff.mpr bytes, sums]
    · have narrow : blockSize.toNat < 2 ^ 31 := by omega
      refine ⟨i / (2 * blockSize.toNat), ?_, mem_looked some (by omega) narrow⟩
      dsimp only
      rw [grid, Int.toNat_natCast]
      exact Simt.div_lt_groups (by omega) inside
    · rw [List.getD_cons_zero]
      omega
    · rw [List.getD_cons_succ, List.getD_cons_zero, sums]
      dsimp only at inside
      omega

/-- **The launch is within its limits exactly if it is live.** -/
theorem valid_iff_live {sharedBytes : ℕ} (positive : 1 ≤ n) (low : -2 ^ 31 ≤ blockSize)
    (high : blockSize < 2 ^ 31) (agrees : 1 ≤ blockSize → width = perThread * blockSize.toNat) :
    Launch.Valid
    { gridDim := toDim (gridOf n width), blockDim := toDim blockSize, sharedBytes := sharedBytes } ↔
      Live perThread n blockSize := by
  unfold Launch.Valid Live gridOf
  rw [toDim_toInt]
  by_cases block : 1 ≤ blockSize
  · have same : toDim blockSize = blockSize.toNat := by
      unfold toDim
      omega
    have sum : (n + width + (2 ^ 64 - 1)) % 2 ^ 64 = (n + width - 1) % 2 ^ 64 := by omega
    rw [same, sum, agrees block]
    dsimp only
    omega
  · have outside : ¬ (1 ≤ toDim blockSize ∧ toDim blockSize ≤ 1024) := by
      unfold toDim
      omega
    exact iff_of_false (fun valid => outside valid.2.2) (fun live => block live.1)

end Sizes

/-! ### The accepted arguments -/

/-- What `parse_i32` accepts becomes an `int`. -/
theorem parseI32_range {text : List Char} {value : ℤ} (accepted : parseI32 text = some value) :
    -2 ^ 31 ≤ value ∧ value < 2 ^ 31 := by
  unfold parseI32 at accepted
  simp only at accepted
  split_ifs at accepted with refused
  have above : Int.bmod (strtol text).1 (2 ^ 32) < ((2 ^ 32 : ℕ) + 1) / 2 := Int.bmod_lt (by decide)
  have below : -((2 ^ 32 : ℕ) / 2) ≤ Int.bmod (strtol text).1 (2 ^ 32) := Int.le_bmod (by decide)
  have same := Option.some.inj accepted
  omega

section Harmless

variable {n : ℕ} {blockSize warmup repeats : ℤ}

theorem harmless_iff {perThread : ℕ} :
    Harmless perThread n blockSize warmup repeats ↔
      blockSize ≠ 0 ∧
        (0 ≤ repeats → (0 < warmup ∨ 0 < repeats → Live perThread n blockSize) →
          Fits perThread n blockSize) := by
  have sign : repeats < 0 ↔ ¬ 0 ≤ repeats := not_le.symm
  unfold Harmless
  rw [sign]
  tauto

theorem vectorAdd_harmless (positive : 1 ≤ n) (low : -2 ^ 31 ≤ blockSize) (high : blockSize < 2 ^ 31)
    (low' : -2 ^ 31 ≤ repeats) (high' : repeats < 2 ^ 31) (warmup : ℤ) :
    (∀ runtime : Runtime, Sound (VectorAddRight n) (vectorAdd runtime n blockSize warmup repeats)) ↔
      Harmless 1 n blockSize warmup repeats := by
  have agrees (block : 1 ≤ blockSize) : toU64 blockSize = 1 * blockSize.toNat := by
    rw [Nat.one_mul]
    exact width_of_pos block high
  rw [vectorAdd_sound_iff _ n blockSize warmup low' high', vectorAddRight_iff high,
    valid_iff_live positive low high agrees, ne_eq, toU64_eq_zero_iff low high, harmless_iff]

theorem reduction_harmless (positive : 1 ≤ n) (low : -2 ^ 31 ≤ blockSize) (high : blockSize < 2 ^ 31)
    (low' : -2 ^ 31 ≤ repeats) (high' : repeats < 2 ^ 31) (warmup : ℤ) :
    (∀ runtime : Runtime, Sound (ReductionRight n) (reduction runtime n blockSize warmup repeats)) ↔
      Harmless 2 n blockSize warmup repeats := by
  have zero : toU64 blockSize * 2 % 2 ^ 64 = 0 ↔ blockSize = 0 := by
    unfold toU64
    omega
  rw [reduction_sound_iff _ n blockSize warmup low' high', reductionRight_iff high,
    valid_iff_live positive low high (fun block => doubled_of_pos block high), ne_eq, zero, harmless_iff]

/-- Options that are accepted give their values to the rest of `main`. -/
theorem withOptions_eq {options : Options} (parsedN : parseU64 options.n = some n)
    (parsedBlock : parseI32 options.block = some blockSize)
    (parsedWarmup : parseI32 options.warmup = some warmup)
    (parsedRepeats : parseI32 options.repeats = some repeats)
    (program : ℕ → ℤ → ℤ → ℤ → Except Failure Sizes) :
    withOptions options program = program n blockSize warmup repeats := by
  rw [withOptions, parsedN, parsedWarmup, parsedRepeats, parsedBlock]
  rfl

end Harmless

/-- **The launch arithmetic is sound exactly for harmless arguments.** For all texts that `--n`, `--block`,
`--warmup` and `--repeat` accept, with at least one element: whatever the calls answer, `vector_add` exits with
an error or has right sizes, and does not divide by zero, exactly if its arguments are harmless with one element
a thread; and `reduction`, exactly if they are with two. -/
theorem sound_iff_harmless {options : Options} {n : ℕ} {blockSize warmup repeats : ℤ}
    (parsedN : parseU64 options.n = some n) (parsedBlock : parseI32 options.block = some blockSize)
    (parsedWarmup : parseI32 options.warmup = some warmup)
    (parsedRepeats : parseI32 options.repeats = some repeats) (positive : 1 ≤ n) :
    ((∀ runtime : Runtime, Sound (VectorAddRight n) (withOptions options (vectorAdd runtime))) ↔
      Harmless 1 n blockSize warmup repeats) ∧
    ((∀ runtime : Runtime, Sound (ReductionRight n) (withOptions options (reduction runtime))) ↔
      Harmless 2 n blockSize warmup repeats) := by
  obtain ⟨low, high⟩ := parseI32_range parsedBlock
  obtain ⟨low', high'⟩ := parseI32_range parsedRepeats
  simp only [withOptions_eq parsedN parsedBlock parsedWarmup parsedRepeats]
  exact ⟨vectorAdd_harmless positive low high low' high' warmup,
    reduction_harmless positive low high low' high' warmup⟩

/-- The defaults, 268435456 elements in blocks of 256 threads. -/
def defaults : Options :=
  { n := "268435456".toList, block := "256".toList, warmup := "10".toList, repeats := "50".toList }

theorem defaults_sound :
    (∀ runtime : Runtime, Sound (VectorAddRight 268435456) (withOptions defaults (vectorAdd runtime))) ∧
      ∀ runtime : Runtime, Sound (ReductionRight 268435456) (withOptions defaults (reduction runtime)) := by
  have sound := sound_iff_harmless (show parseU64 defaults.n = some 268435456 by decide)
    (show parseI32 defaults.block = some 256 by decide) (show parseI32 defaults.warmup = some 10 by decide)
    (show parseI32 defaults.repeats = some 50 by decide) (by decide)
  have fits (perThread : ℕ) (some : 1 ≤ perThread) : Fits perThread 268435456 256 :=
    ⟨by decide, by decide, le_trans (by decide) (Nat.mul_le_mul_right _ (Nat.mul_le_mul_right _ some))⟩
  exact ⟨sound.1.mpr ⟨by decide, Or.inl (fits 1 (by decide))⟩,
    sound.2.mpr ⟨by decide, Or.inl (fits 2 (by decide))⟩⟩

/-- A number of elements whose bytes are 4 modulo 2^64, and whose blocks are one modulo 2^32. -/
def wrapped : Options := { defaults with n := "4611686018427387905".toList }

/-- A block size that is 0 modulo 2^32. -/
def narrowed : Options := { defaults with block := "4294967296".toList }

/-- With the defaults otherwise, there is no division by zero, but a launch, and too few bytes. -/
theorem not_harmless_wrapped {perThread : ℕ} (live : Live perThread 4611686018427387905 256) :
    ¬ Harmless perThread 4611686018427387905 256 10 50 := by
  rintro ⟨_, fits | negative | ⟨_, dead⟩⟩
  · exact absurd fits.bytes (by decide)
  · exact absurd negative (by decide)
  · exact dead live

theorem not_harmless_narrowed (perThread n : ℕ) (warmup repeats : ℤ) :
    ¬ Harmless perThread n 0 warmup repeats :=
  fun harmless => harmless.1 rfl

/-- **A small allocation with a live launch, and a division by zero**: the first of the two options is accepted,
with the defaults otherwise, and so is the second. -/
theorem wrapped_unsound :
    (parseU64 wrapped.n = some 4611686018427387905 ∧ parseI32 wrapped.block = some 256 ∧
      (¬ ∀ runtime : Runtime, Sound (VectorAddRight 4611686018427387905)
        (withOptions wrapped (vectorAdd runtime))) ∧
      ¬ ∀ runtime : Runtime, Sound (ReductionRight 4611686018427387905)
        (withOptions wrapped (reduction runtime))) ∧
    parseU64 narrowed.n = some 268435456 ∧ parseI32 narrowed.block = some 0 ∧
      (¬ ∀ runtime : Runtime, Sound (VectorAddRight 268435456) (withOptions narrowed (vectorAdd runtime))) ∧
      ¬ ∀ runtime : Runtime, Sound (ReductionRight 268435456) (withOptions narrowed (reduction runtime)) := by
  have wrappedN : parseU64 wrapped.n = some 4611686018427387905 := by decide
  have wrappedBlock : parseI32 wrapped.block = some 256 := by decide
  have narrowedN : parseU64 narrowed.n = some 268435456 := by decide
  have narrowedBlock : parseI32 narrowed.block = some 0 := by decide
  have warmup : parseI32 defaults.warmup = some 10 := by decide
  have repeats : parseI32 defaults.repeats = some 50 := by decide
  refine ⟨⟨wrappedN, wrappedBlock, ?_, ?_⟩, narrowedN, narrowedBlock, ?_, ?_⟩
  · simp only [withOptions_eq wrappedN wrappedBlock warmup repeats]
    rw [vectorAdd_harmless (by decide) (by decide) (by decide) (by decide) (by decide)]
    exact not_harmless_wrapped (by unfold Live; decide)
  · simp only [withOptions_eq wrappedN wrappedBlock warmup repeats]
    rw [reduction_harmless (by decide) (by decide) (by decide) (by decide) (by decide)]
    exact not_harmless_wrapped (by unfold Live; decide)
  · simp only [withOptions_eq narrowedN narrowedBlock warmup repeats]
    rw [vectorAdd_harmless (by decide) (by decide) (by decide) (by decide) (by decide)]
    exact not_harmless_narrowed _ _ _ _
  · simp only [withOptions_eq narrowedN narrowedBlock warmup repeats]
    rw [reduction_harmless (by decide) (by decide) (by decide) (by decide) (by decide)]
    exact not_harmless_narrowed _ _ _ _

end Insist.Benchmark
