/- **The softmax benchmark**: `main` of `src/softmax_bench.cu`, from its arguments to the rows that its launches
write.

`get_int_arg` takes the first argument that is its key and has a successor, and `atoi` makes an `int` of any
text. The one test is that `threads` has no two bits; what else is wrong is found by the calls: a vector that is
too long, a launch with a dimension out of its limits. The launches that are timed are not followed by
`cudaGetLastError`, so any of them may not have run. What is drawn for `x` is arbitrary, and the times that are
printed are left out.

* `getIntArg_range` — every argument is an `int`;
* `bits_iff` — what the test lets through within the limits of a launch;
* `admitted_of_ended`, `ended_of_admitted` — what `main` has passed when it ends, and that nothing else is
  needed;
* `ends_iff` — **which command lines let `main` get to its end**, if all calls succeed that can;
* `rows_of_ends` — the launches normalise every row, whichever of the timed ones have run;
* `columns_exact_iff` — when no thread overflows on its way over the columns;
* `bench_normalises` — **a run that ends has computed rows that are normalised**, and no `int` of its launches
  overflows if the last row starts, and the last step over the columns ends, within the range of an `int`.
-/
import Insist.Benchmark.Launch
import Insist.Kernels.Offsets
import Insist.Kernels.SoftmaxNormal

namespace Insist.Benchmark.SoftmaxBench

open Lib Kernels.Reduction
open Kernels.Offsets (int SoftmaxExact)
open Kernels.Softmax (BlockEnds Normalised)

/-! ### The arguments -/

/-- `std::atoi`: `strtol`, made an `int`. -/
def atoi (text : List Char) : ℤ := Int.bmod (strtol text).1 (2 ^ 32)

/-- `get_int_arg`, with `--` and the name put together. -/
def getIntArg (key : List Char) (defaultValue : ℤ) : List (List Char) → ℤ
  | argument :: value :: rest =>
      if argument = key then atoi value else getIntArg key defaultValue (value :: rest)
  | _ => defaultValue

/-- What `main` reads. -/
structure Arguments where
  rows : ℤ
  cols : ℤ
  iters : ℤ
  threads : ℤ
deriving DecidableEq, Repr

/-- From `argv[1]` on. -/
def readArguments (arguments : List (List Char)) : Arguments where
  rows := getIntArg "--rows".toList 4096 arguments
  cols := getIntArg "--cols".toList 1024 arguments
  iters := getIntArg "--iters".toList 100 arguments
  threads := getIntArg "--threads".toList 256 arguments

/-- All of them are an `int`. -/
structure InRange (arguments : Arguments) : Prop where
  rows : -2 ^ 31 ≤ arguments.rows ∧ arguments.rows < 2 ^ 31
  cols : -2 ^ 31 ≤ arguments.cols ∧ arguments.cols < 2 ^ 31
  threads : -2 ^ 31 ≤ arguments.threads ∧ arguments.threads < 2 ^ 31

theorem getIntArg_range {key : List Char} {defaultValue : ℤ}
    (fits : -2 ^ 31 ≤ defaultValue ∧ defaultValue < 2 ^ 31)
    (arguments : List (List Char)) :
    -2 ^ 31 ≤ getIntArg key defaultValue arguments ∧ getIntArg key defaultValue arguments < 2 ^ 31 := by
  fun_induction getIntArg key defaultValue arguments with
  | case1 value rest =>
      have low := Int.le_bmod (x := (strtol value).1) (m := 2 ^ 32) (by decide)
      have high := Int.bmod_lt (x := (strtol value).1) (m := 2 ^ 32) (by decide)
      unfold atoi
      omega
  | case2 argument value rest other ih => exact ih
  | case3 => exact fits

theorem readArguments_inRange (arguments : List (List Char)) : InRange (readArguments arguments) where
  rows := getIntArg_range (by decide) arguments
  cols := getIntArg_range (by decide) arguments
  threads := getIntArg_range (by decide) arguments

/-! ### `main` -/

/-- What `main` calls and can fail, all through `CUDA_CHECK` but for the vector, which throws. -/
inductive Call
  | vector (size : ℕ)
  | malloc (bytes : ℕ)
  | memcpy (bytes : ℕ)
  /-- A launch before the timed ones; its failure is reported by the next `cudaGetLastError`. -/
  | launch (launch : Launch)
  | getLastError
  | deviceSynchronize
  | eventCreate
  | eventRecord
  | eventSynchronize
  | eventElapsedTime
  | eventDestroy
  | free
deriving DecidableEq, Repr

/-- What is documented of a call that succeeds. The `max_size` of a vector of floats is below 2^61. -/
def Call.Possible : Call → Prop
  | .launch dims => dims.Valid
  | .vector size => size < 2 ^ 61
  | _ => True

instance Call.decidablePossible : DecidablePred Call.Possible
  | .launch dims => decidableValid dims
  | .vector size => inferInstanceAs (Decidable (size < 2 ^ 61))
  | .malloc _ | .memcpy _ | .getLastError | .deviceSynchronize | .eventCreate | .eventRecord | .eventSynchronize
  | .eventElapsedTime | .eventDestroy | .free => isTrue trivial

/-- The number of floats. -/
def count (arguments : Arguments) : ℕ := toU64 arguments.rows * toU64 arguments.cols % 2 ^ 64

/-- The launch, with room for a float of every thread. -/
def launchOf (arguments : Arguments) : Launch where
  gridDim := toDim arguments.rows
  blockDim := toDim arguments.threads
  sharedBytes := toU64 arguments.threads * 4 % 2 ^ 64

/-- The calls that are checked. -/
def calls (arguments : Arguments) : List Call :=
  let bytes := count arguments * 4 % 2 ^ 64
  [.vector (count arguments), .malloc bytes, .malloc bytes, .memcpy bytes] ++
    List.replicate 10 (Call.launch (launchOf arguments)) ++
    [.getLastError, .deviceSynchronize, .eventCreate, .eventCreate, .eventRecord, .eventRecord,
      .eventSynchronize,
      .eventElapsedTime, .eventDestroy, .eventDestroy, .free, .free]

/-- `main`, with what it has read. -/
def main (runtime : Answers Call.Possible) (arguments : Arguments) : Except Failure Unit := do
  let less ← defined (int (arguments.threads - 1))
  if BitVec.ofInt 32 arguments.threads &&& BitVec.ofInt 32 less ≠ 0 then .error .exits
  else check (runtime.all 0 (calls arguments))

/-! ### Which arguments it takes -/

/-- The arguments that work. -/
structure Admitted (arguments : Arguments) (exponent : ℕ) : Prop where
  rows : 1 ≤ arguments.rows
  cols : 0 ≤ arguments.cols
  small : arguments.rows * arguments.cols < 2 ^ 61
  threads : arguments.threads = 2 ^ exponent
  narrow : exponent ≤ 10

/-- **The test finds the powers of two**, among the numbers of threads that a block can have. -/
theorem bits_iff {threads : ℤ} (some : 1 ≤ threads) (narrow : threads ≤ 1024) :
    BitVec.ofInt 32 threads &&& BitVec.ofInt 32 (threads - 1) = 0 ↔
    ∃ exponent ≤ 10, threads = 2 ^ exponent := by
  obtain ⟨size, rfl⟩ := Int.eq_ofNat_of_zero_le (show 0 ≤ threads by omega)
  have less : (size : ℤ) - 1 = (size - 1 : ℕ) := by omega
  have bits : BitVec.ofInt 32 size &&& BitVec.ofInt 32 (size - 1 : ℕ) = 0 ↔ size &&& (size - 1) = 0 := by
    rw [BitVec.ofInt_natCast, BitVec.ofInt_natCast, BitVec.toNat_eq, BitVec.toNat_and, BitVec.toNat_ofNat,
      BitVec.toNat_ofNat, Nat.mod_eq_of_lt (by omega), Nat.mod_eq_of_lt (by omega)]
    rfl
  rw [less, bits, Nat.and_sub_one_eq_zero_iff_isPowerOfTwo (by omega)]
  constructor
  · rintro ⟨exponent, rfl⟩
    have bound : 2 ^ exponent ≤ 2 ^ 10 := by exact_mod_cast narrow
    exact ⟨exponent, (Nat.pow_le_pow_iff_right (by decide)).mp bound, by push_cast; rfl⟩
  · rintro ⟨exponent, _, same⟩
    exact ⟨exponent, by exact_mod_cast same⟩

/-- A product of sizes is the size of the product. -/
theorem toU64_mul (first second : ℤ) : toU64 first * toU64 second % 2 ^ 64 = toU64 (first * second) := by
  unfold toU64
  have low := Int.emod_nonneg first (show (2 ^ 64 : ℤ) ≠ 0 by decide)
  have low' := Int.emod_nonneg second (show (2 ^ 64 : ℤ) ≠ 0 by decide)
  zify
  rw [Int.toNat_of_nonneg low, Int.toNat_of_nonneg low',
    Int.toNat_of_nonneg (Int.emod_nonneg _ (by decide)), ← Int.mul_emod]

/-- What the checked calls need. -/
theorem possible_calls_iff {arguments : Arguments} (inRange : InRange arguments) :
    (∀ call ∈ calls arguments, call.Possible) ↔
      (1 ≤ arguments.rows ∧ 0 ≤ arguments.cols ∧ arguments.rows * arguments.cols < 2 ^ 61) ∧
        1 ≤ arguments.threads ∧ arguments.threads ≤ 1024 := by
  have needs : (∀ call ∈ calls arguments, call.Possible) ↔
      count arguments < 2 ^ 61 ∧ (launchOf arguments).Valid := by
    simp [calls, Call.Possible]
  obtain ⟨⟨rowsLow, rowsHigh⟩, ⟨colsLow, colsHigh⟩, threadsLow, threadsHigh⟩ := inRange
  have grid : 1 ≤ toDim arguments.rows ∧ toDim arguments.rows < 2 ^ 31 ↔ 1 ≤ arguments.rows := by
    unfold toDim
    omega
  have block : 1 ≤ toDim arguments.threads ∧ toDim arguments.threads ≤ 1024 ↔
      1 ≤ arguments.threads ∧ arguments.threads ≤ 1024 := by
    unfold toDim
    omega
  have valid : (launchOf arguments).Valid ↔ (1 ≤ toDim arguments.rows ∧ toDim arguments.rows < 2 ^ 31) ∧
      1 ≤ toDim arguments.threads ∧ toDim arguments.threads ≤ 1024 := and_assoc.symm
  rw [needs, valid, grid, block, ← and_assoc, count, toU64_mul]
  refine and_congr_left fun _ => ?_
  constructor
  · rintro ⟨small, some⟩
    have low : arguments.rows * -2 ^ 31 ≤ arguments.rows * arguments.cols :=
      Int.mul_le_mul_of_nonneg_left colsLow (by omega)
    have high : arguments.rows * arguments.cols ≤ arguments.rows * 2 ^ 31 :=
      Int.mul_le_mul_of_nonneg_left colsHigh.le (by omega)
    -- a negative number of columns makes a number of floats next to 2^64
    have product : 0 ≤ arguments.rows * arguments.cols ∧ arguments.rows * arguments.cols < 2 ^ 61 := by
      unfold toU64 at small
      omega
    exact ⟨some, nonneg_of_mul_nonneg_right product.1 (by omega), product.2⟩
  · rintro ⟨some, cols, small⟩
    have product := Int.mul_nonneg (show 0 ≤ arguments.rows by omega) cols
    refine ⟨?_, some⟩
    rw [toU64_of_nonneg product (by omega)]
    omega

/-- **A run that ends has had arguments that work.** -/
theorem admitted_of_ended {arguments : Arguments} (inRange : InRange arguments)
    {runtime : Answers Call.Possible}
    (ended : main runtime arguments = .ok ()) : ∃ exponent, Admitted arguments exponent := by
  unfold main at ended
  obtain ⟨less, computed, ended⟩ := defined_bind_eq_ok.mp ended
  obtain ⟨_, rfl⟩ := checked_eq_some.mp computed
  split_ifs at ended with bits
  have succeeded : runtime.all 0 (calls arguments) = true := by
    by_contra failed
    rw [check, if_neg failed] at ended
    cases ended
  obtain ⟨⟨rows, cols, small⟩, some, narrow⟩ :=
    (possible_calls_iff inRange).mp (Answers.possible_of_all succeeded)
  obtain ⟨exponent, bound, same⟩ := (bits_iff some narrow).mp (not_not.mp bits)
  exact ⟨exponent, rows, cols, small, same, bound⟩

/-- **Arguments that work let `main` get to its end**, if every call succeeds that can. -/
theorem ended_of_admitted {arguments : Arguments} (inRange : InRange arguments) {exponent : ℕ}
    (admitted : Admitted arguments exponent) : main (Answers.generous Call.Possible) arguments = .ok () := by
  obtain ⟨rows, cols, small, threads, narrow⟩ := admitted
  have some : 1 ≤ arguments.threads := by
    rw [threads]
    exact_mod_cast Nat.one_le_two_pow
  have few : arguments.threads ≤ 1024 := by
    rw [threads]
    exact_mod_cast Nat.pow_le_pow_right (show 1 ≤ 2 by decide) narrow
  have possible := (possible_calls_iff inRange).mpr ⟨⟨rows, cols, small⟩, some, few⟩
  have computed : int (arguments.threads - 1) = .some (arguments.threads - 1) :=
    if_pos (by unfold Lib.Fits Kernels.Offsets.intBound; omega)
  unfold main
  rw [computed]
  show (if BitVec.ofInt 32 arguments.threads &&& BitVec.ofInt 32 (arguments.threads - 1) ≠ 0 then _ else _) = _
  rw [if_neg (not_not.mpr ((bits_iff some few).mpr ⟨exponent, narrow, threads⟩)), Answers.all_generous possible]
  rfl

/-- **Which command lines let `main` get to its end**, when every call succeeds that can. -/
theorem ends_iff (arguments : List (List Char)) :
    (∃ runtime, main runtime (readArguments arguments) = .ok ()) ↔
      ∃ exponent, Admitted (readArguments arguments) exponent := by
  have inRange := readArguments_inRange arguments
  constructor
  · rintro ⟨runtime, ended⟩
    exact admitted_of_ended inRange ended
  · rintro ⟨exponent, admitted⟩
    exact ⟨Answers.generous Call.Possible, ended_of_admitted inRange admitted⟩

/-! ### The columns as `int`s -/

/-- No thread of a block has an overflow in `c += block_size`, which ends every turn of its loops. -/
def ColumnsExact (cols threads : ℤ) : Prop :=
  ∀ tid turn : ℤ, 0 ≤ tid → tid < threads → 0 ≤ turn → tid + turn * threads < cols →
    int (tid + turn * threads + threads) = some (tid + (turn + 1) * threads)

/-- **The columns and the threads together have to be in the range of an `int`.** -/
theorem columns_exact_iff {cols threads : ℤ} (some : 0 < cols) (positive : 0 < threads) :
    ColumnsExact cols threads ↔ cols + threads ≤ 2 ^ 31 := by
  have exact_iff (tid turn : ℤ) : int (tid + turn * threads + threads) = .some (tid + (turn + 1) * threads) ↔
      Lib.Fits Kernels.Offsets.intBound (tid + turn * threads + threads) := by
    refine checked_eq_some.trans (and_iff_left ?_)
    ring
  constructor
  · intro holds
    -- the thread of the last column
    have last : (cols - 1) % threads + (cols - 1) / threads * threads = cols - 1 := by
      rw [mul_comm]
      exact Int.emod_add_mul_ediv _ _
    have fits := (exact_iff _ _).mp (holds ((cols - 1) % threads) ((cols - 1) / threads)
      (Int.emod_nonneg _ positive.ne') (Int.emod_lt_of_pos _ positive)
      (Int.ediv_nonneg (by omega) positive.le) (by omega))
    rw [last] at fits
    have below : cols - 1 + threads < 2 ^ 31 := fits.2
    omega
  · intro fits tid turn low high later inside
    refine (exact_iff tid turn).mpr ⟨?_, ?_⟩
    · have := Int.mul_nonneg later positive.le
      unfold Kernels.Offsets.intBound
      omega
    · unfold Kernels.Offsets.intBound
      omega

/-! ### What it computes -/

section Rows

variable {x : ℕ → ℝ} {rows cols exponent : ℕ} {y middle written : ℕ → EReal}

/-- What `y` can be after this many launches that have all run. -/
def Launched (x : ℕ → ℝ) (rows cols threads : ℕ) : ℕ → (ℕ → EReal) → (ℕ → EReal) → Prop
  | 0, y, written => written = y
  | turns + 1, y, written => ∃ middle,
      BlockEnds (fun index => (x index : EReal)) rows cols threads y middle ∧
        Launched x rows cols threads turns middle written

/-- The same after launches that may have failed, as nobody looks. -/
def Timed (x : ℕ → ℝ) (rows cols threads : ℕ) : ℕ → (ℕ → EReal) → (ℕ → EReal) → Prop
  | 0, y, written => written = y
  | turns + 1, y, written => ∃ middle,
      (middle = y ∨ BlockEnds (fun index => (x index : EReal)) rows cols threads y middle) ∧
        Timed x rows cols threads turns middle written

/-- What `y` can be at the end of `main`. -/
def Ends (x : ℕ → ℝ) (arguments : Arguments) (y written : ℕ → EReal) : Prop :=
  ∃ warm, Launched x arguments.rows.toNat arguments.cols.toNat arguments.threads.toNat 10 y warm ∧
    Timed x arguments.rows.toNat arguments.cols.toNat arguments.threads.toNat arguments.iters.toNat warm written

/-- Every row is normalised, and the rest is as it was. -/
structure Computed (x : ℕ → ℝ) (rows cols threads : ℕ) (y written : ℕ → EReal) : Prop where
  normalised : ∀ row < rows, ∃ p : ℕ → ℝ, Normalised x cols row threads p ∧
    ∀ c < cols, written (row * cols + c) = (p c : EReal)
  rest : ∀ index, rows * cols ≤ index → written index = y index

/-- **One launch.** -/
theorem computed_of_blockEnds (some : 0 < cols)
    (ends : BlockEnds (fun index => (x index : EReal)) rows cols (2 ^ exponent) middle written)
    (kept : ∀ index, rows * cols ≤ index → middle index = y index) :
    Computed x rows cols (2 ^ exponent) y written where
  normalised _ bound := Kernels.Softmax.exists_normalised some ends bound
  rest index beyond := (Kernels.Softmax.kept_of_blockEnds ends beyond).trans (kept index beyond)

/-- Launches that have run compute the rows, as soon as there is one. -/
theorem computed_of_launched (some : 0 < cols) {turns : ℕ}
    (launched : Launched x rows cols (2 ^ exponent) (turns + 1) middle written)
    (kept : ∀ index, rows * cols ≤ index → middle index = y index) :
    Computed x rows cols (2 ^ exponent) y written := by
  induction turns generalizing middle with
  | zero =>
      obtain ⟨last, ends, rfl⟩ := launched
      exact computed_of_blockEnds some ends kept
  | succ turns ih =>
      obtain ⟨next, ends, later⟩ := launched
      exact ih later (computed_of_blockEnds some ends kept).rest

/-- Those that may have failed leave them so. -/
theorem Computed.timed (some : 0 < cols) {turns : ℕ} (computed : Computed x rows cols (2 ^ exponent) y middle)
    (timed : Timed x rows cols (2 ^ exponent) turns middle written) :
    Computed x rows cols (2 ^ exponent) y written := by
  induction turns generalizing middle with
  | zero =>
      obtain rfl : written = middle := timed
      exact computed
  | succ turns ih =>
      obtain ⟨next, rfl | ends, later⟩ := timed
      · exact ih computed later
      · exact ih (computed_of_blockEnds some ends computed.rest) later

/-- The launches come to an end. -/
theorem exists_ends (x : ℕ → ℝ) (arguments : Arguments) (y : ℕ → EReal) :
    ∃ written, Ends x arguments y written := by
  have launched (turns : ℕ) : ∀ y, ∃ written,
      Launched x arguments.rows.toNat arguments.cols.toNat arguments.threads.toNat turns y written := by
    induction turns with
    | zero => exact fun y => ⟨y, rfl⟩
    | succ turns ih =>
        intro y
        obtain ⟨middle, ends⟩ : ∃ middle, BlockEnds (fun index => (x index : EReal)) arguments.rows.toNat
            arguments.cols.toNat arguments.threads.toNat y middle :=
          Simt.exists_ends _ _ _ fun _ => Kernels.Softmax.anyOwn
        obtain ⟨written, later⟩ := ih middle
        exact ⟨written, middle, ends, later⟩
  have timed (turns : ℕ) : ∀ y, ∃ written,
      Timed x arguments.rows.toNat arguments.cols.toNat arguments.threads.toNat turns y written := by
    induction turns with
    | zero => exact fun y => ⟨y, rfl⟩
    | succ turns ih =>
        intro y
        obtain ⟨written, later⟩ := ih y
        exact ⟨written, y, Or.inl rfl, later⟩
  obtain ⟨warm, first⟩ := launched 10 y
  obtain ⟨written, second⟩ := timed arguments.iters.toNat warm
  exact ⟨written, warm, first, second⟩

/-- **The launches normalise every row**, whichever of the timed ones have run. -/
theorem rows_of_ends {arguments : Arguments} (admitted : Admitted arguments exponent)
    (some : 0 < arguments.cols)
    (ends : Ends x arguments y written) :
    Computed x arguments.rows.toNat arguments.cols.toNat (2 ^ exponent) y written := by
  obtain ⟨warm, launched, timed⟩ := ends
  have threads : arguments.threads.toNat = 2 ^ exponent := by
    rw [admitted.threads]
    exact_mod_cast Int.toNat_natCast (2 ^ exponent)
  have columns : 0 < arguments.cols.toNat := by omega
  rw [threads] at launched timed
  exact (computed_of_launched columns launched fun _ _ => rfl).timed columns timed

end Rows

/-- **The softmax benchmark.** For all arguments, and all answers with which `main` gets to its end: the number
of threads is a power of two up to 1024. If there are columns, the last row starts within the range of an `int`,
and so do the columns and the threads together, then no offset and no column overflows; and for all inputs,
whatever the order of the warps and whichever of the timed launches have run, every row is normalised, and
nothing else has been written. -/
theorem bench_normalises {arguments : List (List Char)} {runtime : Answers Call.Possible}
    (ended : main runtime (readArguments arguments) = .ok ()) (some : 0 < (readArguments arguments).cols)
    (starts : ((readArguments arguments).rows - 1) * (readArguments arguments).cols < 2 ^ 31)
    (steps : (readArguments arguments).cols + (readArguments arguments).threads ≤ 2 ^ 31) :
    SoftmaxExact (readArguments arguments).rows (readArguments arguments).cols ∧
      ColumnsExact (readArguments arguments).cols (readArguments arguments).threads ∧
      ∃ exponent ≤ 10, (readArguments arguments).threads = 2 ^ exponent ∧
        ∀ (x : ℕ → ℝ) (y : ℕ → EReal), (∃ written, Ends x (readArguments arguments) y written) ∧
          ∀ written, Ends x (readArguments arguments) y written →
            Computed x (readArguments arguments).rows.toNat (readArguments arguments).cols.toNat
              (2 ^ exponent) y
              written := by
  obtain ⟨exponent, admitted⟩ := admitted_of_ended (readArguments_inRange arguments) ended
  have positive : 0 < (readArguments arguments).threads := by
    rw [admitted.threads]
    exact pow_pos (by decide) exponent
  refine ⟨Kernels.Offsets.softmax_exact_iff.mpr (Or.inr ⟨?_, starts⟩),
    (columns_exact_iff some positive).mpr steps,
    exponent, admitted.narrow, admitted.threads,
    fun x y => ⟨exists_ends x (readArguments arguments) y, fun written ends => rows_of_ends admitted some ends⟩⟩
  have first : 0 ≤ (readArguments arguments).rows - 1 := by
    have := admitted.rows
    omega
  exact le_trans (by decide) (Int.mul_nonneg first some.le)

/-- Without arguments. -/
theorem defaults_normalised :
    main (Answers.generous Call.Possible) (readArguments []) = .ok () ∧ SoftmaxExact 4096 1024 ∧
      ColumnsExact 1024 256 ∧ ∃ exponent ≤ 10, (256 : ℤ) = 2 ^ exponent ∧
        ∀ (x : ℕ → ℝ) (y : ℕ → EReal), (∃ written, Ends x (readArguments []) y written) ∧
          ∀ written, Ends x (readArguments []) y written → Computed x 4096 1024 (2 ^ exponent) y written := by
  have ended : main (Answers.generous Call.Possible) (readArguments []) = .ok () := by decide +kernel
  exact ⟨ended, bench_normalises ended (by decide) (by decide) (by decide)⟩

end Insist.Benchmark.SoftmaxBench
