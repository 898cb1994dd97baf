/-
**`vector_add_kernel`, launched by `main`** (`src/vector_add.cu`).

A thread adds the elements at its place, if there are any. The memory of the device is `c`, with an account of
how often each of its places has been written; `a` and `b` are only read. A float is anything with an addition.

* `Launched.place` — whatever the order of the warps and blocks, a place is computed by its one thread, or kept;
* `valid_of_ended` — if `main` gets to its end, its launches were within their limits;
* **`computes_sum_iff`** — after all launches of `main` every element is the sum, written once by each launch,
  and nothing else is written, exactly if the blocks, counted by an `int`, are enough for the elements.
-/
import Insist.Kernels.ReductionBlock
import Insist.Benchmark.Launch
import Insist.Lib.Frame

namespace Insist.Benchmark

open Lib Lib.Simt Kernels Kernels.Reduction

variable {α : Type*}

/-! ### The kernel -/

/-- The array `c`, and how often each of its places has been written. -/
structure Output (α : Type*) where
  c : ℕ → α
  stores : ℕ → ℕ

/-- What is kept of a place. -/
def Output.at (output : Output α) (place : ℕ) : α × ℕ := (output.c place, output.stores place)

/-- `c[idx] = value`. -/
def Output.store (output : Output α) (place : ℕ) (value : α) : Output α where
  c := Function.update output.c place value
  stores := Function.update output.stores place (output.stores place + 1)

theorem Output.at_store (output : Output α) (place : ℕ) (value : α) :
    (output.store place value).at place = (value, output.stores place + 1) := by
  simp only [Output.at, Output.store, Function.update_self]

theorem Output.at_store_of_ne (output : Output α) {place other : ℕ} (value : α) (different : other ≠ place) :
    (output.store place value).at other = output.at other := by
  simp only [Output.at, Output.store, Function.update_of_ne different]

section Kernel

variable [FloatOps α] (a b : ℕ → α) (n blockDim block : ℕ)

/-- The one statement of the kernel. -/
def addElement : ℕ → Output α × Unit → Output α × Unit := fun tid memory =>
  if idx blockDim block tid < n then
    (memory.1.store (idx blockDim block tid)
      (FloatOps.add (a (idx blockDim block tid)) (b (idx blockDim block tid))), memory.2)
  else memory

/-- `vector_add_kernel`. -/
def vectorAddKernel : List (Phase (Output α × Unit)) :=
  [[addElement a b n blockDim block].map (lanewise warpSize blockDim)]

/-- What the device can hold after a launch. -/
def Launched (launch : Launch) (device device' : Output α) : Prop :=
  Ends (warps launch.blockDim) (fun block : Fin launch.gridDim => vectorAddKernel a b n launch.blockDim block)
    device device'

/-- The same after several launches, one after the other. -/
def AllLaunched (launch : Launch) : ℕ → Output α → Output α → Prop
  | 0, device, device' => device' = device
  | count + 1, device, device' =>
      ∃ middle, Launched a b n launch device middle ∧ AllLaunched launch count middle device'

end Kernel

/-- The sums are computed, each by one thread of every launch, and nothing else is written. -/
structure Computed [FloatOps α] (a b : ℕ → α) (n launches : ℕ) (device device' : Output α) : Prop where
  sums : ∀ i < n, device'.at i = (FloatOps.add (a i) (b i), device.stores i + launches)
  rest : ∀ i, n ≤ i → device'.at i = device.at i

/-! ### One launch -/

section Launched

variable [FloatOps α] {a b : ℕ → α} {n blockDim block : ℕ} {device device' : Output α}

theorem addElement_of_ne {tid place : ℕ} (different : place ≠ idx blockDim block tid)
    (memory : Output α × Unit) :
    (addElement a b n blockDim block tid memory).1.at place = memory.1.at place := by
  unfold addElement
  split_ifs with inside
  · exact memory.1.at_store_of_ne _ different
  · rfl

theorem addElement_of_le {tid place : ℕ} (beyond : n ≤ place) (memory : Output α × Unit) :
    (addElement a b n blockDim block tid memory).1.at place = memory.1.at place := by
  by_cases mine : place = idx blockDim block tid
  · unfold addElement
    rw [if_neg (by omega)]
  · exact addElement_of_ne mine memory

theorem addElement_at {tid : ℕ} (inside : idx blockDim block tid < n) (memory : Output α × Unit) :
    (addElement a b n blockDim block tid memory).1.at (idx blockDim block tid) =
      (FloatOps.add (a (idx blockDim block tid)) (b (idx blockDim block tid)),
        memory.1.stores (idx blockDim block tid) + 1) := by
  unfold addElement
  rw [if_pos inside]
  exact memory.1.at_store _ _

/-- A thread does the same on devices that look the same at a place. -/
theorem addElement_congr {tid place : ℕ} {first second : Output α × Unit}
    (same : first.1.at place = second.1.at place) :
    (addElement a b n blockDim block tid first).1.at place =
    (addElement a b n blockDim block tid second).1.at place := by
  by_cases mine : place = idx blockDim block tid
  · subst mine
    by_cases inside : idx blockDim block tid < n
    · rw [addElement_at inside, addElement_at inside, (Prod.mk.inj same).2]
    · rw [addElement_of_le (not_lt.mp inside), addElement_of_le (not_lt.mp inside), same]
  · rw [addElement_of_ne mine, addElement_of_ne mine, same]

theorem eq_of_inCode {instruction : Instruction (Output α × Unit)}
    (inCode : InCode (vectorAddKernel a b n blockDim block) instruction) :
    instruction = lanewise warpSize blockDim (addElement a b n blockDim block) := by
  obtain ⟨phase, member, inside⟩ := inCode
  rw [List.mem_singleton.mp member] at inside
  exact List.mem_singleton.mp inside

/-- Threads of different places. -/
theorem idx_eq_iff {blocks : ℕ} (fits : blocks * blockDim ≤ 2 ^ 64) (inside : block < blocks) {tid place : ℕ}
    (lane : tid < blockDim) : place = idx blockDim block tid ↔ place / blockDim = block ∧
    place % blockDim = tid := by
  have some : 0 < blockDim := lt_of_le_of_lt (Nat.zero_le _) lane
  have small : block * blockDim + tid < 2 ^ 64 := by
    have next : (block + 1) * blockDim ≤ blocks * blockDim := Nat.mul_le_mul_right _ inside
    rw [Nat.add_mul, Nat.one_mul] at next
    omega
  rw [idx, Nat.mod_eq_of_lt small]
  constructor
  · rintro rfl
    rw [Nat.mul_comm]
    exact ⟨Nat.mul_add_div some _ _ |>.trans (by rw [Nat.div_eq_of_lt lane, Nat.add_zero]),
      (Nat.mul_add_mod _ _ _).trans (Nat.mod_eq_of_lt lane)⟩
  · rintro ⟨rfl, rfl⟩
    exact (Nat.div_add_mod' place blockDim).symm

/-- The places that no thread of a block writes. -/
def elsewhere (n blockDim block : ℕ) (device : Output α)
    (other : {place // place < n → ∀ tid < blockDim, place ≠ idx blockDim block tid}) : α × ℕ := device.at other

/-- The blocks of a launch keep to their places, each place by itself. -/
theorem framed_of_launch (launch : Launch) (i : ℕ) : FramedBlocks
    (fun block : Fin launch.gridDim => vectorAddKernel a b n launch.blockDim block)
    (fun _ (device : Output α) => device.at i) fun block => elsewhere n launch.blockDim block := by
  intro block instruction inCode warp
  rw [eq_of_inCode inCode]
  refine .lanewise (fun tid bound => ⟨fun memory => funext fun other => ?_, fun first second seen _ => ?_⟩) warp
  · by_cases inside : other.1 < n
    · exact addElement_of_ne (other.2 inside tid bound) memory
    · exact addElement_of_le (not_lt.mp inside) memory
  · exact ⟨addElement_congr seen, rfl⟩

variable {launch : Launch}

/-- **An element that has a thread is computed by this thread, once.** -/
theorem Launched.covered (launched : Launched a b n launch device device')
    (fits : launch.gridDim * launch.blockDim ≤ 2 ^ 64) {i : ℕ} (inside : i < n)
    (covered : i < launch.gridDim * launch.blockDim) :
    device'.at i = (FloatOps.add (a i) (b i), device.stores i + 1) := by
  have some : 0 < launch.blockDim := Nat.pos_of_mul_pos_left (lt_of_le_of_lt (Nat.zero_le _) covered)
  have block : i / launch.blockDim < launch.gridDim := Nat.div_lt_of_lt_mul (by rwa [Nat.mul_comm])
  have lane : i % launch.blockDim < launch.blockDim := Nat.mod_lt _ some
  have mine : i = idx launch.blockDim (i / launch.blockDim) (i % launch.blockDim) :=
    (idx_eq_iff fits block lane).mpr ⟨rfl, rfl⟩
  -- the block of the element, as if it ran alone
  obtain ⟨before, alone, ran, same⟩ := (framed_of_launch launch i).block_of_ends
    (fun other (different : other ≠ ⟨_, block⟩) first second same => congrFun same ⟨i, fun _ tid bound here =>
      different (Fin.ext ((idx_eq_iff fits other.isLt bound).mp here).1.symm)⟩) launched
  -- and its thread
  have seen := view_of_threads (by decide) (le_groups_mul (by decide) launch.blockDim) lane
    (fun memory : Output α × Unit => memory.1.at i)
    (fun operation member first second same => by
      rw [List.mem_singleton.mp member]
      exact addElement_congr same)
    (fun other bound different operation member memory => by
      rw [List.mem_singleton.mp member]
      exact addElement_of_ne (fun here => different ((idx_eq_iff fits block bound).mp here).2.symm) memory) ran
  refine same.symm.trans (seen.trans ?_)
  show (addElement a b n launch.blockDim (i / launch.blockDim) (i % launch.blockDim)
    (device, before)).1.at i = _
  have computed := addElement_at (a := a) (b := b) (mine ▸ inside) (device, before)
  rwa [← mine] at computed

/-- **A place that is no element's, or has no thread, is kept.** -/
theorem Launched.kept (launched : Launched a b n launch device device')
    (fits : launch.gridDim * launch.blockDim ≤ 2 ^ 64) {i : ℕ}
    (outside : n ≤ i ∨ launch.gridDim * launch.blockDim ≤ i) : device'.at i = device.at i := by
  refine (framed_of_launch launch i).keeps_outside launched
    (fun now => now.at i) fun block first second same => ?_
  refine congrFun same ⟨i, fun inside tid bound here => ?_⟩
  have beyond := outside.resolve_left (not_le.mpr inside)
  obtain ⟨same, _⟩ := (idx_eq_iff fits block.isLt bound).mp here
  have inGrid : i / launch.blockDim < launch.gridDim := same ▸ block.isLt
  have some : 0 < launch.blockDim := lt_of_le_of_lt (Nat.zero_le _) bound
  exact absurd ((Nat.div_lt_iff_lt_mul some).mp inGrid) (not_lt.mpr beyond)

/-! ### All launches -/

theorem exists_allLaunched (a b : ℕ → α) (n : ℕ) (launch : Launch) (count : ℕ) (device : Output α) :
    ∃ device', AllLaunched a b n launch count device device' := by
  induction count generalizing device with
  | zero => exact ⟨device, rfl⟩
  | succ count ih =>
      obtain ⟨middle, first⟩ := exists_ends (warps launch.blockDim)
        (fun block : Fin launch.gridDim => vectorAddKernel a b n launch.blockDim block) device fun _ => ()
      obtain ⟨device', later⟩ := ih middle
      exact ⟨device', middle, first, later⟩

theorem AllLaunched.kept {count : ℕ} (launched : AllLaunched a b n launch count device device')
    (fits : launch.gridDim * launch.blockDim ≤ 2 ^ 64) {i : ℕ}
    (outside : n ≤ i ∨ launch.gridDim * launch.blockDim ≤ i) : device'.at i = device.at i := by
  induction count generalizing device with
  | zero =>
      obtain rfl : device' = device := launched
      rfl
  | succ count ih =>
      obtain ⟨middle, first, later⟩ := launched
      exact (ih later).trans (first.kept fits outside)

/-- **With enough blocks, the sums are computed.** -/
theorem AllLaunched.computed {count : ℕ} (launched : AllLaunched a b n launch (count + 1) device device')
    (fits : launch.gridDim * launch.blockDim ≤ 2 ^ 64) (enough : n ≤ launch.gridDim * launch.blockDim) :
    Computed a b n (count + 1) device device' where
  sums i inside := by
    induction count generalizing device with
    | zero =>
        obtain ⟨middle, first, rfl⟩ := launched
        exact first.covered fits inside (lt_of_lt_of_le inside enough)
    | succ count ih =>
        obtain ⟨middle, first, later⟩ := launched
        have stores := (Prod.mk.inj (first.covered fits inside (lt_of_lt_of_le inside enough))).2
        rw [ih later, stores, Nat.add_assoc, Nat.add_comm 1]
  rest i beyond := launched.kept fits (Or.inl beyond)

/-- Without, there is an element that no thread computes. -/
theorem AllLaunched.not_computed {count : ℕ} (launched : AllLaunched a b n launch (count + 1) device device')
    (fits : launch.gridDim * launch.blockDim ≤ 2 ^ 64) (few : launch.gridDim * launch.blockDim < n) :
    ¬ Computed a b n (count + 1) device device' := by
  intro computed
  have last := computed.sums _ few
  rw [launched.kept fits (Or.inr le_rfl)] at last
  have stores := (Prod.mk.inj last).2
  omega

end Launched

/-! ### `main` -/

/-- The launch of `main`. -/
def Sizes.launch (sizes : Sizes) : Launch :=
  { gridDim := toDim sizes.gridSize, blockDim := toDim sizes.blockSize }

/-- **If `main` gets to its end, its launches were within their limits.** -/
theorem valid_of_ended {runtime : Runtime} {n : ℕ} {blockSize warmup repeats : ℤ} {sizes : Sizes}
    (low : -2 ^ 31 ≤ repeats) (high : repeats < 2 ^ 31) (some : 0 < warmup ∨ 0 < repeats)
    (ended : vectorAdd runtime n blockSize warmup repeats = .ok sizes) :
    sizes.gridSize = gridOf n (toU64 blockSize) ∧ sizes.blockSize = blockSize ∧ sizes.launch.Valid := by
  unfold vectorAdd at ended
  obtain ⟨_, ended⟩ := check_bind_eq_ok.mp ended
  obtain ⟨blocks, quotient, ended⟩ := defined_bind_eq_ok.mp ended
  obtain ⟨succeeded, ended⟩ := check_bind_eq_ok.mp ended
  cases ended
  have same : toInt blocks = gridOf n (toU64 blockSize) := by
    unfold Benchmark.quotient at quotient
    split_ifs at quotient
    rw [← Option.some.inj quotient]
    rfl
  have possible := Answers.possible_of_all succeeded
  have valid := ((possible_benchmark_iff low high).mp possible).2 some
  unfold Sizes.launch
  dsimp only
  exact ⟨same, rfl, valid⟩

/-- The blocks of a launch within its limits are enough exactly if their number is an `int`. -/
theorem enough_iff {n : ℕ} {blockSize : ℤ} (low : -2 ^ 31 ≤ blockSize) (high : blockSize < 2 ^ 31)
    (valid : Launch.Valid { gridDim := toDim (gridOf n (toU64 blockSize)), blockDim := toDim blockSize }) :
    n ≤ toDim (gridOf n (toU64 blockSize)) * toDim blockSize ↔ n ≤ blockSize.toNat * (2 ^ 31 - 1) := by
  obtain ⟨_, few, some, narrow⟩ := valid
  dsimp only at few some narrow
  have positive : 1 ≤ blockSize := by
    unfold toDim at some narrow
    omega
  have block : toDim blockSize = blockSize.toNat := by
    unfold toDim
    omega
  rw [block] at some narrow ⊢
  constructor
  · intro enough
    rw [Nat.mul_comm]
    exact enough.trans (Nat.mul_le_mul_right _ (by omega))
  · intro enough
    have grid : gridOf n (toU64 blockSize) = (n ⌈/⌉ blockSize.toNat : ℕ) := by
      rw [width_of_pos positive high]
      exact gridOf_eq some (by omega) enough
    have blocks : n ⌈/⌉ blockSize.toNat ≤ 2 ^ 31 - 1 := (ceilDiv_le_iff_le_mul some).mpr enough
    have same : toDim (gridOf n (toU64 blockSize)) = n ⌈/⌉ blockSize.toNat := by
      rw [grid, toDim]
      omega
    rw [same, Nat.mul_comm]
    exact (ceilDiv_le_iff_le_mul some).mp le_rfl

/-- **The benchmark computes the sum exactly if its blocks can be counted.** For all texts that the options
accept, and all answers with which `main` gets to its end after a launch at least: whatever the order in which
the warps of all blocks run in each of its launches, and for all inputs, every element of `c` is the sum of
those of `a` and `b` and has been written once by every launch, and no other place has been written, exactly if
there are at most 2^31 - 1 times as many elements as threads in a block. -/
theorem computes_sum_iff [FloatOps α] {runtime : Runtime} {options : Options} {n : ℕ}
    {blockSize warmup repeats : ℤ}
    (parsedN : parseU64 options.n = some n) (parsedBlock : parseI32 options.block = some blockSize)
    (parsedWarmup : parseI32 options.warmup = some warmup)
    (parsedRepeats : parseI32 options.repeats = some repeats)
    (launches : 0 < warmup ∨ 0 < repeats) {sizes : Sizes}
    (ended : withOptions options (vectorAdd runtime) = .ok sizes) :
    (∀ (a b : ℕ → α) (device device' : Output α),
        AllLaunched a b n sizes.launch (warmup.toNat + repeats.toNat) device device' →
          Computed a b n (warmup.toNat + repeats.toNat) device device') ↔
      n ≤ blockSize.toNat * (2 ^ 31 - 1) := by
  obtain ⟨low, high⟩ := parseI32_range parsedBlock
  obtain ⟨low', high'⟩ := parseI32_range parsedRepeats
  rw [withOptions_eq parsedN parsedBlock parsedWarmup parsedRepeats] at ended
  obtain ⟨grid, block, valid⟩ := valid_of_ended low' high' launches ended
  have fits : sizes.launch.gridDim * sizes.launch.blockDim ≤ 2 ^ 64 :=
    (Nat.mul_le_mul valid.2.1.le valid.2.2.2).trans (by decide)
  have enough := enough_iff (n := n) low high (by rw [Sizes.launch, grid, block] at valid; exact valid)
  rw [← grid, ← block] at enough
  obtain ⟨count, counted⟩ : ∃ count, warmup.toNat + repeats.toNat = count + 1 :=
    ⟨warmup.toNat + repeats.toNat - 1, by omega⟩
  rw [counted, ← block, ← enough]
  constructor
  · intro all
    by_contra few
    have zero : Output α := ⟨fun _ => FloatOps.zero, fun _ => 0⟩
    obtain ⟨device', launched⟩ := exists_allLaunched zero.c zero.c n sizes.launch (count + 1) zero
    exact launched.not_computed fits (not_le.mp few) (all _ _ _ _ launched)
  · intro enough a b device device' launched
    exact launched.computed fits enough

/-- Three elements, in blocks of two threads. -/
def tiny : Options := { n := ['3'], block := ['2'], warmup := ['1'], repeats := ['1'] }

theorem tiny_computes_sum :
    withOptions tiny (vectorAdd (Answers.generous Call.Possible)) =
        .ok { allocated := [12, 12, 12], gridSize := 2, blockSize := 2 } ∧
      ∀ (a b : ℕ → ℝ) (device device' : Output ℝ),
        AllLaunched a b 3 { gridDim := 2, blockDim := 2 } 2 device device' →
        Computed a b 3 2 device device' := by
  have ended : withOptions tiny (vectorAdd (Answers.generous Call.Possible)) =
      .ok { allocated := [12, 12, 12], gridSize := 2, blockSize := 2 } := by
    decide +kernel
  refine ⟨ended, (computes_sum_iff (show parseU64 tiny.n = some 3 by decide)
    (show parseI32 tiny.block = some 2 by decide) (show parseI32 tiny.warmup = some 1 by decide)
    (show parseI32 tiny.repeats = some 1 by decide) (by decide) ended).mpr (by decide)⟩

end Insist.Benchmark
