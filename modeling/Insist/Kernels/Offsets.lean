/-
**The offsets of the kernels as `int`s** (the two attention kernels, and `softmax_block_kernel` of
`src/softmax_bench.cu`).

What a thread computes with `int`s on the way to the addresses that it accesses, in the order of the kernel,
with the tests and loops that decide about it; what it makes of the elements is left out. An `int` that
overflows has no value. The limits that a device puts on the size of a grid are not part of the program.

* `InPlace` — an access is to an element of the row-major array, at its offset;
* `yields_element`, `volume_of_element` — the offset of an element is an `int` as long as the array has at most
  2^31 elements, and that of the last element only then;
* `tiled_exact_iff`, `simple_exact_iff`, `softmax_exact_iff` — so each kernel computes all offsets without an
  overflow for these shapes, the tiled one if its loop over the rows can be left besides;
* `offsets_exact_iff` — **what the shapes that are admitted have to be for that**.
-/
import Insist.Kernels.Attention
import Insist.Lib.Checked

namespace Insist.Kernels.Offsets

open Lib

/-- The range of an `int`. -/
def intBound : ℤ := 2 ^ 31

/-- The value of an expression of type `int`. -/
def int (value : ℤ) : Option ℤ := checked intBound value

/-- An access to one of the arrays, with the row and the dimension that it is meant for. -/
structure Access where
  row : ℤ
  d : ℤ
  offset : ℤ
deriving DecidableEq, Repr

section Attention

variable (H S D causal b h : ℤ)

/-- `((b * H + h) * S) * D`. -/
def bhBase : Option ℤ := do
  let heads ← int (b * H)
  let head ← int (heads + h)
  let rows ← int (head * S)
  int (rows * D)

/-- `bh_base + row * D + d`. -/
def element (base row d : ℤ) : Option (List Access) := do
  let rowD ← int (row * D)
  let start ← int (base + rowD)
  let offset ← int (start + d)
  return [{ row := row, d := d, offset := offset }]

/-- The elements of a row that a lane of a warp is responsible for. -/
def elements (base row lane : ℤ) : Option (List Access) :=
  collect (fun t => do
    let d ← int (lane + t * 32)
    if d < D then element D base row d else return []) [0, 1, 2, 3]

/-! ### `flash_attention_tiled_kernel` -/

/-- The loop that loads a tile of so many rows from row `first` on. -/
def loadTile (base first rows tid : ℤ) : Option (List Access) := do
  let size ← int (rows * D)
  let indices ← countUp intBound 256 size tid
  collect (fun idx => do
    let r := idx / D
    let rD ← int (r * D)
    let d ← int (idx - rD)
    let row ← int (first + r)
    if row < S then element D base row d else return []) indices

/-- The rows of the keys in a tile. -/
def scanRows (kvBlock : ℤ) : Option (List Access) :=
  collect (fun j : ℕ => do
    let _ ← int (kvBlock + j)
    return []) (List.range 32)

/-- `kv_end`. -/
def tiledKvEnd (causalEnd : ℤ) : ℤ := if causal ≠ 0 then (if S < causalEnd then S else causalEnd) else S

/-- The loop over the tiles of keys and values. -/
def scanTiles (base tid : ℤ) (kvBlocks : List ℤ) : Option (List Access) :=
  collect (fun kvBlock => do
    let loads ← loadTile S D base kvBlock 32 tid
    let scans ← scanRows kvBlock
    return loads ++ scans) kvBlocks

/-- The loop over the tiles, and the last statement. -/
def tiledRest (base qBlock qRow tid : ℤ) : Option (List Access) := do
  let causalEnd ← int (qBlock + 8)
  let kvBlocks ← countUp intBound 32 (tiledKvEnd S causal causalEnd) 0
  let keys ← scanTiles S D base tid kvBlocks
  let stores ← (if tid / 32 < 8 ∧ qRow < S then elements D base qRow (tid % 32) else pure [])
  return keys ++ stores

/-- A thread of `flash_attention_tiled_kernel` in the block `(x, h, b)`. -/
def tiledThread (x tid : ℤ) : Option (List Access) := do
  let qBlock ← int (x * 8)
  let qRow ← int (qBlock + tid / 32)
  let base ← bhBase H S D b h
  let queries ← loadTile S D base qBlock 8 tid
  let rest ← tiledRest S D causal base qBlock qRow tid
  return queries ++ rest

/-- `(S + BLOCK_M - 1) / BLOCK_M`. -/
def gridX : Option ℤ := do
  let rows ← int (S + 8)
  let last ← int (rows - 1)
  return last / 8

/-! ### `flash_attention_simple_kernel` -/

/-- The loop over the keys of `flash_attention_simple_kernel`. -/
def scanKeys (base qRow lane : ℤ) (kRows : List ℤ) : Option (List Access) :=
  collect (fun kRow => do
    let queries ← elements D base qRow lane
    let keys ← elements D base kRow lane
    return queries ++ keys) kRows

/-- A thread of `flash_attention_simple_kernel` in the block `(qRow, h, b)`. -/
def simpleThread (qRow lane : ℤ) : Option (List Access) := do
  let base ← bhBase H S D b h
  let kvEnd ← (if causal ≠ 0 then int (qRow + 1) else pure S)
  let kRows ← countUp intBound 1 kvEnd 0
  let keys ← scanKeys D base qRow lane kRows
  let stores ← elements D base qRow lane
  return keys ++ stores

end Attention

/-! ### What the offsets have to be -/

section Exact

variable (B H S D causal : ℤ)

/-- The access is to an element of the `(b, h)` part of an array of the shape `[B, H, S, D]`, at its offset. -/
def InPlace (H S D b h : ℤ) (access : Access) : Prop :=
  (0 ≤ access.row ∧ access.row < S) ∧ (0 ≤ access.d ∧ access.d < D) ∧
    access.offset = ((b * H + h) * S + access.row) * D + access.d

/-- No thread of the tiled kernel has an `int` overflow, and all its offsets are right. -/
def TiledExact : Prop :=
  Yields (fun blocks => ∀ x h b tid, 0 ≤ x → x < blocks → 0 ≤ h → h < H → 0 ≤ b → b < B → 0 ≤ tid → tid < 256 →
    YieldsAll (InPlace H S D b h) (tiledThread H S D causal b h x tid)) (gridX S)

/-- No thread of the simple kernel has an `int` overflow, and all its offsets are right. -/
def SimpleExact : Prop :=
  ∀ qRow h b lane, 0 ≤ qRow → qRow < S → 0 ≤ h → h < H → 0 ≤ b → b < B → 0 ≤ lane → lane < 32 →
    YieldsAll (InPlace H S D b h) (simpleThread H S D causal b h qRow lane)

/-- No block of `softmax_block_kernel` has an overflow in `row * cols`. -/
def SoftmaxExact (rows cols : ℤ) : Prop :=
  ∀ row, 0 ≤ row → row < rows → int (row * cols) = some (row * cols)

end Exact

/-! ### The offset of an element -/

section

variable {B H S D b h base : ℤ}

theorem yields_int {good : ℤ → Prop} {value : ℤ} : Yields good (int value) ↔ Fits intBound value ∧ good value :=
  yields_checked

theorem fits_int {value : ℤ} : Fits intBound value ↔ -2 ^ 31 ≤ value ∧ value < 2 ^ 31 := Iff.rfl

/-- A digit with the digits before it. -/
theorem digits_lt {count digit base value : ℤ} (below : value < count) (small : digit < base)
    (positive : 0 < base) :
    value * base + digit < count * base := by
  calc value * base + digit < value * base + base := by omega
    _ = (value + 1) * base := by ring
    _ ≤ count * base := Int.mul_le_mul_of_nonneg_right (by omega) positive.le

/-- Multiplying by a size does not make an offset smaller. -/
theorem le_mul_size {value size : ℤ} (nonneg : 0 ≤ value) (positive : 0 < size) : value ≤ value * size := by
  calc value = value * 1 := (Int.mul_one value).symm
    _ ≤ value * size := Int.mul_le_mul_of_nonneg_left (by omega) nonneg

/-- A position in an array of a shape that is admitted, with at most 2^31 elements. -/
structure Within (B H S D b h : ℤ) : Prop where
  rows : 0 < S
  dimensions : 0 < D
  head : 0 ≤ h ∧ h < H
  batch : 0 ≤ b ∧ b < B
  volume : B * H * S * D ≤ 2 ^ 31

namespace Within

variable (within : Within B H S D b h)

include within

theorem head_bounds : 0 ≤ b * H + h ∧ b * H + h < B * H := by
  obtain ⟨⟨low, high⟩, ⟨low', high'⟩⟩ := And.intro within.head within.batch
  refine ⟨?_, digits_lt high' high (by omega)⟩
  have := Int.mul_nonneg low' (show 0 ≤ H by omega)
  omega

/-- **The offset of an element is an `int`**, and so is everything on the way to it. -/
theorem offset_bounds {row d : ℤ} (inside : 0 ≤ row ∧ row < S) (dimension : 0 ≤ d ∧ d < D) :
    0 ≤ ((b * H + h) * S + row) * D ∧ ((b * H + h) * S + row) * D + d < 2 ^ 31 := by
  obtain ⟨low, high⟩ := within.head_bounds
  have upper : (b * H + h) * S + row < B * H * S := digits_lt high inside.2 within.rows
  have lower : 0 ≤ (b * H + h) * S + row := by
    have := Int.mul_nonneg low within.rows.le
    omega
  refine ⟨Int.mul_nonneg lower within.dimensions.le, ?_⟩
  exact (digits_lt upper dimension.2 within.dimensions).trans_le within.volume

/-- `bh_base` is computed without an overflow. -/
theorem yields_bhBase : Yields (fun base => base = (b * H + h) * S * D) (bhBase H S D b h) := by
  obtain ⟨low, high⟩ := within.head_bounds
  have heads : 0 ≤ b * H := Int.mul_nonneg within.batch.1 (by have := within.head; omega)
  have rows := le_mul_size low within.rows
  have size := le_mul_size (show 0 ≤ (b * H + h) * S by omega) within.dimensions
  obtain ⟨_, bound⟩ := within.offset_bounds ⟨le_refl 0, within.rows⟩ ⟨le_refl 0, within.dimensions⟩
  rw [Int.add_zero, Int.add_zero] at bound
  have := within.head
  simp only [bhBase, yields_bind, yields_int, fits_int]
  exact ⟨by omega, by omega, by omega, by omega, trivial⟩

/-- **The access to an element is in place.** -/
theorem yields_element {row d : ℤ} (inside : 0 ≤ row ∧ row < S) (dimension : 0 ≤ d ∧ d < D) :
    YieldsAll (InPlace H S D b h) (element D ((b * H + h) * S * D) row d) := by
  obtain ⟨low, high⟩ := within.offset_bounds inside dimension
  obtain ⟨head, _⟩ := within.head_bounds
  have start : ((b * H + h) * S + row) * D = (b * H + h) * S * D + row * D := by ring
  have rowStart := Int.mul_nonneg inside.1 within.dimensions.le
  have base := Int.mul_nonneg (Int.mul_nonneg head within.rows.le) within.dimensions.le
  simp only [YieldsAll, element, yields_bind, yields_int, yields_pure, fits_int]
  refine ⟨by omega, by omega, by omega, fun access member => ?_⟩
  rw [List.mem_singleton.mp member]
  exact ⟨inside, dimension, congrArg (· + d) start.symm⟩

end Within

/-- **The offset of the last element is an `int` only if there are at most 2^31 elements.** -/
theorem volume_of_element {good : Access → Prop} (computed : bhBase H S D (B - 1) (H - 1) = some base)
    (yields : YieldsAll good (element D base (S - 1) (D - 1))) : B * H * S * D ≤ 2 ^ 31 := by
  have sum : Yields (fun base => base = ((B - 1) * H + (H - 1)) * S * D) (bhBase H S D (B - 1) (H - 1)) := by
    have some : Yields (fun _ => True) (bhBase H S D (B - 1) (H - 1)) := ⟨base, computed, trivial⟩
    simp only [bhBase, yields_bind, yields_int, and_true] at some ⊢
    exact some
  obtain ⟨other, same, rfl⟩ := sum
  cases computed.symm.trans same
  simp only [YieldsAll, element, yields_bind, yields_int, yields_pure, fits_int] at yields
  have last := yields.2.2.1.2
  have volume : ((B - 1) * H + (H - 1)) * S * D + (S - 1) * D + (D - 1) = B * H * S * D - 1 := by ring
  omega

/-! ### Parts of the kernels -/

/-- The elements of a row are those of its lanes. -/
theorem yields_elements (within : Within B H S D b h) {row lane : ℤ} (inside : 0 ≤ row ∧ row < S)
    (lanes : 0 ≤ lane ∧ lane < 32) :
    YieldsAll (InPlace H S D b h) (elements D ((b * H + h) * S * D) row lane) := by
  refine yieldsAll_collect.mpr fun t turn => ?_
  have bounds : 0 ≤ t ∧ t ≤ 3 := by
    simp only [List.mem_cons, List.not_mem_nil, or_false] at turn
    omega
  simp only [YieldsAll, yields_bind, yields_int, yields_ite, yields_pure, fits_int]
  refine ⟨by omega, fun dimension => within.yields_element inside ⟨by omega, dimension⟩, fun _ => ?_⟩
  exact fun access member => (List.not_mem_nil member).elim

/-- The last lane of a row has its last element. -/
theorem element_of_elements {good : Access → Prop} {row : ℤ} (positive : 0 < D) (small : D ≤ 128)
    (yields : YieldsAll good (elements D base row ((D - 1) % 32))) :
    YieldsAll good (element D base row (D - 1)) := by
  have turn : (D - 1) / 32 ∈ [(0 : ℤ), 1, 2, 3] := by
    simp only [List.mem_cons, List.not_mem_nil, or_false]
    omega
  have last := yieldsAll_collect.mp yields _ turn
  simp only [YieldsAll, yields_bind, yields_int, yields_ite] at last
  have dimension : (D - 1) % 32 + (D - 1) / 32 * 32 = D - 1 := by omega
  have result := last.2.1 (by omega)
  rwa [dimension] at result

/-- A tile is loaded without an overflow, if its rows are `int`s. -/
theorem yields_loadTile (within : Within B H S D b h) (small : D ≤ 128) {first rows tid : ℤ} (start : 0 ≤ first)
    (some : 0 < rows) (few : rows ≤ 32) (fits : first + rows ≤ 2 ^ 31) (thread : 0 ≤ tid) :
    YieldsAll (InPlace H S D b h) (loadTile S D ((b * H + h) * S * D) first rows tid) := by
  have positive := within.dimensions
  have size : 0 < rows * D ∧ rows * D ≤ 32 * 128 :=
    ⟨Int.mul_pos some positive, Int.mul_le_mul few small positive.le (by decide)⟩
  simp only [YieldsAll, loadTile, yields_bind, yields_int, fits_int]
  refine ⟨by omega, (yieldsAll_countUp (show rows * D + (256 : ℕ) ≤ intBound by unfold intBound; omega)
    (show -intBound ≤ tid by unfold intBound; omega)).mono fun indices bounds => ?_⟩
  refine yieldsAll_collect.mpr fun idx member => ?_
  obtain ⟨low, high⟩ := bounds idx member
  have quotient := Int.ediv_mul_add_emod idx D
  have rest := And.intro (Int.emod_nonneg idx positive.ne') (Int.emod_lt_of_pos idx positive)
  have row : 0 ≤ idx / D ∧ idx / D < rows :=
    ⟨Int.ediv_nonneg (by omega) positive.le, Int.ediv_lt_of_lt_mul positive high⟩
  have below := Int.mul_nonneg row.1 positive.le
  simp only [YieldsAll, yields_bind, yields_int, yields_ite, yields_pure, fits_int]
  refine ⟨by omega, by omega, by omega, fun inside => ?_, fun _ access member => (List.not_mem_nil member).elim⟩
  exact within.yields_element ⟨by omega, inside⟩ (by omega)

theorem yields_scanRows {good : Access → Prop} {kvBlock : ℤ} (start : 0 ≤ kvBlock)
    (fits : kvBlock + 32 ≤ 2 ^ 31) :
    YieldsAll good (scanRows kvBlock) := by
  refine yieldsAll_collect.mpr fun j member => ?_
  have bound := List.mem_range.mp member
  simp only [YieldsAll, yields_bind, yields_int, yields_pure, fits_int]
  exact ⟨by omega, fun access member => (List.not_mem_nil member).elim⟩

/-! ### The kernels -/

section Kernels

variable {causal : ℤ}

/-- The tiles before the end of the keys are loaded without an overflow. -/
theorem yields_scanTiles (within : Within B H S D b h) (small : D ≤ 128) {tid stop : ℤ} (thread : 0 ≤ tid)
    (last : stop ≤ 2 ^ 31 - 32) {kvBlocks : List ℤ}
    (bounds : ∀ kvBlock ∈ kvBlocks, 0 ≤ kvBlock ∧ kvBlock < stop) :
    YieldsAll (InPlace H S D b h) (scanTiles S D ((b * H + h) * S * D) tid kvBlocks) := by
  refine yieldsAll_collect.mpr fun kvBlock member => ?_
  obtain ⟨low, high⟩ := bounds kvBlock member
  exact yieldsAll_append.mpr ⟨yields_loadTile within small low (by decide) le_rfl (by omega) thread,
    yields_scanRows low (by omega)⟩

/-- The end of the keys is no further than that of the rows. -/
theorem tiledKvEnd_le (causalEnd : ℤ) : tiledKvEnd S causal causalEnd ≤ S := by
  unfold tiledKvEnd
  split_ifs <;> omega

/-- In the last block, it is that of the rows. -/
theorem tiledKvEnd_last {causalEnd : ℤ} (last : S ≤ causalEnd) : tiledKvEnd S causal causalEnd = S := by
  unfold tiledKvEnd
  split_ifs <;> omega

/-- **The threads of the tiled kernel are in place**, for a shape that fits. -/
theorem yields_tiledThread (within : Within B H S D b h) (small : D ≤ 128) (room : S ≤ 2 ^ 31 - 32) {x tid : ℤ}
    (start : 0 ≤ x) (block : x * 8 < S) (thread : 0 ≤ tid ∧ tid < 256) :
    YieldsAll (InPlace H S D b h) (tiledThread H S D causal b h x tid) := by
  rw [YieldsAll, tiledThread, yields_bind, yields_int]
  refine ⟨by rw [fits_int]; omega, ?_⟩
  rw [yields_bind, yields_int]
  refine ⟨by rw [fits_int]; omega, ?_⟩
  rw [yields_bind]
  refine within.yields_bhBase.mono ?_
  rintro _ rfl
  refine yieldsAll_append.mpr ⟨yields_loadTile within small (by omega) (by decide) (by decide)
    (by omega) thread.1, ?_⟩
  rw [YieldsAll, tiledRest, yields_bind, yields_int]
  refine ⟨by rw [fits_int]; omega, ?_⟩
  have stop : tiledKvEnd S causal (x * 8 + 8) ≤ S := tiledKvEnd_le (x * 8 + 8)
  rw [yields_bind]
  refine (yieldsAll_countUp (show tiledKvEnd S causal (x * 8 + 8) + (32 : ℕ) ≤
    intBound by unfold intBound; omega)
    (by decide)).mono fun kvBlocks bounds => ?_
  refine yieldsAll_append.mpr ⟨yields_scanTiles within small thread.1 (by omega) bounds, ?_⟩
  rw [YieldsAll, yields_ite]
  refine ⟨fun valid => yields_elements within ⟨by omega, valid.2⟩ (by omega), fun _ => yields_pure.mpr ?_⟩
  exact fun access member => (List.not_mem_nil member).elim

/-- **The threads of the simple kernel are in place**, for a shape that fits. -/
theorem yields_simpleThread (within : Within B H S D b h) {qRow lane : ℤ} (row : 0 ≤ qRow ∧ qRow < S)
    (rows : S < 2 ^ 31) (lanes : 0 ≤ lane ∧ lane < 32) :
    YieldsAll (InPlace H S D b h) (simpleThread H S D causal b h qRow lane) := by
  rw [YieldsAll, simpleThread, yields_bind]
  refine within.yields_bhBase.mono ?_
  rintro _ rfl
  have stops : Yields (fun kvEnd => kvEnd ≤ S) (if causal ≠ 0 then int (qRow + 1) else pure S) := by
    rw [yields_ite, yields_int, yields_pure, fits_int]
    exact ⟨fun _ => by omega, fun _ => le_rfl⟩
  rw [yields_bind]
  refine stops.mono fun kvEnd stop => ?_
  rw [yields_bind]
  refine (yieldsAll_countUp (show kvEnd + (1 : ℕ) ≤ intBound by unfold intBound; omega)
    (by decide)).mono fun kRows bounds => ?_
  refine yieldsAll_append.mpr ⟨yieldsAll_collect.mpr fun kRow member => ?_, yields_elements within row lanes⟩
  have := bounds kRow member
  exact yieldsAll_append.mpr ⟨yields_elements within row lanes, yields_elements within (by omega) lanes⟩

/-- What `solve` admits. -/
theorem admitted_iff : Attention.refuses B H S D = false ↔ 0 < B ∧ 0 < H ∧ 0 < S ∧ 0 < D ∧ D ≤ 128 := by
  have limit : decide ((Attention.maxD : ℤ) < D) = false ↔ D ≤ 128 := by
    rw [decide_eq_false_iff_not, not_lt]
    rfl
  simp [Attention.refuses, limit, and_assoc]

/-- What a thread of the tiled kernel computes after it has loaded its queries. -/
theorem rest_of_tiledThread {good : Access → Prop} {x tid : ℤ}
    (yields : YieldsAll good (tiledThread H S D causal b h x tid)) :
    ∃ base, bhBase H S D b h = some base ∧
      YieldsAll good (tiledRest S D causal base (x * 8) (x * 8 + tid / 32) tid) := by
  rw [YieldsAll, tiledThread, yields_bind, yields_int] at yields
  obtain ⟨_, yields⟩ := yields
  rw [yields_bind, yields_int] at yields
  obtain ⟨_, yields⟩ := yields
  rw [yields_bind] at yields
  obtain ⟨base, computed, yields⟩ := yields
  exact ⟨base, computed, (yieldsAll_append.mp yields).2⟩

/-- It leaves its loop over the tiles, and stores its elements. -/
theorem stores_of_tiledRest {good : Access → Prop} {qBlock qRow tid : ℤ}
    (yields : YieldsAll good (tiledRest S D causal base qBlock qRow tid)) :
    countUp intBound 32 (tiledKvEnd S causal (qBlock + 8)) 0 ≠ none ∧
      (tid / 32 < 8 ∧ qRow < S → YieldsAll good (elements D base qRow (tid % 32))) := by
  rw [YieldsAll, tiledRest, yields_bind, yields_int] at yields
  obtain ⟨_, yields⟩ := yields
  rw [yields_bind] at yields
  obtain ⟨kvBlocks, left, yields⟩ := yields
  refine ⟨by rw [left]; exact Option.some_ne_none kvBlocks, fun valid => ?_⟩
  have stores := (yieldsAll_append.mp yields).2
  rwa [YieldsAll, if_pos valid] at stores

/-- **The tiled kernel.** -/
theorem tiled_exact_iff (admitted : Attention.refuses B H S D = false) :
    TiledExact B H S D causal ↔ B * H * S * D ≤ 2 ^ 31 ∧ S ≤ 2 ^ 31 - 32 := by
  obtain ⟨batch, heads, rows, dimensions, small⟩ := admitted_iff.mp admitted
  constructor
  · intro holds
    simp only [TiledExact, gridX, yields_bind, yields_int, yields_pure, fits_int] at holds
    -- the thread with the last element of the last row
    have thread := holds.2.2 ((S - 1) / 8) (H - 1) (B - 1) ((S - 1) % 8 * 32 + (D - 1) % 32)
      (by omega) (by omega)
      (by omega) (by omega) (by omega) (by omega) (by omega) (by omega)
    obtain ⟨base, computed, rest⟩ := rest_of_tiledThread thread
    have warp : ((S - 1) % 8 * 32 + (D - 1) % 32) / 32 = (S - 1) % 8 := by omega
    have lane : ((S - 1) % 8 * 32 + (D - 1) % 32) % 32 = (D - 1) % 32 := by omega
    have row : (S - 1) / 8 * 8 + (S - 1) % 8 = S - 1 := by omega
    obtain ⟨left, stores⟩ := stores_of_tiledRest rest
    rw [warp, lane, row] at stores
    refine ⟨volume_of_element computed (element_of_elements dimensions small (stores (by omega))), ?_⟩
    by_contra far
    refine left ?_
    rw [tiledKvEnd_last (show S ≤ (S - 1) / 8 * 8 + 8 by omega)]
    exact countUp_overflows (by decide) (by decide) (Int.dvd_zero _) rows
      (show intBound < S + (32 : ℕ) by unfold intBound; omega)
  · rintro ⟨volume, room⟩
    simp only [TiledExact, gridX, yields_bind, yields_int, yields_pure, fits_int]
    refine ⟨by omega, by omega, ?_⟩
    intro x h b tid start block head head' batched batch' thread thread'
    exact yields_tiledThread ⟨rows, dimensions, ⟨head, head'⟩, ⟨batched, batch'⟩, volume⟩ small room start
      (by omega) ⟨thread, thread'⟩

/-- **The simple kernel**; `S` is an `int` itself. -/
theorem simple_exact_iff (admitted : Attention.refuses B H S D = false) (narrow : S < 2 ^ 31) :
    SimpleExact B H S D causal ↔ B * H * S * D ≤ 2 ^ 31 := by
  obtain ⟨batch, heads, rows, dimensions, small⟩ := admitted_iff.mp admitted
  constructor
  · intro holds
    have thread := holds (S - 1) (H - 1) (B - 1) ((D - 1) % 32) (by omega) (by omega) (by omega)
      (by omega) (by omega)
      (by omega) (by omega) (by omega)
    rw [YieldsAll, simpleThread, yields_bind] at thread
    obtain ⟨base, computed, thread⟩ := thread
    rw [yields_bind] at thread
    obtain ⟨kvEnd, _, thread⟩ := thread
    rw [yields_bind] at thread
    obtain ⟨kRows, _, thread⟩ := thread
    exact volume_of_element computed (element_of_elements dimensions small (yieldsAll_append.mp thread).2)
  · intro volume qRow h b lane row row' head head' batched batch' low high
    exact yields_simpleThread ⟨rows, dimensions, ⟨head, head'⟩, ⟨batched, batch'⟩, volume⟩
      ⟨row, row'⟩ narrow ⟨low, high⟩

end Kernels

/-- **`softmax_block_kernel`.** -/
theorem softmax_exact_iff {rows cols : ℤ} :
    SoftmaxExact rows cols ↔ rows ≤ 0 ∨ Fits intBound ((rows - 1) * cols) := by
  have exact_iff (row : ℤ) : int (row * cols) = some (row * cols) ↔ Fits intBound (row * cols) :=
    checked_eq_some.trans (and_iff_left rfl)
  constructor
  · intro holds
    by_cases none : rows ≤ 0
    · exact Or.inl none
    · exact Or.inr ((exact_iff _).mp (holds (rows - 1) (by omega) (by omega)))
  · rintro (none | last) row low high
    · omega
    refine (exact_iff row).mpr ?_
    rw [fits_int] at last ⊢
    by_cases sign : 0 ≤ cols
    · have := Int.mul_nonneg low sign
      have := Int.mul_le_mul_of_nonneg_right (show row ≤ rows - 1 by omega) sign
      omega
    · have := Int.mul_nonpos_of_nonneg_of_nonpos low (show cols ≤ 0 by omega)
      have := Int.mul_le_mul_of_nonpos_right (show row ≤ rows - 1 by omega) (show cols ≤ 0 by omega)
      omega

/-- **For every shape that `solve` admits, and every matrix, the kernels compute their offsets without an
overflow exactly if the array has at most 2^31 elements, and the tiled kernel can leave its loop; and if the
last row of the matrix starts within the range of an `int`.** -/
theorem offsets_exact_iff {B H S D : Int32}
    (admitted : Attention.refuses B.toInt H.toInt S.toInt D.toInt = false) (causal rows cols : Int32) :
    (TiledExact B.toInt H.toInt S.toInt D.toInt causal.toInt ↔
      B.toInt * H.toInt * S.toInt * D.toInt ≤ 2 ^ 31 ∧ S.toInt ≤ 2 ^ 31 - 32) ∧
    (SimpleExact B.toInt H.toInt S.toInt D.toInt causal.toInt ↔
      B.toInt * H.toInt * S.toInt * D.toInt ≤ 2 ^ 31) ∧
    (SoftmaxExact rows.toInt cols.toInt ↔
      rows.toInt ≤ 0 ∨ Fits intBound ((rows.toInt - 1) * cols.toInt)) :=
  ⟨tiled_exact_iff admitted, simple_exact_iff admitted S.toInt_lt, softmax_exact_iff⟩

/-- Two sequences with eight heads, and the default matrix of the benchmark. -/
theorem usual_exact : TiledExact 2 8 1024 64 1 ∧ SimpleExact 2 8 1024 64 1 ∧ SoftmaxExact 4096 1024 := by
  have all := @offsets_exact_iff 2 8 1024 64 (by decide) 1 4096 1024
  exact ⟨all.1.mpr (by decide), all.2.1.mpr (by decide), all.2.2.mpr (by decide)⟩

/-- One sequence of 2^24 + 1 rows with 128 dimensions, and a matrix of 65537 rows with 32768 columns. -/
theorem large_inexact : (Attention.refuses 1 1 16777217 128 = false ∧ ¬ TiledExact 1 1 16777217 128 0 ∧
    ¬ SimpleExact 1 1 16777217 128 0) ∧ ¬ SoftmaxExact 65537 32768 := by
  have admitted : Attention.refuses 1 1 16777217 128 = false := by decide
  refine ⟨⟨admitted, ?_, ?_⟩, ?_⟩
  · rw [tiled_exact_iff admitted]
    decide
  · rw [simple_exact_iff admitted (by decide)]
    decide
  · rw [softmax_exact_iff]
    decide

end

end Insist.Kernels.Offsets
