/-
**The FlashAttention kernels** (`tiled_flash_attention_stand_hpc.cu`, `flash_attention_simple_stand.cu`).

Both scan the keys of a query row with one warp, whose lanes share the dimensions of the head, and keep a
running maximum, a running denominator and a running output. `flash_attention_tiled_kernel` serves eight rows
with a block of eight warps, and reads keys and values by way of tiles in shared memory;
`flash_attention_simple_kernel` serves one row with a block of one warp. What both do with one key is
`keyStatements`; the lanes of a warp carry out each statement at the same time. The output counts how often each
of its elements is written. Sizes and offsets are natural numbers here, as if the index arithmetic were
unbounded; for which shapes the `int`s of the kernels do not overflow is in `Offsets`.
-/
import Insist.Kernels.FloatOps
import Insist.Lib.Grid

namespace Insist.Kernels.Attention

open Lib Lib.Simt FloatOps FloatScale

/-- `WARP_SIZE`. -/
def warpSize : ℕ := 32

/-- `BLOCK_M`, the rows of a query tile. -/
def blockM : ℕ := 8

/-- `BLOCK_N`, the rows of a key tile. -/
def blockN : ℕ := 32

/-- `MAX_D`. -/
def maxD : ℕ := 128

/-- `MAX_D_PER_LANE`. -/
def maxDPerLane : ℕ := (maxD + warpSize - 1) / warpSize

/-- The threads of a tiled block. -/
def tiledThreads : ℕ := blockM * warpSize

/-- The local variables of a lane. -/
structure Registers (α : Type*) where
  acc : ℕ → α
  m : α
  l : α
  dotPart : α
  /-- What a shuffle has brought. -/
  shuffled : α
  dot : α
  score : α
  mNew : α
  oldScale : α
  p : α

/-- The output, and how often each element has been written. -/
structure Output (α : Type*) where
  value : ℕ → α
  writes : ℕ → ℕ

def Output.store {α : Type*} (output : Output α) (index : ℕ) (value : α) : Output α where
  value := Function.update output.value index value
  writes := Function.update output.writes index (output.writes index + 1)

/-- What is a block's own: the tiles, and the local variables of each lane of each warp. -/
structure Own (α : Type*) where
  sQ : ℕ → ℕ → α
  sK : ℕ → ℕ → α
  sV : ℕ → ℕ → α
  registers : ℕ → ℕ → Registers α

abbrev Memory (α : Type*) := Output α × Own α

variable {α : Type*}

namespace Memory

def registers (memory : Memory α) (warp : ℕ) : ℕ → Registers α := memory.2.registers warp

def setRegisters (memory : Memory α) (warp : ℕ) (registers : ℕ → Registers α) : Memory α :=
  (memory.1, { memory.2 with registers := Function.update memory.2.registers warp registers })

def setQ (memory : Memory α) (r d : ℕ) (value : α) : Memory α :=
  (memory.1, { memory.2 with sQ := Function.update memory.2.sQ r (Function.update (memory.2.sQ r) d value) })

def setKV (memory : Memory α) (r d : ℕ) (key value : α) : Memory α :=
  (memory.1, { memory.2 with
    sK := Function.update memory.2.sK r (Function.update (memory.2.sK r) d key)
    sV := Function.update memory.2.sV r (Function.update (memory.2.sV r) d value) })

def store (memory : Memory α) (index : ℕ) (value : α) : Memory α := (memory.1.store index value, memory.2)

end Memory

variable [FloatScale α]

/-! ### What both kernels do -/

/-- A statement that the lanes of a warp carry out together. -/
abbrev Statement (α : Type*) := (ℕ → Registers α) → ℕ → Registers α

/-- A statement that reads a query row, a key row and a value row. -/
abbrev KeyStatement (α : Type*) := (ℕ → α) → (ℕ → α) → (ℕ → α) → Statement α

/-- `acc[t] = 0.0f` for each `t`, `m = -FLT_MAX` and `l = 0.0f`. -/
def initStatements : List (Statement α) :=
  (List.range maxDPerLane).map (fun t lanes lane =>
    { lanes lane with acc := Function.update (lanes lane).acc t zero }) ++
    [fun lanes lane => { lanes lane with m := negFltMax }, fun lanes lane => { lanes lane with l := zero }]

/-- A turn of the loop over `t` for `dot_part`. -/
def takeDot (D t : ℕ) : KeyStatement α := fun q k _ lanes lane =>
  let d := lane + t * warpSize
  if d < D then { lanes lane with dotPart := add (lanes lane).dotPart (mul (q d) (k d)) } else lanes lane

/-- `dot_part`. -/
def dotPartStatements (D : ℕ) : List (KeyStatement α) :=
  (fun _ _ _ lanes lane => { lanes lane with dotPart := zero }) :: (List.range maxDPerLane).map (takeDot D)

/-- `x += __shfl_down_sync(0xffffffffu, x, offset)`: a lane without a partner gets its own value. -/
def shflDown (offset : ℕ) : List (KeyStatement α) :=
  [fun _ _ _ lanes lane => { lanes lane with
      shuffled := (lanes (if lane + offset < warpSize then lane + offset else lane)).dotPart },
    fun _ _ _ lanes lane => { lanes lane with dotPart := add (lanes lane).dotPart (lanes lane).shuffled }]

/-- The values of `offset` in the loop of `warp_reduce_sum`. -/
def offsets : List ℕ := [16, 8, 4, 2, 1]

/-- `dot = warp_reduce_sum(dot_part)`. -/
def warpReduceSum : List (KeyStatement α) :=
  offsets.flatMap shflDown ++ [fun _ _ _ lanes lane => { lanes lane with dot := (lanes 0).dotPart }]

/-- `score`, `m_new`, `old_scale` and `p`. -/
def scoreStatements (D : ℕ) : List (KeyStatement α) :=
  [fun _ _ _ lanes lane => { lanes lane with score := mul (lanes lane).dot (rsqrt (ofInt D)) },
    fun _ _ _ lanes lane => { lanes lane with mNew := fmax (lanes lane).m (lanes lane).score },
    fun _ _ _ lanes lane => { lanes lane with oldScale := exp (sub (lanes lane).m (lanes lane).mNew) },
    fun _ _ _ lanes lane => { lanes lane with p := exp (sub (lanes lane).score (lanes lane).mNew) }]

/-- A turn of the loop over `t` for `acc`. -/
def takeAcc (D t : ℕ) : KeyStatement α := fun _ _ v lanes lane =>
  let d := lane + t * warpSize
  if d < D then
    let value := add (mul ((lanes lane).acc t) (lanes lane).oldScale) (mul (lanes lane).p (v d))
    { lanes lane with acc := Function.update (lanes lane).acc t value }
  else lanes lane

/-- `acc`, `l` and `m`. -/
def updateStatements (D : ℕ) : List (KeyStatement α) :=
  (List.range maxDPerLane).map (takeAcc D) ++
    [fun _ _ _ lanes lane =>
      { lanes lane with l := add (mul (lanes lane).l (lanes lane).oldScale) (lanes lane).p },
      fun _ _ _ lanes lane => { lanes lane with m := (lanes lane).mNew }]

/-- What a warp does with one key. -/
def keyStatements (D : ℕ) : List (KeyStatement α) :=
  dotPartStatements D ++ warpReduceSum ++ scoreStatements D ++ updateStatements D

/-- `O[bh_base + q_row * D + d] = acc[t] / l` for the `d` of one `t`, by the thread that has this lane in this
warp. -/
def storeO (D base t warp lane : ℕ) (memory : Memory α) : Memory α :=
  let d := lane + t * warpSize
  if d < D then
    memory.store (base + d) (div ((memory.registers warp lane).acc t) (memory.registers warp lane).l)
  else memory

/-- `bh_base`. -/
def bhBase (H S D b h : ℕ) : ℕ := (b * H + h) * S * D

/-! ### `flash_attention_tiled_kernel` -/

section Tiled

variable (Q K V : ℕ → α) (H S D : ℕ) (causal : ℤ) (b h x : ℕ)

/-- `q_block`, for `blockIdx.x = x`. -/
def qBlock : ℕ := x * blockM

/-- `valid_q`. -/
def validQ (warp : ℕ) : Bool := warp < blockM && qBlock x + warp < S

/-- The turns of a loop over a tile of so many elements. -/
def turns (elements : ℕ) : ℕ := (elements + tiledThreads - 1) / tiledThreads

/-- A turn of the loop that loads the query tile. -/
def loadQ (turn tid : ℕ) (memory : Memory α) : Memory α :=
  let idx := tid + turn * tiledThreads
  if idx < blockM * D then
    let r := idx / D
    let d := idx - r * D
    let globalQ := qBlock x + r
    memory.setQ r d (if globalQ < S then Q (bhBase H S D b h + globalQ * D + d) else zero)
  else memory

/-- A turn of the loop that loads the key and value tiles. -/
def loadKV (kvBlock turn tid : ℕ) (memory : Memory α) : Memory α :=
  let idx := tid + turn * tiledThreads
  if idx < blockN * D then
    let r := idx / D
    let d := idx - r * D
    let kRow := kvBlock + r
    if kRow < S then
      let g := bhBase H S D b h + kRow * D + d
      memory.setKV r d (K g) (V g)
    else memory.setKV r d zero zero
  else memory

/-- A statement that every warp carries out. -/
def byWarp (statement : Statement α) : Instruction (Memory α) := fun warp memory =>
  memory.setRegisters warp (statement (memory.registers warp))

/-- The condition of `continue` in the scan of a tile. -/
def skips (kvBlock j warp : ℕ) : Bool :=
  !validQ S x warp || S ≤ kvBlock + j || (causal ≠ 0 && qBlock x + warp < kvBlock + j)

/-- A statement of the scan, on the rows of the tiles. -/
def scanKey (kvBlock j : ℕ) (statement : KeyStatement α) : Instruction (Memory α) := fun warp memory =>
  if skips S causal x kvBlock j warp then memory
  else memory.setRegisters warp
    (statement (memory.2.sQ warp) (memory.2.sK j) (memory.2.sV j) (memory.registers warp))

/-- `kv_end`. -/
def tiledKvEnd : ℕ := if causal ≠ 0 then (if S < qBlock x + blockM then S else qBlock x + blockM) else S

/-- The values of `kv_block`. -/
def kvBlocks : List ℕ := (List.range ((tiledKvEnd S causal x + blockN - 1) / blockN)).map (· * blockN)

/-- The loop that loads the query tile. -/
def loadQPhase : Phase (Memory α) :=
  (List.range (turns (blockM * D))).map fun turn =>
    lanewise warpSize tiledThreads (loadQ Q H S D b h x turn)

/-- The loop that loads the key and value tiles. -/
def loadKVPhase (kvBlock : ℕ) : Phase (Memory α) :=
  (List.range (turns (blockN * D))).map fun turn =>
    lanewise warpSize tiledThreads (loadKV K V H S D b h kvBlock turn)

/-- The scan of a tile. -/
def scanPhase (kvBlock : ℕ) : Phase (Memory α) :=
  (List.range blockN).flatMap fun j => (keyStatements D).map (scanKey S causal x kvBlock j)

/-- The last statement. -/
def tiledStorePhase : Phase (Memory α) :=
  (List.range maxDPerLane).map fun t => lanewise warpSize tiledThreads fun tid memory =>
    let lane := tid % warpSize
    let warp := tid / warpSize
    if validQ S x warp then storeO D (bhBase H S D b h + (qBlock x + warp) * D) t warp lane memory else memory

/-- The loop over the tiles, after some code without a barrier. -/
def tilePhases (before : Phase (Memory α)) : List ℕ → List (Phase (Memory α))
  | [] => [before ++ tiledStorePhase H S D b h x]
  | kvBlock :: rest =>
      (before ++ loadKVPhase K V H S D b h kvBlock) :: scanPhase S D causal x kvBlock ::
        tilePhases [] rest

/-- `flash_attention_tiled_kernel`. -/
def flashAttentionTiledKernel : List (Phase (Memory α)) :=
  loadQPhase Q H S D b h x ::
    tilePhases K V H S D causal b h x (initStatements.map byWarp) (kvBlocks S causal x)

end Tiled

/-! ### `flash_attention_simple_kernel` -/

section Simple

variable (Q K V : ℕ → α) (H S D : ℕ) (causal : ℤ) (b h qRow : ℕ)

/-- `kv_end`, the keys that the row sees. -/
def kvEnd : ℕ := if causal ≠ 0 then qRow + 1 else S

/-- A row of one of the arrays. -/
def rowOf (array : ℕ → α) (row d : ℕ) : α := array (bhBase H S D b h + row * D + d)

/-- `flash_attention_simple_kernel`. -/
def flashAttentionSimpleKernel : List (Phase (Memory α)) :=
  [initStatements.map byWarp ++
    ((List.range (kvEnd S causal qRow)).flatMap fun kRow => (keyStatements D).map fun statement =>
      byWarp (statement (rowOf H S D b h Q qRow) (rowOf H S D b h K kRow) (rowOf H S D b h V kRow))) ++
    (List.range maxDPerLane).map fun t => lanewise warpSize warpSize fun lane memory =>
      storeO D (bhBase H S D b h + qRow * D) t 0 lane memory]

end Simple

/-! ### The two `solve`s -/

section Solve

variable (Q K V : ℕ → α) (B H S D causal : ℤ)

/-- The parameters that `solve` refuses. -/
def refuses : Bool := B ≤ 0 || H ≤ 0 || S ≤ 0 || D ≤ 0 || (maxD : ℤ) < D

/-- What the output can be after the tiled `solve`. -/
def TiledSolve (output output' : Output α) : Prop :=
  if refuses B H S D then output' = output
  else Ends blockM (fun index : Fin ((S.toNat + blockM - 1) / blockM) × Fin H.toNat × Fin B.toNat =>
    flashAttentionTiledKernel Q K V H.toNat S.toNat D.toNat causal index.2.2 index.2.1 index.1) output output'

/-- What the output can be after the simple `solve`. -/
def SimpleSolve (output output' : Output α) : Prop :=
  if refuses B H S D then output' = output
  else Ends 1 (fun index : Fin S.toNat × Fin H.toNat × Fin B.toNat =>
    flashAttentionSimpleKernel Q K V H.toNat S.toNat D.toNat causal index.2.2 index.2.1 index.1) output output'

end Solve

end Insist.Kernels.Attention
