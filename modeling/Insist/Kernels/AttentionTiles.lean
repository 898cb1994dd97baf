/-
**A block of `flash_attention_tiled_kernel`**, for any floats and under every schedule of its warps.

* `tile` — what a tile in shared memory has to hold; `loadQ_runs`, `loadKV_runs` — the loops that load the tiles
  make it so, and leave everything else to the statements before them;
* `Scanned` — between two tiles, a valid warp carries what its row's online softmax makes of the keys so far;
  `tile_scanned`, `tiles_scanned` — one tile, and the loop over the tiles;
* `tiled_element` — what the block makes of an element of its rows.
-/
import Insist.Kernels.AttentionScan

namespace Insist.Kernels.Attention

open Lib Lib.Simt FloatOps FloatScale

variable {α : Type*}

/-! ### Cells of a tile -/

theorem cell_row {D r d : ℕ} (inside : d < D) : (r * D + d) / D = r := by
  rw [Nat.mul_comm, Nat.mul_add_div (by omega), Nat.div_eq_of_lt inside, Nat.add_zero]

theorem cell_lt {D rows r d : ℕ} (row : r < rows) (inside : d < D) : r * D + d < rows * D := by
  have next : (r + 1) * D ≤ rows * D := Nat.mul_le_mul_right D row
  rw [Nat.succ_mul] at next
  omega

theorem sQ_setQ (memory : Memory α) (r d r' d' : ℕ) (value : α) :
    (memory.setQ r d value).2.sQ r' d' = if r' = r ∧ d' = d then value else memory.2.sQ r' d' := by
  show Function.update memory.2.sQ r _ r' d' = _
  by_cases row : r' = r
  · subst row
    rw [Function.update_self]
    simp only [Function.update_apply, true_and]
  · rw [Function.update_of_ne row, if_neg fun both => row both.1]

theorem sKV_setKV (memory : Memory α) (r d r' d' : ℕ) (key value : α) :
    (memory.setKV r d key value).2.sK r' d' = (if r' = r ∧ d' = d then key else memory.2.sK r' d') ∧
      (memory.setKV r d key value).2.sV r' d' = if r' = r ∧ d' = d then value else memory.2.sV r' d' := by
  show Function.update memory.2.sK r _ r' d' = _ ∧ Function.update memory.2.sV r _ r' d' = _
  by_cases row : r' = r
  · subst row
    rw [Function.update_self, Function.update_self]
    simp only [Function.update_apply, true_and, and_self]
  · rw [Function.update_of_ne row, Function.update_of_ne row, if_neg fun both => row both.1,
      if_neg fun both => row both.1]
    exact ⟨rfl, rfl⟩

/-- What the thread of a cell makes true in its turn, and no other thread undoes, is true after the loop. -/
theorem cell_loaded (before : Phase (Memory α)) (operation : ℕ → ℕ → Memory α → Memory α) {elements index : ℕ}
    (inside : index < elements) (done : Memory α → Prop)
    (makes : ∀ memory, done (operation (index / tiledThreads) (index % tiledThreads) memory))
    (keeps : ∀ turn tid memory, done memory → done (operation turn tid memory))
    (kept : ∀ instruction ∈ before, ∀ warp memory, done memory → done (instruction warp memory))
    {memory memory' : Memory α}
    (ran : Runs blockM [before ++ (List.range (turns elements)).map fun turn =>
      lanewise warpSize tiledThreads (operation turn)] memory memory') : done memory' := by
  have thread : index % tiledThreads < tiledThreads := Nat.mod_lt _ (by decide)
  have warp : index % tiledThreads / warpSize < blockM := warp_lt le_rfl thread
  have turn : index / tiledThreads < turns elements := div_lt_groups (by decide) inside
  refine ran.establishes warp (List.mem_append_right _ (List.mem_map.mpr ⟨_, List.mem_range.mpr turn, rfl⟩))
    done (fun memory => ?_) fun instruction member warp memory already => ?_
  · exact lanewise_establishes (by decide) done thread makes (fun other _ => keeps _ other) memory
  · rcases List.mem_append.mp member with early | late
    · exact kept instruction early warp memory already
    · obtain ⟨turn, _, rfl⟩ := List.mem_map.mp late
      exact lanewise_keeps done (fun tid _ => keeps turn tid) warp already

variable [FloatScale α] (Q K V : ℕ → α) (H S D : ℕ) (causal : ℤ) (b h x : ℕ)

/-- What a tile has to hold that starts with this row of the array. -/
def tile (array : ℕ → α) (start r d : ℕ) : α :=
  if start + r < S then rowOf H S D b h array (start + r) d else zero

theorem tile_of_lt {array : ℕ → α} {start r : ℕ} (inside : start + r < S) :
    tile H S D b h array start r = rowOf H S D b h array (start + r) :=
  funext fun _ => if_pos inside

theorem loadQ_of_lt {turn tid : ℕ} (memory : Memory α) (inside : tid + turn * tiledThreads < blockM * D) :
    let idx := tid + turn * tiledThreads
    loadQ Q H S D b h x turn tid memory =
      memory.setQ (idx / D) (idx - idx / D * D) (tile H S D b h Q (qBlock x) (idx / D) (idx - idx / D * D)) :=
  if_pos inside

theorem loadQ_of_not_lt {turn tid : ℕ} (memory : Memory α)
    (outside : ¬ tid + turn * tiledThreads < blockM * D) :
    loadQ Q H S D b h x turn tid memory = memory :=
  if_neg outside

theorem loadKV_of_lt {kvBlock turn tid : ℕ} (memory : Memory α)
    (inside : tid + turn * tiledThreads < blockN * D) :
    let idx := tid + turn * tiledThreads
    loadKV K V H S D b h kvBlock turn tid memory =
      memory.setKV (idx / D) (idx - idx / D * D) (tile H S D b h K kvBlock (idx / D) (idx - idx / D * D))
        (tile H S D b h V kvBlock (idx / D) (idx - idx / D * D)) := by
  refine (if_pos inside).trans ?_
  simp only [tile]
  by_cases row : kvBlock + (tid + turn * tiledThreads) / D < S
  · rw [if_pos row, if_pos row, if_pos row]
    rfl
  · rw [if_neg row, if_neg row, if_neg row]

theorem loadKV_of_not_lt {kvBlock turn tid : ℕ} (memory : Memory α)
    (outside : ¬ tid + turn * tiledThreads < blockN * D) :
    loadKV K V H S D b h kvBlock turn tid memory = memory :=
  if_neg outside

/-- **The query tile.** -/
theorem loadQ_runs {memory memory' : Memory α} (ran : Runs blockM [loadQPhase Q H S D b h x] memory memory') :
    memory'.1 = memory.1 ∧ ∀ r < blockM, ∀ d < D, memory'.2.sQ r d = tile H S D b h Q (qBlock x) r d := by
  constructor
  · refine ran.phase_keeps (fun now => now.1 = memory.1) (fun instruction inside warp now before => ?_) rfl
    obtain ⟨turn, _, rfl⟩ := List.mem_map.mp inside
    refine lanewise_keeps (fun now : Memory α => now.1 = memory.1) (fun tid _ now before => ?_) warp before
    by_cases more : tid + turn * tiledThreads < blockM * D
    · rw [loadQ_of_lt Q H S D b h x now more]
      exact before
    · rw [loadQ_of_not_lt Q H S D b h x now more]
      exact before
  · intro r row d inside
    have cell := cell_lt row inside
    refine cell_loaded [] (loadQ Q H S D b h x) cell (fun now => now.2.sQ r d = tile H S D b h Q (qBlock x) r d)
      (fun now => ?_) (fun turn tid now already => ?_)
      (fun instruction none => absurd none List.not_mem_nil) ran
    · have index := Nat.mod_add_div' (r * D + d) tiledThreads
      rw [loadQ_of_lt Q H S D b h x now (index.trans_lt cell), index, cell_row inside,
        Nat.add_sub_cancel_left, sQ_setQ,
        if_pos ⟨rfl, rfl⟩]
    · by_cases more : tid + turn * tiledThreads < blockM * D
      · rw [loadQ_of_lt Q H S D b h x now more, sQ_setQ]
        by_cases here : r = (tid + turn * tiledThreads) / D ∧
            d = tid + turn * tiledThreads - (tid + turn * tiledThreads) / D * D
        · obtain ⟨rfl, rfl⟩ := here
          rw [if_pos ⟨rfl, rfl⟩]
        · rw [if_neg here, already]
      · rw [loadQ_of_not_lt Q H S D b h x now more, already]

/-- The loop that loads keys and values. -/
theorem loadKV_own {kvBlock turn : ℕ} (warp : ℕ) (memory : Memory α) :
    let memory' := lanewise warpSize tiledThreads (loadKV K V H S D b h kvBlock turn) warp memory
    memory'.1 = memory.1 ∧ memory'.2.sQ = memory.2.sQ ∧ memory'.2.registers = memory.2.registers := by
  refine lanewise_keeps (fun now : Memory α => now.1 = memory.1 ∧ now.2.sQ = memory.2.sQ ∧
    now.2.registers = memory.2.registers) (fun tid _ now before => ?_) warp ⟨rfl, rfl, rfl⟩
  by_cases more : tid + turn * tiledThreads < blockN * D
  · rw [loadKV_of_lt K V H S D b h now more]
    exact before
  · rw [loadKV_of_not_lt K V H S D b h now more]
    exact before

/-- **The key tile and the value tile**, which are loaded after some statements. -/
theorem loadKV_runs {kvBlock : ℕ} (pending : List (Statement α)) {memory memory' : Memory α}
    (ran : Runs blockM [pending.map byWarp ++ loadKVPhase K V H S D b h kvBlock] memory memory') :
    memory'.1 = memory.1 ∧ memory'.2.sQ = memory.2.sQ ∧ ∀ j < blockN, ∀ d < D,
      memory'.2.sK j d = tile H S D b h K kvBlock j d ∧ memory'.2.sV j d = tile H S D b h V kvBlock j d := by
  have kept : memory'.1 = memory.1 ∧ memory'.2.sQ = memory.2.sQ := by
    refine ran.phase_keeps (fun now => now.1 = memory.1 ∧ now.2.sQ = memory.2.sQ)
      (fun instruction inside warp now before => ?_) ⟨rfl, rfl⟩
    rcases List.mem_append.mp inside with early | late
    · obtain ⟨statement, _, rfl⟩ := List.mem_map.mp early
      exact before
    · obtain ⟨turn, _, rfl⟩ := List.mem_map.mp late
      obtain ⟨output, query, _⟩ := loadKV_own K V H S D b h warp now
      exact ⟨output.trans before.1, query.trans before.2⟩
  refine ⟨kept.1, kept.2, fun j row d inside => ?_⟩
  have cell := cell_lt row inside
  refine cell_loaded (pending.map byWarp) (loadKV K V H S D b h kvBlock) cell (fun now =>
      now.2.sK j d = tile H S D b h K kvBlock j d ∧ now.2.sV j d = tile H S D b h V kvBlock j d)
    (fun now => ?_) (fun turn tid now already => ?_) (fun instruction member warp now already => ?_) ran
  · have index := Nat.mod_add_div' (j * D + d) tiledThreads
    rw [loadKV_of_lt K V H S D b h now (index.trans_lt cell), index, cell_row inside, Nat.add_sub_cancel_left]
    obtain ⟨key, value⟩ := sKV_setKV now j d j d (tile H S D b h K kvBlock j d) (tile H S D b h V kvBlock j d)
    rw [key, value, if_pos ⟨rfl, rfl⟩, if_pos ⟨rfl, rfl⟩]
    exact ⟨rfl, rfl⟩
  · by_cases more : tid + turn * tiledThreads < blockN * D
    · rw [loadKV_of_lt K V H S D b h now more]
      generalize tid + turn * tiledThreads = idx
      obtain ⟨key, value⟩ := sKV_setKV now (idx / D) (idx - idx / D * D) j d
        (tile H S D b h K kvBlock (idx / D) (idx - idx / D * D))
        (tile H S D b h V kvBlock (idx / D) (idx - idx / D * D))
      rw [key, value]
      by_cases here : j = idx / D ∧ d = idx - idx / D * D
      · obtain ⟨rfl, rfl⟩ := here
        rw [if_pos ⟨rfl, rfl⟩, if_pos ⟨rfl, rfl⟩]
        exact ⟨rfl, rfl⟩
      · rw [if_neg here, if_neg here]
        exact already
    · rw [loadKV_of_not_lt K V H S D b h now more]
      exact already
  · obtain ⟨statement, _, rfl⟩ := List.mem_map.mp member
    exact already

/-- Meanwhile a warp has carried out the statements. -/
theorem registers_of_loadKV {kvBlock warp : ℕ} (inside : warp < blockM) (pending : List (Statement α))
    {memory memory' : Memory α}
    (ran : Runs blockM [pending.map byWarp ++ loadKVPhase K V H S D b h kvBlock] memory memory') :
    memory'.registers warp = pending.foldl (fun lanes statement => statement lanes)
    (memory.registers warp) := by
  have loads (other : ℕ) {instruction : Instruction (Memory α)}
      (member : instruction ∈ loadKVPhase K V H S D b h kvBlock) (now : Memory α) :
      (instruction other now).registers warp = now.registers warp := by
    obtain ⟨turn, _, rfl⟩ := List.mem_map.mp member
    exact congrFun (loadKV_own K V H S D b h other now).2.2 warp
  rw [view_of_runs inside (fun now => now.registers warp) (fun instruction member first second same => ?_)
    (fun other _ different instruction member now => ?_) ran]
  · rw [List.foldl_append]
    refine List.foldlRecOn (motive := fun now : Memory α => now.registers warp = _) _ _
      (registers_pending pending warp memory) fun now before instruction member => ?_
    exact (loads warp member now).trans before
  · rcases List.mem_append.mp member with early | late
    · obtain ⟨statement, _, rfl⟩ := List.mem_map.mp early
      rw [registers_byWarp, registers_byWarp, same]
    · rw [loads _ late, loads _ late, same]
  · rcases List.mem_append.mp member with early | late
    · obtain ⟨statement, _, rfl⟩ := List.mem_map.mp early
      exact Function.update_of_ne (Ne.symm different) _ _
    · exact loads other late now

/-! ### The scan of a tile -/

section Scan

variable {S causal x} {kvBlock warp : ℕ}

omit [FloatScale α] in
/-- The statements for a key, by one warp alone. -/
theorem scan_statements (j : ℕ) (statements : List (KeyStatement α)) (memory : Memory α) :
    (statements.map (scanKey S causal x kvBlock j)).foldl
    (fun memory instruction => instruction warp memory) memory =
      if skips S causal x kvBlock j warp then memory
      else memory.setRegisters warp
        (runStatements statements (memory.2.sQ warp) (memory.2.sK j) (memory.2.sV j)
          (memory.registers warp)) := by
  by_cases skipped : skips S causal x kvBlock j warp
  · rw [if_pos skipped]
    refine List.foldlRecOn (motive := fun now => now = memory) _ _ rfl fun now before instruction member => ?_
    obtain ⟨statement, _, rfl⟩ := List.mem_map.mp member
    exact (if_pos skipped).trans before
  · rw [if_neg skipped]
    induction statements generalizing memory with
    | nil => exact (memory.setRegisters_registers warp).symm
    | cons statement rest ih =>
        rw [List.map_cons, List.foldl_cons, ih, scanKey, if_neg skipped, memory.registers_setRegisters,
          memory.setRegisters_setRegisters]
        rfl

/-- What the scan makes of the lanes of a warp. -/
def scanLanes (S D : ℕ) (causal : ℤ) (x kvBlock warp : ℕ) (own : Own α) (keys : List ℕ)
    (lanes : ℕ → Registers α) :
    ℕ → Registers α :=
  keys.foldl (fun lanes j =>
    if skips S causal x kvBlock j warp then lanes else keyStep D (own.sQ warp) (own.sK j)
      (own.sV j) lanes) lanes

theorem foldl_scanPhase (keys : List ℕ) (memory : Memory α) :
    (runWarp (keys.flatMap fun j => (keyStatements D).map (scanKey S causal x kvBlock j)) warp memory).registers
    warp =
      scanLanes S D causal x kvBlock warp memory.2 keys (memory.registers warp) := by
  induction keys generalizing memory with
  | nil => rfl
  | cons j rest ih =>
      rw [List.flatMap_cons, runWarp, List.foldl_append, scan_statements, scanLanes, List.foldl_cons]
      refine (ih _).trans ?_
      by_cases skipped : skips S causal x kvBlock j warp
      · rw [if_pos skipped, if_pos skipped]
        rfl
      · rw [if_neg skipped, if_neg skipped, memory.registers_setRegisters]
        rfl

/-- **The scan of a tile.** -/
theorem scan_runs (inside : warp < blockM) {memory memory' : Memory α}
    (ran : Runs blockM [scanPhase S D causal x kvBlock] memory memory') :
    memory'.1 = memory.1 ∧ memory'.2.sQ = memory.2.sQ ∧
      memory'.registers warp =
        scanLanes S D causal x kvBlock warp memory.2 (List.range blockN) (memory.registers warp) := by
  have statements {instruction : Instruction (Memory α)}
    (member : instruction ∈ scanPhase S D causal x kvBlock) :
      ∃ j statement, instruction = scanKey S causal x kvBlock j statement := by
    obtain ⟨j, _, listed⟩ := List.mem_flatMap.mp member
    obtain ⟨statement, _, rfl⟩ := List.mem_map.mp listed
    exact ⟨j, statement, rfl⟩
  have kept : memory'.1 = memory.1 ∧ memory'.2.sQ = memory.2.sQ := by
    refine ran.phase_keeps (fun now => now.1 = memory.1 ∧ now.2.sQ = memory.2.sQ)
      (fun instruction inside warp now before => ?_) ⟨rfl, rfl⟩
    obtain ⟨j, statement, rfl⟩ := statements inside
    by_cases skipped : skips S causal x kvBlock j warp
    · rwa [scanKey, if_pos skipped]
    · rw [scanKey, if_neg skipped]
      exact before
  refine ⟨kept.1, kept.2, ?_⟩
  have seen := view_of_runs inside
    (fun now : Memory α => (now.registers warp, now.2.sQ warp, now.2.sK, now.2.sV))
    (fun instruction member first second same => ?_) (fun other _ different instruction member now => ?_) ran
  · rw [Prod.mk.injEq] at seen
    exact seen.1.trans (foldl_scanPhase D (List.range blockN) memory)
  · obtain ⟨j, statement, rfl⟩ := statements member
    by_cases skipped : skips S causal x kvBlock j warp
    · rwa [scanKey, scanKey, if_pos skipped, if_pos skipped]
    · simp only [Prod.mk.injEq] at same
      obtain ⟨registers, query, keys, values⟩ := same
      rw [scanKey, scanKey, if_neg skipped, if_neg skipped, first.registers_setRegisters,
        second.registers_setRegisters, registers, query, keys, values]
      simp only [Memory.setRegisters, query, keys, values]
  · obtain ⟨j, statement, rfl⟩ := statements member
    by_cases skipped : skips S causal x kvBlock j other
    · rw [scanKey, if_pos skipped]
    · rw [scanKey, if_neg skipped]
      exact Prod.ext (Function.update_of_ne (Ne.symm different) _ _) rfl

end Scan

/-! ### From tile to tile -/

/-- Between two tiles: a valid warp's row has seen so many keys, once some statements have been carried out. -/
structure Scanned (output : Output α) (pending : List (Statement α)) (warp keys : ℕ)
    (memory : Memory α) : Prop where
  output : memory.1 = output
  query : ∀ d < D, memory.2.sQ warp d = rowOf H S D b h Q (qBlock x + warp) d
  online : ∀ lane t, t < maxDPerLane → lane + t * warpSize < D →
    (pending.foldl (fun lanes statement => statement lanes) (memory.registers warp) lane).online t =
      rowOnline Q K V H S D b h (qBlock x + warp) keys (lane + t * warpSize)

variable {S causal x} {output : Output α} {warp : ℕ} (row : qBlock x + warp < S)

include row

theorem validQ_of_lt (inside : warp < blockM) : validQ S x warp = true := by
  rw [validQ, decide_eq_true inside, decide_eq_true row]
  rfl

theorem skips_iff (inside : warp < blockM) (kvBlock j : ℕ) :
    skips S causal x kvBlock j warp = true ↔ kvEnd S causal (qBlock x + warp) ≤ kvBlock + j := by
  have valid := validQ_of_lt row inside
  by_cases all : causal = 0
  · rw [skips, kvEnd, if_neg (not_not.mpr all), valid]
    simp [all]
  · rw [skips, kvEnd, if_pos all, valid]
    simp only [Bool.not_true, Bool.false_or, Bool.or_eq_true, Bool.and_eq_true, decide_eq_true_eq, ne_eq, all,
      not_false_eq_true, decide_true, true_and]
    omega

variable {H D b h Q K V}

theorem online_scanLanes (inside : warp < blockM) {kvBlock lane t : ℕ} (turn : t < maxDPerLane)
    (dimension : lane + t * warpSize < D) {own : Own α}
    (query : ∀ d < D, own.sQ warp d = rowOf H S D b h Q (qBlock x + warp) d)
    (tiles : ∀ j < blockN, ∀ d < D,
      own.sK j d = tile H S D b h K kvBlock j d ∧ own.sV j d = tile H S D b h V kvBlock j d)
    {lanes : ℕ → Registers α} (before : (lanes lane).online t = rowOnline Q K V H S D b h (qBlock x + warp)
      (min kvBlock (kvEnd S causal (qBlock x + warp))) (lane + t * warpSize))
    {keys : ℕ} (bound : keys ≤ blockN) :
    (scanLanes S D causal x kvBlock warp own (List.range keys) lanes lane).online t =
      rowOnline Q K V H S D b h (qBlock x + warp) (min (kvBlock + keys) (kvEnd S causal (qBlock x + warp)))
        (lane + t * warpSize) := by
  have visible : kvEnd S causal (qBlock x + warp) ≤ S := by
    by_cases all : causal = 0
    · exact (if_neg (not_not.mpr all)).le
    · exact (if_pos all).trans_le row
  induction keys with
  | zero => exact before
  | succ keys ih =>
      specialize ih (by omega)
      rw [scanLanes, List.range_succ, List.foldl_append, List.foldl_cons, List.foldl_nil, ← scanLanes]
      by_cases skipped : skips S causal x kvBlock keys warp
      · have past := (skips_iff row inside kvBlock keys).mp skipped
        rw [if_pos skipped, ih, Nat.min_eq_right past, Nat.min_eq_right (by omega)]
      · have seen := Nat.lt_of_not_le (mt (skips_iff row inside kvBlock keys).mpr skipped)
        obtain ⟨_, value⟩ := tiles keys bound _ dimension
        have inRange : kvBlock + keys < S := by omega
        have key : ∀ d < D, own.sK keys d = rowOf H S D b h K (kvBlock + keys) d := fun d inside =>
          (tiles keys bound d inside).1.trans (congrFun (tile_of_lt H S D b h inRange) d)
        rw [if_neg skipped, online_keyStep D _ _ _ _ turn dimension, ih, Nat.min_eq_left seen.le,
          Nat.min_eq_left (show kvBlock + (keys + 1) ≤ _ by omega), ← Nat.add_assoc, rowOnline_succ,
          scoreOf_congr query key, value, tile_of_lt H S D b h inRange]

/-- One turn of the loop over the tiles. -/
theorem tile_scanned (inside : warp < blockM) {pending : List (Statement α)} {kvBlock : ℕ}
    {memory loaded memory' : Memory α} (before : Scanned Q K V H S D b h x output pending warp
      (min kvBlock (kvEnd S causal (qBlock x + warp))) memory)
    (load : Runs blockM [pending.map byWarp ++ loadKVPhase K V H S D b h kvBlock] memory loaded)
    (scan : Runs blockM [scanPhase S D causal x kvBlock] loaded memory') :
    Scanned Q K V H S D b h x output [] warp
    (min (kvBlock + blockN) (kvEnd S causal (qBlock x + warp))) memory' := by
  obtain ⟨sameOutput, sameQ, tiles⟩ := loadKV_runs K V H S D b h pending load
  obtain ⟨sameOutput', sameQ', lanes⟩ := scan_runs D inside scan
  have query : ∀ d < D, loaded.2.sQ warp d = rowOf H S D b h Q (qBlock x + warp) d := fun d dimension =>
    (congrFun (congrFun sameQ warp) d).trans (before.query d dimension)
  refine ⟨sameOutput'.trans (sameOutput.trans before.output), fun d dimension => ?_,
    fun lane t turn dimension => ?_⟩
  · rw [sameQ', query d dimension]
  · rw [List.foldl_nil, lanes, registers_of_loadKV K V H S D b h inside pending load]
    exact online_scanLanes row inside turn dimension query tiles (before.online lane t turn dimension) le_rfl

/-- The loop over the tiles. -/
theorem tiles_scanned (inside : warp < blockM) (tiles start : ℕ) {memory memory' : Memory α}
    (before : Scanned Q K V H S D b h x output [] warp
      (min (start * blockN) (kvEnd S causal (qBlock x + warp))) memory)
    (ran : Runs blockM (tilePhases K V H S D causal b h x [] ((List.range' start tiles).map (· * blockN)))
      memory memory') :
    ∃ last, Scanned Q K V H S D b h x output [] warp
        (min ((start + tiles) * blockN) (kvEnd S causal (qBlock x + warp))) last ∧
      Runs blockM [tiledStorePhase H S D b h x] last memory' := by
  induction tiles generalizing start memory with
  | zero => exact ⟨memory, before, ran⟩
  | succ tiles ih =>
      obtain ⟨loaded, load, rest⟩ := runs_cons.mp ran
      obtain ⟨scanned, scan, rest⟩ := runs_cons.mp rest
      have next := tile_scanned row inside before load scan
      rw [← Nat.succ_mul] at next
      obtain ⟨last, after, store⟩ := ih (start + 1) next rest
      rw [Nat.add_right_comm, Nat.add_assoc] at after
      exact ⟨last, after, store⟩

omit row in
/-- What a thread stores in a turn of the last loop. -/
def tiledStore (H S D b h x t tid : ℕ) (memory : Memory α) : Memory α :=
  if validQ S x (tid / warpSize) then
    storeO D (bhBase H S D b h + (qBlock x + tid / warpSize) * D) t (tid / warpSize) (tid % warpSize) memory
  else memory

omit row in
theorem tiledStorePhase_eq : tiledStorePhase (α := α) H S D b h x =
    ((List.range maxDPerLane).map (tiledStore H S D b h x)).map (lanewise warpSize tiledThreads) := by
  rw [List.map_map]
  rfl

/-- **The last loop**: the thread that serves the dimension stores its quotient, and no other thread stores
there. -/
theorem store_runs (inside : warp < blockM) (small : D ≤ maxD) {d : ℕ} (dimension : d < D)
    {memory memory' : Memory α}
    (ran : Runs blockM [tiledStorePhase H S D b h x] memory memory') :
    let lane := memory.registers warp (d % warpSize)
    let address := bhBase H S D b h + (qBlock x + warp) * D + d
    memory'.1.element address = (div (lane.acc (d / warpSize)) lane.l, memory.1.writes address + 1) := by
  have valid := validQ_of_lt row inside
  have within : d % warpSize < warpSize := Nat.mod_lt d (by decide)
  have hisWarp : (warp * warpSize + d % warpSize) / warpSize = warp := cell_row within
  have hisLane : (warp * warpSize + d % warpSize) % warpSize = d % warpSize := by
    rw [Nat.mul_comm, Nat.mul_add_mod, Nat.mod_mod]
  rw [tiledStorePhase_eq] at ran
  refine stored_once D (bhBase H S D b h + (qBlock x + warp) * D) warp le_rfl small dimension
    (cell_lt inside within)
    (fun t now => ?_) (fun tid _ different t now => ?_) ran
  · simp only [tiledStore, hisWarp, hisLane, valid, if_true]
  · by_cases served : validQ S x (tid / warpSize)
    · rw [tiledStore, if_pos served]
      refine ⟨storeO_own .., storeO_elsewhere _ _ _ _ _ fun inRow same => different ?_⟩
      have element : (qBlock x + warp) * D + d =
          (qBlock x + tid / warpSize) * D + (tid % warpSize + t * warpSize) := by omega
      have sameRow := congrArg (· / D) element
      simp only [cell_row dimension, cell_row inRow] at sameRow
      rw [sameRow] at element
      have sameDimension : d % warpSize = tid % warpSize := by
        rw [Nat.add_left_cancel element, Nat.add_mul_mod_self_right, Nat.mod_mod]
      rw [Nat.add_left_cancel sameRow, sameDimension]
      exact (Nat.div_add_mod' tid warpSize).symm
    · rw [tiledStore, if_neg served]
      exact ⟨rfl, rfl⟩

/-- The tiles reach the last key of every row of the block. -/
theorem kvEnd_le (causal : ℤ) (inside : warp < blockM) :
    kvEnd S causal (qBlock x + warp) ≤ tiledKvEnd S causal x := by
  by_cases all : causal = 0
  · rw [kvEnd, tiledKvEnd, if_neg (not_not.mpr all), if_neg (not_not.mpr all)]
  · rw [kvEnd, tiledKvEnd, if_pos all, if_pos all]
    split_ifs <;> omega

omit row in
theorem kvEnd_pos (causal : ℤ) {row : ℕ} (inRange : row < S) : 0 < kvEnd S causal row := by
  by_cases all : causal = 0
  · rw [kvEnd, if_neg (not_not.mpr all)]
    omega
  · rw [kvEnd, if_pos all]
    omega

/-- **What a block makes of an element of one of its rows.** -/
theorem tiled_element (inside : warp < blockM) (small : D ≤ maxD) {d : ℕ} (dimension : d < D)
    {memory memory' : Memory α} (ran : Runs blockM (flashAttentionTiledKernel Q K V H S D causal b h x)
      memory memory') :
    let address := bhBase H S D b h + (qBlock x + warp) * D + d
    memory'.1.element address =
      (attended Q K V H S D b h (qBlock x + warp) (kvEnd S causal (qBlock x + warp)) d,
        memory.1.writes address + 1) := by
  obtain ⟨loaded, load, rest⟩ := runs_cons.mp ran
  obtain ⟨sameOutput, tileQ⟩ := loadQ_runs Q H S D b h x load
  have started : Scanned Q K V H S D b h x memory.1 initStatements warp 0 loaded := by
    refine ⟨sameOutput, fun d dimension => ?_, fun lane t turn _ => online_initLanes _ lane turn⟩
    rw [tileQ warp inside d dimension, tile_of_lt H S D b h row]
  have covers := kvEnd_le row causal inside
  have some := kvEnd_pos causal row
  obtain ⟨tiles, count⟩ : ∃ tiles, (tiledKvEnd S causal x + blockN - 1) / blockN = tiles + 1 :=
    Nat.exists_eq_add_of_le' (Nat.div_pos (by omega) (by decide))
  have enough : tiledKvEnd S causal x ≤ (1 + tiles) * blockN := by
    change (_ + 32 - 1) / 32 = tiles + 1 at count
    change _ ≤ (1 + tiles) * 32
    omega
  rw [kvBlocks, count, List.range_eq_range', List.range'_succ, List.map_cons, Nat.zero_mul,
    Nat.zero_add] at rest
  obtain ⟨first, loadFirst, rest⟩ := runs_cons.mp rest
  obtain ⟨second, scanFirst, rest⟩ := runs_cons.mp rest
  have next := tile_scanned row inside (by rwa [Nat.zero_min]) loadFirst scanFirst
  obtain ⟨last, scanned, store⟩ :=
    tiles_scanned row inside tiles 1 (by rwa [Nat.one_mul, ← Nat.zero_add blockN]) rest
  rw [Nat.min_eq_right (covers.trans enough)] at scanned
  have split := dimension_split d
  have online := scanned.online (d % warpSize) (d / warpSize) (turn_of_lt small dimension)
    (split.trans_lt dimension)
  rw [split, List.foldl_nil] at online
  have acc := congrArg Online.acc online
  have l := congrArg Online.l online
  refine (store_runs row inside small dimension store).trans (Prod.ext ?_ ?_)
  · exact congrArg₂ div acc l
  · exact congrArg (fun output : Output α => output.writes _ + 1) scanned.output

end Insist.Kernels.Attention
