/- **Launches of the attention kernels.** The limits that a device puts on a grid and on a block, and what it
does with a launch that is beyond them, are not part of the program.

* `StoresIn` — an operation that changes the output at some addresses only, and an address by itself;
* `attends_of_launch` — a launch whose blocks keep to the elements of their own rows is, element by element,
  what its blocks do by themselves;
* `simple_element` — what a block of `flash_attention_simple_kernel` makes of an element of its row;
* `tiled_attends`, `simple_attends` — so both launches leave the quotients of `attended` in the output, each
  written once, and nothing else; `Attends.unique` — there is one such output.
-/
import Insist.Kernels.AttentionTiles
import Insist.Lib.Frame

namespace Insist.Kernels.Attention

open Lib Lib.Simt FloatOps FloatScale

variable {α : Type*}

/-! ### Blocks that keep to their elements -/

/-- The elements of the output that are not at these addresses. -/
def elsewhere (mine : ℕ → Prop) (output : Output α) (other : {address // ¬ mine address}) :
    α × ℕ := output.element other

/-- The statement changes the output at these addresses only, and what it makes of the output at one address
depends on the output at no other. -/
abbrev StoresIn (mine : ℕ → Prop) (address : ℕ) (statement : Memory α → Memory α) : Prop :=
  Framed (fun output : Output α => output.element address) (elsewhere mine) statement

variable {mine : ℕ → Prop} {address : ℕ}

theorem StoresIn.byWarp (statement : Statement α) (warp : ℕ) :
    StoresIn mine address (Attention.byWarp statement warp : Memory α → Memory α) :=
  .of_own (fun _ => rfl) fun _ _ => rfl

/-! ### Element by element -/

/-- Where `O[b][h][i][d]` is. -/
def addressOf (H S D b h i d : ℕ) : ℕ := bhBase H S D b h + i * D + d

variable {H S D : ℕ}

/-- The elements of the output do not overlap. -/
theorem addressOf_inj {b b' h h' i i' d d' : ℕ} (head : h < H) (head' : h' < H) (row : i < S) (row' : i' < S)
    (dimension : d < D) (dimension' : d' < D) (same : addressOf H S D b h i d = addressOf H S D b' h' i' d') :
    b = b' ∧ h = h' ∧ i = i' ∧ d = d' := by
  have apart {outer inner outer' inner' size : ℕ} (inside : inner < size) (inside' : inner' < size)
      (same : outer * size + inner = outer' * size + inner') : outer = outer' ∧ inner = inner' := by
    have first := congrArg (· / size) same
    simp only [cell_row inside, cell_row inside'] at first
    exact ⟨first, by rw [first] at same; exact Nat.add_left_cancel same⟩
  simp only [addressOf, bhBase, ← Nat.add_mul] at same
  obtain ⟨rows, rfl⟩ := apart dimension dimension' same
  obtain ⟨heads, rfl⟩ := apart row row' rows
  obtain ⟨rfl, rfl⟩ := apart head head' heads
  exact ⟨rfl, rfl, rfl, rfl⟩

variable [FloatScale α]

/-- The elements of `O` are what their rows attend to, each written once, and the rest of the output is as
before. -/
structure Attends (Q K V : ℕ → α) (B H S D : ℕ) (causal : ℤ) (output output' : Output α) : Prop where
  inside : ∀ b < B, ∀ h < H, ∀ i < S, ∀ d < D, output'.element (addressOf H S D b h i d) =
    (attended Q K V H S D b h i (kvEnd S causal i) d, output.writes (addressOf H S D b h i d) + 1)
  outside : ∀ address, (∀ b < B, ∀ h < H, ∀ i < S, ∀ d < D, address ≠ addressOf H S D b h i d) →
    output'.element address = output.element address

variable {Q K V : ℕ → α} {B : ℕ} {causal : ℤ} {output output' : Output α}

theorem Attends.value (attends : Attends Q K V B H S D causal output output') {b h i d : ℕ} (batch : b < B)
    (head : h < H) (row : i < S) (dimension : d < D) :
    output'.value (addressOf H S D b h i d) = attended Q K V H S D b h i (kvEnd S causal i) d :=
  congrArg Prod.fst (attends.inside b batch h head i row d dimension)

/-- **There is one such output.** -/
theorem Attends.unique {output'' : Output α} (attends : Attends Q K V B H S D causal output output')
    (attends' : Attends Q K V B H S D causal output output'') : output' = output'' := by
  have same : output'.element = output''.element := by
    ext1 address
    by_cases element : ∀ b < B, ∀ h < H, ∀ i < S, ∀ d < D, address ≠ addressOf H S D b h i d
    · rw [attends.outside address element, attends'.outside address element]
    · push Not at element
      obtain ⟨b, batch, h, head, i, row, d, dimension, rfl⟩ := element
      rw [attends.inside b batch h head i row d dimension, attends'.inside b batch h head i row d dimension]
  obtain ⟨value, writes⟩ := output'
  obtain ⟨value', writes'⟩ := output''
  have values : value = value' := funext fun address => congrArg Prod.fst (congrFun same address)
  have counts : writes = writes' := funext fun address => congrArg Prod.snd (congrFun same address)
  rw [values, counts]

section Launch

variable {blocks count : ℕ}

/-- The elements of a block's rows, when this is the block that serves a row. -/
def served (H S D : ℕ) (blockOf : ℕ → ℕ) (index : Fin blocks × Fin H × Fin B) (address : ℕ) : Prop :=
  ∃ i < S, blockOf i = index.1 ∧ ∃ d < D, address = addressOf H S D index.2.2 index.2.1 i d

/-- **A launch is, element by element, what its blocks do by themselves.** -/
theorem attends_of_launch {phases : Fin blocks × Fin H × Fin B → List (Phase (Memory α))} (blockOf : ℕ → ℕ)
    (inGrid : ∀ i < S, blockOf i < blocks)
    (stores : ∀ address index instruction, InCode (phases index) instruction → ∀ warp,
      StoresIn (served H S D blockOf index) address (instruction warp))
    (element : ∀ index, ∀ i < S, blockOf i = index.1 → ∀ d < D, ∀ memory memory',
      Runs count (phases index) memory memory' →
      memory'.1.element (addressOf H S D index.2.2 index.2.1 i d) =
        (attended Q K V H S D index.2.2 index.2.1 i (kvEnd S causal i) d,
          memory.1.writes (addressOf H S D index.2.2 index.2.1 i d) + 1))
    (ends : Ends count phases output output') : Attends Q K V B H S D causal output output' := by
  have framed (address : ℕ) : FramedBlocks phases (fun _ (output : Output α) => output.element address)
      fun index => elsewhere (served H S D blockOf index) := stores address
  constructor
  · intro b batch h head i row d dimension
    let index : Fin blocks × Fin H × Fin B := (⟨blockOf i, inGrid i row⟩, ⟨h, head⟩, ⟨b, batch⟩)
    let address := addressOf H S D b h i d
    have apart (other : Fin blocks × Fin H × Fin B) (different : other ≠ index) :
        ¬ served H S D blockOf other address := by
      rintro ⟨i', row', block, d', dimension', element⟩
      obtain ⟨sameBatch, sameHead, sameRow, _⟩ :=
        addressOf_inj head other.2.1.isLt row row' dimension dimension' element
      exact different (Prod.ext (Fin.ext (block.symm.trans (congrArg blockOf sameRow.symm)))
        (Prod.ext (Fin.ext sameHead.symm) (Fin.ext sameBatch.symm)))
    obtain ⟨own, memory', ran, same⟩ := (framed address).block_of_ends
      (fun other different first second same => congrFun same ⟨address, apart other different⟩) ends
    exact same.symm.trans (element index i row rfl d dimension _ _ ran)
  · intro address outside
    refine (framed address).keeps_outside ends (fun now => now.element address) fun index first
      second same => ?_
    refine congrFun same ⟨address, ?_⟩
    rintro ⟨i, row, _, d, dimension, element⟩
    exact outside _ index.2.2.isLt _ index.2.1.isLt i row d dimension element

end Launch

/-! ### The tiled kernel -/

section Tiled

variable {b h x : ℕ}

theorem StoresIn.loadQ (turn tid : ℕ) : StoresIn mine address (loadQ Q H S D b h x turn tid) := by
  by_cases more : tid + turn * tiledThreads < blockM * D
  · exact .congr (loadQ_of_lt Q H S D b h x · more) (.of_own (fun _ => rfl) fun _ _ => rfl)
  · exact .congr (loadQ_of_not_lt Q H S D b h x · more) .skip

theorem StoresIn.loadKV (kvBlock turn tid : ℕ) : StoresIn mine address
    (loadKV K V H S D b h kvBlock turn tid) := by
  by_cases more : tid + turn * tiledThreads < blockN * D
  · exact .congr (loadKV_of_lt K V H S D b h · more) (.of_own (fun _ => rfl) fun _ _ => rfl)
  · exact .congr (loadKV_of_not_lt K V H S D b h · more) .skip

omit [FloatScale α] in
theorem StoresIn.scanKey (kvBlock j : ℕ) (statement : KeyStatement α) (warp : ℕ) :
    StoresIn mine address (scanKey S causal x kvBlock j statement warp) := by
  by_cases skipped : skips S causal x kvBlock j warp
  · exact .congr (fun _ => if_pos skipped) .skip
  · exact .congr (fun _ => if_neg skipped) (.of_own (fun _ => rfl) fun _ _ => rfl)

theorem StoresIn.storeO {base t warp lane : ℕ}
    (stored : lane + t * warpSize < D → mine (base + (lane + t * warpSize))) :
    StoresIn mine address (storeO D base t warp lane : Memory α → Memory α) where
  keeps memory := funext fun other =>
    storeO_elsewhere D base warp lane memory fun inside same => other.2 (same ▸ stored inside)
  depends first second seen own := by
    refine ⟨storeO_congr D base warp lane own seen t, ?_⟩
    rw [storeO_own, storeO_own, own]

/-- Every statement of the kernel, under an assumption about the last loop. -/
theorem StoresIn.tilePhases (stores : ∀ t tid, StoresIn mine address
    (tiledStore H S D b h x t tid : Memory α → Memory α))
    (warp : ℕ) (kvBlocks : List ℕ) {before : Phase (Memory α)}
    (ready : ∀ instruction ∈ before, StoresIn mine address (instruction warp)) {phase : Phase (Memory α)}
    (member : phase ∈ tilePhases K V H S D causal b h x before kvBlocks) {instruction : Instruction (Memory α)}
    (inside : instruction ∈ phase) : StoresIn mine address (instruction warp) := by
  induction kvBlocks generalizing before with
  | nil =>
      obtain rfl := List.mem_singleton.mp member
      rcases List.mem_append.mp inside with early | late
      · exact ready instruction early
      · rw [tiledStorePhase_eq] at late
        obtain ⟨operation, listed, rfl⟩ := List.mem_map.mp late
        obtain ⟨t, _, rfl⟩ := List.mem_map.mp listed
        exact .lanewise (fun tid _ => stores t tid) warp
  | cons kvBlock rest ih =>
      rcases List.mem_cons.mp member with rfl | later
      · rcases List.mem_append.mp inside with early | late
        · exact ready instruction early
        · obtain ⟨turn, _, rfl⟩ := List.mem_map.mp late
          exact .lanewise (fun tid _ => StoresIn.loadKV kvBlock turn tid) warp
      rcases List.mem_cons.mp later with rfl | later
      · obtain ⟨j, _, listed⟩ := List.mem_flatMap.mp inside
        obtain ⟨statement, _, rfl⟩ := List.mem_map.mp listed
        exact StoresIn.scanKey kvBlock j statement warp
      · exact ih (fun _ none => absurd none List.not_mem_nil) later

/-- **The tiled launch.** -/
theorem tiled_attends (small : D ≤ maxD)
    (ends : Ends blockM (fun index : Fin ((S + blockM - 1) / blockM) × Fin H × Fin B =>
      flashAttentionTiledKernel Q K V H S D causal index.2.2 index.2.1 index.1) output output') :
    Attends Q K V B H S D causal output output' := by
  refine attends_of_launch (· / blockM) (fun i row => ?_) (fun address index instruction inCode warp => ?_)
    (fun index i row block d dimension memory memory' ran => ?_) ends
  · change i / 8 < (S + 8 - 1) / 8
    omega
  · obtain ⟨phase, member, inside⟩ := inCode
    rcases List.mem_cons.mp member with rfl | later
    · obtain ⟨turn, _, rfl⟩ := List.mem_map.mp inside
      exact .lanewise (fun tid _ => StoresIn.loadQ turn tid) warp
    · refine StoresIn.tilePhases (fun t tid => ?_) warp _ (fun instruction listed => ?_) later inside
      · by_cases valid : validQ S index.1 (tid / warpSize)
        · refine .congr (fun _ => if_pos valid) (StoresIn.storeO fun dimension => ?_)
          rw [validQ, Bool.and_eq_true, decide_eq_true_eq, decide_eq_true_eq] at valid
          refine ⟨_, valid.2, ?_, _, dimension, rfl⟩
          change (index.1 * 8 + tid / 32) / 8 = index.1
          change tid / 32 < 8 ∧ _ at valid
          omega
        · exact .congr (fun _ => if_neg valid) .skip
      · obtain ⟨statement, _, rfl⟩ := List.mem_map.mp listed
        exact StoresIn.byWarp statement warp
  · have here : qBlock index.1 + i % blockM = i := by
      rw [qBlock, ← block]
      exact Nat.div_add_mod' i blockM
    have stored := tiled_element (here.trans_lt row) (Nat.mod_lt i (by decide)) small dimension ran
    rwa [here] at stored

end Tiled

/-! ### The simple kernel -/

section Simple

/-- The statements of the loop over the keys. -/
def simpleKeys (Q K V : ℕ → α) (H S D b h qRow keys : ℕ) : List (Statement α) :=
  (List.range keys).flatMap fun kRow => (keyStatements D).map fun statement =>
    statement (rowOf H S D b h Q qRow) (rowOf H S D b h K kRow) (rowOf H S D b h V kRow)

/-- What a lane stores in a turn of the last loop. -/
def simpleStore (H S D b h qRow t lane : ℕ) (memory : Memory α) : Memory α :=
  storeO D (bhBase H S D b h + qRow * D) t 0 lane memory

variable {b h qRow : ℕ}

theorem simpleKernel_eq : flashAttentionSimpleKernel Q K V H S D causal b h qRow =
    [(initStatements ++ simpleKeys Q K V H S D b h qRow (kvEnd S causal qRow)).map byWarp ++
      ((List.range maxDPerLane).map (simpleStore H S D b h qRow)).map (lanewise warpSize warpSize)] := by
  rw [List.map_append, simpleKeys, List.map_flatMap, List.map_map]
  simp only [List.map_map]
  rfl

theorem online_simpleKeys {lane t : ℕ} (turn : t < maxDPerLane) (dimension : lane + t * warpSize < D)
    {lanes : ℕ → Registers α} (fresh : (lanes lane).online t = .start) (keys : ℕ) :
    ((simpleKeys Q K V H S D b h qRow keys).foldl (fun lanes statement => statement lanes) lanes
      lane).online t =
      rowOnline Q K V H S D b h qRow keys (lane + t * warpSize) := by
  induction keys with
  | zero => exact fresh
  | succ keys ih =>
      rw [simpleKeys, List.range_succ, List.flatMap_append, List.flatMap_singleton, ← simpleKeys,
        List.foldl_append,
        List.foldl_map, rowOnline_succ, ← ih]
      generalize (simpleKeys Q K V H S D b h qRow keys).foldl
        (fun lanes statement => statement lanes) lanes = before
      exact online_keyStep D _ _ _ before turn dimension

/-- The loops before the last. -/
theorem simple_scanned (Q K V : ℕ → α) (H S D b h qRow keys : ℕ) {lane t : ℕ} (turn : t < maxDPerLane)
    (dimension : lane + t * warpSize < D) (memory : Memory α) :
    let after := runWarp ((initStatements ++ simpleKeys Q K V H S D b h qRow keys).map byWarp) 0 memory
    after.1 = memory.1 ∧
      (after.registers 0 lane).online t = rowOnline Q K V H S D b h qRow keys (lane + t * warpSize) := by
  constructor
  · refine List.foldlRecOn (motive := fun now : Memory α => now.1 = memory.1) _ _ rfl
      fun now before instruction member => ?_
    obtain ⟨statement, _, rfl⟩ := List.mem_map.mp member
    exact before
  · rw [runWarp, registers_pending, List.foldl_append]
    exact online_simpleKeys turn dimension (online_initLanes _ lane turn) keys

/-- **What a block makes of an element of its row.** -/
theorem simple_element (small : D ≤ maxD) {d : ℕ} (dimension : d < D) {memory memory' : Memory α}
    (ran : Runs 1 (flashAttentionSimpleKernel Q K V H S D causal b h qRow) memory memory') :
    memory'.1.element (addressOf H S D b h qRow d) =
      (attended Q K V H S D b h qRow (kvEnd S causal qRow) d,
        memory.1.writes (addressOf H S D b h qRow d) + 1) := by
  have split := dimension_split d
  have within : d % warpSize < warpSize := Nat.mod_lt d (by decide)
  obtain ⟨output, online⟩ :=
    simple_scanned Q K V H S D b h qRow (kvEnd S causal qRow) (turn_of_lt small dimension)
    (split.trans_lt dimension) memory
  rw [split] at online
  rw [simpleKernel_eq, runs_one, runWarp, List.foldl_append, ← runWarp, ← runWarp, ← runs_one] at ran
  generalize runWarp ((initStatements ++ simpleKeys Q K V H S D b h qRow (kvEnd S causal qRow)).map byWarp) 0
    memory =
    middle at ran output online
  refine (stored_once D (bhBase H S D b h + qRow * D) 0 (Nat.one_mul _).ge small dimension within
    (fun t now => rfl) (fun lane inside different t now => ?_) ran).trans (Prod.ext ?_ ?_)
  · refine ⟨storeO_own .., storeO_elsewhere _ _ _ _ _ fun inRow same => different ?_⟩
    rw [Nat.add_left_cancel same, Nat.add_mul_mod_self_right]
    exact (Nat.mod_eq_of_lt inside).symm
  · exact congrArg₂ div (congrArg Online.acc online) (congrArg Online.l online)
  · exact congrArg (fun output : Output α => output.writes _ + 1) output

/-- **The simple launch.** -/
theorem simple_attends (small : D ≤ maxD)
    (ends : Ends 1 (fun index : Fin S × Fin H × Fin B =>
      flashAttentionSimpleKernel Q K V H S D causal index.2.2 index.2.1 index.1) output output') :
    Attends Q K V B H S D causal output output' := by
  refine attends_of_launch (fun i => i) (fun i row => row) (fun address index instruction inCode warp => ?_)
    (fun index i row block d dimension memory memory' ran => ?_) ends
  · obtain ⟨phase, member, inside⟩ := inCode
    rw [simpleKernel_eq] at member
    obtain rfl := List.mem_singleton.mp member
    rcases List.mem_append.mp inside with early | late
    · obtain ⟨statement, _, rfl⟩ := List.mem_map.mp early
      exact StoresIn.byWarp statement warp
    · obtain ⟨operation, listed, rfl⟩ := List.mem_map.mp late
      obtain ⟨t, _, rfl⟩ := List.mem_map.mp listed
      refine .lanewise (fun lane _ => StoresIn.storeO fun dimension => ?_) warp
      exact ⟨index.1, index.1.isLt, rfl, _, dimension, rfl⟩
  · exact block ▸ simple_element small dimension ran

end Simple

/-! ### The two `solve`s -/

/-- Some output to start with. -/
def Output.blank : Output α where
  value _ := zero
  writes _ := 0

/-- Some memory of its own for a block to start with. -/
def Own.blank : Own α where
  sQ _ _ := zero
  sK _ _ := zero
  sV _ _ := zero
  registers _ _ := ⟨fun _ => zero, zero, zero, zero, zero, zero, zero, zero, zero, zero⟩

section Solve

variable (batches : 0 < B) (heads : 0 < H) (rows : 0 < S) (dimensions : 0 < D) (small : D ≤ maxD)

include batches heads rows dimensions small

theorem not_refuses : ¬ refuses B H S D = true := by
  simp only [refuses, Bool.or_eq_true, decide_eq_true_eq]
  omega

/-- The tiled `solve` can always finish. -/
theorem exists_tiledSolve (Q K V : ℕ → α) (causal : ℤ) (output : Output α) :
    ∃ output', TiledSolve Q K V B H S D causal output output' := by
  obtain ⟨output', ends⟩ := exists_ends blockM
    (fun index : Fin ((S + blockM - 1) / blockM) × Fin H × Fin B =>
      flashAttentionTiledKernel Q K V H S D causal index.2.2 index.2.1 index.1) output fun _ => .blank
  refine ⟨output', ?_⟩
  rw [TiledSolve, if_neg (not_refuses batches heads rows dimensions small)]
  exact ends

/-- So can the simple one. -/
theorem exists_simpleSolve (Q K V : ℕ → α) (causal : ℤ) (output : Output α) :
    ∃ output', SimpleSolve Q K V B H S D causal output output' := by
  obtain ⟨output', ends⟩ := exists_ends 1 (fun index : Fin S × Fin H × Fin B =>
    flashAttentionSimpleKernel Q K V H S D causal index.2.2 index.2.1 index.1) output fun _ => .blank
  refine ⟨output', ?_⟩
  rw [SimpleSolve, if_neg (not_refuses batches heads rows dimensions small)]
  exact ends

theorem TiledSolve.attends (solved : TiledSolve Q K V B H S D causal output output') :
    Attends Q K V B H S D causal output output' := by
  rw [TiledSolve, if_neg (not_refuses batches heads rows dimensions small)] at solved
  exact tiled_attends small solved

theorem SimpleSolve.attends (solved : SimpleSolve Q K V B H S D causal output output') :
    Attends Q K V B H S D causal output output' := by
  rw [SimpleSolve, if_neg (not_refuses batches heads rows dimensions small)] at solved
  exact simple_attends small solved

/-- **The two `solve`s agree**, whatever the float operations are: both always end, each in one output that no
schedule changes, and the two outputs have the same elements. -/
theorem solves_agree (Q K V : ℕ → α) (causal : ℤ) (tiled simple : Output α) :
    ∃ tiled' simple', (∀ output, TiledSolve Q K V B H S D causal tiled output ↔ output = tiled') ∧
      (∀ output, SimpleSolve Q K V B H S D causal simple output ↔ output = simple') ∧
      (∀ b < B, ∀ h < H, ∀ i < S, ∀ d < D,
        tiled'.value (addressOf H S D b h i d) = simple'.value (addressOf H S D b h i d)) ∧
      (tiled = simple → tiled' = simple') := by
  obtain ⟨tiled', solved⟩ := exists_tiledSolve batches heads rows dimensions small Q K V causal tiled
  obtain ⟨simple', solved'⟩ := exists_simpleSolve batches heads rows dimensions small Q K V causal simple
  have attends := solved.attends batches heads rows dimensions small
  have attends' := solved'.attends batches heads rows dimensions small
  refine ⟨tiled', simple', fun output => ⟨fun other => ?_, ?_⟩, fun output => ⟨fun other => ?_, ?_⟩,
    fun b batch h head i row d dimension => ?_, ?_⟩
  · exact (other.attends batches heads rows dimensions small).unique attends
  · rintro rfl
    exact solved
  · exact (other.attends batches heads rows dimensions small).unique attends'
  · rintro rfl
    exact solved'
  · rw [attends.value batch head row dimension, attends'.value batch head row dimension]
  · rintro rfl
    exact attends.unique attends'

end Solve

/-- Nine rows of 33 dimensions, with the causal mask. -/
theorem nine_rows_agree :
    ∃ tiled simple : Output ℝ,
      (∀ output, TiledSolve (fun address => (address : ℝ)) (fun _ => 1) (fun address => (address : ℝ))
        (1 : ℕ) (1 : ℕ) (9 : ℕ) (33 : ℕ) 1 .blank output ↔ output = tiled) ∧
      (∀ output, SimpleSolve (fun address => (address : ℝ)) (fun _ => 1) (fun address => (address : ℝ))
        (1 : ℕ) (1 : ℕ) (9 : ℕ) (33 : ℕ) 1 .blank output ↔ output = simple) ∧
      (∀ b < 1, ∀ h < 1, ∀ i < 9, ∀ d < 33, tiled.value (addressOf 1 9 33 b h i d) =
        simple.value (addressOf 1 9 33 b h i d)) ∧
      ((Output.blank : Output ℝ) = .blank → tiled = simple) :=
  solves_agree (by decide) (by decide) (by decide) (by decide) (by decide) _ _ _ 1 .blank .blank

end Insist.Kernels.Attention
