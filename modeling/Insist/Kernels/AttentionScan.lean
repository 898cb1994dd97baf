/-
**What a warp does with the keys of a row**, for any floats.

Of one dimension of the output, a lane carries `acc`, `m` and `l` from key to key; everything else is made anew
for each key.

* `Online` — this state, and the online softmax step on it; `scoreOf` — the score of a key, with the additions
  in the order in which the lanes and the shuffles make them;
* `online_keyStep` — the statements for a key make this step, for every lane and every dimension that it serves;
* `attended` — the quotient after a number of keys; `stored_once` — one thread stores it, once.
-/
import Insist.Kernels.Attention
import Mathlib.Tactic.IntervalCases

namespace Insist.Kernels.Attention

open Lib Lib.Simt FloatOps FloatScale

variable {α : Type*}

/-- What is carried from key to key for one dimension of the output. -/
structure Online (α : Type*) where
  acc : α
  m : α
  l : α

/-- What a lane carries for its dimension of this `t`. -/
def Registers.online (registers : Registers α) (t : ℕ) : Online α where
  acc := registers.acc t
  m := registers.m
  l := registers.l

namespace Memory

variable (memory : Memory α) (warp : ℕ)

theorem registers_setRegisters (registers : ℕ → Registers α) :
    (memory.setRegisters warp registers).registers warp = registers :=
  Function.update_self _ _ _

theorem setRegisters_setRegisters (first second : ℕ → Registers α) :
    (memory.setRegisters warp first).setRegisters warp second = memory.setRegisters warp second := by
  simp only [setRegisters, Function.update_idem]

theorem setRegisters_registers : memory.setRegisters warp (memory.registers warp) = memory := by
  rw [setRegisters, registers, Function.update_eq_self]

end Memory

variable [FloatScale α]

/-- The state before the first key. -/
def Online.start : Online α where
  acc := zero
  m := negFltMax
  l := zero

/-- The online softmax update. -/
def Online.step (state : Online α) (score value : α) : Online α :=
  let mNew := fmax state.m score
  let oldScale := exp (sub state.m mNew)
  let p := exp (sub score mNew)
  { acc := add (mul state.acc oldScale) (mul p value)
    m := mNew
    l := add (mul state.l oldScale) p }

/-- What a lane adds up in its first turns over `t`. -/
def partialDot (D : ℕ) (q k : ℕ → α) (lane : ℕ) : ℕ → α
  | 0 => zero
  | t + 1 =>
      if lane + t * warpSize < D then
        add (partialDot D q k lane t) (mul (q (lane + t * warpSize)) (k (lane + t * warpSize)))
      else partialDot D q k lane t

/-- What the lanes have after a shuffle and the addition behind it. -/
def shuffleAdd (values : ℕ → α) (offset lane : ℕ) : α :=
  add (values lane) (values (if lane + offset < warpSize then lane + offset else lane))

/-- `dot`, for a query row and a key row. -/
def dotOf (D : ℕ) (q k : ℕ → α) : α :=
  offsets.foldl shuffleAdd (fun lane => partialDot D q k lane maxDPerLane) 0

/-- `score`, for a query row and a key row. -/
def scoreOf (D : ℕ) (q k : ℕ → α) : α := mul (dotOf D q k) (rsqrt (ofInt D))

/-- The lanes after some statements. -/
def runStatements (statements : List (KeyStatement α)) (q k v : ℕ → α) (lanes : ℕ → Registers α) :
    ℕ → Registers α :=
  statements.foldl (fun lanes statement => statement q k v lanes) lanes

/-- The lanes after the statements for a key. -/
def keyStep (D : ℕ) (q k v : ℕ → α) (lanes : ℕ → Registers α) : ℕ → Registers α :=
  runStatements (keyStatements D) q k v lanes

omit [FloatScale α] in
theorem runStatements_append (first second : List (KeyStatement α)) (q k v : ℕ → α) (lanes : ℕ → Registers α) :
    runStatements (first ++ second) q k v lanes = runStatements second q k v
    (runStatements first q k v lanes) :=
  List.foldl_append

omit [FloatScale α] in
/-- One more turn of a loop over `t`. -/
theorem runStatements_range_succ (statement : ℕ → KeyStatement α) (turns : ℕ) (q k v : ℕ → α)
    (lanes : ℕ → Registers α) :
    runStatements ((List.range (turns + 1)).map statement) q k v lanes =
      statement turns q k v (runStatements ((List.range turns).map statement) q k v lanes) := by
  rw [List.range_succ, List.map_append, runStatements_append]
  rfl

section Key

variable (D : ℕ) (q k v : ℕ → α) (lanes : ℕ → Registers α)

theorem run_takeDot (fresh : ∀ lane, (lanes lane).dotPart = zero) (turns lane : ℕ) :
    (runStatements ((List.range turns).map (takeDot D)) q k v lanes lane).dotPart =
    partialDot D q k lane turns ∧
      ∀ t, (runStatements ((List.range turns).map (takeDot D)) q k v lanes lane).online t =
          (lanes lane).online t := by
  induction turns with
  | zero => exact ⟨fresh lane, fun _ => rfl⟩
  | succ turns ih =>
      obtain ⟨sum, carried⟩ := ih
      rw [runStatements_range_succ]
      by_cases inside : lane + turns * warpSize < D
      · rw [takeDot, if_pos inside, partialDot, if_pos inside]
        exact ⟨by rw [sum], carried⟩
      · rw [takeDot, if_neg inside, partialDot, if_neg inside]
        exact ⟨sum, carried⟩

theorem run_dotPart (lane : ℕ) :
    (runStatements (dotPartStatements D) q k v lanes lane).dotPart = partialDot D q k lane maxDPerLane ∧
      ∀ t, (runStatements (dotPartStatements D) q k v lanes lane).online t = (lanes lane).online t :=
  run_takeDot D q k v (fun lane => { lanes lane with dotPart := zero }) (fun _ => rfl) maxDPerLane lane

theorem run_shuffles (all : List ℕ) (lane : ℕ) :
    (runStatements (all.flatMap shflDown) q k v lanes lane).dotPart =
        all.foldl shuffleAdd (fun lane => (lanes lane).dotPart) lane ∧
      ∀ t, (runStatements (all.flatMap shflDown) q k v lanes lane).online t = (lanes lane).online t := by
  induction all generalizing lanes with
  | nil => exact ⟨rfl, fun _ => rfl⟩
  | cons offset rest ih =>
      rw [List.flatMap_cons, runStatements_append]
      exact ih (runStatements (shflDown offset) q k v lanes)

theorem run_reduce (lane : ℕ) :
    (runStatements warpReduceSum q k v lanes lane).dot = offsets.foldl shuffleAdd
    (fun lane => (lanes lane).dotPart) 0 ∧
      ∀ t, (runStatements warpReduceSum q k v lanes lane).online t = (lanes lane).online t := by
  rw [warpReduceSum, runStatements_append]
  exact ⟨(run_shuffles q k v lanes offsets 0).1, (run_shuffles q k v lanes offsets lane).2⟩

theorem run_takeAcc (turns lane : ℕ) :
    let after := runStatements ((List.range turns).map (takeAcc D)) q k v lanes lane
    after = { lanes lane with acc := after.acc } ∧ ∀ t, lane + t * warpSize < D →
      after.acc t = if t < turns then
        add (mul ((lanes lane).acc t) (lanes lane).oldScale) (mul (lanes lane).p (v (lane + t * warpSize)))
      else (lanes lane).acc t := by
  induction turns with
  | zero => exact ⟨rfl, fun t _ => (if_neg (Nat.not_lt_zero t)).symm⟩
  | succ turns ih =>
      obtain ⟨others, acc⟩ := ih
      rw [runStatements_range_succ]
      generalize runStatements ((List.range turns).map (takeAcc D)) q k v lanes = before at others acc
      by_cases inside : lane + turns * warpSize < D
      · rw [takeAcc, if_pos inside]
        refine ⟨by rw [others], fun t inside => ?_⟩
        show Function.update (before lane).acc turns _ t = _
        by_cases here : t = turns
        · subst here
          rw [Function.update_self, if_pos (Nat.lt_succ_self t), acc t inside, if_neg (Nat.lt_irrefl t), others]
        · rw [Function.update_of_ne here, acc t inside]
          simp only [Nat.lt_succ_iff_lt_or_eq, here, or_false]
      · rw [takeAcc, if_neg inside]
        refine ⟨others, fun t inside' => ?_⟩
        have here : t ≠ turns := fun same => inside (same ▸ inside')
        rw [acc t inside']
        simp only [Nat.lt_succ_iff_lt_or_eq, here, or_false]

/-- **The statements for a key make one step of the online softmax**, in every lane and for every dimension. -/
theorem online_keyStep {lane t : ℕ} (turn : t < maxDPerLane) (inside : lane + t * warpSize < D) :
    (keyStep D q k v lanes lane).online t =
      ((lanes lane).online t).step (scoreOf D q k) (v (lane + t * warpSize)) := by
  rw [keyStep, keyStatements, runStatements_append, runStatements_append, runStatements_append]
  have parts := run_dotPart D q k v lanes
  generalize runStatements (dotPartStatements D) q k v lanes = first at parts
  obtain ⟨dot, carried⟩ := run_reduce q k v first lane
  generalize runStatements warpReduceSum q k v first = second at dot carried
  simp only [fun lane => (parts lane).1] at dot
  replace carried := (carried t).trans ((parts lane).2 t)
  rw [updateStatements, runStatements_append]
  obtain ⟨others, acc⟩ := run_takeAcc D q k v (runStatements (scoreStatements D) q k v second) maxDPerLane lane
  generalize runStatements _ q k v (runStatements (scoreStatements D) q k v second) = third at others acc
  specialize acc t inside
  rw [if_pos turn] at acc
  show Online.mk ((third lane).acc t) (third lane).mNew
    (add (mul (third lane).l (third lane).oldScale) (third lane).p) = _
  rw [acc, others, ← carried, scoreOf, dotOf, ← dot]
  rfl

end Key

/-! ### From key to key -/

omit [FloatScale α] in
theorem registers_byWarp (statement : Statement α) (warp : ℕ) (memory : Memory α) :
    (byWarp statement warp memory).registers warp = statement (memory.registers warp) :=
  memory.registers_setRegisters warp _

omit [FloatScale α] in
theorem registers_pending (pending : List (Statement α)) (warp : ℕ) (memory : Memory α) :
    ((pending.map byWarp).foldl (fun memory instruction => instruction warp memory) memory).registers warp =
      pending.foldl (fun lanes statement => statement lanes) (memory.registers warp) := by
  induction pending generalizing memory with
  | nil => rfl
  | cons statement rest ih =>
      rw [List.map_cons, List.foldl_cons, List.foldl_cons, ih, registers_byWarp]

/-- The lanes after the statements before the first key. -/
def initLanes (lanes : ℕ → Registers α) : ℕ → Registers α :=
  initStatements.foldl (fun lanes statement => statement lanes) lanes

theorem online_initLanes (lanes : ℕ → Registers α) (lane : ℕ) {t : ℕ} (turn : t < maxDPerLane) :
    (initLanes lanes lane).online t = .start := by
  have fresh : (initLanes lanes lane).acc t = zero := by
    change t < 4 at turn
    interval_cases t <;> rfl
  show Online.mk ((initLanes lanes lane).acc t) negFltMax zero = _
  rw [fresh]
  rfl

/-- The state after the first so many keys. -/
def Online.after (score value : ℕ → α) (keys : ℕ) : Online α :=
  (List.range keys).foldl (fun state key => state.step (score key) (value key)) .start

theorem Online.after_succ (score value : ℕ → α) (keys : ℕ) :
    Online.after score value (keys + 1) = (Online.after score value keys).step (score keys) (value keys) := by
  rw [Online.after, List.range_succ, List.foldl_append]
  rfl

section Row

variable (Q K V : ℕ → α) (H S D b h row : ℕ)

/-- What a lane carries for a dimension when the row has seen so many keys. -/
def rowOnline (keys d : ℕ) : Online α :=
  .after (fun key => scoreOf D (rowOf H S D b h Q row) (rowOf H S D b h K key))
    (fun key => rowOf H S D b h V key d) keys

theorem rowOnline_succ (keys d : ℕ) : rowOnline Q K V H S D b h row (keys + 1) d =
    (rowOnline Q K V H S D b h row keys d).step (scoreOf D (rowOf H S D b h Q row) (rowOf H S D b h K keys))
      (rowOf H S D b h V keys d) :=
  Online.after_succ _ _ keys

/-- What a kernel stores for a dimension of a row that sees so many keys. -/
def attended (keys d : ℕ) : α :=
  div (rowOnline Q K V H S D b h row keys d).acc (rowOnline Q K V H S D b h row keys d).l

end Row

theorem partialDot_congr {D : ℕ} {q q' k k' : ℕ → α} (query : ∀ d < D, q d = q' d) (key : ∀ d < D, k d = k' d)
    (lane turns : ℕ) : partialDot D q k lane turns = partialDot D q' k' lane turns := by
  induction turns with
  | zero => rfl
  | succ turns ih =>
      rw [partialDot, partialDot, ih]
      by_cases inside : lane + turns * warpSize < D
      · rw [if_pos inside, if_pos inside, query _ inside, key _ inside]
      · rw [if_neg inside, if_neg inside]

/-- A score depends on the dimensions of the head only. -/
theorem scoreOf_congr {D : ℕ} {q q' k k' : ℕ → α} (query : ∀ d < D, q d = q' d) (key : ∀ d < D, k d = k' d) :
    scoreOf D q k = scoreOf D q' k' := by
  rw [scoreOf, scoreOf, dotOf, dotOf]
  simp only [partialDot_congr query key]

/-! ### The last loop -/

/-- An element of the output, with the number of times that it has been written. -/
def Output.element (output : Output α) (address : ℕ) : α × ℕ := (output.value address, output.writes address)

omit [FloatScale α] in
theorem element_store_self (output : Output α) (address : ℕ) (value : α) :
    (output.store address value).element address = (value, output.writes address + 1) :=
  Prod.ext (Function.update_self _ _ _) (Function.update_self _ _ _)

omit [FloatScale α] in
theorem element_store_of_ne (output : Output α) {address other : ℕ} (apart : other ≠ address) (value : α) :
    (output.store address value).element other = output.element other :=
  Prod.ext (Function.update_of_ne apart _ _) (Function.update_of_ne apart _ _)

/-- The lane and the `t` that serve a dimension. -/
theorem dimension_split (d : ℕ) : d % warpSize + d / warpSize * warpSize = d := Nat.mod_add_div' d warpSize

theorem turn_of_lt {D d : ℕ} (small : D ≤ maxD) (dimension : d < D) : d / warpSize < maxDPerLane := by
  change D ≤ 128 at small
  change d / 32 < 4
  omega

section Store

variable (D base warp lane : ℕ) (memory : Memory α)

theorem storeO_own (t : ℕ) : (storeO D base t warp lane memory).2 = memory.2 := by
  by_cases inside : lane + t * warpSize < D
  · rw [storeO, if_pos inside]
    rfl
  · rw [storeO, if_neg inside]

theorem storeO_elsewhere {t address : ℕ}
    (apart : lane + t * warpSize < D → address ≠ base + (lane + t * warpSize)) :
    (storeO D base t warp lane memory).1.element address = memory.1.element address := by
  by_cases inside : lane + t * warpSize < D
  · rw [storeO, if_pos inside]
    exact element_store_of_ne memory.1 (apart inside) _
  · rw [storeO, if_neg inside]

/-- A store depends on the output at its address only. -/
theorem storeO_congr {first second : Memory α} {address : ℕ} (own : first.2 = second.2)
    (same : first.1.element address = second.1.element address) (t : ℕ) :
    (storeO D base t warp lane first).1.element address =
    (storeO D base t warp lane second).1.element address := by
  by_cases inside : lane + t * warpSize < D
  · rw [storeO, storeO, if_pos inside, if_pos inside]
    by_cases here : address = base + (lane + t * warpSize)
    · have writes : first.1.writes address = second.1.writes address := congrArg Prod.snd same
      subst here
      refine (element_store_self first.1 _ _).trans (Eq.trans ?_ (element_store_self second.1 _ _).symm)
      rw [Memory.registers, Memory.registers, own, writes]
    · exact (element_store_of_ne first.1 here _).trans (same.trans (element_store_of_ne second.1 here _).symm)
  · rwa [storeO, storeO, if_neg inside, if_neg inside]

/-- A lane stores its dimension of each `t` once. -/
theorem store_turns {t : ℕ} (inside : lane + t * warpSize < D) (turns : ℕ) :
    let after := (List.range turns).foldl (fun memory t => storeO D base t warp lane memory) memory
    after.2 = memory.2 ∧ after.1.element (base + (lane + t * warpSize)) = if t < turns then
        (div ((memory.registers warp lane).acc t) (memory.registers warp lane).l,
          memory.1.writes (base + (lane + t * warpSize)) + 1)
      else memory.1.element (base + (lane + t * warpSize)) := by
  induction turns with
  | zero => exact ⟨rfl, (if_neg (Nat.not_lt_zero t)).symm⟩
  | succ turns ih =>
      obtain ⟨own, stored⟩ := ih
      simp only [List.range_succ, List.foldl_append, List.foldl_cons, List.foldl_nil]
      generalize (List.range turns).foldl (fun memory t => storeO D base t warp lane memory) memory =
        before at own stored
      refine ⟨(storeO_own D base warp lane before turns).trans own, ?_⟩
      by_cases here : t = turns
      · subst here
        rw [if_neg (Nat.lt_irrefl t)] at stored
        rw [if_pos (Nat.lt_succ_self t), storeO, if_pos inside]
        have written : before.1.writes _ = memory.1.writes _ := congrArg Prod.snd stored
        refine (element_store_self before.1 _ _).trans ?_
        rw [Memory.registers, own, written]
        rfl
      · rw [storeO_elsewhere D base warp lane before fun _ => by simp only [warpSize]; omega, stored]
        simp only [Nat.lt_succ_iff_lt_or_eq, here, or_false]

omit memory

/-- **The thread that serves a dimension stores its quotient there**, if no other thread stores there. -/
theorem stored_once {count threads : ℕ} (covered : threads ≤ count * warpSize) (small : D ≤ maxD) {d : ℕ}
    (dimension : d < D) {store : ℕ → ℕ → Memory α → Memory α} {tid : ℕ} (inside : tid < threads)
    (mine : ∀ t memory, store t tid memory = storeO D base t warp (d % warpSize) memory)
    (others : ∀ other < threads, other ≠ tid → ∀ t memory, (store t other memory).2 = memory.2 ∧
      (store t other memory).1.element (base + d) = memory.1.element (base + d))
    {memory memory' : Memory α}
    (ran : Runs count [((List.range maxDPerLane).map store).map (lanewise warpSize threads)] memory memory') :
    let lane := memory.registers warp (d % warpSize)
    memory'.1.element (base + d) = (div (lane.acc (d / warpSize)) lane.l, memory.1.writes (base + d) + 1) := by
  intro lane
  have split := dimension_split d
  have seen := view_of_threads (by decide) covered inside
    (fun now : Memory α => (now.2, now.1.element (base + d))) ?_ ?_ ran
  · have turns := (store_turns D base warp (d % warpSize) memory (split.trans_lt dimension) maxDPerLane).2
    rw [split, if_pos (turn_of_lt small dimension)] at turns
    rw [runThread, List.foldl_map, Prod.mk.injEq] at seen
    simp only [mine] at seen
    exact seen.2.trans turns
  · intro operation member first second same
    obtain ⟨t, _, rfl⟩ := List.mem_map.mp member
    rw [Prod.mk.injEq] at same
    obtain ⟨own, element⟩ := same
    rw [mine, mine, storeO_own, storeO_own, own, storeO_congr D base warp (d % warpSize) own element t]
  · intro other bound different operation member now
    obtain ⟨t, _, rfl⟩ := List.mem_map.mp member
    exact Prod.ext (others other bound different t now).1 (others other bound different t now).2

end Store

end Insist.Kernels.Attention
