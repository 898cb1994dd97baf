/-
**Blocks of warps that meet at barriers.**

The code of a block is a list of phases, with a barrier between two of them. Every warp issues the instructions
of a phase in their order, and no order is assumed among the warps; the barrier lets them into the next phase
when all of them have issued the whole phase.

* `block` — a block as a machine; `Runs` — the runs of a block from its first phase to its end;
* `runs_cons` — a run of a block is a run of its first phase and then one of the others;
* `Outline` — proof outlines for the warps: an assertion for each place in the code, which the warp's own
  instructions establish and the others' do not disturb; `LaneOutline` is the same for single threads, whose
  warps issue an instruction for all of their lanes;
* `view_of_runs`, `view_of_threads` — what only one warp, or thread, touches evolves as if it ran alone;
* `le_groups_mul`, `div_lt_groups` — threads that are grouped into warps, or elements into turns, rounding up;
* `exists_runs` — a block never gets stuck; `Outline.runs_first` — a warp may run ahead of the others.
-/
import Insist.Lib.Machine
import Mathlib.Algebra.Order.Floor.Div
import Mathlib.Data.List.Nodup
import Mathlib.Data.List.Perm.Basic
import Mathlib.Tactic.Ring

namespace Insist.Lib.Simt

/-- What a warp does to the memory when it issues the instruction. -/
abbrev Instruction (σ : Type*) := ℕ → σ → σ

/-- The code between two barriers. -/
abbrev Phase (σ : Type*) := List (Instruction σ)

/-- Where the warps of a block are. -/
structure Control (σ : Type*) where
  /-- What each warp has still to issue before the next barrier. -/
  warps : List (Phase σ)
  /-- The phases behind the barrier. -/
  later : List (Phase σ)

inductive Move
  | issue (warp : ℕ)
  | barrier
deriving DecidableEq, Repr

variable {σ : Type*}

/-- A block of `count` warps before its first phase. -/
def Control.start (count : ℕ) (phases : List (Phase σ)) : Control σ where
  warps := List.replicate count []
  later := phases

def Control.Finished (control : Control σ) : Prop :=
  (∀ code ∈ control.warps, code = []) ∧ control.later = []

/-- What is left to be issued, with one for each barrier. -/
def Control.size (control : Control σ) : ℕ :=
  (control.warps.map List.length).sum +
    (control.later.map fun phase => 1 + control.warps.length * phase.length).sum

/-- A block with the memory that it works on. -/
def block (σ : Type*) : Machine (σ × Control σ) Move where
  step state
    | .issue warp =>
        match state.2.warps[warp]? with
        | some (instruction :: rest) =>
            some (instruction warp state.1, { state.2 with warps := state.2.warps.set warp rest })
        | _ => none
    | .barrier =>
        match state.2.later with
        | phase :: later =>
            if state.2.warps.all List.isEmpty then
              some (state.1, ⟨List.replicate state.2.warps.length phase, later⟩)
            else none
        | [] => none

/-- The block can run from the first of these phases to the end of the last. -/
def Runs (count : ℕ) (phases : List (Phase σ)) (memory memory' : σ) : Prop :=
  ∃ moves control, (block σ).run (memory, .start count phases) moves = some (memory', control) ∧
    control.Finished

/-! ### Single moves -/

theorem step_issue {memory : σ} {control : Control σ} (warp : ℕ) {next : σ × Control σ} :
    (block σ).step (memory, control) (.issue warp) = some next ↔
      ∃ instruction rest, control.warps[warp]? = some (instruction :: rest) ∧
        next = (instruction warp memory, { control with warps := control.warps.set warp rest }) := by
  constructor
  · intro stepped
    simp only [block] at stepped
    split at stepped
    case h_1 instruction rest found =>
      cases stepped
      exact ⟨instruction, rest, found, rfl⟩
    case h_2 => cases stepped
  · rintro ⟨instruction, rest, found, rfl⟩
    simp only [block, found]

theorem step_barrier (memory : σ) {control : Control σ} {next : σ × Control σ} :
    (block σ).step (memory, control) .barrier = some next ↔
      ∃ phase later, control.later = phase :: later ∧ control.warps = List.replicate control.warps.length [] ∧
        next = (memory, ⟨List.replicate control.warps.length phase, later⟩) := by
  have empty : control.warps.all List.isEmpty = true ↔
      control.warps = List.replicate control.warps.length [] := by
    rw [List.all_eq_true, List.eq_replicate_iff]
    simp
  constructor
  · intro stepped
    simp only [block] at stepped
    split at stepped
    case h_1 phase later found =>
      obtain ⟨arrived, same⟩ := Option.ite_none_right_eq_some.mp stepped
      cases same
      exact ⟨phase, later, found, empty.mp arrived, rfl⟩
    case h_2 => cases stepped
  · rintro ⟨phase, later, found, arrived, rfl⟩
    simp only [block, found]
    rw [if_pos (empty.mpr arrived)]

/-- The warps of a block that has nothing to do. -/
theorem finished_iff {control : Control σ} :
    control.Finished ↔ control = ⟨List.replicate control.warps.length [], []⟩ := by
  obtain ⟨warps, later⟩ := control
  simp only [Control.Finished, Control.mk.injEq, List.eq_replicate_iff, true_and]

/-- A barrier or an instruction does not change the number of warps. -/
theorem length_run {memory memory' : σ} {control control' : Control σ} {moves : List Move}
    (ran : (block σ).run (memory, control) moves = some (memory', control')) :
    control'.warps.length = control.warps.length := by
  refine Machine.invariant_run (fun state : σ × Control σ => state.2.warps.length = control.warps.length)
    (fun {state move next} kept stepped => ?_) rfl ran
  cases move with
  | issue warp =>
      obtain ⟨instruction, rest, _, rfl⟩ := (step_issue _).mp stepped
      rw [← kept, List.length_set]
  | barrier =>
      obtain ⟨phase, later, _, _, rfl⟩ := (step_barrier _).mp stepped
      rw [← kept, List.length_replicate]

/-! ### Phase by phase -/

/-- A phase runs as it does when nothing comes after it. -/
theorem run_later {memory memory' : σ} {warps warps' : List (Phase σ)} {moves : List Move}
    (ran : (block σ).run (memory, ⟨warps, []⟩) moves = some (memory', ⟨warps', []⟩)) (later : List (Phase σ)) :
    (block σ).run (memory, ⟨warps, later⟩) moves = some (memory', ⟨warps', later⟩) := by
  induction moves generalizing memory warps with
  | nil =>
      cases ran
      rfl
  | cons move moves ih =>
      obtain ⟨next, stepped, rest⟩ := (Machine.run_cons_eq_some _).mp ran
      cases move with
      | issue warp =>
          obtain ⟨instruction, code, found, rfl⟩ := (step_issue _).mp stepped
          exact (Machine.run_cons_eq_some _).mpr
            ⟨_, (step_issue _).mpr ⟨instruction, code, found, rfl⟩, ih rest⟩
      | barrier =>
          obtain ⟨phase, later, none, _⟩ := (step_barrier _).mp stepped
          cases none

/-- A block that finishes has finished the phase that it is in before. -/
theorem split_run {memory memory' : σ} {warps : List (Phase σ)} {later : List (Phase σ)} {moves : List Move}
    {control : Control σ} (finished : control.Finished)
    (ran : (block σ).run (memory, ⟨warps, later⟩) moves = some (memory', control)) :
    ∃ middle first second,
      (block σ).run (memory, ⟨warps, []⟩) first = some (middle, ⟨List.replicate warps.length [], []⟩) ∧
      (block σ).run (middle, .start warps.length later) second = some (memory', control) := by
  induction moves generalizing memory warps with
  | nil =>
      cases ran
      have arrived : warps = List.replicate warps.length [] :=
        List.eq_replicate_iff.mpr ⟨rfl, finished.1⟩
      refine ⟨memory', [], [], ?_, ?_⟩
      · rw [Machine.run_nil, ← arrived]
      · rw [Machine.run_nil, Control.start, ← arrived]
  | cons move moves ih =>
      obtain ⟨next, stepped, rest⟩ := (Machine.run_cons_eq_some _).mp ran
      cases move with
      | issue warp =>
          obtain ⟨instruction, code, found, rfl⟩ := (step_issue _).mp stepped
          obtain ⟨middle, first, second, ranFirst, ranSecond⟩ := ih rest
          rw [List.length_set] at ranFirst ranSecond
          exact ⟨middle, .issue warp :: first, second,
            (Machine.run_cons_eq_some _).mpr ⟨_, (step_issue _).mpr ⟨instruction, code, found, rfl⟩, ranFirst⟩,
            ranSecond⟩
      | barrier =>
          obtain ⟨phase, after, found, arrived, rfl⟩ := (step_barrier _).mp stepped
          refine ⟨memory, [], .barrier :: moves, ?_, ?_⟩
          · rw [Machine.run_nil, ← arrived]
          · rw [Control.start, ← arrived]
            exact ran

/-- A block starts with a barrier. -/
theorem run_start {count : ℕ} {phase : Phase σ} {later : List (Phase σ)} {memory : σ} {moves : List Move}
    {final : σ × Control σ} (finished : final.2.Finished)
    (ran : (block σ).run (memory, .start count (phase :: later)) moves = some final) :
    ∃ rest, moves = .barrier :: rest ∧
      (block σ).run (memory, ⟨List.replicate count phase, later⟩) rest = some final := by
  cases moves with
  | nil =>
      cases ran
      cases finished.2
  | cons move moves =>
      obtain ⟨next, stepped, rest⟩ := (Machine.run_cons_eq_some _).mp ran
      cases move with
      | issue warp =>
          obtain ⟨instruction, code, found, _⟩ := (step_issue _).mp stepped
          cases (List.mem_replicate.mp (List.mem_of_getElem? found)).2
      | barrier =>
          obtain ⟨first, after, found, _, rfl⟩ := (step_barrier _).mp stepped
          cases found
          rw [Control.start, List.length_replicate] at rest
          exact ⟨moves, rfl, rest⟩

theorem step_start (count : ℕ) (phase : Phase σ) (later : List (Phase σ)) (memory : σ) :
    (block σ).step (memory, .start count (phase :: later)) .barrier =
      some (memory, ⟨List.replicate count phase, later⟩) := by
  have length : (Control.start count (phase :: later)).warps.length = count := List.length_replicate
  refine (step_barrier _).mpr ⟨phase, later, rfl, ?_, ?_⟩
  · rw [length]
    rfl
  · rw [length]

@[simp] theorem runs_nil {count : ℕ} {memory memory' : σ} :
    Runs count [] memory memory' ↔ memory' = memory := by
  constructor
  · rintro ⟨moves, control, ran, finished⟩
    cases moves with
    | nil =>
        cases ran
        rfl
    | cons move moves =>
        obtain ⟨next, stepped, _⟩ := (Machine.run_cons_eq_some _).mp ran
        cases move with
        | issue warp =>
            obtain ⟨instruction, code, found, _⟩ := (step_issue _).mp stepped
            cases (List.mem_replicate.mp (List.mem_of_getElem? found)).2
        | barrier =>
            obtain ⟨phase, later, found, _⟩ := (step_barrier _).mp stepped
            cases found
  · rintro rfl
    exact ⟨[], _, rfl, fun code member => (List.mem_replicate.mp member).2, rfl⟩

/-- **A block runs phase by phase.** -/
theorem runs_cons {count : ℕ} {phase : Phase σ} {later : List (Phase σ)} {memory memory' : σ} :
    Runs count (phase :: later) memory memory' ↔
      ∃ middle, Runs count [phase] memory middle ∧ Runs count later middle memory' := by
  constructor
  · rintro ⟨moves, control, ran, finished⟩
    obtain ⟨rest, _, begun⟩ := run_start finished ran
    obtain ⟨middle, first, second, ranFirst, ranSecond⟩ := split_run finished begun
    rw [List.length_replicate] at ranFirst ranSecond
    refine ⟨middle, ⟨.barrier :: first, ⟨List.replicate count [], []⟩, ?_, ?_⟩, second, control,
      ranSecond, finished⟩
    · exact (Machine.run_cons_eq_some _).mpr ⟨_, step_start count phase [] memory, ranFirst⟩
    · exact ⟨fun code member => (List.mem_replicate.mp member).2, rfl⟩
  · rintro ⟨middle, ⟨moves, control, ran, finished⟩, moves', control', ran', finished'⟩
    obtain ⟨first, rfl, ranFirst⟩ := run_start finished ran
    have length : control.warps.length = count := by
      rw [length_run ranFirst]
      exact List.length_replicate
    rw [finished_iff.mp finished, length] at ranFirst
    refine ⟨.barrier :: (first ++ moves'), control', ?_, finished'⟩
    exact (Machine.run_cons_eq_some _).mpr ⟨_, step_start count phase later memory,
      (Machine.run_append_eq_some _).mpr ⟨_, run_later ranFirst later, ran'⟩⟩

theorem runs_append {count : ℕ} {first second : List (Phase σ)} {memory memory' : σ} :
    Runs count (first ++ second) memory memory' ↔
      ∃ middle, Runs count first memory middle ∧ Runs count second middle memory' := by
  induction first generalizing memory with
  | nil => simp
  | cons phase first ih =>
      rw [List.cons_append, runs_cons]
      constructor
      · rintro ⟨early, here, rest⟩
        obtain ⟨middle, later, last⟩ := ih.mp rest
        exact ⟨middle, runs_cons.mpr ⟨early, here, later⟩, last⟩
      · rintro ⟨middle, all, last⟩
        obtain ⟨early, here, later⟩ := runs_cons.mp all
        exact ⟨early, here, ih.mpr ⟨middle, later, last⟩⟩

/-- **What every instruction keeps, every run keeps.** -/
theorem Runs.keeps {count : ℕ} {phases : List (Phase σ)} {memory memory' : σ}
    (ran : Runs count phases memory memory')
    (kept : σ → Prop)
    (keeps : ∀ phase ∈ phases, ∀ instruction ∈ phase, ∀ warp memory, kept memory →
      kept (instruction warp memory))
    (initially : kept memory) : kept memory' := by
  obtain ⟨moves, control, ran, _⟩ := ran
  let Kept (state : σ × Control σ) : Prop := kept state.1 ∧
    (∀ code ∈ state.2.warps, ∀ instruction ∈ code, ∃ phase ∈ phases, instruction ∈ phase) ∧
      ∀ phase ∈ state.2.later, phase ∈ phases
  have started : Kept (memory, .start count phases) := by
    refine ⟨initially, fun code member instruction inside => ?_, fun _ => id⟩
    rw [(List.mem_replicate.mp member).2] at inside
    cases inside
  refine (Machine.invariant_run Kept (fun {state move next} before stepped => ?_) started ran).1
  obtain ⟨here, left, later⟩ := before
  cases move with
  | issue warp =>
      obtain ⟨instruction, rest, found, rfl⟩ := (step_issue _).mp stepped
      have member := List.mem_of_getElem? found
      obtain ⟨phase, inCode, inside⟩ := left _ member instruction List.mem_cons_self
      refine ⟨keeps phase inCode instruction inside warp _ here, fun code changed => ?_, later⟩
      rcases List.mem_or_eq_of_mem_set changed with old | rfl
      · exact left code old
      · exact fun other inRest => left _ member other (List.mem_cons_of_mem _ inRest)
  | barrier =>
      obtain ⟨phase, after, found, _, rfl⟩ := (step_barrier _).mp stepped
      have inCode := later phase (found ▸ List.mem_cons_self)
      refine ⟨here, fun code member instruction inside => ?_, fun other behind =>
        later other (found ▸ List.mem_cons_of_mem _ behind)⟩
      rw [(List.mem_replicate.mp member).2] at inside
      exact ⟨phase, inCode, inside⟩

/-- The same for one phase. -/
theorem Runs.phase_keeps {count : ℕ} {code : Phase σ} {memory memory' : σ}
    (ran : Runs count [code] memory memory')
    (kept : σ → Prop) (keeps : ∀ instruction ∈ code, ∀ warp memory, kept memory →
      kept (instruction warp memory))
    (initially : kept memory) : kept memory' :=
  ran.keeps kept (fun _ member instruction inside =>
    keeps instruction (List.mem_singleton.mp member ▸ inside)) initially

/-! ### Proof outlines -/

/-- A proof outline for the warps of a phase: the assertion of a warp for a place in the code is established by
the warp's own instruction before it, and not disturbed by the instructions of the others. -/
structure Outline (count : ℕ) (code : Phase σ) (holds : ℕ → ℕ → σ → Prop) : Prop where
  own : ∀ warp < count, ∀ (place : ℕ) (instruction : Instruction σ), code[place]? = some instruction →
    ∀ memory, holds warp place memory → holds warp (place + 1) (instruction warp memory)
  undisturbed : ∀ warp < count, ∀ other < count, warp ≠ other →
    ∀ (here place : ℕ) (instruction : Instruction σ),
    code[place]? = some instruction → ∀ memory, holds warp here memory → holds other place memory →
      holds warp here (instruction other memory)

/-- In its last phase, every warp is at some place in the code, and its assertion holds. -/
def Reached (count : ℕ) (code : Phase σ) (holds : ℕ → ℕ → σ → Prop) (state : σ × Control σ) : Prop :=
  state.2.later = [] ∧ state.2.warps.length = count ∧ ∃ place : ℕ → ℕ, ∀ warp < count,
    place warp ≤ code.length ∧ state.2.warps[warp]? = some (code.drop (place warp)) ∧
    holds warp (place warp) state.1

variable {count : ℕ} {code : Phase σ} {holds : ℕ → ℕ → σ → Prop}

theorem reached_start {memory : σ} (initially : ∀ warp < count, holds warp 0 memory) :
    Reached count code holds (memory, ⟨List.replicate count code, []⟩) := by
  refine ⟨rfl, List.length_replicate, fun _ => 0, fun warp inside => ⟨Nat.zero_le _, ?_, initially warp inside⟩⟩
  rw [List.getElem?_replicate_of_lt inside]
  rfl

theorem Reached.finished {state : σ × Control σ} (reached : Reached count code holds state)
    (finished : state.2.Finished) : ∀ warp < count, holds warp code.length state.1 := by
  obtain ⟨_, _, place, reached⟩ := reached
  intro warp inside
  obtain ⟨bound, left, holds⟩ := reached warp inside
  have past : code.length ≤ place warp := List.drop_eq_nil_iff.mp (finished.1 _ (List.mem_of_getElem? left))
  rwa [show code.length = place warp by omega]

/-- **The assertions hold wherever the warps have come to.** -/
theorem Outline.run (outline : Outline count code holds) {state state' : σ × Control σ} {moves : List Move}
    (ran : (block σ).run state moves = some state') (reached : Reached count code holds state) :
    Reached count code holds state' := by
  refine Machine.invariant_run (Reached count code holds)
    (fun {state move next} reached stepped => ?_) reached ran
  obtain ⟨last, length, place, reached⟩ := reached
  cases move with
  | issue warp =>
      obtain ⟨instruction, rest, found, rfl⟩ := (step_issue _).mp stepped
      have inside : warp < count := length ▸ (List.getElem?_eq_some_iff.mp found).1
      obtain ⟨_, left, here⟩ := reached warp inside
      have both : code.drop (place warp) = instruction :: rest := Option.some.inj (left.symm.trans found)
      have issued : code[place warp]? = some instruction := by
        rw [← Nat.add_zero (place warp), ← List.getElem?_drop, both]
        rfl
      refine ⟨last, (List.length_set).trans length, Function.update place warp (place warp + 1), ?_⟩
      intro other inside'
      obtain ⟨bound', left', there⟩ := reached other inside'
      by_cases same : other = warp
      · subst same
        rw [Function.update_self]
        refine ⟨(List.getElem?_eq_some_iff.mp issued).1, ?_, outline.own other inside _ _ issued _ here⟩
        rw [List.getElem?_set_self', found, ← List.drop_drop, both]
        rfl
      · rw [Function.update_of_ne same]
        refine ⟨bound', ?_, outline.undisturbed other inside' warp inside same _ _ _ issued _ there here⟩
        rw [List.getElem?_set_ne (Ne.symm same), left']
  | barrier =>
      obtain ⟨phase, later, found, _⟩ := (step_barrier _).mp stepped
      rw [last] at found
      cases found

/-- **At the end of the phase all last assertions hold.** -/
theorem Outline.runs (outline : Outline count code holds) {memory memory' : σ}
    (ran : Runs count [code] memory memory') (initially : ∀ warp < count, holds warp 0 memory) :
    ∀ warp < count, holds warp code.length memory' := by
  obtain ⟨moves, control, ran, finished⟩ := ran
  obtain ⟨rest, _, begun⟩ := run_start finished ran
  exact (outline.run begun (reached_start initially)).finished finished

/-- What a warp sees of the memory evolves as if it ran the phase alone, if its instructions depend on nothing
else and the others' leave it as it is. -/
theorem view_of_runs {τ : Type*} {warp : ℕ} (inside : warp < count) (view : σ → τ)
    (own : ∀ instruction ∈ code, ∀ first second : σ, view first = view second →
      view (instruction warp first) = view (instruction warp second))
    (others : ∀ other < count, other ≠ warp → ∀ instruction ∈ code, ∀ memory,
      view (instruction other memory) = view memory)
    {memory memory' : σ} (ran : Runs count [code] memory memory') :
    view memory' = view (code.foldl (fun memory instruction => instruction warp memory) memory) := by
  have outline : Outline count code fun warp' place memory' => warp' = warp →
      view memory' = view ((code.take place).foldl
          (fun memory instruction => instruction warp memory) memory) := by
    constructor
    · rintro warp' _ place instruction found memory' so_far rfl
      rw [List.take_add_one, found, List.foldl_append]
      exact own instruction (List.mem_of_getElem? found) _ _ (so_far rfl)
    · rintro warp' _ other bound different here place instruction found memory' so_far _ rfl
      rw [others other bound (Ne.symm different) instruction (List.mem_of_getElem? found)]
      exact so_far rfl
  have all := outline.runs ran (fun _ _ _ => rfl) warp inside rfl
  rwa [List.take_length] at all

/-- What an instruction of some warp makes true and all instructions keep true is true at the end of the
phase. -/
theorem Runs.establishes {memory memory' : σ} (ran : Runs count [code] memory memory') {warp : ℕ}
    (inside : warp < count)
    {instruction : Instruction σ} (issued : instruction ∈ code) (done : σ → Prop)
    (makes : ∀ memory, done (instruction warp memory))
    (keeps : ∀ instruction ∈ code, ∀ warp memory, done memory → done (instruction warp memory)) :
    done memory' := by
  obtain ⟨index, bound, rfl⟩ := List.getElem_of_mem issued
  have outline : Outline count code fun warp' place memory => warp' = warp → index < place → done memory := by
    constructor
    · rintro warp' _ place other found memory before rfl past
      by_cases now : place = index
      · rw [now, List.getElem?_eq_getElem bound] at found
        exact Option.some.inj found ▸ makes memory
      · exact keeps other (List.mem_of_getElem? found) _ _ (before rfl (by omega))
    · rintro warp' _ other _ _ here place instruction found memory before _ rfl past
      exact keeps _ (List.mem_of_getElem? found) _ _ (before rfl past)
  exact outline.runs ran (fun _ _ _ past => absurd past (Nat.not_lt_zero _)) warp inside rfl bound

/-! ### Runs that exist -/

/-- Every move makes what is left smaller by one. -/
theorem size_of_step {state next : σ × Control σ} {move : Move}
    (stepped : (block σ).step state move = some next) :
    next.2.size + 1 = state.2.size := by
  cases move with
  | issue warp =>
      obtain ⟨instruction, rest, found, rfl⟩ := (step_issue _).mp stepped
      obtain ⟨inside, same⟩ := List.getElem?_eq_some_iff.mp found
      have left : ((state.2.warps.set warp rest).map List.length).sum + 1 =
          (state.2.warps.map List.length).sum := by
        conv_rhs => rw [← List.take_append_drop warp state.2.warps, List.drop_eq_getElem_cons inside, same]
        rw [List.set_eq_take_append_cons_drop, if_pos inside]
        simp only [List.map_append, List.map_cons, List.sum_append, List.sum_cons, List.length_cons]
        omega
      simp only [Control.size, List.length_set]
      omega
  | barrier =>
      obtain ⟨phase, later, found, arrived, rfl⟩ := (step_barrier _).mp stepped
      have none : (state.2.warps.map List.length).sum = 0 := by
        rw [arrived]
        simp
      simp only [Control.size, none, found, List.length_replicate, List.map_replicate,
        List.sum_replicate_nat, List.map_cons, List.sum_cons]
      omega

/-- A block that has not finished can move. -/
theorem exists_move (memory : σ) {control : Control σ} (unfinished : ¬ control.Finished) :
    ∃ move next, (block σ).step (memory, control) move = some next := by
  by_cases arrived : ∀ code ∈ control.warps, code = []
  · cases later : control.later with
    | nil => exact absurd ⟨arrived, later⟩ unfinished
    | cons phase later' =>
        exact ⟨.barrier, _, (step_barrier _).mpr
          ⟨phase, later', later, List.eq_replicate_iff.mpr ⟨rfl, arrived⟩, rfl⟩⟩
  · push Not at arrived
    obtain ⟨code, member, unfinished⟩ := arrived
    obtain ⟨warp, inside, rfl⟩ := List.getElem_of_mem member
    obtain ⟨instruction, rest, same⟩ := List.exists_cons_of_ne_nil unfinished
    exact ⟨.issue warp, _, (step_issue _).mpr
      ⟨instruction, rest, List.getElem?_eq_some_iff.mpr ⟨inside, same⟩, rfl⟩⟩

/-- A block that has finished cannot. -/
theorem stuck_of_finished {memory : σ} {control : Control σ} {move : Move} {next : σ × Control σ}
    (finished : control.Finished) (stepped : (block σ).step (memory, control) move = some next) : False := by
  cases move with
  | issue warp =>
      obtain ⟨instruction, rest, found, _⟩ := (step_issue _).mp stepped
      cases finished.1 _ (List.mem_of_getElem? found)
  | barrier =>
      obtain ⟨phase, later, found, _⟩ := (step_barrier _).mp stepped
      rw [finished.2] at found
      cases found

/-- A block can be run to its end. -/
theorem exists_end (memory : σ) (control : Control σ) :
    ∃ moves final, (block σ).run (memory, control) moves = some final ∧ final.2.Finished :=
  Machine.exists_run (fun state : σ × Control σ => state.2.size) (fun state => state.2.Finished)
    (fun state unfinished => by
      obtain ⟨move, next, stepped⟩ := exists_move state.1 unfinished
      have smaller : next.2.size + 1 = state.2.size := size_of_step stepped
      exact ⟨move, next, stepped, by omega⟩)
    (memory, control)

theorem exists_runs (count : ℕ) (phases : List (Phase σ)) (memory : σ) :
    ∃ memory', Runs count phases memory memory' := by
  obtain ⟨moves, ⟨memory', control⟩, ran, finished⟩ := exists_end memory (Control.start count phases)
  exact ⟨memory', moves, control, ran, finished⟩

/-- What a warp does that runs the whole phase. -/
def runWarp (code : Phase σ) (warp : ℕ) (memory : σ) : σ :=
  code.foldl (fun memory instruction => instruction warp memory) memory

/-- A block of one warp. -/
theorem runs_one {code : Phase σ} {memory memory' : σ} :
    Runs 1 [code] memory memory' ↔ memory' = runWarp code 0 memory := by
  have alone {memory' : σ} (ran : Runs 1 [code] memory memory') : memory' = runWarp code 0 memory :=
    view_of_runs Nat.one_pos (fun memory => memory)
      (fun instruction _ _ _ same => congrArg (instruction 0) same)
      (fun other inside different => absurd (Nat.lt_one_iff.mp inside) different) ran
  refine ⟨alone, fun same => ?_⟩
  obtain ⟨memory'', ran⟩ := exists_runs 1 [code] memory
  rwa [same, ← alone ran]

theorem run_warp (code : Phase σ) {warp : ℕ} {memory : σ} {control : Control σ}
    (found : control.warps[warp]? = some code) :
    (block σ).run (memory, control) (List.replicate code.length (.issue warp)) =
      some (runWarp code warp memory, { control with warps := control.warps.set warp [] }) := by
  induction code generalizing memory control with
  | nil =>
      rw [List.length_nil, List.replicate_zero, Machine.run_nil]
      have same : control.warps.set warp [] = control.warps := by
        obtain ⟨inside, same⟩ := List.getElem?_eq_some_iff.mp found
        rw [← same, List.set_getElem_self]
      rw [same]
      rfl
  | cons instruction rest ih =>
      have stepped : (block σ).step (memory, control) (.issue warp) =
          some (instruction warp memory, { control with warps := control.warps.set warp rest }) :=
        (step_issue _).mpr ⟨instruction, rest, found, rfl⟩
      have next : (control.warps.set warp rest)[warp]? = some rest := by
        rw [List.getElem?_set_self', found]
        rfl
      rw [List.length_cons, List.replicate_succ, Machine.run_cons, stepped, Option.bind_some,
        ih next, List.set_set]
      rfl

/-- **A warp may run ahead of the others**: what it has then established, the others can start from. -/
theorem Outline.runs_first {holds' : ℕ → ℕ → σ → Prop} {first : ℕ} (bound : first < count)
    (outline : Outline count code holds) (outline' : Outline count code holds') {memory : σ}
    (initially : ∀ warp < count, holds warp 0 memory)
    (ahead : ∀ memory, holds first code.length memory →
      ∀ warp < count, holds' warp (if warp = first then code.length else 0) memory) :
    ∃ memory', Runs count [code] memory memory' ∧ ∀ warp < count, holds' warp code.length memory' := by
  have ready : (List.replicate count code)[first]? = some code := List.getElem?_replicate_of_lt bound
  have emptied : ((List.replicate count code).set first [])[first]? = some [] := by
    rw [List.getElem?_set_self', ready]
    rfl
  have ran := @run_warp _ code first memory ⟨List.replicate count code, []⟩ ready
  obtain ⟨moves, ⟨memory', control⟩, rest, finished⟩ := exists_end (runWarp code first memory)
    ⟨(List.replicate count code).set first [], []⟩
  have whole := (Machine.run_append_eq_some _).mpr ⟨_, ran, rest⟩
  refine ⟨memory', ⟨.barrier :: _, control, (Machine.run_cons_eq_some _).mpr
    ⟨_, step_start count code [] memory, whole⟩, finished⟩, ?_⟩
  have there : holds first code.length (runWarp code first memory) := by
    obtain ⟨_, _, place, reached⟩ := outline.run ran (reached_start initially)
    obtain ⟨inside, left, here⟩ := reached first bound
    have past := List.drop_eq_nil_iff.mp (Option.some.inj (left.symm.trans emptied))
    rwa [show code.length = place first by omega]
  refine (outline'.run rest ⟨rfl, ?_, fun warp => if warp = first then code.length else 0, ?_⟩).finished
    finished
  · show ((List.replicate count code).set first []).length = count
    rw [List.length_set, List.length_replicate]
  · intro warp inside
    refine ⟨?_, ?_, ahead _ there warp inside⟩
    · show (if warp = first then code.length else 0) ≤ code.length
      split_ifs <;> omega
    show ((List.replicate count code).set first [])[warp]? =
      some (code.drop (if warp = first then code.length else 0))
    by_cases same : warp = first
    · subst same
      rw [if_pos rfl, List.drop_length]
      exact emptied
    · rw [if_neg same, List.drop_zero]
      exact (List.getElem?_set_ne (Ne.symm same)).trans (List.getElem?_replicate_of_lt inside)

/-! ### Lanes -/

/-- Where an operation stands in code that is a loop with something before and something after it. -/
theorem getElem?_loop {α : Type*} {before after : List α} {body : ℕ → α} {turns place : ℕ} {found : α}
    (here : (before ++ (List.range turns).map body ++ after)[place]? = some found) :
    before[place]? = some found ∨
      (∃ turn < turns, place = before.length + turn ∧ found = body turn) ∨
      ∃ rest, place = before.length + turns + rest ∧ after[rest]? = some found := by
  rw [List.append_assoc] at here
  rcases Nat.lt_or_ge place before.length with early | late
  · rw [List.getElem?_append_left early] at here
    exact Or.inl here
  · rw [List.getElem?_append_right late] at here
    have length : ((List.range turns).map body).length = turns := by rw [List.length_map, List.length_range]
    rcases Nat.lt_or_ge (place - before.length) turns with inside | past
    · rw [List.getElem?_append_left (inside.trans_eq length.symm), List.getElem?_map,
        List.getElem?_range inside] at here
      exact Or.inr (Or.inl ⟨place - before.length, inside, by omega, (Option.some.inj here).symm⟩)
    · rw [List.getElem?_append_right (length.le.trans past), length] at here
      exact Or.inr (Or.inr ⟨_, by omega, here⟩)

/-! ### Groups of one size -/

/-- As many groups as the elements need, rounding up, have room for all of them. -/
theorem le_groups_mul {size : ℕ} (some : 0 < size) (elements : ℕ) :
    elements ≤ (elements + size - 1) / size * size := by
  rw [Nat.mul_comm, ← Nat.ceilDiv_eq_add_pred_div]
  exact le_smul_ceilDiv some

/-- So every element is in one of the groups. -/
theorem div_lt_groups {size elements index : ℕ} (some : 0 < size) (inside : index < elements) :
    index / size < (elements + size - 1) / size :=
  Nat.div_lt_of_lt_mul (by rw [Nat.mul_comm]; exact inside.trans_le (le_groups_mul some elements))

theorem groups_pos {size elements : ℕ} (wide : 0 < size) (some : 0 < elements) :
    0 < (elements + size - 1) / size :=
  (Nat.zero_le _).trans_lt (div_lt_groups wide some)

section Lanes

variable {width threads : ℕ}

/-- The threads of a warp, in a block of so many threads. -/
def lanes (width threads warp : ℕ) : List ℕ :=
  (List.range' (warp * width) width).filter fun thread => thread < threads

/-- An instruction that every lane of the warp carries out by itself. -/
def lanewise (width threads : ℕ) (operation : ℕ → σ → σ) : Instruction σ := fun warp memory =>
  (lanes width threads warp).foldl (fun memory thread => operation thread memory) memory

theorem mem_lanes (wide : 0 < width) {warp thread : ℕ} :
    thread ∈ lanes width threads warp ↔ thread < threads ∧ thread / width = warp := by
  rw [lanes, List.mem_filter, List.mem_range'_1, decide_eq_true_eq, Nat.div_eq_iff wide, and_comm]
  have next : warp * width + width - 1 + 1 = warp * width + width := by omega
  omega

theorem nodup_lanes (warp : ℕ) : (lanes width threads warp).Nodup :=
  List.Nodup.filter _ List.nodup_range'

theorem lt_of_mem_lanes {warp thread : ℕ} (member : thread ∈ lanes width threads warp) : thread < threads :=
  of_decide_eq_true (List.mem_filter.mp member).2

theorem lanewise_keeps {operation : ℕ → σ → σ} (kept : σ → Prop)
    (keeps : ∀ thread < threads, ∀ memory, kept memory → kept (operation thread memory)) (warp : ℕ) {memory : σ}
    (before : kept memory) : kept (lanewise width threads operation warp memory) :=
  List.foldlRecOn (motive := kept) _ _ before fun now before thread member =>
    keeps thread (lt_of_mem_lanes member) now before

theorem foldl_of_idle {operation : ℕ → σ → σ} {all : List ℕ}
    (idle : ∀ thread ∈ all, ∀ memory, operation thread memory = memory) (memory : σ) :
    all.foldl (fun memory thread => operation thread memory) memory = memory :=
  List.foldlRecOn (motive := fun now => now = memory) _ _ rfl fun now before thread member =>
    (idle thread member now).trans before

/-- An instruction that does nothing for the lanes of the warp does nothing. -/
theorem lanewise_of_idle {operation : ℕ → σ → σ} {warp : ℕ}
    (idle : ∀ thread ∈ lanes width threads warp, ∀ memory, operation thread memory = memory) (memory : σ) :
    lanewise width threads operation warp memory = memory :=
  foldl_of_idle idle memory

/-- One that does nothing for all lanes but one does what it does for that lane. -/
theorem lanewise_of_single (wide : 0 < width) {operation : ℕ → σ → σ} {thread : ℕ} (inside : thread < threads)
    (idle : ∀ other, other ≠ thread → ∀ memory, operation other memory = memory) (memory : σ) :
    lanewise width threads operation (thread / width) memory = operation thread memory := by
  obtain ⟨before, after, split⟩ := List.append_of_mem ((mem_lanes wide).mpr ⟨inside, rfl⟩)
  have distinct := @nodup_lanes width threads (thread / width)
  rw [split, List.nodup_append] at distinct
  obtain ⟨_, last, apart⟩ := distinct
  have early : ∀ other ∈ before, other ≠ thread :=
    fun other member => apart other member thread List.mem_cons_self
  have late : ∀ other ∈ after, other ≠ thread := fun other member same =>
    (List.nodup_cons.mp last).1 (same ▸ member)
  rw [lanewise, split, List.foldl_append, foldl_of_idle (fun other member => idle other (early other member)),
    List.foldl_cons, foldl_of_idle fun other member => idle other (late other member)]

/-- What one lane makes true and all lanes keep true is true after the instruction. -/
theorem lanewise_establishes (wide : 0 < width) {operation : ℕ → σ → σ} (done : σ → Prop) {thread : ℕ}
    (inside : thread < threads) (makes : ∀ memory, done (operation thread memory))
    (keeps : ∀ other < threads, ∀ memory, done memory → done (operation other memory)) (memory : σ) :
    done (lanewise width threads operation (thread / width) memory) := by
  obtain ⟨before, after, split⟩ := List.append_of_mem ((mem_lanes wide).mpr ⟨inside, rfl⟩)
  have later : ∀ other ∈ after, other < threads := fun other member =>
    lt_of_mem_lanes (split ▸ List.mem_append_right _ (List.mem_cons_of_mem _ member))
  rw [lanewise, split, List.foldl_append, List.foldl_cons]
  exact List.foldlRecOn (motive := done) _ _ (makes _) fun now already other member =>
    keeps other (later other member) now already

/-- Two memories that a relation joins are joined after the instruction. -/
theorem lanewise_related {operation : ℕ → σ → σ} (related : σ → σ → Prop)
    (keeps : ∀ thread < threads, ∀ first second, related first second →
      related (operation thread first) (operation thread second)) (warp : ℕ) {first second : σ}
    (before : related first second) :
    related (lanewise width threads operation warp first) (lanewise width threads operation warp second) := by
  have inside : ∀ thread ∈ lanes width threads warp, thread < threads :=
    fun _ member => lt_of_mem_lanes member
  unfold lanewise
  generalize lanes width threads warp = all at inside
  induction all generalizing first second with
  | nil => exact before
  | cons lane rest ih =>
      exact ih (keeps lane (inside lane List.mem_cons_self) first second before)
        fun thread member => inside thread (List.mem_cons_of_mem _ member)

/-- Each lane establishes its own fact, and disturbs neither the others' facts nor what they start from. -/
theorem foldl_lanes {operation : ℕ → σ → σ} {threads : List ℕ} (distinct : threads.Nodup)
    (before after : ℕ → σ → Prop) (frame : σ → Prop)
    (own : ∀ thread ∈ threads, ∀ memory, frame memory → before thread memory →
      after thread (operation thread memory))
    (kept : ∀ thread ∈ threads, ∀ memory, frame memory → before thread memory → frame (operation thread memory))
    (undisturbed : ∀ thread ∈ threads, ∀ other ∈ threads, thread ≠ other → ∀ memory, before other memory →
      (before thread memory → before thread (operation other memory)) ∧
        (after thread memory → after thread (operation other memory)))
    {memory : σ} (framed : frame memory) (initially : ∀ thread ∈ threads, before thread memory) :
    frame (threads.foldl (fun memory thread => operation thread memory) memory) ∧
      ∀ thread ∈ threads, after thread
          (threads.foldl (fun memory thread => operation thread memory) memory) := by
  induction threads generalizing memory frame with
  | nil => exact ⟨framed, fun thread member => by cases member⟩
  | cons first rest ih =>
      obtain ⟨fresh, distinct⟩ := List.nodup_cons.mp distinct
      have apart {thread : ℕ} (member : thread ∈ rest) : thread ≠ first := fun same => fresh (same ▸ member)
      have start := initially first List.mem_cons_self
      -- what the first lane has established is part of the frame of the others
      obtain ⟨⟨framed', done⟩, others⟩ := ih distinct (fun memory => frame memory ∧ after first memory)
        (fun thread member memory framed => own thread (List.mem_cons_of_mem _ member) memory framed.1)
        (fun thread member memory framed ready =>
          ⟨kept thread (List.mem_cons_of_mem _ member) memory framed.1 ready,
            (undisturbed first List.mem_cons_self thread (List.mem_cons_of_mem _ member)
              (Ne.symm (apart member)) memory ready).2 framed.2⟩)
        (fun thread member other member' => undisturbed thread (List.mem_cons_of_mem _ member) other
          (List.mem_cons_of_mem _ member'))
        ⟨kept first List.mem_cons_self memory framed start, own first List.mem_cons_self memory framed start⟩
        (fun thread member => (undisturbed thread (List.mem_cons_of_mem _ member) first List.mem_cons_self
          (apart member) memory start).1 (initially thread (List.mem_cons_of_mem _ member)))
      refine ⟨framed', fun thread member => ?_⟩
      rcases List.mem_cons.mp member with rfl | later
      · exact done
      · exact others thread later

/-- A proof outline for the threads of a phase, each of whose instructions is carried out by single lanes. A
thread is at the same place as the other lanes of its warp, or has just carried out the instruction before. -/
structure LaneOutline (width threads : ℕ) (code : List (ℕ → σ → σ)) (holds : ℕ → ℕ → σ → Prop) : Prop where
  own : ∀ thread < threads, ∀ (place : ℕ) (operation : ℕ → σ → σ), code[place]? = some operation →
    ∀ memory, holds thread place memory → holds thread (place + 1) (operation thread memory)
  undisturbed : ∀ thread < threads, ∀ other < threads, thread ≠ other →
    ∀ (here place : ℕ) (operation : ℕ → σ → σ), code[place]? = some operation →
      (thread / width = other / width → here = place ∨ here = place + 1) →
      ∀ memory, holds thread here memory → holds other place memory → holds thread here (operation other memory)

/-- **An outline for the threads is one for the warps.** -/
theorem LaneOutline.outline (wide : 0 < width) {code : List (ℕ → σ → σ)} {holds : ℕ → ℕ → σ → Prop}
    (outline : LaneOutline width threads code holds) :
    Outline count (code.map (lanewise width threads)) fun warp place memory =>
      ∀ thread < threads, thread / width = warp → holds thread place memory := by
  have of_map {place : ℕ} {instruction : Instruction σ}
      (found : (code.map (lanewise width threads))[place]? = some instruction) :
      ∃ operation, code[place]? = some operation ∧ lanewise width threads operation = instruction := by
    rwa [List.getElem?_map, Option.map_eq_some_iff] at found
  constructor
  · intro warp _ place instruction found memory before
    obtain ⟨operation, issued, rfl⟩ := of_map found
    intro thread inside same
    refine (foldl_lanes (nodup_lanes warp) (fun thread => holds thread place)
      (fun thread => holds thread (place + 1))
      (fun _ => True) ?_ (fun _ _ _ _ _ => trivial) ?_ trivial ?_).2 thread
        ((mem_lanes wide).mpr ⟨inside, same⟩)
    · intro lane member memory _ ready
      exact outline.own lane ((mem_lanes wide).mp member).1 place operation issued memory ready
    · intro lane member other member' different memory ready
      have bound := ((mem_lanes wide).mp member).1
      have bound' := ((mem_lanes wide).mp member').1
      exact ⟨fun here => outline.undisturbed lane bound other bound' different place place operation issued
          (fun _ => Or.inl rfl) memory here ready,
        fun here => outline.undisturbed lane bound other bound' different (place + 1) place operation issued
          (fun _ => Or.inr rfl) memory here ready⟩
    · intro lane member
      obtain ⟨bound, here⟩ := (mem_lanes wide).mp member
      exact before lane bound here
  · intro warp _ other _ different here place instruction found memory before ready
    obtain ⟨operation, issued, rfl⟩ := of_map found
    refine (foldl_lanes (nodup_lanes other) (fun lane => holds lane place) (fun _ _ => True)
      (fun memory => ∀ thread < threads, thread / width = warp → holds thread here memory)
      (fun _ _ _ _ _ => trivial)
      ?_ ?_ before ?_).1
    · intro lane member memory before ready thread inside same
      obtain ⟨bound, there⟩ := (mem_lanes wide).mp member
      refine outline.undisturbed thread inside lane bound ?_ here place operation issued ?_ memory
        (before thread inside same) ready
      · rintro rfl
        exact different (same.symm.trans there)
      · exact fun together => absurd (same.symm.trans (together.trans there)) different
    · intro lane member lane' member' apart memory ready'
      have bound := ((mem_lanes wide).mp member).1
      have bound' := ((mem_lanes wide).mp member').1
      exact ⟨fun ready => outline.undisturbed lane bound lane' bound' apart place place operation issued
        (fun _ => Or.inl rfl) memory ready ready', fun _ => trivial⟩
    · intro lane member
      obtain ⟨bound, there⟩ := (mem_lanes wide).mp member
      exact ready lane bound there

theorem warp_lt (covered : threads ≤ count * width) {thread : ℕ} (inside : thread < threads) :
    thread / width < count :=
  Nat.div_lt_of_lt_mul (by rw [Nat.mul_comm]; omega)

theorem LaneOutline.runs (wide : 0 < width) (covered : threads ≤ count * width) {code : List (ℕ → σ → σ)}
    {holds : ℕ → ℕ → σ → Prop} (outline : LaneOutline width threads code holds) {memory memory' : σ}
    (ran : Runs count [code.map (lanewise width threads)] memory memory')
    (initially : ∀ thread < threads, holds thread 0 memory) :
    ∀ thread < threads, holds thread code.length memory' := by
  intro thread inside
  have last := (outline.outline wide).runs ran (fun warp _ thread inside _ => initially thread inside)
    (thread / width) (warp_lt covered inside) thread inside rfl
  rwa [List.length_map] at last

/-- The first warp may run ahead of the others. -/
theorem LaneOutline.runs_first (wide : 0 < width) (covered : threads ≤ count * width) (some : 0 < count)
    {code : List (ℕ → σ → σ)} {holds holds' : ℕ → ℕ → σ → Prop} (outline : LaneOutline width threads code holds)
    (outline' : LaneOutline width threads code holds') {memory : σ}
    (initially : ∀ thread < threads, holds thread 0 memory)
    (ahead : ∀ memory, (∀ thread < threads, thread < width → holds thread code.length memory) →
      ∀ thread < threads, holds' thread (if thread < width then code.length else 0) memory) :
    ∃ memory', Runs count [code.map (lanewise width threads)] memory memory' ∧
      ∀ thread < threads, holds' thread code.length memory' := by
  have first {thread : ℕ} : thread / width = 0 ↔ thread < width := Nat.div_eq_zero_iff_lt wide
  obtain ⟨memory', ran, last⟩ := Outline.runs_first some (outline.outline wide) (outline'.outline wide)
    (fun warp _ thread inside _ => initially thread inside) (fun memory there warp _ thread inside same => by
      rw [List.length_map] at there ⊢
      have next := ahead memory (fun thread inside early => there thread inside (first.mpr early)) thread inside
      simp only [← first, same] at next
      exact next)
  refine ⟨memory', ran, fun thread inside => ?_⟩
  have mine := last (thread / width) (warp_lt covered inside) thread inside rfl
  rwa [List.length_map] at mine

/-- What a thread does that runs all operations. -/
def runThread (code : List (ℕ → σ → σ)) (thread : ℕ) (memory : σ) : σ :=
  code.foldl (fun memory operation => operation thread memory) memory

theorem runThread_append (first second : List (ℕ → σ → σ)) (thread : ℕ) (memory : σ) :
    runThread (first ++ second) thread memory = runThread second thread (runThread first thread memory) :=
  List.foldl_append

/-- What a thread sees of the memory evolves as if it ran the phase alone, if its operations depend on nothing
else and the others' leave it as it is. -/
theorem view_of_threads {τ : Type*} (wide : 0 < width) (covered : threads ≤ count * width) {thread : ℕ}
    (inside : thread < threads) {code : List (ℕ → σ → σ)} (view : σ → τ)
    (own : ∀ operation ∈ code, ∀ first second : σ, view first = view second →
      view (operation thread first) = view (operation thread second))
    (others : ∀ other < threads, other ≠ thread → ∀ operation ∈ code, ∀ memory,
      view (operation other memory) = view memory)
    {memory memory' : σ} (ran : Runs count [code.map (lanewise width threads)] memory memory') :
    view memory' = view (runThread code thread memory) := by
  have outline : LaneOutline width threads code fun thread' place memory' => thread' = thread →
      view memory' = view (runThread (code.take place) thread memory) := by
    constructor
    · rintro thread' _ place operation found memory' so_far rfl
      rw [List.take_add_one, found, runThread_append]
      exact own operation (List.mem_of_getElem? found) _ _ (so_far rfl)
    · rintro thread' _ other bound different here place operation found _ memory' so_far _ rfl
      rw [others other bound (Ne.symm different) operation (List.mem_of_getElem? found)]
      exact so_far rfl
  have all := outline.runs wide covered ran (fun _ _ _ => rfl) thread inside rfl
  rwa [List.take_length] at all

end Lanes

end Insist.Lib.Simt
