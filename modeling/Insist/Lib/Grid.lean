/-
**Grids: blocks that run side by side on one device.**

The blocks of a launch share the memory of the device; each has a memory of its own besides, and barriers of its
own. No order is assumed among the blocks, nor anything of what their own memories hold at first.

* `grid` — a launch as a machine; `Ends` — what the memory of the device can be when all blocks have finished;
* `exists_finish` — a launch never gets stuck;
* `block_of_grid` — what a block sees of the device evolves as if it ran alone, if its instructions depend on
  nothing else and the other blocks leave it as it is;
* `ends_of_block` — conversely, a run of one block is part of a run of the whole launch.
-/
import Insist.Lib.Simt
import Mathlib.Algebra.BigOperators.Group.Finset.Basic
import Mathlib.Algebra.Order.BigOperators.Group.Finset

namespace Insist.Lib.Simt

variable {β γ δ τ : Type*}

/-- A launch: the memory of the device, and of every block its own memory and where its warps are. -/
structure Grid (β γ δ : Type*) where
  device : γ
  locals : β → δ
  control : β → Control (γ × δ)

/-- All blocks before their first phase. -/
def Grid.launch (count : ℕ) (phases : β → List (Phase (γ × δ))) (device : γ) (locals : β → δ) : Grid β γ δ where
  device := device
  locals := locals
  control index := .start count (phases index)

def Grid.Finished (state : Grid β γ δ) : Prop := ∀ index, (state.control index).Finished

/-- All instructions that are left are of this kind. -/
def Control.Issues {σ : Type*} (allowed : Instruction σ → Prop) (control : Control σ) : Prop :=
  (∀ code ∈ control.warps, ∀ instruction ∈ code, allowed instruction) ∧
    ∀ phase ∈ control.later, ∀ instruction ∈ phase, allowed instruction

/-- The instruction stands in the code. -/
def InCode {σ : Type*} (phases : List (Phase σ)) (instruction : Instruction σ) : Prop :=
  ∃ phase ∈ phases, instruction ∈ phase

theorem start_issues {σ : Type*} (count : ℕ) (phases : List (Phase σ)) :
    (Control.start count phases).Issues (InCode phases) := by
  refine ⟨fun code member instruction inside => ?_, fun phase member instruction inside =>
    ⟨phase, member, inside⟩⟩
  rw [(List.mem_replicate.mp member).2] at inside
  cases inside

theorem Control.Issues.step {σ : Type*} {allowed : Instruction σ → Prop} {memory : σ} {control : Control σ}
    {move : Move} {next : σ × Control σ} (issues : control.Issues allowed)
    (stepped : (block σ).step (memory, control) move = some next) : next.2.Issues allowed := by
  cases move with
  | issue warp =>
      obtain ⟨instruction, rest, found, rfl⟩ := (step_issue _).mp stepped
      refine ⟨fun code member => ?_, issues.2⟩
      rcases List.mem_or_eq_of_mem_set member with old | rfl
      · exact issues.1 code old
      · exact fun other later =>
          issues.1 _ (List.mem_of_getElem? found) other (List.mem_cons_of_mem _ later)
  | barrier =>
      obtain ⟨phase, later, found, _, rfl⟩ := (step_barrier _).mp stepped
      refine ⟨fun code member => ?_, fun other member => issues.2 other (found ▸ List.mem_cons_of_mem _ member)⟩
      rw [(List.mem_replicate.mp member).2]
      exact issues.2 phase (found ▸ List.mem_cons_self)

/-- A step of a block is a barrier, or one of its instructions. -/
theorem Control.Issues.memory {σ : Type*} {allowed : Instruction σ → Prop} {memory : σ} {control : Control σ}
    {move : Move} {next : σ × Control σ} (issues : control.Issues allowed)
    (stepped : (block σ).step (memory, control) move = some next) :
    next.1 = memory ∨ ∃ instruction warp, allowed instruction ∧ next.1 = instruction warp memory := by
  cases move with
  | issue warp =>
      obtain ⟨instruction, rest, found, rfl⟩ := (step_issue _).mp stepped
      exact Or.inr ⟨instruction, warp, issues.1 _ (List.mem_of_getElem? found) _ List.mem_cons_self, rfl⟩
  | barrier =>
      obtain ⟨phase, later, _, _, rfl⟩ := (step_barrier _).mp stepped
      exact Or.inl rfl

section

variable [DecidableEq β]

/-- A launch as a machine: one block moves at a time. -/
def grid (β γ δ : Type*) [DecidableEq β] : Machine (Grid β γ δ) (β × Move) where
  step state label :=
    ((block (γ × δ)).step ((state.device, state.locals label.1), state.control label.1) label.2).map fun next =>
      { device := next.1.1
        locals := Function.update state.locals label.1 next.1.2
        control := Function.update state.control label.1 next.2 }

/-- The memory of the device when the launch has finished. -/
def Ends (count : ℕ) (phases : β → List (Phase (γ × δ))) (device device' : γ) : Prop :=
  ∃ locals labels final, (grid β γ δ).run (.launch count phases device locals) labels = some final ∧
    final.Finished ∧ final.device = device'

theorem step_grid {state next : Grid β γ δ} {label : β × Move} :
    (grid β γ δ).step state label = some next ↔
      ∃ moved, (block (γ × δ)).step ((state.device, state.locals label.1), state.control label.1)
        label.2 = some moved ∧
        next = { device := moved.1.1
                 locals := Function.update state.locals label.1 moved.1.2
                 control := Function.update state.control label.1 moved.2 } := by
  show (_ : Option _).map _ = some next ↔ _
  rw [Option.map_eq_some_iff]
  exact exists_congr fun moved => and_congr_right fun _ => eq_comm

/-! ### Every launch can be finished -/

/-- **A launch never gets stuck.** -/
theorem exists_finish [Fintype β] (state : Grid β γ δ) :
    ∃ labels final, (grid β γ δ).run state labels = some final ∧ final.Finished := by
  refine Machine.exists_run (fun state : Grid β γ δ => ∑ index, (state.control index).size) Grid.Finished
    (fun state unfinished => ?_) state
  obtain ⟨index, unfinished⟩ := not_forall.mp unfinished
  obtain ⟨move, moved, stepped⟩ := exists_move (state.device, state.locals index) unfinished
  have smaller : moved.2.size + 1 = (state.control index).size := size_of_step stepped
  refine ⟨(index, move), _, step_grid.mpr ⟨moved, stepped, rfl⟩, ?_⟩
  refine Finset.sum_lt_sum (fun other _ => ?_) ⟨index, Finset.mem_univ _, ?_⟩
  · by_cases same : other = index
    · subst same
      simp only [Function.update_self]
      omega
    · simp only [Function.update_of_ne same, le_refl]
  · simp only [Function.update_self]
    omega

theorem exists_ends [Fintype β] (count : ℕ) (phases : β → List (Phase (γ × δ))) (device : γ) (locals : β → δ) :
    ∃ device', Ends count phases device device' := by
  obtain ⟨labels, final, ran, finished⟩ := exists_finish (Grid.launch count phases device locals)
  exact ⟨final.device, locals, labels, final, ran, finished, rfl⟩

/-! ### A block in its grid -/

/-- The instructions that are left of every block are those of its code. -/
def Grid.Issues (phases : β → List (Phase (γ × δ))) (state : Grid β γ δ) : Prop :=
  ∀ index, (state.control index).Issues (InCode (phases index))

omit [DecidableEq β] in
theorem launch_issues (count : ℕ) (phases : β → List (Phase (γ × δ))) (device : γ) (locals : β → δ) :
    (Grid.launch count phases device locals).Issues phases :=
  fun index => start_issues count (phases index)

theorem Grid.Issues.step {phases : β → List (Phase (γ × δ))} {state next : Grid β γ δ} {label : β × Move}
    (issues : state.Issues phases) (stepped : (grid β γ δ).step state label = some next) :
    next.Issues phases := by
  obtain ⟨moved, here, rfl⟩ := step_grid.mp stepped
  intro other
  by_cases same : other = label.1
  · subst same
    simp only [Function.update_self]
    exact (issues label.1).step here
  · simp only [Function.update_of_ne same]
    exact issues other

/-- A step of a launch keeps what the instructions of the block keep. -/
theorem Grid.Issues.device {phases : β → List (Phase (γ × δ))} {state next : Grid β γ δ} {label : β × Move}
    (issues : state.Issues phases) (stepped : (grid β γ δ).step state label = some next) (kept : γ → Prop)
    (keeps : ∀ instruction, InCode (phases label.1) instruction → ∀ warp device own, kept device →
      kept (instruction warp (device, own)).1)
    (before : kept state.device) : kept next.device := by
  obtain ⟨moved, here, rfl⟩ := step_grid.mp stepped
  show kept moved.1.1
  rcases (issues label.1).memory here with same | ⟨instruction, warp, inCode, same⟩
  · rw [same]
    exact before
  · rw [same]
    exact keeps instruction inCode warp _ _ before

/-- **What every instruction keeps of the device, every launch keeps.** -/
theorem Ends.keeps {count : ℕ} {phases : β → List (Phase (γ × δ))} {device device' : γ}
    (ends : Ends count phases device device') (kept : γ → Prop)
    (keeps : ∀ index instruction, InCode (phases index) instruction → ∀ warp device own, kept device →
      kept (instruction warp (device, own)).1)
    (initially : kept device) : kept device' := by
  obtain ⟨locals, labels, final, ran, _, rfl⟩ := ends
  refine (Machine.invariant_run (fun state : Grid β γ δ => state.Issues phases ∧ kept state.device)
    (fun {state label next} both stepped => ?_) ⟨launch_issues count phases device locals, initially⟩ ran).2
  exact ⟨both.1.step stepped, both.1.device stepped kept (keeps label.1) both.2⟩

/-- A block moves in the same way on two devices that look the same to it. -/
theorem step_of_view {phases : List (Phase (γ × δ))} {view : γ → τ}
    (own : ∀ instruction, InCode phases instruction → ∀ warp first second own, view first = view second →
      view (instruction warp (first, own)).1 = view (instruction warp (second, own)).1 ∧
        (instruction warp (first, own)).2 = (instruction warp (second, own)).2)
    {first second : γ} {local_ : δ} {control : Control (γ × δ)} {move : Move} {next : (γ × δ) × Control (γ × δ)}
    (issues : control.Issues (InCode phases)) (seen : view first = view second)
    (stepped : (block (γ × δ)).step ((second, local_), control) move = some next) :
    ∃ next', (block (γ × δ)).step ((first, local_), control) move = some next' ∧
      view next'.1.1 = view next.1.1 ∧ next'.1.2 = next.1.2 ∧ next'.2 = next.2 := by
  cases move with
  | issue warp =>
      obtain ⟨instruction, rest, found, rfl⟩ := (step_issue _).mp stepped
      have inCode := issues.1 _ (List.mem_of_getElem? found) _ List.mem_cons_self
      obtain ⟨seen', same⟩ := own instruction inCode warp first second local_ seen
      exact ⟨_, (step_issue _).mpr ⟨instruction, rest, found, rfl⟩, seen', same, rfl⟩
  | barrier =>
      obtain ⟨phase, later, found, arrived, rfl⟩ := (step_barrier _).mp stepped
      exact ⟨_, (step_barrier _).mpr ⟨phase, later, found, arrived, rfl⟩, seen, rfl, rfl⟩

/-- **What a block sees of the device evolves as if it ran alone.** -/
theorem block_of_grid {count : ℕ} {phases : β → List (Phase (γ × δ))} {device device' : γ}
    (ends : Ends count phases device device') (index : β) (view : γ → τ)
    (own : ∀ instruction, InCode (phases index) instruction →
      ∀ warp first second own, view first = view second →
      view (instruction warp (first, own)).1 = view (instruction warp (second, own)).1 ∧
        (instruction warp (first, own)).2 = (instruction warp (second, own)).2)
    (others : ∀ other, other ≠ index → ∀ instruction, InCode (phases other) instruction → ∀ warp device own,
      view (instruction warp (device, own)).1 = view device) :
    ∃ (before after : δ) (alone : γ), Runs count (phases index) (device, before) (alone, after) ∧
      view alone = view device' := by
  obtain ⟨locals, labels, final, ran, finished, rfl⟩ := ends
  let Related (state : Grid β γ δ) (alone : (γ × δ) × Control (γ × δ)) : Prop :=
    state.Issues phases ∧ view alone.1.1 = view state.device ∧ alone.1.2 = state.locals index ∧
      alone.2 = state.control index
  have simulates {state next : Grid β γ δ} {label : β × Move} {alone : (γ × δ) × Control (γ × δ)}
      (related : Related state alone) (stepped : (grid β γ δ).step state label = some next) :
      ∃ moves alone', (block (γ × δ)).run alone moves = some alone' ∧ Related next alone' := by
    obtain ⟨issues, seen, same, control⟩ := related
    have issues' := issues.step stepped
    by_cases here : label.1 = index
    · subst here
      obtain ⟨moved, step, rfl⟩ := step_grid.mp stepped
      obtain ⟨⟨device, own'⟩, control'⟩ := alone
      cases same
      cases control
      obtain ⟨alone', step', seen', same', control'⟩ := step_of_view own (issues label.1) seen step
      refine ⟨[label.2], alone', (Machine.run_singleton _ _ _).trans step', issues', seen', ?_, ?_⟩
      · exact same'.trans (Function.update_self label.1 moved.1.2 state.locals).symm
      · exact control'.trans (Function.update_self label.1 moved.2 state.control).symm
    · refine ⟨[], alone, rfl, issues', seen.trans ?_, ?_, ?_⟩
      · exact (issues.device stepped (fun device => view device = view state.device)
          (fun instruction inCode warp device own kept =>
            (others _ here instruction inCode warp device own).trans kept)
          rfl).symm
      · obtain ⟨moved, _, rfl⟩ := step_grid.mp stepped
        exact same.trans (Function.update_of_ne (Ne.symm here) _ _).symm
      · obtain ⟨moved, _, rfl⟩ := step_grid.mp stepped
        exact control.trans (Function.update_of_ne (Ne.symm here) _ _).symm
  obtain ⟨moves, ⟨⟨alone, after⟩, control⟩, ranAlone, issues, seen, same, rfl⟩ :=
    Machine.simulation_run (block (γ × δ)) Related simulates
      (show Related _ ((device, locals index), .start count (phases index)) from
        ⟨launch_issues count phases device locals, rfl, rfl, rfl⟩) ran
  exact ⟨locals index, after, alone, ⟨moves, _, ranAlone, finished index⟩, seen⟩

/-- A run of a block is a run of the launch. -/
theorem run_block (state : Grid β γ δ) (index : β) {moves : List Move} {final : (γ × δ) × Control (γ × δ)}
    (ran : (block (γ × δ)).run ((state.device, state.locals index), state.control index) moves = some final) :
    (grid β γ δ).run state (moves.map fun move => (index, move)) =
      some { device := final.1.1
             locals := Function.update state.locals index final.1.2
             control := Function.update state.control index final.2 } := by
  induction moves generalizing state with
  | nil =>
      cases ran
      simp only [List.map_nil, Machine.run_nil, Function.update_eq_self]
  | cons move moves ih =>
      obtain ⟨next, stepped, rest⟩ := (Machine.run_cons_eq_some _).mp ran
      refine (Machine.run_cons_eq_some _).mpr ⟨_, step_grid.mpr ⟨next, stepped, rfl⟩, ?_⟩
      rw [ih _ (by simpa only [Function.update_self] using rest)]
      simp only [Function.update_idem]

/-- **A run of one block is part of a run of the whole launch**, as far as the other blocks leave alone what it
has done. -/
theorem ends_of_block [Fintype β] {count : ℕ} (phases : β → List (Phase (γ × δ))) {device : γ} (index : β)
    {memory' : γ × δ} (locals : β → δ) (ran : Runs count (phases index) (device, locals index) memory')
    (view : γ → τ)
    (others : ∀ other, other ≠ index → ∀ instruction, InCode (phases other) instruction → ∀ warp device own,
      view (instruction warp (device, own)).1 = view device) :
    ∃ device', Ends count phases device device' ∧ view device' = view memory'.1 := by
  obtain ⟨moves, control, ran, finished⟩ := ran
  let launched : Grid β γ δ := .launch count phases device locals
  have first : (grid β γ δ).run launched (moves.map fun move => (index, move)) =
      some { device := memory'.1
             locals := Function.update locals index memory'.2
             control := Function.update launched.control index control } :=
    run_block launched index ran
  obtain ⟨labels, final, rest, finished'⟩ := exists_finish
    { device := memory'.1
      locals := Function.update locals index memory'.2
      control := Function.update launched.control index control : Grid β γ δ }
  refine ⟨final.device, ⟨locals, _, final, (Machine.run_append_eq_some _).mpr ⟨_, first, rest⟩,
    finished', rfl⟩, ?_⟩
  have issues := Machine.invariant_run (Grid.Issues phases) (fun issues stepped => issues.step stepped)
    (launch_issues count phases device locals) first
  refine (Machine.invariant_run (fun state : Grid β γ δ => state.Issues phases ∧
    (state.control index).Finished ∧
    view state.device = view memory'.1) (fun {state label next} kept stepped => ?_) ⟨issues, ?_, rfl⟩ rest).2.2
  · obtain ⟨issues, done, seen⟩ := kept
    have different : label.1 ≠ index := by
      rintro rfl
      obtain ⟨moved, step, _⟩ := step_grid.mp stepped
      exact stuck_of_finished done step
    refine ⟨issues.step stepped, ?_, ?_⟩
    · obtain ⟨moved, _, rfl⟩ := step_grid.mp stepped
      simpa only [Function.update_of_ne (Ne.symm different)] using done
    · exact issues.device stepped (fun device => view device = view memory'.1)
        (fun instruction inCode warp device own kept =>
          (others _ different instruction inCode warp device own).trans kept) seen
  · simpa only [Function.update_self] using finished

end

end Insist.Lib.Simt
