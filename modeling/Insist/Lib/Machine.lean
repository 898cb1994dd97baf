/-
**Machines: systems that move by labelled steps.**

A `Machine` answers, for a state and a label, the next state or that the label is not enabled. The
label carries every choice of the environment, so a run is a list of labels and a run of a concrete
machine can be evaluated.

* `invariant_run` — what every step preserves, every run preserves;
* `invariant_run_of` — the same for the runs whose labels are all of one kind;
* `guarded` — the machine whose steps also meet a condition on the state before the step;
* `Along` — a property of every step of a run; `along_of_invariant` has it from an invariant, `along_congr`
  exchanges two that agree wherever an invariant holds;
* `exists_run_of`, `exists_run` — a system that can always move, and grows smaller, can be run to its end;
* `simulation_run` — a step-by-step simulation of one machine by runs of another carries over to
  runs;
* `Reaches` — that some run leads from one state to another; `Reaches.simulated` is the same for places reached;
* `family` — many machines side by side, whose steps interleave; `family_run` gives each one its own
  run back.
-/
import Mathlib.Data.List.Basic
import Mathlib.Logic.Function.Basic

namespace Insist.Lib

/-- A system that moves by labelled steps. -/
structure Machine (σ α : Type*) where
  /-- The state after a label, if the label is enabled. -/
  step : σ → α → Option σ

namespace Machine

variable {σ α τ β : Type*} (machine : Machine σ α)

/-- The state after a list of labels. -/
def run : σ → List α → Option σ
  | state, [] => some state
  | state, label :: labels => (machine.step state label).bind fun next => run next labels

@[simp] theorem run_nil (state : σ) : machine.run state [] = some state := rfl

theorem run_cons (state : σ) (label : α) (labels : List α) :
    machine.run state (label :: labels) =
      (machine.step state label).bind fun next => machine.run next labels := rfl

theorem run_cons_eq_some {state final : σ} {label : α} {labels : List α} :
    machine.run state (label :: labels) = some final ↔
      ∃ next, machine.step state label = some next ∧ machine.run next labels = some final := by
  rw [run_cons, Option.bind_eq_some_iff]

theorem run_append (state : σ) (first second : List α) :
    machine.run state (first ++ second) =
      (machine.run state first).bind fun middle => machine.run middle second := by
  induction first generalizing state with
  | nil => rfl
  | cons label labels ih =>
      rw [List.cons_append, run_cons, run_cons, Option.bind_assoc]
      congr 1
      funext next
      exact ih next

theorem run_append_eq_some {state final : σ} {first second : List α} :
    machine.run state (first ++ second) = some final ↔
      ∃ middle, machine.run state first = some middle ∧ machine.run middle second = some final := by
  rw [run_append, Option.bind_eq_some_iff]

theorem run_singleton (state : σ) (label : α) :
    machine.run state [label] = machine.step state label := by
  rw [run_cons]
  cases machine.step state label <;> rfl

variable {machine}

/-- **What every step with a label of one kind preserves, every run with such labels preserves.** -/
theorem invariant_run_of (allowed : α → Prop) (invariant : σ → Prop)
    (preserved : ∀ {state label next}, invariant state → allowed label →
      machine.step state label = some next → invariant next)
    {state final : σ} {labels : List α} (initially : invariant state)
    (kind : ∀ label ∈ labels, allowed label) (ran : machine.run state labels = some final) :
    invariant final := by
  induction labels generalizing state with
  | nil =>
      cases ran
      exact initially
  | cons label labels ih =>
      obtain ⟨next, stepped, rest⟩ := (machine.run_cons_eq_some).mp ran
      exact ih (preserved initially (kind label List.mem_cons_self) stepped)
        (fun other member => kind other (List.mem_cons_of_mem _ member)) rest

/-- **What every step preserves, every run preserves.** -/
theorem invariant_run (invariant : σ → Prop)
    (preserved : ∀ {state label next}, invariant state →
      machine.step state label = some next → invariant next)
    {state final : σ} {labels : List α} (initially : invariant state)
    (ran : machine.run state labels = some final) : invariant final :=
  invariant_run_of (fun _ => True) invariant (fun holds _ => preserved holds) initially
    (fun _ _ => trivial) ran

/-- The machine whose steps also meet a condition on the state and the label. -/
def guarded (machine : Machine σ α) (condition : σ → α → Prop)
    [∀ state label, Decidable (condition state label)] : Machine σ α where
  step state label := if condition state label then machine.step state label else none

theorem guarded_step {condition : σ → α → Prop} [∀ state label, Decidable (condition state label)]
    {state next : σ} {label : α} :
    (machine.guarded condition).step state label = some next ↔
      condition state label ∧ machine.step state label = some next := by
  unfold guarded
  by_cases met : condition state label
  · simp [met]
  · simp [met]

/-- A run under a condition is a run. -/
theorem run_of_guarded {condition : σ → α → Prop} [∀ state label, Decidable (condition state label)]
    {state final : σ} {labels : List α} (ran : (machine.guarded condition).run state labels = some final) :
    machine.run state labels = some final := by
  induction labels generalizing state with
  | nil => exact ran
  | cons label labels ih =>
      obtain ⟨next, stepped, rest⟩ := ((machine.guarded condition).run_cons_eq_some).mp ran
      exact (machine.run_cons_eq_some).mpr ⟨next, (guarded_step.mp stepped).2, ih rest⟩

/-- The property holds of every step of the run. -/
def Along (machine : Machine σ α) (holds : σ → α → Prop) : σ → List α → Prop
  | _, [] => True
  | state, label :: labels =>
      holds state label ∧ ∀ next, machine.step state label = some next → machine.Along holds next labels

/-- What holds along a run holds of each of its steps. -/
theorem Along.at {holds : σ → α → Prop} {state middle : σ} {first second : List α} {label : α}
    (along : machine.Along holds state (first ++ label :: second))
    (ran : machine.run state first = some middle) : holds middle label := by
  induction first generalizing state with
  | nil =>
      cases ran
      exact along.1
  | cons label' first ih =>
      obtain ⟨next, stepped, rest⟩ := (machine.run_cons_eq_some).mp ran
      exact ih (along.2 next stepped) rest

/-- **What every step from an invariant state has holds along every run.** -/
theorem along_of_invariant {holds : σ → α → Prop} (invariant : σ → Prop)
    (here : ∀ {state label}, invariant state → holds state label)
    (preserved : ∀ {state label next}, invariant state → machine.step state label = some next →
      invariant next)
    {state : σ} (initially : invariant state) (labels : List α) : machine.Along holds state labels := by
  induction labels generalizing state with
  | nil => trivial
  | cons label labels ih =>
      exact ⟨here initially, fun next stepped => ih (preserved initially stepped)⟩

/-- **Two properties of steps hold along the same runs**, if they agree under an invariant that they keep. -/
theorem along_congr {first second : σ → α → Prop} (invariant : σ → Prop)
    (same : ∀ {state label}, invariant state → (first state label ↔ second state label))
    (preserved : ∀ {state label next}, invariant state → second state label →
      machine.step state label = some next → invariant next)
    {state : σ} {labels : List α} (initially : invariant state) :
    machine.Along first state labels ↔ machine.Along second state labels := by
  induction labels generalizing state with
  | nil => exact Iff.rfl
  | cons label labels ih =>
      unfold Along
      constructor
      · rintro ⟨now, later⟩
        have held := (same initially).mp now
        exact ⟨held, fun next stepped =>
          (ih (preserved initially held stepped)).mp (later next stepped)⟩
      · rintro ⟨held, later⟩
        exact ⟨(same initially).mpr held, fun next stepped =>
          (ih (preserved initially held stepped)).mpr (later next stepped)⟩

/-- **A system that can move until it is finished, and grows smaller with each of these moves, can be run to its
end**, as long as these moves keep what they need. -/
theorem exists_run_of (invariant : σ → Prop) (size : σ → ℕ) (finished : σ → Prop)
    (moves : ∀ state, invariant state → ¬ finished state →
      ∃ label next, machine.step state label = some next ∧ invariant next ∧ size next < size state)
    {state : σ} (initially : invariant state) :
    ∃ labels final, machine.run state labels = some final ∧ invariant final ∧ finished final := by
  induction bound : size state using Nat.strongRecOn generalizing state with
  | _ _ ih =>
      by_cases done : finished state
      · exact ⟨[], state, rfl, initially, done⟩
      · obtain ⟨label, next, stepped, kept, smaller⟩ := moves state initially done
        obtain ⟨labels, final, ran, ended⟩ := ih (size next) (bound ▸ smaller) kept rfl
        exact ⟨label :: labels, final, (machine.run_cons_eq_some).mpr ⟨next, stepped, ran⟩, ended⟩

/-- The same for a system that can move from every state. -/
theorem exists_run (size : σ → ℕ) (finished : σ → Prop)
    (moves : ∀ state, ¬ finished state → ∃ label next, machine.step state label = some next ∧
      size next < size state)
    (state : σ) : ∃ labels final, machine.run state labels = some final ∧ finished final := by
  have always : ∀ state, True → ¬ finished state →
      ∃ label next, machine.step state label = some next ∧ True ∧ size next < size state := by
    intro state _ unfinished
    obtain ⟨label, next, stepped, smaller⟩ := moves state unfinished
    exact ⟨label, next, stepped, trivial, smaller⟩
  obtain ⟨labels, final, ran, _, ended⟩ :=
    machine.exists_run_of (fun _ => True) size finished always (show (fun _ => True) state from trivial)
  exact ⟨labels, final, ran, ended⟩

/-- **A simulation of steps by runs carries over to runs.** -/
theorem simulation_run (abstract : Machine τ β) (related : σ → τ → Prop)
    (simulates : ∀ {state next label image}, related state image →
      machine.step state label = some next →
      ∃ labels image', abstract.run image labels = some image' ∧ related next image')
    {state final : σ} {labels : List α} {image : τ} (initially : related state image)
    (ran : machine.run state labels = some final) :
    ∃ labels' image', abstract.run image labels' = some image' ∧ related final image' := by
  induction labels generalizing state image with
  | nil =>
      cases ran
      exact ⟨[], image, rfl, initially⟩
  | cons label labels ih =>
      obtain ⟨next, stepped, rest⟩ := (machine.run_cons_eq_some).mp ran
      obtain ⟨first, middle, ranFirst, relatedMiddle⟩ := simulates initially stepped
      obtain ⟨second, image', ranSecond, relatedFinal⟩ := ih relatedMiddle rest
      exact ⟨first ++ second, image',
        (abstract.run_append_eq_some).mpr ⟨middle, ranFirst, ranSecond⟩, relatedFinal⟩

/-! ### Runs without their labels -/

/-- Some run leads there. -/
def Reaches (machine : Machine σ α) (state final : σ) : Prop :=
  ∃ labels, machine.run state labels = some final

theorem Reaches.refl (state : σ) : machine.Reaches state state := ⟨[], rfl⟩

theorem Reaches.trans {state middle final : σ} (first : machine.Reaches state middle)
    (second : machine.Reaches middle final) : machine.Reaches state final := by
  obtain ⟨labels, ran⟩ := first
  obtain ⟨labels', ran'⟩ := second
  exact ⟨labels ++ labels', (machine.run_append_eq_some).mpr ⟨middle, ran, ran'⟩⟩

theorem Reaches.of_step {state next : σ} {label : α} (stepped : machine.step state label = some next) :
    machine.Reaches state next :=
  ⟨[label], by rw [run_singleton, stepped]⟩

theorem Reaches.step {state next final : σ} {label : α} (stepped : machine.step state label = some next)
    (later : machine.Reaches next final) : machine.Reaches state final :=
  (Reaches.of_step stepped).trans later

/-- **Where every step can be matched, every place that is reached can be.** -/
theorem Reaches.simulated (abstract : Machine τ β) (related : σ → τ → Prop)
    (simulates : ∀ {state next label image}, related state image →
      machine.step state label = some next → ∃ image', abstract.Reaches image image' ∧ related next image')
    {state final : σ} {image : τ} (initially : related state image) (reaches : machine.Reaches state final) :
    ∃ image', abstract.Reaches image image' ∧ related final image' := by
  obtain ⟨labels, ran⟩ := reaches
  obtain ⟨labels', image', ran', now⟩ := simulation_run abstract related
    (fun holds stepped => by
      obtain ⟨image', ⟨labels', ran'⟩, now⟩ := simulates holds stepped
      exact ⟨labels', image', ran', now⟩) initially ran
  exact ⟨image', ⟨labels', ran'⟩, now⟩

/-! ### Machines side by side -/

/-- One copy of the machine for every index; a label says which one moves. -/
def family (machine : Machine σ α) (ι : Type*) [DecidableEq ι] : Machine (ι → σ) (ι × α) where
  step states label :=
    (machine.step (states label.1) label.2).map (Function.update states label.1)

/-- The labels of one member. -/
def labelsOf {ι : Type*} [DecidableEq ι] (index : ι) (labels : List (ι × α)) : List α :=
  labels.flatMap fun label => if label.1 = index then [label.2] else []

/-- **Every member of a family has its own run.** -/
theorem family_run {ι : Type*} [DecidableEq ι] {states final : ι → σ} {labels : List (ι × α)}
    (ran : (machine.family ι).run states labels = some final) (index : ι) :
    machine.run (states index) (labelsOf index labels) = some (final index) := by
  induction labels generalizing states with
  | nil =>
      cases ran
      rfl
  | cons label labels ih =>
      obtain ⟨next, stepped, rest⟩ := ((machine.family ι).run_cons_eq_some).mp ran
      obtain ⟨moved, here, rfl⟩ := Option.map_eq_some_iff.mp stepped
      have later := ih rest
      rw [labelsOf, List.flatMap_cons]
      by_cases mine : label.1 = index
      · subst mine
        rw [Function.update_self] at later
        rw [if_pos rfl]
        exact (machine.run_cons_eq_some).mpr ⟨moved, here, later⟩
      · rw [Function.update_of_ne (Ne.symm mine)] at later
        rw [if_neg mine]
        exact later

end Machine

end Insist.Lib
