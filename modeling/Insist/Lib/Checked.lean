/-
**Integers that overflow.**

A computation with integers of a fixed width is `none` where one of them leaves its range, which runs from
`-bound` up to `bound`, and where the value is used for something else.

* `checked` — the value of an expression, if it is in range;
* `Yields` — total correctness: the computation does not overflow, and its result is as it should be; with a
  rule for each way to build a computation (`yields_bind`, `yields_checked`, `yields_ite`);
* `collect`, `yieldsAll_collect` — computations one after the other, whose results are put together;
* `countUp` — the values of a loop variable; `yieldsAll_countUp` — there is room for one more step behind the
  loop; `countUp_overflows` — there is none, and the loop cannot be left.
-/
import Mathlib.Data.Int.Basic
import Mathlib.Data.List.Basic

namespace Insist.Lib

universe u

variable {α β : Type u}

/-- The value is in range. -/
def Fits (bound value : ℤ) : Prop := -bound ≤ value ∧ value < bound

instance (bound value : ℤ) : Decidable (Fits bound value) := inferInstanceAs (Decidable (_ ∧ _))

/-- The value of an expression. -/
def checked (bound value : ℤ) : Option ℤ := if Fits bound value then some value else none

/-- The computation does not overflow, and its result is good. -/
def Yields (good : α → Prop) (result : Option α) : Prop := ∃ value, result = some value ∧ good value

/-- It does not overflow, and everything that it lists is good. -/
abbrev YieldsAll (good : α → Prop) (result : Option (List α)) : Prop :=
  Yields (fun all => ∀ item ∈ all, good item) result

section Rules

variable {good : α → Prop} {bound value : ℤ}

theorem checked_eq_some {other : ℤ} : checked bound value = some other ↔ Fits bound value ∧ other = value := by
  unfold checked
  by_cases fits : Fits bound value
  · rw [if_pos fits, Option.some.injEq]
    exact ⟨fun same => ⟨fits, same.symm⟩, fun same => same.2.symm⟩
  · rw [if_neg fits]
    exact iff_of_false (fun impossible => nomatch impossible) fun both => fits both.1

theorem yields_pure {result : α} : Yields good (pure result) ↔ good result := by
  constructor
  · rintro ⟨value, same, holds⟩
    cases same
    exact holds
  · exact fun holds => ⟨result, rfl, holds⟩

theorem yields_bind {result : Option β} {next : β → Option α} :
    Yields good (result >>= next) ↔ Yields (fun value => Yields good (next value)) result := by
  constructor
  · rintro ⟨value, same, holds⟩
    obtain ⟨middle, here, there⟩ := Option.bind_eq_some_iff.mp same
    exact ⟨middle, here, value, there, holds⟩
  · rintro ⟨middle, here, value, there, holds⟩
    exact ⟨value, Option.bind_eq_some_iff.mpr ⟨middle, here, there⟩, holds⟩

theorem yields_checked {good : ℤ → Prop} :
    Yields good (checked bound value) ↔ Fits bound value ∧ good value := by
  constructor
  · rintro ⟨other, same, holds⟩
    obtain ⟨fits, rfl⟩ := checked_eq_some.mp same
    exact ⟨fits, holds⟩
  · rintro ⟨fits, holds⟩
    exact ⟨value, checked_eq_some.mpr ⟨fits, rfl⟩, holds⟩

theorem yields_ite {condition : Prop} [Decidable condition] {first second : Option α} :
    Yields good (if condition then first else second) ↔
      (condition → Yields good first) ∧ (¬ condition → Yields good second) := by
  by_cases holds : condition
  · simp [holds]
  · simp [holds]

theorem Yields.mono {better : α → Prop} {result : Option α} (yields : Yields good result)
    (implies : ∀ value, good value → better value) : Yields better result := by
  obtain ⟨value, same, holds⟩ := yields
  exact ⟨value, same, implies value holds⟩

end Rules

/-! ### Computations one after the other -/

/-- The results of the computations for these items. -/
def collect (next : β → Option (List α)) : List β → Option (List α)
  | [] => pure []
  | item :: rest => do
      let first ← next item
      let later ← collect next rest
      return first ++ later

/-- What lists two parts is good if both are. -/
theorem yieldsAll_append {good : α → Prop} {first second : Option (List α)} :
    YieldsAll good (do
      let early ← first
      let late ← second
      return early ++ late) ↔ YieldsAll good first ∧ YieldsAll good second := by
  simp only [YieldsAll, yields_bind, yields_pure, List.forall_mem_append]
  constructor
  · rintro ⟨early, here, late, there, before, after⟩
    exact ⟨⟨early, here, before⟩, late, there, after⟩
  · rintro ⟨⟨early, here, before⟩, late, there, after⟩
    exact ⟨early, here, late, there, before, after⟩

/-- **All computations have to be good.** -/
theorem yieldsAll_collect {good : α → Prop} {next : β → Option (List α)} {items : List β} :
    YieldsAll good (collect next items) ↔ ∀ item ∈ items, YieldsAll good (next item) := by
  induction items with
  | nil =>
      refine iff_of_true (yields_pure.mpr fun item member => ?_) fun item member => ?_
      · cases member
      · cases member
  | cons item rest ih =>
      rw [collect, yieldsAll_append, ih, List.forall_mem_cons]

/-! ### Loops -/

/-- The values of a loop variable that starts here and stops before `stop`; the last step leaves the loop. -/
def countUp (bound : ℤ) (step : ℕ) (stop value : ℤ) : Option (List ℤ) :=
  if value < stop ∧ 0 < step then
    if Fits bound (value + step) then (countUp bound step stop (value + step)).map (value :: ·) else none
  else some []
termination_by (stop - value).toNat

variable {bound stop value : ℤ} {step : ℕ}

/-- **With room for one more step, a loop takes values before its end only.** -/
theorem yieldsAll_countUp (room : stop + step ≤ bound) (low : -bound ≤ value) :
    YieldsAll (fun other => value ≤ other ∧ other < stop) (countUp bound step stop value) := by
  fun_induction countUp bound step stop value with
  | case1 value more fits ih =>
      obtain ⟨later, same, bounds⟩ := ih (by omega)
      refine ⟨value :: later, by rw [same]; rfl, fun other member => ?_⟩
      rcases List.mem_cons.mp member with rfl | member
      · exact ⟨Int.le_refl _, more.1⟩
      · have := bounds other member
        omega
  | case2 value more exceeds =>
      exact absurd (show Fits bound (value + step) by constructor <;> omega) exceeds
  | case3 value done => exact ⟨[], rfl, fun other member => (List.not_mem_nil member).elim⟩

/-- **Without it, a loop whose steps lead to the end of the range overflows.** -/
theorem countUp_overflows (some : 0 < step) (whole : (step : ℤ) ∣ bound) (aligned : (step : ℤ) ∣ value)
    (more : value < stop) (far : bound < stop + step) : countUp bound step stop value = none := by
  fun_induction countUp bound step stop value with
  | case1 value _ fits ih =>
      have next : (step : ℤ) ∣ bound - (value + step) :=
        Int.dvd_sub whole (Int.dvd_add aligned (Int.dvd_refl _))
      have left := Int.le_of_dvd (by have := fits.2; omega) next
      rw [ih (Int.dvd_add aligned (Int.dvd_refl _)) (by omega)]
      rfl
  | case2 value _ _ => rfl
  | case3 value done => exact absurd ⟨more, some⟩ done

end Insist.Lib
