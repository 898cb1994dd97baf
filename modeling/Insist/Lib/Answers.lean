/-
**Programs that check the answers of their calls.**

A program calls its surroundings and exits with an error at the first call that fails. `Answers` says which
calls succeed, at each time anew; `Possible` is what is promised of a call that succeeds.

* `Sound good program` — the program exits with an error or ends with a good result, but does not crash;
  `sound_check_bind` and `sound_defined_bind` are its rules for a check and for a partial operation;
* `forall_staged_iff` — a program that makes calls, has to have a property, makes more calls and has to have
  another one, has them for all answers exactly if it has each under the assumption that the calls before it are
  possible. The most generous answers decide it: they let every possible call succeed (`all_generous`).
-/
import Mathlib.Data.List.Basic

namespace Insist.Lib

/-! ### Calls and their answers -/

/-- Which calls succeed, at which time. -/
structure Answers {Call : Type*} (Possible : Call → Prop) where
  succeeds : ℕ → Call → Bool
  possible : ∀ time call, succeeds time call = true → Possible call

namespace Answers

variable {Call : Type*} {Possible : Call → Prop}

/-- All these calls succeed, the first of them at this time. -/
def all (answers : Answers Possible) (time : ℕ) : List Call → Bool
  | [] => true
  | call :: calls => answers.succeeds time call && answers.all (time + 1) calls

/-- Only possible calls succeed. -/
theorem possible_of_all {answers : Answers Possible} {calls : List Call} : ∀ {time : ℕ},
    answers.all time calls = true → ∀ call ∈ calls, Possible call := by
  induction calls with
  | nil => exact fun _ _ member => nomatch member
  | cons first calls ih =>
      intro time succeed call member
      obtain ⟨now, later⟩ := Bool.and_eq_true_iff.mp succeed
      rcases List.mem_cons.mp member with rfl | member
      · exact answers.possible time call now
      · exact ih later call member

/-- Every possible call succeeds. -/
def generous (Possible : Call → Prop) [DecidablePred Possible] : Answers Possible where
  succeeds _ call := Possible call
  possible _ _ := of_decide_eq_true

theorem all_generous [DecidablePred Possible] {calls : List Call} (possible : ∀ call ∈ calls, Possible call)
    (time : ℕ) : (generous Possible).all time calls = true := by
  induction calls generalizing time with
  | nil => rfl
  | cons call calls ih =>
      obtain ⟨now, later⟩ := List.forall_mem_cons.mp possible
      exact Bool.and_eq_true_iff.mpr ⟨decide_eq_true now, ih later (time + 1)⟩

/-- **What has to hold after calls, and after more of them, for all answers.** -/
theorem forall_staged_iff [DecidablePred Possible] {first second : List Call} {time later : ℕ}
    {between after : Prop} :
    (∀ answers : Answers Possible,
      answers.all time first = true → between ∧ (answers.all later second = true → after)) ↔
    ((∀ call ∈ first, Possible call) → between ∧ ((∀ call ∈ second, Possible call) → after)) := by
  constructor
  · intro always possible
    obtain ⟨holds, next⟩ := always (generous Possible) (all_generous possible time)
    exact ⟨holds, fun possible => next (all_generous possible later)⟩
  · intro holds answers succeed
    obtain ⟨holds, next⟩ := holds (possible_of_all succeed)
    exact ⟨holds, fun succeed => next (possible_of_all succeed)⟩

end Answers

/-! ### Programs -/

/-- How a program can fail. -/
inductive Failure
  /-- It exits with an error. -/
  | exits
  /-- It does what has no meaning. -/
  | crashes
deriving DecidableEq, Repr

variable {α β : Type} {good : β → Prop}

/-- Exit unless it has succeeded. -/
def check (success : Bool) : Except Failure Unit := if success then .ok () else .error .exits

/-- The program exits with an error or has a good result. -/
def Sound (good : α → Prop) : Except Failure α → Prop
  | .error .exits => True
  | .error .crashes => False
  | .ok result => good result

theorem sound_check_bind (success : Bool) (next : Unit → Except Failure β) :
    Sound good (check success >>= next) ↔ (success = true → Sound good (next ())) := by
  cases success with
  | false => exact iff_of_true trivial (fun impossible => nomatch impossible)
  | true => exact ⟨fun sound _ => sound, fun sound => sound rfl⟩

/-- What a program that has ended has passed. -/
theorem check_bind_eq_ok {success : Bool} {next : Unit → Except Failure β} {result : β} :
    (check success >>= next) = .ok result ↔ success = true ∧ next () = .ok result := by
  cases success with
  | false => exact iff_of_false (fun impossible => nomatch impossible) (fun impossible => nomatch impossible.1)
  | true => exact ⟨fun ended => ⟨rfl, ended⟩, fun both => both.2⟩

/-- Exit unless there is a value. -/
def orExit (value : Option α) : Except Failure α :=
  match value with
  | none => .error .exits
  | some value => .ok value

/-- A partial operation crashes where it is not defined. -/
def defined (value : Option α) : Except Failure α :=
  match value with
  | none => .error .crashes
  | some value => .ok value

theorem sound_defined_bind (value : Option α) (next : α → Except Failure β) :
    Sound good (defined value >>= next) ↔ ∃ result, value = some result ∧ Sound good (next result) := by
  cases value with
  | none => exact iff_of_false id (fun ⟨_, impossible, _⟩ => nomatch impossible)
  | some value => exact ⟨fun sound => ⟨value, rfl, sound⟩, fun ⟨_, same, sound⟩ => Option.some.inj same ▸ sound⟩

theorem defined_bind_eq_ok {value : Option α} {next : α → Except Failure β} {result : β} :
    (defined value >>= next) = .ok result ↔ ∃ middle, value = some middle ∧ next middle = .ok result := by
  cases value with
  | none =>
      exact iff_of_false (fun impossible => nomatch impossible) (fun ⟨_, impossible, _⟩ => nomatch impossible)
  | some value => exact ⟨fun ended => ⟨value, rfl, ended⟩, fun ⟨_, same, ended⟩ => Option.some.inj same ▸ ended⟩

end Insist.Lib
