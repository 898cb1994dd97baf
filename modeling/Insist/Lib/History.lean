/-
**Histories: what every event may rely on.**

A history is the list of the events so far, the oldest first.

* `snoc_eq_append_cons` — where an event of a history that has just grown can be;
* `Always` — every event stands in a relation to what happened before it; `always_append_singleton`
  says what one more event has to show, `always_append` what several have.
-/
import Mathlib.Data.List.Basic

namespace Insist.Lib.History

variable {α : Type*}

/-- An event of a history that has just grown is the new one or one of the old ones. -/
theorem snoc_eq_append_cons {trace before after : List α} {last event : α} :
    trace ++ [last] = before ++ event :: after ↔
      (trace = before ∧ last = event ∧ after = []) ∨
        ∃ rest, trace = before ++ event :: rest ∧ after = rest ++ [last] := by
  constructor
  · intro same
    rcases List.eq_nil_or_concat after with rfl | ⟨rest, final, rfl⟩
    · obtain ⟨earlier, here⟩ := List.append_inj' same rfl
      exact Or.inl ⟨earlier, List.singleton_inj.mp here, rfl⟩
    · rw [List.concat_eq_append, ← List.cons_append, ← List.append_assoc] at same
      obtain ⟨earlier, here⟩ := List.append_inj' same rfl
      refine Or.inr ⟨rest, earlier, ?_⟩
      rw [List.concat_eq_append, List.singleton_inj.mp here]
  · rintro (⟨rfl, rfl, rfl⟩ | ⟨rest, rfl, rfl⟩)
    · rfl
    · rw [List.append_assoc, List.cons_append]

/-- Every event of the history stands in this relation to what happened before it. -/
def Always (property : List α → α → Prop) (trace : List α) : Prop :=
  ∀ before event after, trace = before ++ event :: after → property before event

variable {property : List α → α → Prop}

theorem always_nil : Always property [] := by
  intro before event after same
  cases before <;> cases same

/-- **One more event has to show its own relation only.** -/
theorem always_append_singleton {trace : List α} {last : α} :
    Always property (trace ++ [last]) ↔ Always property trace ∧ property trace last := by
  constructor
  · intro always
    refine ⟨fun before event after same => ?_, always trace last [] rfl⟩
    exact always before event (after ++ [last]) (snoc_eq_append_cons.mpr (Or.inr ⟨after, same, rfl⟩))
  · rintro ⟨always, here⟩ before event after same
    rcases snoc_eq_append_cons.mp same with ⟨rfl, rfl, _⟩ | ⟨rest, earlier, _⟩
    · exact here
    · exact always before event rest earlier

/-- An event of a history that has grown is an old one, or a new one after all the old ones. -/
theorem append_eq_append_cons {trace events before after : List α} {event : α}
    (same : trace ++ events = before ++ event :: after) :
    (∃ rest, trace = before ++ event :: rest) ∨ event ∈ events ∧ trace <+: before := by
  rcases List.append_eq_append_iff.mp same with ⟨part, rfl, rest⟩ | ⟨part, old, rest⟩
  · exact Or.inr ⟨by rw [rest]; simp, List.prefix_append _ _⟩
  · cases part with
    | nil =>
        rw [List.append_nil] at old
        rw [List.nil_append] at rest
        exact Or.inr ⟨by rw [← rest]; exact List.mem_cons_self, ⟨[], by rw [old, List.append_nil]⟩⟩
    | cons head part =>
        obtain ⟨rfl, rfl⟩ := List.cons.inj rest
        exact Or.inl ⟨part, old⟩

/-- **The new events of a history rely on the old ones**, and perhaps on each other. -/
theorem always_append {trace events : List α} (always : Always property trace)
    (new : ∀ event ∈ events, ∀ before, trace <+: before → property before event) :
    Always property (trace ++ events) := by
  intro before event after same
  rcases append_eq_append_cons same with ⟨rest, old⟩ | ⟨member, initial⟩
  · exact always before event rest old
  · exact new event member before initial

end Insist.Lib.History
