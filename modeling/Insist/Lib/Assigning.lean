/-
**Assignments, one after the other.**

A state is made of fields, and each item of a sequence assigns one of them at most. What a field is in the end
is said by the items that assign it:

* `get_assignAll_ofField` — the other items do not matter, so neither does where they stand;
* `assignAll_eq_of_alike` — **two sequences that agree on the items of each field make the same state**;
* `alike_of_perm` — as the same items do in another order, if each field is assigned once.
-/
import Mathlib.Data.List.Basic

namespace Insist.Lib

/-- Items that assign the fields of a state. -/
structure Assigning (Item State Field : Type*) (Value : Field → Type*) where
  /-- The field that an item assigns. -/
  field : Item → Option Field
  assign : Item → State → State
  get : (field : Field) → State → Value field
  get_congr : ∀ {one : Field} {state state' : State} (item : Item), get one state = get one state' →
    get one (assign item state) = get one (assign item state')
  get_other : ∀ {one : Field} {item : Item} (state : State), field item ≠ some one →
    get one (assign item state) = get one state
  /-- A state is its fields. -/
  ext : ∀ {state state' : State}, (∀ one, get one state = get one state') → state = state'

namespace Assigning

variable {Item State Field : Type*} {Value : Field → Type*} (assigning : Assigning Item State Field Value)

/-- The state after the items. -/
def assignAll (items : List Item) (state : State) : State :=
  items.foldl (fun state item => assigning.assign item state) state

/-- The items of a field, in their order. -/
def ofField [DecidableEq Field] (one : Field) (items : List Item) : List Item :=
  items.filter fun item => assigning.field item = some one

variable {assigning} {one : Field} {items items' : List Item} {state state' : State}

theorem get_assignAll_congr (same : assigning.get one state = assigning.get one state') :
    assigning.get one (assigning.assignAll items state) =
      assigning.get one (assigning.assignAll items state') := by
  induction items generalizing state state' with
  | nil => exact same
  | cons item items ih => exact ih (assigning.get_congr item same)

section Alike

variable [DecidableEq Field]

/-- **A field is decided by its own items**, in their order. -/
theorem get_assignAll_ofField :
    assigning.get one (assigning.assignAll items state) =
      assigning.get one (assigning.assignAll (assigning.ofField one items) state) := by
  induction items generalizing state with
  | nil => rfl
  | cons item items ih =>
      refine (@ih (assigning.assign item state)).trans ?_
      by_cases own : assigning.field item = some one
      · have first : assigning.ofField one (item :: items) = item :: assigning.ofField one items :=
          List.filter_cons_of_pos (decide_eq_true own)
        rw [first]
        rfl
      · have skipped : assigning.ofField one (item :: items) = assigning.ofField one items :=
          List.filter_cons_of_neg fun same => own (of_decide_eq_true same)
        rw [skipped]
        exact get_assignAll_congr (assigning.get_other state own)

/-- **Sequences that agree on the items of each field make the same state.** -/
theorem assignAll_eq_of_alike (alike : ∀ one, assigning.ofField one items = assigning.ofField one items') :
    assigning.assignAll items state = assigning.assignAll items' state := by
  apply assigning.ext
  intro one
  rw [get_assignAll_ofField, alike, ← get_assignAll_ofField]

/-- The same items in another order agree on each field, if no two of them assign the same one. -/
theorem alike_of_perm (perm : items.Perm items')
    (once : items.Pairwise fun item item' => assigning.field item ≠ assigning.field item') (one : Field) :
    assigning.ofField one items = assigning.ofField one items' := by
  have once' := perm.pairwise once Ne.symm
  refine List.Perm.eq_of_pairwise ?_ (once.filter _) (once'.filter _) (perm.filter _)
  intro item item' mem mem' different _
  have own : assigning.field item = some one := of_decide_eq_true (List.mem_filter.mp mem).2
  have own' : assigning.field item' = some one := of_decide_eq_true (List.mem_filter.mp mem').2
  exact absurd (own.trans own'.symm) different

end Alike

end Assigning

end Insist.Lib
