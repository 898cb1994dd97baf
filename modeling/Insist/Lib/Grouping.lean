/-
**Grouping by a key**: a table of lists, kept in the order in which its keys came first.

* `grouped` — every value is appended to the list of its key;
* `mem_grouped` — an entry has exactly the values of its key, in their order;
* `nodup_grouped` — a key has one entry; `perm_grouped` — every value is in one of them.
-/
import Mathlib.Data.List.Induction
import Mathlib.Data.List.Nodup
import Mathlib.Data.List.Perm.Basic

namespace Insist.Lib

variable {κ ν : Type*} [DecidableEq κ]

/-- `value` appended to the list of `key`, which is new if it has no entry. -/
def appendAt (key : κ) (value : ν) : List (κ × List ν) → List (κ × List ν)
  | [] => [(key, [value])]
  | (other, values) :: rest =>
      if other = key then (other, values ++ [value]) :: rest else (other, values) :: appendAt key value rest

/-- The values, grouped by their keys. -/
def grouped (keyOf : ν → κ) (values : List ν) : List (κ × List ν) :=
  values.foldl (fun table value => appendAt (keyOf value) value table) []

variable {keyOf : ν → κ} {values : List ν} {key : κ} {value : ν}

@[simp] theorem grouped_nil : grouped keyOf [] = [] := rfl

theorem grouped_concat :
    grouped keyOf (values ++ [value]) = appendAt (keyOf value) value (grouped keyOf values) := by
  rw [grouped, List.foldl_append]
  rfl

/-! ### One more value -/

theorem keys_appendAt (table : List (κ × List ν)) :
    (appendAt key value table).map Prod.fst =
      if key ∈ table.map Prod.fst then table.map Prod.fst else table.map Prod.fst ++ [key] := by
  induction table with
  | nil => rfl
  | cons entry rest ih =>
      obtain ⟨other, values⟩ := entry
      by_cases same : other = key
      · simp [appendAt, same]
      · rw [appendAt, if_neg same, List.map_cons, ih]
        by_cases known : key ∈ rest.map Prod.fst
        · simp [known]
        · simp [known, Ne.symm same]

theorem mem_appendAt {table : List (κ × List ν)} (nodup : (table.map Prod.fst).Nodup) {other : κ}
    {values : List ν} :
    (other, values) ∈ appendAt key value table ↔
      if other = key then values = ((table.lookup key).getD []) ++ [value] else (other, values) ∈ table := by
  induction table with
  | nil =>
      by_cases same : other = key
      · simp [appendAt, same]
      · simp [appendAt, same]
  | cons entry rest ih =>
      obtain ⟨first, list⟩ := entry
      obtain ⟨fresh, distinct⟩ := List.nodup_cons.mp nodup
      have unlisted (list : List ν) : (first, list) ∉ rest :=
        fun member => fresh (List.mem_map.mpr ⟨_, member, rfl⟩)
      by_cases same : first = key
      · subst same
        by_cases here : other = first
        · subst here
          simp [appendAt, unlisted]
        · simp [appendAt, here]
      · rw [appendAt, if_neg same, List.mem_cons, ih distinct]
        by_cases here : other = key
        · subst here
          simp [Ne.symm same, List.lookup_cons, beq_eq_false_iff_ne.mpr (Ne.symm same)]
        · simp [here]

theorem perm_appendAt (table : List (κ × List ν)) :
    ((appendAt key value table).flatMap Prod.snd).Perm (table.flatMap Prod.snd ++ [value]) := by
  induction table with
  | nil => exact List.Perm.refl _
  | cons entry rest ih =>
      obtain ⟨other, values⟩ := entry
      by_cases same : other = key
      · rw [appendAt, if_pos same]
        simp only [List.flatMap_cons, List.append_assoc]
        exact List.Perm.append_left _ List.perm_append_comm
      · rw [appendAt, if_neg same]
        simp only [List.flatMap_cons, List.append_assoc]
        exact ih.append_left _

/-! ### All values -/

/-- **A key has one entry.** -/
theorem nodup_grouped (keyOf : ν → κ) (values : List ν) : ((grouped keyOf values).map Prod.fst).Nodup := by
  induction values using List.reverseRecOn with
  | nil => exact List.nodup_nil
  | append_singleton values value ih =>
      rw [grouped_concat, keys_appendAt]
      split_ifs with known
      · exact ih
      · exact List.Nodup.append ih (List.nodup_singleton _) (by simpa using known)

/-- **Every value is in one entry.** -/
theorem perm_grouped (keyOf : ν → κ) (values : List ν) :
    ((grouped keyOf values).flatMap Prod.snd).Perm values := by
  induction values using List.reverseRecOn with
  | nil => exact List.Perm.refl _
  | append_singleton values value ih =>
      rw [grouped_concat]
      exact (perm_appendAt _).trans (ih.append_right _)

theorem lookup_eq_some_iff {κ ω : Type*} [BEq κ] [LawfulBEq κ] {table : List (κ × ω)} {key : κ} {content : ω}
    (nodup : (table.map Prod.fst).Nodup) : table.lookup key = some content ↔ (key, content) ∈ table := by
  induction table with
  | nil => simp
  | cons entry rest ih =>
      obtain ⟨other, first⟩ := entry
      obtain ⟨fresh, distinct⟩ := List.nodup_cons.mp nodup
      by_cases same : key = other
      · subst same
        have unlisted (content : ω) : (key, content) ∉ rest :=
          fun member => fresh (List.mem_map.mpr ⟨_, member, rfl⟩)
        simp [unlisted, eq_comm]
      · rw [List.lookup_cons, beq_eq_false_iff_ne.mpr same]
        simp [ih distinct, same]

/-- **An entry has exactly the values of its key.** -/
theorem mem_grouped {list : List ν} :
    (key, list) ∈ grouped keyOf values ↔ list = values.filter (keyOf · = key) ∧ list ≠ [] := by
  induction values using List.reverseRecOn generalizing key list with
  | nil => simp
  | append_singleton values value ih =>
      rw [grouped_concat, mem_appendAt (nodup_grouped keyOf values), List.filter_append]
      by_cases same : key = keyOf value
      · subst same
        have known : ((grouped keyOf values).lookup (keyOf value)).getD [] =
            values.filter (keyOf · = keyOf value) := by
          cases found : (grouped keyOf values).lookup (keyOf value) with
          | some list => exact (ih.mp ((lookup_eq_some_iff (nodup_grouped keyOf values)).mp found)).1
          | none =>
              by_contra some
              have member := ih.mpr ⟨rfl, fun empty => some (by rw [empty, Option.getD_none])⟩
              rw [(lookup_eq_some_iff (nodup_grouped keyOf values)).mpr member] at found
              cases found
        rw [if_pos rfl, known, List.filter_singleton, decide_eq_true rfl, cond_true]
        refine ⟨fun equal => ⟨equal, ?_⟩, fun both => both.1⟩
        rw [equal]
        exact List.append_ne_nil_of_right_ne_nil _ (List.cons_ne_nil _ _)
      · have other : decide (keyOf value = key) = false := decide_eq_false (Ne.symm same)
        rw [if_neg same, ih, List.filter_singleton, other, cond_false, List.append_nil]

end Insist.Lib
