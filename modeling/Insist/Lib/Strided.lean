/-
**Strided loops and tree reductions.**

A thread takes every column that leaves its own number as the remainder by the number of threads; a tree
reduction then folds the threads' results in halves.

* `strided` — the columns of one thread, `stridedUpTo` those of its first turns; `fold_stridedUpTo_succ` — what
  one more turn adds to a fold;
* `fold_strided_half` — two threads' folds make up the fold of one of half as many threads; `fold_strided_one` —
  one thread takes all columns.
-/
import Mathlib.Data.Finset.Fold

namespace Insist.Lib

/-- The columns of a thread. -/
def strided (columns threads thread : ℕ) : Finset ℕ :=
  (Finset.range columns).filter fun column => column % threads = thread

/-- The columns that a thread has taken after so many turns. -/
def stridedUpTo (columns threads thread turns : ℕ) : Finset ℕ :=
  (Finset.range columns).filter fun column => column % threads = thread ∧ column / threads < turns

variable {columns threads thread : ℕ}

theorem mem_strided {column : ℕ} :
    column ∈ strided columns threads thread ↔ column < columns ∧ column % threads = thread := by
  rw [strided, Finset.mem_filter, Finset.mem_range]

theorem mem_stridedUpTo {column turns : ℕ} : column ∈ stridedUpTo columns threads thread turns ↔
    column < columns ∧ column % threads = thread ∧ column / threads < turns := by
  rw [stridedUpTo, Finset.mem_filter, Finset.mem_range]

theorem stridedUpTo_zero : stridedUpTo columns threads thread 0 = ∅ := by
  ext column
  simp [mem_stridedUpTo]

/-- The column of a turn. -/
theorem column_eq_iff (inside : thread < threads) {column turn : ℕ} :
    column = thread + turn * threads ↔ column % threads = thread ∧ column / threads = turn := by
  constructor
  · rintro rfl
    rw [Nat.add_mul_mod_self_right, Nat.mod_eq_of_lt inside, Nat.add_mul_div_right _ _ (by omega),
      Nat.div_eq_of_lt inside]
    exact ⟨rfl, Nat.zero_add _⟩
  · rintro ⟨rfl, rfl⟩
    rw [Nat.mul_comm]
    exact (Nat.mod_add_div column threads).symm

/-- One more turn. -/
theorem stridedUpTo_succ (inside : thread < threads) (turns : ℕ) :
    stridedUpTo columns threads thread (turns + 1) =
      if thread + turns * threads < columns then
        insert (thread + turns * threads) (stridedUpTo columns threads thread turns)
      else stridedUpTo columns threads thread turns := by
  ext column
  split_ifs with more
  · rw [Finset.mem_insert, mem_stridedUpTo, mem_stridedUpTo, column_eq_iff inside]
    constructor
    · rintro ⟨bound, same, before⟩
      rcases Nat.lt_succ_iff_lt_or_eq.mp before with early | last
      · exact Or.inr ⟨bound, same, early⟩
      · exact Or.inl ⟨same, last⟩
    · rintro (⟨same, last⟩ | ⟨bound, same, early⟩)
      · exact ⟨(column_eq_iff inside).mpr ⟨same, last⟩ ▸ more, same, by omega⟩
      · exact ⟨bound, same, by omega⟩
  · rw [mem_stridedUpTo, mem_stridedUpTo]
    constructor
    · rintro ⟨bound, same, before⟩
      rcases Nat.lt_succ_iff_lt_or_eq.mp before with early | last
      · exact ⟨bound, same, early⟩
      · exact absurd ((column_eq_iff inside).mpr ⟨same, last⟩ ▸ bound) more
    · rintro ⟨bound, same, early⟩
      exact ⟨bound, same, by omega⟩

/-- After the last turn. -/
theorem stridedUpTo_all {turns : ℕ} (enough : columns ≤ turns * threads) :
    stridedUpTo columns threads thread turns = strided columns threads thread := by
  ext column
  rw [mem_stridedUpTo, mem_strided]
  constructor
  · rintro ⟨bound, same, _⟩
    exact ⟨bound, same⟩
  · rintro ⟨bound, same⟩
    exact ⟨bound, same, Nat.div_lt_of_lt_mul (by rw [Nat.mul_comm]; omega)⟩

section Fold

variable {β : Type*} (combine : β → β → β) [Std.Commutative combine] [Std.Associative combine] (unit : β)
    (value : ℕ → β)

theorem fold_stridedUpTo_succ (inside : thread < threads) (turns : ℕ) :
    (stridedUpTo columns threads thread (turns + 1)).fold combine unit value =
      if thread + turns * threads < columns then
        combine ((stridedUpTo columns threads thread turns).fold combine unit value)
          (value (thread + turns * threads))
      else (stridedUpTo columns threads thread turns).fold combine unit value := by
  rw [stridedUpTo_succ inside]
  split_ifs with more
  · have fresh : thread + turns * threads ∉ stridedUpTo columns threads thread turns := by
      intro member
      obtain ⟨_, _, before⟩ := mem_stridedUpTo.mp member
      exact absurd ((column_eq_iff inside).mp rfl).2 (Nat.ne_of_lt before)
    rw [Finset.fold_insert fresh]
    exact Std.Commutative.comm _ _
  · rfl

/-- **Two threads' columns are those of one among half as many threads.** -/
theorem fold_strided_half (unit_unit : combine unit unit = unit) (inside : thread < threads) :
    combine ((strided columns (2 * threads) thread).fold combine unit value)
        ((strided columns (2 * threads) (thread + threads)).fold combine unit value) =
      (strided columns threads thread).fold combine unit value := by
  have apart : Disjoint (strided columns (2 * threads) thread)
      (strided columns (2 * threads) (thread + threads)) := by
    refine Finset.disjoint_left.mpr fun column first second => ?_
    have same := (mem_strided.mp first).2.symm.trans (mem_strided.mp second).2
    omega
  have both : (strided columns (2 * threads) thread).disjUnion
    (strided columns (2 * threads) (thread + threads)) apart =
      strided columns threads thread := by
    ext column
    rw [Finset.mem_disjUnion, mem_strided, mem_strided, mem_strided]
    have halves : column % (2 * threads) % threads = column % threads := Nat.mod_mul_left_mod column 2 threads
    have bound : column % (2 * threads) < 2 * threads := Nat.mod_lt _ (by omega)
    constructor
    · rintro (⟨bound, same⟩ | ⟨bound, same⟩)
      · rw [same, Nat.mod_eq_of_lt inside] at halves
        exact ⟨bound, halves.symm⟩
      · rw [same, Nat.add_mod_right, Nat.mod_eq_of_lt inside] at halves
        exact ⟨bound, halves.symm⟩
    · rintro ⟨inRange, same⟩
      rw [same] at halves
      rcases Nat.lt_or_ge (column % (2 * threads)) threads with low | high
      · rw [Nat.mod_eq_of_lt low] at halves
        exact Or.inl ⟨inRange, halves⟩
      · rw [Nat.mod_eq_sub_mod high, Nat.mod_eq_of_lt (by omega)] at halves
        exact Or.inr ⟨inRange, by omega⟩
  rw [← both, ← unit_unit, Finset.fold_disjUnion, unit_unit]

theorem fold_strided_one : (strided columns 1 0).fold combine unit value =
    (Finset.range columns).fold combine unit value := by
  have all : strided columns 1 0 = Finset.range columns := by
    ext column
    simp [mem_strided, Nat.mod_one]
  rw [all]

end Fold

end Insist.Lib
