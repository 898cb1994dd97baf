/-
**Base-128 numerals: little-endian groups of seven bits, the top bit marking "more follows".**

* `write value` — the numeral a writer emits: one byte below `128`, or a marked low group followed by
  the numeral of the rest.
* `value bytes` — what a group denotes: the sum of `(byte mod 128) · 128 ^ i`.
* `Closed bytes` — a group that ends: every byte but the last is marked, the last is not.
* `split fuel bytes` — the closed group at the front of `bytes`, if one ends within `fuel` bytes.

`value_write` and `write_closed` say that the writer emits a closed group of the right value,
`split_append` that a closed group is recognised whatever follows it, and `split_eq_some` that
`split` finds nothing else; `split_eq` says where the group ends, and `value_eq_sum` spells out its value.
`length_write` is the writer's length, which is the least a closed group of the value can have
(`length_write_le_of_value`), and only the writer's group has it (`eq_write_of_length_le`). No closed group
continues another (`closed_aligned`).
-/
import Mathlib.Algebra.BigOperators.Ring.Finset
import Mathlib.Data.Nat.Log
import Mathlib.Data.List.Basic
import Mathlib.Tactic.Ring

namespace Insist.Lib.Leb128

/-! ### The writer -/

/-- The numeral of `n`. -/
def write (n : ℕ) : List UInt8 :=
  if n < 128 then [UInt8.ofNat n] else UInt8.ofNat (n % 128 + 128) :: write (n / 128)
termination_by n

theorem write_of_lt {n : ℕ} (small : n < 128) : write n = [UInt8.ofNat n] := by
  rw [write, if_pos small]

theorem write_of_ge {n : ℕ} (large : 128 ≤ n) :
    write n = UInt8.ofNat (n % 128 + 128) :: write (n / 128) := by
  rw [write, if_neg (by omega)]

theorem write_ne_nil (n : ℕ) : write n ≠ [] := by
  rw [write]
  split <;> simp

/-- **The writer's length**: a byte for every base-128 digit. -/
theorem length_write (n : ℕ) : (write n).length = Nat.log 128 n + 1 := by
  induction n using Nat.strong_induction_on with
  | h n ih =>
      rcases lt_or_ge n 128 with small | large
      · rw [write_of_lt small, Nat.log_of_lt small]
        rfl
      · rw [write_of_ge large, List.length_cons, ih (n / 128) (Nat.div_lt_self (by omega) (by omega)),
          Nat.log_of_one_lt_of_le (by omega) large]

/-- `n < 128 ^ k` needs at most `k` bytes, for `k > 0`. -/
theorem length_write_le {k n : ℕ} (bound : n < 128 ^ (k + 1)) : (write n).length ≤ k + 1 := by
  rw [length_write]
  exact Nat.log_lt_of_lt_pow' (Nat.succ_ne_zero k) bound

/-! ### The value of a group -/

/-- The value of a group: its low seven bits, byte by byte, least significant first. -/
def value : List UInt8 → ℕ
  | [] => 0
  | byte :: rest => byte.toNat % 128 + 128 * value rest

@[simp] theorem value_nil : value [] = 0 := rfl

@[simp] theorem value_cons (byte : UInt8) (rest : List UInt8) :
    value (byte :: rest) = byte.toNat % 128 + 128 * value rest := rfl

/-- The value of a group as a sum. -/
theorem value_eq_sum (group : List UInt8) :
    value group = ∑ i ∈ Finset.range group.length, (group.getD i 0).toNat % 128 * 128 ^ i := by
  induction group with
  | nil => rfl
  | cons byte rest ih =>
      rw [value_cons, List.length_cons, Finset.sum_range_succ', ih, Finset.mul_sum, Nat.add_comm]
      congr 1
      · refine Finset.sum_congr rfl fun i _ => ?_
        rw [List.getD_cons_succ, pow_succ]
        ring
      · rw [List.getD_cons_zero, pow_zero, Nat.mul_one]

theorem toNat_ofNat_of_lt {n : ℕ} (small : n < 256) : (UInt8.ofNat n).toNat = n := by
  rw [UInt8.toNat_ofNat']
  exact Nat.mod_eq_of_lt small

/-- **The writer's group has the number's value.** -/
theorem value_write (n : ℕ) : value (write n) = n := by
  induction n using Nat.strongRecOn with
  | ind n ih =>
      by_cases small : n < 128
      · rw [write_of_lt small, value_cons, toNat_ofNat_of_lt (by omega), value_nil]
        omega
      · rw [write_of_ge (by omega), value_cons, toNat_ofNat_of_lt (by omega), ih (n / 128) (by omega)]
        omega

/-! ### Closed groups -/

/-- Every byte but the last carries the mark, the last does not. -/
def Closed : List UInt8 → Prop
  | [] => False
  | [byte] => byte.toNat < 128
  | byte :: next :: rest => 128 ≤ byte.toNat ∧ Closed (next :: rest)

instance decidableClosed : (group : List UInt8) → Decidable (Closed group)
  | [] => inferInstanceAs (Decidable False)
  | [byte] => inferInstanceAs (Decidable (byte.toNat < 128))
  | byte :: next :: rest =>
      have := decidableClosed (next :: rest)
      inferInstanceAs (Decidable (128 ≤ byte.toNat ∧ Closed (next :: rest)))

theorem closed_cons {byte : UInt8} {rest : List UInt8} (marked : 128 ≤ byte.toNat)
    (closed : Closed rest) : Closed (byte :: rest) := by
  cases rest with
  | nil => exact closed.elim
  | cons next rest => exact ⟨marked, closed⟩

/-- **The writer emits a closed group.** -/
theorem write_closed (n : ℕ) : Closed (write n) := by
  induction n using Nat.strongRecOn with
  | ind n ih =>
      by_cases small : n < 128
      · rw [write_of_lt small]
        show (UInt8.ofNat n).toNat < 128
        rw [toNat_ofNat_of_lt (by omega)]
        exact small
      · rw [write_of_ge (by omega)]
        refine closed_cons ?_ (ih (n / 128) (by omega))
        rw [toNat_ofNat_of_lt (by omega)]
        omega

/-! ### Reading the group at the front of a byte string -/

/-- The closed group at the front of the input and what follows it, if it ends within `fuel`
bytes. -/
def split : ℕ → List UInt8 → Option (List UInt8 × List UInt8)
  | 0, _ => none
  | _ + 1, [] => none
  | fuel + 1, byte :: rest =>
      if byte.toNat < 128 then some ([byte], rest)
      else (split fuel rest).map fun found => (byte :: found.1, found.2)

/-- A closed group is found, whatever follows it. -/
theorem split_append {fuel : ℕ} {group : List UInt8} (closed : Closed group)
    (short : group.length ≤ fuel) (rest : List UInt8) :
    split fuel (group ++ rest) = some (group, rest) := by
  induction group generalizing fuel with
  | nil => exact closed.elim
  | cons byte tail ih =>
      cases fuel with
      | zero => simp at short
      | succ fuel =>
          cases tail with
          | nil =>
              have unmarked : byte.toNat < 128 := closed
              simp [split, unmarked]
          | cons next tail =>
              have marked : ¬ byte.toNat < 128 := by
                have := closed.1
                omega
              have found : split fuel (next :: tail ++ rest) = _ :=
                ih closed.2 (by simpa using short)
              rw [List.cons_append, split, if_neg marked, found]
              rfl

/-- What `split` finds is a closed group of at most `fuel` bytes at the front of the input. -/
theorem split_eq_some {fuel : ℕ} : ∀ {input group rest : List UInt8},
    split fuel input = some (group, rest) →
      input = group ++ rest ∧ Closed group ∧ group.length ≤ fuel := by
  induction fuel with
  | zero =>
      intro input group rest found
      cases found
  | succ fuel ih =>
      intro input group rest found
      cases input with
      | nil => cases found
      | cons byte tail =>
          rw [split] at found
          by_cases unmarked : byte.toNat < 128
          · rw [if_pos unmarked] at found
            cases found
            exact ⟨rfl, unmarked, by simp⟩
          · rw [if_neg unmarked, Option.map_eq_some_iff] at found
            obtain ⟨⟨group', rest'⟩, inner, same⟩ := found
            cases same
            obtain ⟨rfl, closed, short⟩ := ih inner
            exact ⟨rfl, closed_cons (by omega) closed, by simpa using short⟩

theorem length_pos_of_closed {group : List UInt8} (closed : Closed group) : 0 < group.length := by
  cases group with
  | nil => exact closed.elim
  | cons _ _ => simp

/-- **No closed group continues another.** -/
theorem closed_aligned {first second rest rest' : List UInt8} (closed : Closed first)
    (closed' : Closed second) (same : first ++ rest = second ++ rest') : first = second := by
  have found := split_append closed (Nat.le_max_left first.length second.length) rest
  have found' := split_append closed' (Nat.le_max_right first.length second.length) rest'
  rw [same, found'] at found
  exact (Prod.ext_iff.mp (Option.some_inj.mp found)).1.symm

/-! ### Where a group ends -/

/-- Where the first byte without the mark stands. -/
def firstUnmarked (input : List UInt8) : ℕ := input.findIdx fun byte => byte.toNat < 128

theorem firstUnmarked_of_lt {byte : UInt8} (unmarked : byte.toNat < 128) (rest : List UInt8) :
    firstUnmarked (byte :: rest) = 0 := by
  rw [firstUnmarked, List.findIdx_cons, decide_eq_true unmarked]
  rfl

theorem firstUnmarked_of_ge {byte : UInt8} (marked : ¬ byte.toNat < 128) (rest : List UInt8) :
    firstUnmarked (byte :: rest) = firstUnmarked rest + 1 := by
  rw [firstUnmarked, List.findIdx_cons, decide_eq_false marked]
  rfl

/-- **The group ends with the first byte without the mark**, if there is one within `fuel` bytes. -/
theorem split_eq (fuel : ℕ) (input : List UInt8) :
    split fuel input =
      if ∃ byte ∈ input.take fuel, byte.toNat < 128 then
        some (input.take (firstUnmarked input + 1), input.drop (firstUnmarked input + 1))
      else none := by
  induction fuel generalizing input with
  | zero => simp [split]
  | succ fuel ih =>
      cases input with
      | nil => simp [split]
      | cons byte rest =>
          simp only [split, List.take_succ_cons, List.exists_mem_cons_iff]
          by_cases unmarked : byte.toNat < 128
          · rw [if_pos unmarked, if_pos (Or.inl unmarked), firstUnmarked_of_lt unmarked]
            rfl
          · simp only [if_neg unmarked, ih rest, firstUnmarked_of_ge unmarked, or_iff_right unmarked]
            split_ifs
            · rfl
            · rfl

/-! ### The shortest group of a value -/

theorem value_lt (group : List UInt8) : value group < 128 ^ group.length := by
  induction group with
  | nil => exact Nat.one_pos
  | cons byte rest ih =>
      have digit : byte.toNat % 128 < 128 := Nat.mod_lt _ (by omega)
      rw [value_cons, List.length_cons, pow_succ]
      omega

/-- **The writer's group is no longer than any closed group of at least its value.** -/
theorem length_write_le_of_value {n : ℕ} {group : List UInt8} (closed : Closed group)
    (below : n ≤ value group) : (write n).length ≤ group.length := by
  obtain ⟨k, size⟩ := Nat.exists_eq_succ_of_ne_zero (length_pos_of_closed closed).ne'
  rw [size]
  apply length_write_le
  rw [← Nat.succ_eq_add_one, ← size]
  exact lt_of_le_of_lt below (value_lt group)

/-- **A closed group of a value that is no longer than the writer's is the writer's.** -/
theorem eq_write_of_length_le {group : List UInt8} (closed : Closed group)
    (short : group.length ≤ (write (value group)).length) : group = write (value group) := by
  induction group with
  | nil => exact closed.elim
  | cons byte rest ih =>
      cases rest with
      | nil =>
          have small : byte.toNat < 128 := closed
          rw [value_cons, value_nil, Nat.mul_zero, Nat.add_zero, Nat.mod_eq_of_lt small, write_of_lt small,
            UInt8.ofNat_toNat]
      | cons next rest =>
          obtain ⟨marked, closed⟩ := closed
          have bound := byte.toNat_lt
          have large : 128 ≤ value (byte :: next :: rest) := by
            by_contra small
            rw [write_of_lt (Nat.lt_of_not_le small)] at short
            simp at short
          rw [write_of_ge large] at short ⊢
          rw [value_cons] at short ⊢
          have digit : (byte.toNat % 128 + 128 * value (next :: rest)) % 128 + 128 = byte.toNat := by omega
          have later : (byte.toNat % 128 + 128 * value (next :: rest)) / 128 = value (next :: rest) := by omega
          rw [later] at short ⊢
          rw [digit, UInt8.ofNat_toNat]
          exact congrArg (byte :: ·) (ih closed (Nat.le_of_succ_le_succ short))

end Insist.Lib.Leb128
