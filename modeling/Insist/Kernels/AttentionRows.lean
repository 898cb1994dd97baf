/-
**What a row of attention depends on, and what it is made of.**

Both `solve`s end in outputs that satisfy `Attends`, whatever their schedules. So what is said here of the
elements of such outputs holds of the two kernels alike, as if their index arithmetic were unbounded.

* `attended_congr` — an element depends on its query row and on the keys and values that the row sees, through
  float operations of any kind;
* **`row_of_seen`** — two launches, of any sizes, agree on rows that see the same: causal attention to a prefix
  does not change when more rows follow, and the mask does what cutting the sequence off would do;
* **`row_is_average`** — with exact arithmetic a row is an average of the visible values, by weights that are
  ordered as the scores;
* **`keys_in_any_order`** — without the mask, the keys and values may come in any order.
-/
import Insist.Kernels.AttentionReal
import Insist.Lib.Share

namespace Insist.Kernels.Attention

open Lib

variable {α : Type*} [FloatScale α] {Q K V Q' K' V' : ℕ → α} {B H S D b h i B' H' S' b' h' i' : ℕ}
  {causal causal' : ℤ} {output output' result result' : Output α}

/-- One of the two `solve`s can end so. -/
def Solves (Q K V : ℕ → α) (B H S D causal : ℤ) (output output' : Output α) : Prop :=
  TiledSolve Q K V B H S D causal output output' ∨ SimpleSolve Q K V B H S D causal output output'

theorem Solves.attends (batches : 0 < B) (heads : 0 < H) (rows : 0 < S) (dimensions : 0 < D) (small : D ≤ maxD)
    (solves : Solves Q K V B H S D causal output result) : Attends Q K V B H S D causal output result := by
  rcases solves with tiled | simple
  · exact tiled.attends batches heads rows dimensions small
  · exact simple.attends batches heads rows dimensions small

/-! ### What a row sees -/

/-- Two rows see the same: the query, and the first keys and values. -/
structure SeeAlike (Q K V Q' K' V' : ℕ → α) (H S H' S' D b h i b' h' i' count : ℕ) : Prop where
  query : ∀ d < D, Q (addressOf H S D b h i d) = Q' (addressOf H' S' D b' h' i' d)
  keys : ∀ j < count, ∀ d < D, K (addressOf H S D b h j d) = K' (addressOf H' S' D b' h' j d)
  values : ∀ j < count, ∀ d < D, V (addressOf H S D b h j d) = V' (addressOf H' S' D b' h' j d)

section Seen

variable {count d : ℕ}

omit [FloatScale α] in
theorem SeeAlike.before (alike : SeeAlike Q K V Q' K' V' H S H' S' D b h i b' h' i' (count + 1)) :
    SeeAlike Q K V Q' K' V' H S H' S' D b h i b' h' i' count :=
  ⟨alike.query, fun j inside => alike.keys j (by omega), fun j inside => alike.values j (by omega)⟩

/-- The state after the keys that two rows see alike is the same. -/
theorem rowOnline_congr (alike : SeeAlike Q K V Q' K' V' H S H' S' D b h i b' h' i' count) (dimension : d < D) :
    rowOnline Q K V H S D b h i count d = rowOnline Q' K' V' H' S' D b' h' i' count d := by
  induction count with
  | zero => rfl
  | succ count ih =>
      have query : ∀ d < D, rowOf H S D b h Q i d = rowOf H' S' D b' h' Q' i' d := alike.query
      have key : ∀ d < D, rowOf H S D b h K count d = rowOf H' S' D b' h' K' count d :=
        alike.keys count (by omega)
      have value : rowOf H S D b h V count d = rowOf H' S' D b' h' V' count d :=
        alike.values count (by omega) d dimension
      rw [rowOnline_succ, rowOnline_succ, ih alike.before, scoreOf_congr query key, value]

/-- **An element depends on what its row sees.** -/
theorem attended_congr (alike : SeeAlike Q K V Q' K' V' H S H' S' D b h i b' h' i' count) (dimension : d < D) :
    attended Q K V H S D b h i count d = attended Q' K' V' H' S' D b' h' i' count d := by
  rw [attended, attended, rowOnline_congr alike dimension]

end Seen

/-- An element after a `solve` is what its row attends to. -/
theorem Solves.value (small : D ≤ maxD) (solves : Solves Q K V B H S D causal output result) (batch : b < B)
    (head : h < H) (row : i < S) {d : ℕ} (dimension : d < D) :
    result.value (addressOf H S D b h i d) = attended Q K V H S D b h i (kvEnd S causal i) d :=
  (solves.attends (by omega) (by omega) (by omega) (by omega) small).value batch head row dimension

/-- **A row is determined by what it sees**, whatever the float operations are, with unbounded index arithmetic:
when two launches, of any sizes, by either `solve`, have a row each that sees as many keys as the other and the
same query, keys and values, these rows end up with the same elements. So with the causal mask a row does not
depend on the rows that follow it, and is what it would be without the mask in a sequence that ends with it; and
no batch or head depends on another. -/
theorem row_of_seen (small : D ≤ maxD) (solves : Solves Q K V B H S D causal output result)
    (solves' : Solves Q' K' V' B' H' S' D causal' output' result') (batch : b < B) (head : h < H) (row : i < S)
    (batch' : b' < B') (head' : h' < H') (row' : i' < S') (as_many : kvEnd S causal i = kvEnd S' causal' i')
    (alike : SeeAlike Q K V Q' K' V' H S H' S' D b h i b' h' i' (kvEnd S causal i)) :
    ∀ d < D, result.value (addressOf H S D b h i d) = result'.value (addressOf H' S' D b' h' i' d) := by
  intro d dimension
  rw [solves.value small batch head row dimension, solves'.value small batch' head' row' dimension, ← as_many]
  exact attended_congr alike dimension

/-- The fifth of nine rows with the causal mask, in the tiled kernel, and the last of five rows without it, in
the simple kernel. -/
theorem fifth_row_alike :
    ∃ masked cut : Output ℝ,
      Solves (fun address => (address : ℝ)) (fun address => (address : ℝ)) (fun address => (address : ℝ))
        (1 : ℕ) (1 : ℕ) (9 : ℕ) (33 : ℕ) 1 .blank masked ∧
      Solves (fun address => (address : ℝ)) (fun address => (address : ℝ)) (fun address => (address : ℝ))
        (1 : ℕ) (1 : ℕ) (5 : ℕ) (33 : ℕ) 0 .blank cut ∧
      ∀ d < 33, masked.value (addressOf 1 9 33 0 0 4 d) = cut.value (addressOf 1 5 33 0 0 4 d) := by
  let numbers : ℕ → ℝ := fun address => (address : ℝ)
  obtain ⟨masked, tiled⟩ := exists_tiledSolve (B := 1) (H := 1) (S := 9) (D := 33) (by decide) (by decide)
    (by decide) (by decide) (by decide) numbers numbers numbers 1 .blank
  obtain ⟨cut, simple⟩ := exists_simpleSolve (B := 1) (H := 1) (S := 5) (D := 33) (by decide) (by decide)
    (by decide) (by decide) (by decide) numbers numbers numbers 0 .blank
  have address (j d : ℕ) : addressOf 1 9 33 0 0 j d = addressOf 1 5 33 0 0 j d := by simp [addressOf, bhBase]
  have alike : SeeAlike numbers numbers numbers numbers numbers numbers 1 9 1 5 33 0 0 4 0 0 4 (kvEnd 9 1 4) :=
    ⟨fun d _ => by rw [address], fun j _ d _ => by rw [address], fun j _ d _ => by rw [address]⟩
  exact ⟨masked, cut, .inl tiled, .inr simple,
    row_of_seen (by decide) (.inl tiled) (.inr simple) Nat.one_pos Nat.one_pos
    (by decide) Nat.one_pos Nat.one_pos
      (by decide) rfl alike⟩

/-! ### What a row is made of -/

section Average

variable {Q K V Q' K' V' : ℕ → ℝ} {output output' result result' : Output ℝ}

/-- The weight of a key in a row. -/
noncomputable def keyWeight (Q K : ℕ → ℝ) (H S D b h i : ℕ) (causal : ℤ) (j : ℕ) : ℝ :=
  share (visible S causal i) (fun j => Real.exp (score Q K H S D b h i j)) j

theorem visible_nonempty (row : i < S) (causal : ℤ) : (visible S causal i).Nonempty := by
  rw [visible_eq row, Finset.nonempty_range_iff]
  exact (kvEnd_pos causal row).ne'

/-- The elements of a row with exact arithmetic. -/
theorem Solves.value_real (small : D ≤ maxD) (solves : Solves Q K V B H S D causal output result)
    (batch : b < B)
    (head : h < H) (row : i < S) {d : ℕ} (dimension : d < D) :
    result.value (addressOf H S D b h i d) = attention Q K V H S D b h i causal d := by
  rw [solves.value small batch head row dimension, attended_eq Q K V H D b h small row]

/-- **A row is an average of the values that it sees**, with exact and unbounded arithmetic: the keys that it
sees have positive weights that add up to 1 and are ordered as the scores, and every element is the average of
the values in its dimension by these weights. So it stays between any bounds of these values. -/
theorem row_is_average (small : D ≤ maxD) (solves : Solves Q K V B H S D causal output result) (batch : b < B)
    (head : h < H) (row : i < S) :
    ((∀ j ∈ visible S causal i, 0 < keyWeight Q K H S D b h i causal j) ∧
      ∑ j ∈ visible S causal i, keyWeight Q K H S D b h i causal j = 1 ∧
      ∀ j k, keyWeight Q K H S D b h i causal j ≤ keyWeight Q K H S D b h i causal k ↔
        score Q K H S D b h i j ≤ score Q K H S D b h i k) ∧
    ∀ d < D,
      result.value (addressOf H S D b h i d) =
        ∑ j ∈ visible S causal i, keyWeight Q K H S D b h i causal j * V (addressOf H S D b h j d) ∧
      ∀ low high, (∀ j ∈ visible S causal i, low ≤ V (addressOf H S D b h j d) ∧
        V (addressOf H S D b h j d) ≤ high) →
        result.value (addressOf H S D b h i d) ∈ Set.Icc low high := by
  have positive : ∀ j ∈ visible S causal i, 0 < Real.exp (score Q K H S D b h i j) := fun j _ => Real.exp_pos _
  have some := visible_nonempty row causal
  refine ⟨⟨fun j member => share_pos positive member, sum_share positive some, fun j k => ?_⟩,
    fun d dimension => ⟨?_, fun low high bounds => ?_⟩⟩
  · rw [keyWeight, keyWeight, share_le_iff positive some, Real.exp_le_exp]
  · rw [solves.value_real small batch head row dimension]
    exact quotient_eq_sum_share _
  · rw [solves.value_real small batch head row dimension]
    exact quotient_mem_Icc positive some bounds

/-- The last of nine rows stays below the greatest value in its dimension. -/
theorem last_row_average :
    ∃ output : Output ℝ,
      Solves (fun address => (address : ℝ)) (fun _ => 1) (fun address => (address : ℝ)) (1 : ℕ) (1 : ℕ) (9 : ℕ)
        (33 : ℕ) 1 .blank output ∧
      output.value (addressOf 1 9 33 0 0 8 32) ∈ Set.Icc 0 296 := by
  obtain ⟨output, solved⟩ := exists_tiledSolve (B := 1) (H := 1) (S := 9) (D := 33) (by decide) (by decide)
    (by decide) (by decide) (by decide) (fun address => (address : ℝ)) (fun _ => 1)
    (fun address => (address : ℝ)) 1 .blank
  obtain ⟨_, element⟩ := row_is_average (by decide) (.inl solved) Nat.one_pos Nat.one_pos (i := 8) (by decide)
  refine ⟨output, .inl solved, (element 32 (by decide)).2 0 296 fun j seen => ?_⟩
  rw [visible_eq (by decide), Finset.mem_range] at seen
  have address : addressOf 1 9 33 0 0 j 32 ≤ 296 := by
    simp only [addressOf, bhBase]
    have : kvEnd 9 1 8 = 9 := rfl
    omega
  exact ⟨Nat.cast_nonneg _, by exact_mod_cast address⟩

/-- **Without the mask, the keys may come in any order**: with exact and unbounded arithmetic, when the keys and
the values of a head are permuted together, a row with the same query keeps its elements, in whatever launch and
by either `solve`. -/
theorem keys_in_any_order (small : D ≤ maxD) (solves : Solves Q K V B H S D 0 output result)
    (solves' : Solves Q' K' V' B' H' S D 0 output' result') (batch : b < B) (head : h < H) (row : i < S)
    (batch' : b' < B') (head' : h' < H') (row' : i' < S) (order : Equiv.Perm (Fin S))
    (query : ∀ d < D, Q' (addressOf H' S D b' h' i' d) = Q (addressOf H S D b h i d))
    (keys : ∀ j : Fin S, ∀ d < D, K' (addressOf H' S D b' h' j d) = K (addressOf H S D b h (order j) d))
    (values : ∀ j : Fin S, ∀ d < D, V' (addressOf H' S D b' h' j d) = V (addressOf H S D b h (order j) d)) :
    ∀ d < D, result'.value (addressOf H' S D b' h' i' d) = result.value (addressOf H S D b h i d) := by
  intro d dimension
  have scores (j : Fin S) : score Q' K' H' S D b' h' i' j = score Q K H S D b h i (order j) := by
    rw [score, score]
    congr 1
    refine Finset.sum_congr rfl fun d member => ?_
    rw [query d (Finset.mem_range.mp member), keys j d (Finset.mem_range.mp member)]
  have permuted (term : ℕ → ℝ) : ∑ j : Fin S, term (order j) = ∑ j ∈ Finset.range S, term j := by
    rw [Equiv.sum_comp order fun j => term j, Finset.sum_range]
  rw [solves'.value_real small batch' head' row' dimension, solves.value_real small batch head row dimension,
    attention, attention, denominator, denominator, visible_eq row', visible_eq row]
  rw [show kvEnd S 0 i' = S from rfl, show kvEnd S 0 i = S from rfl, Finset.sum_range, Finset.sum_range]
  simp only [scores, values _ d dimension]
  rw [permuted fun j => Real.exp (score Q K H S D b h i j) * V (addressOf H S D b h j d),
    permuted fun j => Real.exp (score Q K H S D b h i j)]

/-- Two rows of keys and values, exchanged. -/
theorem two_rows_exchanged :
    ∃ output output' : Output ℝ,
      Solves (fun _ => 2) (fun address => (address : ℝ)) (fun address => (address : ℝ)) (1 : ℕ) (1 : ℕ)
      (2 : ℕ) (1 : ℕ)
        0 .blank output ∧
      Solves (fun _ => 2) (fun address => 1 - (address : ℝ)) (fun address => 1 - (address : ℝ)) (1 : ℕ)
        (1 : ℕ) (2 : ℕ)
        (1 : ℕ) 0 .blank output' ∧
      ∀ d < 1, output'.value (addressOf 1 2 1 0 0 1 d) = output.value (addressOf 1 2 1 0 0 1 d) := by
  obtain ⟨output, solved⟩ := exists_tiledSolve (B := 1) (H := 1) (S := 2) (D := 1) (by decide) (by decide)
    (by decide) (by decide) (by decide) (fun _ => (2 : ℝ)) (fun address => (address : ℝ))
    (fun address => (address : ℝ))
    0 .blank
  obtain ⟨output', solved'⟩ := exists_simpleSolve (B := 1) (H := 1) (S := 2) (D := 1) (by decide) (by decide)
    (by decide) (by decide) (by decide) (fun _ => (2 : ℝ)) (fun address => 1 - (address : ℝ))
    (fun address => 1 - (address : ℝ)) 0 .blank
  have exchanged : ∀ j : Fin 2, ∀ d < 1, (1 - (addressOf 1 2 1 0 0 j d : ℝ)) =
      addressOf 1 2 1 0 0 (Fin.rev j) d := by
    intro j d dimension
    obtain rfl : d = 0 := by omega
    fin_cases j <;> simp [addressOf, bhBase]
  exact ⟨output, output', .inl solved, .inr solved',
    keys_in_any_order (by decide) (.inl solved) (.inr solved') Nat.one_pos Nat.one_pos (by decide) Nat.one_pos
      Nat.one_pos (by decide) Fin.revPerm (fun _ _ => rfl) exchanged exchanged⟩

end Average

end Insist.Kernels.Attention
