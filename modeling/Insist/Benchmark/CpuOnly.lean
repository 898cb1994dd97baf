/- **The requests of `run_cpu_only_benchmark.py` and their summary**, in exact arithmetic: floats are rational
numbers, so that nothing is rounded and no number is too large for a float.

`json_post` is the environment: it raises something, or returns any JSON value, with the time that it took. A
JSON object is the list of its members as they were written, of which the last of a name counts. A text is a
list of its characters, and a lone surrogate, which the escapes of JSON can make, is none. The prompt, the same
in every row, is left out, and so is the text that `repr` makes of an exception.

* `Measured` — what a row is like, whatever the server answered: `runOne_measured`;
* `summarize_eq` — the figures of a summary, which nothing can keep from being computed;
* **`summary_sound`** — they fit together: the counts, the order of minimum, percentiles and maximum, the means,
  and the throughput, which is the mean of those of the requests, weighted by their latencies.
-/
import Insist.Benchmark.Percentile
import Insist.Lib.Share
import Mathlib.Algebra.BigOperators.Fin
import Mathlib.Data.List.MinMax

namespace Insist.Benchmark.CpuOnly

open Lib

/-! ### What `json.loads` returns, and what Python does with it -/

/-- A JSON value. -/
inductive Json
  | null
  | bool (value : Bool)
  | int (value : ℤ)
  /-- A `float`; `none` is one that is no finite number, which `json.loads` reads too. -/
  | float (value : Option ℚ)
  | str (text : List Char)
  | array (items : List Json)
  | object (members : List (List Char × Json))

/-- What is raised. -/
inductive Raised
  | attributeError
  | indexError
  | keyError
  | typeError
  | valueError
  /-- By `json_post`: the server cannot be reached, it is too slow, its answer is not JSON. -/
  | post (text : List Char)
deriving DecidableEq, Repr

namespace Json

/-- `bool(value)`. -/
def truthy : Json → Bool
  | .null => false
  | .bool value => value
  | .int value => value ≠ 0
  | .float value => value ≠ some 0
  | .str text => text ≠ []
  | .array items => !items.isEmpty
  | .object members => !members.isEmpty

/-- `value or other`. -/
def or (value other : Json) : Json := if value.truthy then value else other

/-- `value.get(key, default)`. -/
def get (value : Json) (key : String) (default : Json := .null) : Except Raised Json :=
  match value with
  | .object members => .ok ((members.reverse.lookup key.toList).getD default)
  | _ => .error .attributeError

/-- `value[0]`; the keys of an object are texts. -/
def first : Json → Except Raised Json
  | .array (item :: _) => .ok item
  | .str (char :: _) => .ok (.str [char])
  | .array [] | .str [] => .error .indexError
  | .object _ => .error .keyError
  | .null | .bool _ | .int _ | .float _ => .error .typeError

/-- `len(value)`. -/
def len : Json → Except Raised ℕ
  | .str text => .ok text.length
  | .array items => .ok items.length
  | .object members => .ok (members.map Prod.fst).dedup.length
  | .null | .bool _ | .int _ | .float _ => .error .typeError

end Json

/-- What a slice of a value can be. -/
inductive Preview
  | text (text : List Char)
  | items (items : List Json)

/-- `value[:count]`; an object takes the slice for a key. -/
def Json.upTo (value : Json) (count : ℕ) : Except Raised Preview :=
  match value with
  | .str text => .ok (.text (text.take count))
  | .array items => .ok (.items (items.take count))
  | .object _ => .error .keyError
  | .null | .bool _ | .int _ | .float _ => .error .typeError

/-! ### `run_one` -/

/-- `choices[0].get("text") or choices[0].get("message", {}).get("content") or ""`. -/
def choiceText (choices : Json) : Except Raised Json := do
  let text ← (← choices.first).get "text"
  if text.truthy then return text
  let message ← (← choices.first).get "message" (.object [])
  return (← message.get "content").or (.str [])

/-- `extract_completion_tokens`. A `bool` is an `int`. -/
def extractCompletionTokens (body : Json) : Except Raised ℤ := do
  let usage := (← body.get "usage").or (.object [])
  match ← usage.get "completion_tokens" with
  | .int value => return value
  | .bool value => return if value then 1 else 0
  | _ =>
    let choices := (← body.get "choices").or (.array [])
    if choices.truthy then
      return max 1 (← (← choiceText choices).len)
    match body with
    | .object members =>
      match members.reverse.lookup "token_ids".toList with
      | some tokenIds => return ← tokenIds.len
      | none => return 0
    | _ => throw .typeError

/-- `extract_text`. -/
def extractText (body : Json) : Except Raised Json := do
  let choices := (← body.get "choices").or (.array [])
  if choices.truthy then choiceText choices else body.get "text" (.str [])

/-- A row of the results. -/
structure Row where
  system : List Char
  phase : List Char
  round : ℕ
  ok : Bool
  latencyS : ℚ
  completionTokens : ℤ
  completionTokS : ℚ
  textPreview : Preview
  error : Option Raised

/-- What `json_post` does: it raises, or returns the body and the time that has passed. -/
abbrev Posted := Except Raised (Json × ℚ)

/-- What `run_one` tries. -/
def measure (posted : Posted) : Except Raised (ℚ × ℤ × Preview) := do
  let (body, elapsed) ← posted
  let completionTokens ← extractCompletionTokens body
  let preview ← (← extractText body).upTo 160
  return (elapsed, completionTokens, preview)

/-- `run_one`. -/
def runOne (system phase : List Char) (round : ℕ) (posted : Posted) : Row :=
  match measure posted with
  | .ok (elapsed, completionTokens, preview) =>
    { system, phase, round
      ok := true
      latencyS := elapsed
      completionTokens
      completionTokS := if elapsed ≠ 0 then completionTokens / elapsed else 0
      textPreview := preview
      error := none }
  | .error raised =>
    { system, phase, round
      ok := false
      latencyS := 0
      completionTokens := 0
      completionTokS := 0
      textPreview := .text []
      error := some raised }

/-! ### `summarize` -/

/-- The dictionary of `summarize`. -/
structure Summary where
  count : ℕ
  okCount : ℕ
  errorCount : ℕ
  latencyAvgS : ℚ
  latencyP50S : ℚ
  latencyP95S : ℚ
  latencyMinS : ℚ
  latencyMaxS : ℚ
  completionTokensTotal : ℤ
  completionTokensAvg : ℚ
  aggregateCompletionTokS : ℚ
  perRequestCompletionTokSAvg : ℚ
  perRequestCompletionTokSP50 : ℚ
  perRequestCompletionTokSP95 : ℚ
deriving DecidableEq, Repr

/-- `statistics.mean(values) if values else 0.0`. -/
def mean (values : List ℚ) : ℚ := if values ≠ [] then values.sum / values.length else 0

/-- The rows that count. -/
def okRows (rows : List Row) : List Row := rows.filter (·.ok)

/-- `summarize`; `none` is an access outside of a list. -/
def summarize (rows : List Row) : Option Summary := do
  let latencies := (okRows rows).map (·.latencyS)
  let tokens := (okRows rows).map (·.completionTokens)
  let perRequestTps := (okRows rows).map (·.completionTokS)
  let totalCompletionTokens := tokens.sum
  let totalLatency := latencies.sum
  return {
    count := rows.length
    okCount := rows.countP (·.ok)
    errorCount := rows.countP (!·.ok)
    latencyAvgS := mean latencies
    latencyP50S := ← percentile latencies (1 / 2)
    latencyP95S := ← percentile latencies (19 / 20)
    latencyMinS := latencies.min?.getD 0
    latencyMaxS := latencies.max?.getD 0
    completionTokensTotal := totalCompletionTokens
    completionTokensAvg := mean (tokens.map (↑))
    aggregateCompletionTokS := if totalLatency ≠ 0 then totalCompletionTokens / totalLatency else 0
    perRequestCompletionTokSAvg := mean perRequestTps
    perRequestCompletionTokSP50 := ← percentile perRequestTps (1 / 2)
    perRequestCompletionTokSP95 := ← percentile perRequestTps (19 / 20) }

/-! ### Lists of values -/

section Values

variable {values values' : List ℚ} {q low high : ℚ}

/-- A percentile, or 0 where there are no values. -/
def figure (values : List ℚ) (q : ℚ) : ℚ := if values = [] then 0 else quantile values q

theorem percentile_eq_figure (nonneg : 0 ≤ q) (le_one : q ≤ 1) :
    percentile values q = some (figure values q) := by
  by_cases empty : values = []
  · rw [figure, if_pos empty, percentile, if_pos empty]
  · rw [figure, if_neg empty, percentile_eq empty nonneg le_one]

theorem figure_perm (perm : values'.Perm values) (q : ℚ) : figure values' q = figure values q := by
  by_cases empty : values = []
  · subst empty
    rw [List.Perm.eq_nil perm]
  · have empty' : values' ≠ [] := fun same => empty (List.Perm.nil_eq (same ▸ perm)).symm
    rw [figure, figure, if_neg empty, if_neg empty', quantile_perm perm]

theorem figure_mono (values : List ℚ) {r : ℚ} (nonneg : 0 ≤ q) (order : q ≤ r) :
    figure values q ≤ figure values r := by
  by_cases empty : values = []
  · rw [figure, figure, if_pos empty, if_pos empty]
  · rw [figure, figure, if_neg empty, if_neg empty]
    exact quantile_mono empty nonneg order

theorem figure_mem_Icc (nonempty : values ≠ []) (nonneg : 0 ≤ q)
    (bounds : ∀ value ∈ values, low ≤ value ∧ value ≤ high) :
    figure values q ∈ Set.Icc low high := by
  rw [figure, if_neg nonempty]
  exact quantile_mem_Icc nonempty nonneg bounds

theorem mean_perm (perm : values'.Perm values) : mean values' = mean values := by
  by_cases empty : values = []
  · subst empty
    rw [List.Perm.eq_nil perm]
  · have empty' : values' ≠ [] := fun same => empty (List.Perm.nil_eq (same ▸ perm)).symm
    rw [mean, mean, if_pos empty, if_pos empty', perm.sum_eq, perm.length_eq]

theorem mean_mul_length (values : List ℚ) : mean values * values.length = values.sum := by
  by_cases empty : values = []
  · subst empty
    rw [List.length_nil, Nat.cast_zero, mul_zero, List.sum_nil]
  · have some : (values.length : ℚ) ≠ 0 :=
      Nat.cast_ne_zero.mpr fun none => empty (List.length_eq_zero_iff.mp none)
    rw [mean, if_pos empty, div_mul_cancel₀ _ some]

theorem mean_mem_Icc (nonempty : values ≠ []) (bounds : ∀ value ∈ values, low ≤ value ∧ value ≤ high) :
    mean values ∈ Set.Icc low high := by
  have some : (0 : ℚ) < values.length := Nat.cast_pos.mpr (List.length_pos_of_ne_nil nonempty)
  have least := List.card_nsmul_le_sum values low fun value member => (bounds value member).1
  have greatest := List.sum_le_card_nsmul values high fun value member => (bounds value member).2
  rw [nsmul_eq_mul, mul_comm] at least greatest
  rw [mean, if_pos nonempty]
  exact ⟨(le_div_iff₀ some).mpr least, (div_le_iff₀ some).mpr greatest⟩

/-- The least and the greatest value, where there are any. -/
theorem extremes (nonempty : values ≠ []) : values.min?.getD 0 ∈ values ∧ values.max?.getD 0 ∈ values ∧
    ∀ value ∈ values, values.min?.getD 0 ≤ value ∧ value ≤ values.max?.getD 0 := by
  obtain ⟨least, first⟩ := Option.ne_none_iff_exists'.mp (List.min?_eq_none_iff.not.mpr nonempty)
  obtain ⟨greatest, last⟩ := Option.ne_none_iff_exists'.mp (List.max?_eq_none_iff.not.mpr nonempty)
  rw [first, last]
  obtain ⟨member, below⟩ := List.min?_eq_some_iff.mp first
  obtain ⟨member', above⟩ := List.max?_eq_some_iff.mp last
  exact ⟨member, member', fun value inside => ⟨below value inside, above value inside⟩⟩

theorem min?_perm (perm : values'.Perm values) : values'.min? = values.min? := by
  by_cases empty : values = []
  · subst empty
    rw [List.Perm.eq_nil perm]
  · obtain ⟨least, first⟩ := Option.ne_none_iff_exists'.mp (List.min?_eq_none_iff.not.mpr empty)
    obtain ⟨member, below⟩ := List.min?_eq_some_iff.mp first
    rw [first]
    exact List.min?_eq_some_iff.mpr ⟨perm.mem_iff.mpr member, fun value inside =>
      below value (perm.mem_iff.mp inside)⟩

theorem max?_perm (perm : values'.Perm values) : values'.max? = values.max? := by
  by_cases empty : values = []
  · subst empty
    rw [List.Perm.eq_nil perm]
  · obtain ⟨greatest, last⟩ := Option.ne_none_iff_exists'.mp (List.max?_eq_none_iff.not.mpr empty)
    obtain ⟨member, above⟩ := List.max?_eq_some_iff.mp last
    rw [last]
    exact List.max?_eq_some_iff.mpr ⟨perm.mem_iff.mpr member, fun value inside =>
      above value (perm.mem_iff.mp inside)⟩

end Values

/-! ### Rows -/

/-- The rate of a row is that of its tokens, and a row that does not count has none. -/
structure Measured (row : Row) : Prop where
  rate : row.completionTokS = if row.latencyS ≠ 0 then row.completionTokens / row.latencyS else 0
  failed : row.ok = false → row.latencyS = 0 ∧ row.completionTokens = 0
  error : row.ok = true ↔ row.error = none

section

variable (system phase : List Char) (round : ℕ) (posted : Posted)

@[simp] theorem runOne_system : (runOne system phase round posted).system = system := by
  unfold runOne
  cases measure posted <;> rfl

@[simp] theorem runOne_phase : (runOne system phase round posted).phase = phase := by
  unfold runOne
  cases measure posted <;> rfl

/-- **Whatever the server does, the row is consistent.** -/
theorem runOne_measured :
    Measured (runOne system phase round posted) := by
  unfold runOne
  cases measure posted with
  | ok measured => exact ⟨rfl, fun failed => (nomatch failed), iff_of_true rfl rfl⟩
  | error raised => exact ⟨rfl, fun _ => ⟨rfl, rfl⟩, iff_of_false Bool.false_ne_true (Option.some_ne_none _)⟩

end

/-! ### The summary -/

/-- The figures of some rows. -/
def summaryOf (rows : List Row) : Summary :=
  let latencies := (okRows rows).map (·.latencyS)
  let tokens := (okRows rows).map (·.completionTokens)
  let perRequestTps := (okRows rows).map (·.completionTokS)
  { count := rows.length
    okCount := rows.countP (·.ok)
    errorCount := rows.countP (!·.ok)
    latencyAvgS := mean latencies
    latencyP50S := figure latencies (1 / 2)
    latencyP95S := figure latencies (19 / 20)
    latencyMinS := latencies.min?.getD 0
    latencyMaxS := latencies.max?.getD 0
    completionTokensTotal := tokens.sum
    completionTokensAvg := mean (tokens.map (↑))
    aggregateCompletionTokS := if latencies.sum ≠ 0 then tokens.sum / latencies.sum else 0
    perRequestCompletionTokSAvg := mean perRequestTps
    perRequestCompletionTokSP50 := figure perRequestTps (1 / 2)
    perRequestCompletionTokSP95 := figure perRequestTps (19 / 20) }

/-- **A summary can always be computed.** -/
theorem summarize_eq (rows : List Row) : summarize rows = some (summaryOf rows) := by
  have half (values : List ℚ) : percentile values (1 / 2) = some (figure values (1 / 2)) :=
    percentile_eq_figure (by norm_num) (by norm_num)
  have most (values : List ℚ) : percentile values (19 / 20) = some (figure values (19 / 20)) :=
    percentile_eq_figure (by norm_num) (by norm_num)
  rw [summarize]
  simp only [half, most, Option.bind_eq_bind, Option.bind_some]
  rfl

/-- **It does not depend on the order of the rows.** -/
theorem summaryOf_perm {rows rows' : List Row} (perm : rows'.Perm rows) : summaryOf rows' = summaryOf rows := by
  have good : (okRows rows').Perm (okRows rows) := perm.filter _
  have latencies := good.map (·.latencyS)
  have tokens := good.map (·.completionTokens)
  have rates := good.map (·.completionTokS)
  unfold summaryOf
  simp only [perm.length_eq, perm.countP_eq, mean_perm latencies, figure_perm latencies, min?_perm latencies,
    max?_perm latencies, tokens.sum_eq, mean_perm (tokens.map _), latencies.sum_eq, mean_perm rates,
    figure_perm rates]

/-- The figures of a summary fit together. -/
structure Summary.Sound (rows : List Row) (summary : Summary) : Prop where
  count : summary.count = rows.length
  ok : summary.okCount = (okRows rows).length
  errors : summary.okCount + summary.errorCount = summary.count
  none : summary.okCount = 0 →
    summary = ⟨rows.length, 0, rows.length, 0, 0, 0, 0, 0, 0, 0, 0, 0, 0, 0⟩
  latencies : 0 < summary.okCount → summary.latencyMinS ≤ summary.latencyP50S ∧
    summary.latencyP50S ≤ summary.latencyP95S ∧ summary.latencyP95S ≤ summary.latencyMaxS ∧
    summary.latencyMinS ≤ summary.latencyAvgS ∧ summary.latencyAvgS ≤ summary.latencyMaxS
  extremes : 0 < summary.okCount → (∃ row ∈ okRows rows, row.latencyS = summary.latencyMinS) ∧
    (∃ row ∈ okRows rows, row.latencyS = summary.latencyMaxS) ∧
    ∀ row ∈ okRows rows, summary.latencyMinS ≤ row.latencyS ∧ row.latencyS ≤ summary.latencyMaxS
  latency : summary.latencyAvgS * summary.okCount = ((okRows rows).map (·.latencyS)).sum
  total : summary.completionTokensTotal = ((okRows rows).map (·.completionTokens)).sum
  rates : summary.perRequestCompletionTokSP50 ≤ summary.perRequestCompletionTokSP95
  tokens : summary.completionTokensAvg * summary.okCount = summary.completionTokensTotal
  idle : summary.latencyAvgS = 0 → summary.aggregateCompletionTokS = 0
  throughput : summary.latencyAvgS ≠ 0 →
    summary.aggregateCompletionTokS * (summary.latencyAvgS * summary.okCount) = summary.completionTokensTotal
  /-- The throughput lies among those of the requests, if these all took their time. -/
  weighted : 0 < summary.okCount → (∀ row ∈ okRows rows, 0 < row.latencyS) → ∀ low high,
    (∀ row ∈ okRows rows, low ≤ row.completionTokS ∧ row.completionTokS ≤ high) →
    summary.aggregateCompletionTokS ∈ Set.Icc low high

section Sound

variable {rows : List Row}

theorem countP_ok (rows : List Row) : rows.countP (·.ok) = (okRows rows).length := List.countP_eq_length_filter

theorem countP_failed (rows : List Row) : rows.countP (·.ok) + rows.countP (!·.ok) = rows.length := by
  rw [List.length_eq_countP_add_countP (·.ok)]
  simp only [Bool.not_eq_true, Bool.decide_eq_false]

theorem okRows_ne_nil (some : 0 < (summaryOf rows).okCount) : okRows rows ≠ [] := by
  have length : 0 < (okRows rows).length := countP_ok rows ▸ some
  exact List.ne_nil_of_length_pos length

theorem aggregate_eq (took : ((okRows rows).map (·.latencyS)).sum ≠ 0) :
    (summaryOf rows).aggregateCompletionTokS =
      ((((okRows rows).map (·.completionTokens)).sum : ℤ) : ℚ) / ((okRows rows).map (·.latencyS)).sum :=
  if_pos took

theorem total_latency (rows : List Row) :
    (summaryOf rows).latencyAvgS * (summaryOf rows).okCount = ((okRows rows).map (·.latencyS)).sum := by
  have total := mean_mul_length ((okRows rows).map (·.latencyS))
  rwa [List.length_map, ← countP_ok] at total

/-- The tokens of a row that took its time. -/
theorem Measured.tokens {row : Row} (measured : Measured row) (took : 0 < row.latencyS) :
    row.latencyS * row.completionTokS = row.completionTokens := by
  rw [measured.rate, if_pos took.ne', mul_div_cancel₀ _ took.ne']

/-- **The throughput is the mean of those of the requests, weighted by their latencies.** -/
theorem throughput_mem_Icc (measured : ∀ row ∈ rows, Measured row) (nonempty : okRows rows ≠ [])
    (took : ∀ row ∈ okRows rows, 0 < row.latencyS) {low high : ℚ}
    (bounds : ∀ row ∈ okRows rows, low ≤ row.completionTokS ∧ row.completionTokS ≤ high) :
    ((((okRows rows).map (·.completionTokens)).sum : ℤ) : ℚ) / ((okRows rows).map (·.latencyS)).sum ∈
    Set.Icc low high := by
  let good := okRows rows
  have some : (Finset.univ : Finset (Fin good.length)).Nonempty :=
    ⟨⟨0, List.length_pos_of_ne_nil nonempty⟩, Finset.mem_univ _⟩
  have tokens : ((((okRows rows).map (·.completionTokens)).sum : ℤ) : ℚ) =
      ∑ i : Fin good.length, good[i].latencyS * good[i].completionTokS := by
    rw [← Fin.sum_univ_fun_getElem good (·.completionTokens), Int.cast_sum]
    refine Finset.sum_congr rfl fun i _ => ?_
    exact ((measured _ (List.mem_of_mem_filter (List.getElem_mem i.isLt))).tokens
      (took _ (List.getElem_mem i.isLt))).symm
  rw [tokens, ← Fin.sum_univ_fun_getElem good (·.latencyS)]
  exact quotient_mem_Icc (fun i _ => took _ (List.getElem_mem i.isLt)) some
    fun i _ => bounds _ (List.getElem_mem i.isLt)

theorem summaryOf_sound (measured : ∀ row ∈ rows, Measured row) : (summaryOf rows).Sound rows where
  count := rfl
  ok := countP_ok rows
  errors := countP_failed rows
  none empty := by
    have none : okRows rows = [] := List.length_eq_zero_iff.mp (countP_ok rows ▸ empty)
    have all : rows.countP (!·.ok) = rows.length := by
      have counts := countP_failed rows
      have zero : rows.countP (·.ok) = 0 := empty
      omega
    have zero : rows.countP (·.ok) = 0 := empty
    unfold summaryOf
    simp only [none, zero, all]
    rfl
  latencies some := by
    have nonempty : (okRows rows).map (·.latencyS) ≠ [] := List.map_eq_nil_iff.not.mpr (okRows_ne_nil some)
    obtain ⟨_, _, bounds⟩ := extremes nonempty
    have half := figure_mem_Icc nonempty (q := 1 / 2) (by norm_num) bounds
    have most := figure_mem_Icc nonempty (q := 19 / 20) (by norm_num) bounds
    have average := mean_mem_Icc nonempty bounds
    exact ⟨half.1, figure_mono _ (by norm_num) (by norm_num), most.2, average.1, average.2⟩
  extremes some := by
    have nonempty : (okRows rows).map (·.latencyS) ≠ [] := List.map_eq_nil_iff.not.mpr (okRows_ne_nil some)
    obtain ⟨first, last, bounds⟩ := extremes nonempty
    exact ⟨List.mem_map.mp first, List.mem_map.mp last, fun row member => bounds _ (List.mem_map_of_mem member)⟩
  latency := total_latency rows
  total := rfl
  rates := figure_mono _ (by norm_num) (by norm_num)
  tokens := by
    have total := mean_mul_length (((okRows rows).map (·.completionTokens)).map ((↑) : ℤ → ℚ))
    rw [List.length_map, List.length_map, ← countP_ok] at total
    refine total.trans ?_
    exact (Int.cast_list_sum _).symm
  idle none := by
    have total := total_latency rows
    rw [none, zero_mul] at total
    exact if_neg (not_not.mpr total.symm)
  throughput some := by
    have took : ((okRows rows).map (·.latencyS)).sum ≠ 0 := by
      intro none
      refine some (show mean _ = 0 from ?_)
      rw [mean, none, zero_div, ite_self]
    rw [total_latency rows, aggregate_eq took, div_mul_cancel₀ _ took]
    rfl
  weighted some took low high bounds := by
    have nonempty := okRows_ne_nil some
    have positive : 0 < ((okRows rows).map (·.latencyS)).sum :=
      List.sum_pos _ (by simpa using took) (List.map_eq_nil_iff.not.mpr nonempty)
    have throughput := throughput_mem_Icc measured nonempty took bounds
    rwa [← aggregate_eq positive.ne'] at throughput

end Sound

/-- A request: what `run_one` is called with, and what `json_post` does. -/
structure Request where
  system : List Char
  phase : List Char
  round : ℕ
  posted : Posted

/-- The row of a request. -/
def Request.row (request : Request) : Row := runOne request.system request.phase request.round request.posted

/-- **A summary is sound, whatever the servers answer**, in exact arithmetic: it can always be computed, does
not depend on the order of the requests, and its figures fit together. -/
theorem summary_sound (requests : List Request) :
    ∃ summary, summarize (requests.map Request.row) = some summary ∧ summary.Sound (requests.map Request.row) ∧
      ∀ requests' : List Request, requests'.Perm requests →
          summarize (requests'.map Request.row) = some summary := by
  refine ⟨summaryOf (requests.map Request.row), summarize_eq _, summaryOf_sound fun row member => ?_,
    fun requests' perm => ?_⟩
  · obtain ⟨request, _, rfl⟩ := List.mem_map.mp member
    exact runOne_measured request.system request.phase request.round request.posted
  · rw [summarize_eq, summaryOf_perm (perm.map _)]

/-- Two answers in 1 s and 3 s, of 10 and 60 tokens, and a server that could not be reached. -/
example : (summarize ([⟨"llama.cpp".toList, "serial".toList, 1, .ok (.object [("usage".toList,
      .object [("completion_tokens".toList, .int 10)])], 1)⟩,
    ⟨"llama.cpp".toList, "serial".toList, 2, .ok (.object [("usage".toList,
      .object [("completion_tokens".toList, .int 60)])], 3)⟩,
    ⟨"llama.cpp".toList, "serial".toList, 3, .error (.post [])⟩].map Request.row)).map
      (fun summary => (summary.okCount, summary.errorCount, summary.aggregateCompletionTokS)) =
    some (2, 1, 35 / 2) := by decide +kernel

end Insist.Benchmark.CpuOnly
