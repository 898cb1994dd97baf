/- **The result lines of the bandwidth benchmarks**: `classify_roofline` and the numbers of the `RESULT` line,
in `main` of `src/vector_add.cu` and of `src/reduction.cu`, in exact rational arithmetic.

The two programs differ in what they count as read, written and computed. The sizes are `std::size_t` and wrap.
A division by zero gives `none`; the times are those of the launches, and arbitrary.

* `memoryBound_iff` — the region is that of the lower roof;
* `Counted`, `vectorAddTraffic_counted`, `reductionTraffic_counted` — both programs count at most one operation
  for four bytes, as long as nothing wraps;
* `rate_mem` — a rate at a percentile lies between any bounds of the rates of the launches;
* `resultLine_sound`, **`result_line`** — so the line has numbers for all peaks and times, and they fit
  together.
-/
import Insist.Benchmark.Launch
import Insist.Benchmark.Percentile

namespace Insist.Benchmark

open Lib

/-! ### The roofline -/

/-- What `classify_roofline` returns. -/
inductive Region
  | memoryBound
  | computeBound
  | memoryBoundLowAiExpected
  | needsHardwarePeaks
deriving DecidableEq, Repr

/-- `classify_roofline`, with the knee. -/
def classifyRoofline (arithmeticIntensity peakFp32Gflops peakMemGbs : ℚ) : Region × ℚ :=
  if 0 < peakFp32Gflops ∧ 0 < peakMemGbs then
    let knee := peakFp32Gflops / peakMemGbs
    (if arithmeticIntensity < knee then .memoryBound else .computeBound, knee)
  else (if arithmeticIntensity < 1 then .memoryBoundLowAiExpected else .needsHardwarePeaks, 0)

/-- The operations that the memory lets through at an intensity, or all that the device can do. -/
def attainable (arithmeticIntensity peakFp32Gflops peakMemGbs : ℚ) : ℚ :=
  min peakFp32Gflops (arithmeticIntensity * peakMemGbs)

variable {arithmeticIntensity peakFp32Gflops peakMemGbs : ℚ}

/-- **The region is that of the lower roof**: memory-bound where the memory keeps the operations below their
peak. -/
theorem memoryBound_iff (computes : 0 < peakFp32Gflops) (moves : 0 < peakMemGbs) :
    (classifyRoofline arithmeticIntensity peakFp32Gflops peakMemGbs).1 = .memoryBound ↔
      attainable arithmeticIntensity peakFp32Gflops peakMemGbs < peakFp32Gflops := by
  have below : arithmeticIntensity < peakFp32Gflops / peakMemGbs ↔
      arithmeticIntensity * peakMemGbs < peakFp32Gflops := lt_div_iff₀ moves
  unfold classifyRoofline attainable
  rw [if_pos ⟨computes, moves⟩, min_lt_iff]
  simp only [below, lt_self_iff_false, false_or]
  by_cases lower : arithmeticIntensity * peakMemGbs < peakFp32Gflops
  · simp [lower]
  · simp [lower]

/-- At the knee the two roofs meet. -/
theorem knee_mul (computes : 0 < peakFp32Gflops) (moves : 0 < peakMemGbs) :
    (classifyRoofline arithmeticIntensity peakFp32Gflops peakMemGbs).2 * peakMemGbs = peakFp32Gflops := by
  unfold classifyRoofline
  rw [if_pos ⟨computes, moves⟩]
  exact div_mul_cancel₀ _ moves.ne'

/-! ### What is counted -/

/-- Bytes and operations of a launch. -/
structure Traffic where
  readBytes : ℕ
  writeBytes : ℕ
  bytesPerIter : ℕ
  flopsPerIter : ℕ
deriving DecidableEq, Repr

/-- In `main` of `vector_add.cu`. -/
def vectorAddTraffic (n : ℕ) : Traffic :=
  let bytes := n * 4 % 2 ^ 64
  { readBytes := 2 * bytes % 2 ^ 64
    writeBytes := bytes
    bytesPerIter := 3 * bytes % 2 ^ 64
    flopsPerIter := n }

/-- In `main` of `reduction.cu`. -/
def reductionTraffic (n : ℕ) (gridSize : ℤ) : Traffic :=
  let readBytes := n * 4 % 2 ^ 64
  let writeBytes := toU64 gridSize * 4 % 2 ^ 64
  { readBytes := readBytes
    writeBytes := writeBytes
    bytesPerIter := (readBytes + writeBytes) % 2 ^ 64
    flopsPerIter := if toU64 gridSize < n then n - toU64 gridSize else 0 }

/-- Bytes are counted, and at most one operation for four of them. -/
structure Counted (traffic : Traffic) : Prop where
  some : 0 < traffic.bytesPerIter
  whole : traffic.bytesPerIter = traffic.readBytes + traffic.writeBytes
  few : 4 * traffic.flopsPerIter ≤ traffic.bytesPerIter

theorem vectorAddTraffic_counted {n : ℕ} (some : 0 < n) (small : 12 * n < 2 ^ 64) :
    Counted (vectorAddTraffic n) := by
  have bytes : n * 4 % 2 ^ 64 = n * 4 := Nat.mod_eq_of_lt (by linarith)
  have read : 2 * (n * 4) % 2 ^ 64 = 2 * (n * 4) := Nat.mod_eq_of_lt (by linarith)
  have all : 3 * (n * 4) % 2 ^ 64 = 3 * (n * 4) := Nat.mod_eq_of_lt (by linarith)
  have same : vectorAddTraffic n = ⟨2 * (n * 4), n * 4, 3 * (n * 4), n⟩ := by
    unfold vectorAddTraffic
    dsimp only
    rw [bytes, read, all]
  rw [same]
  exact ⟨by dsimp only; linarith, by dsimp only; ring, by dsimp only; linarith⟩

theorem reductionTraffic_counted {n blocks : ℕ} (some : 0 < n) (small : 4 * n + 4 * blocks < 2 ^ 64) :
    Counted (reductionTraffic n blocks) := by
  have size : toU64 blocks = blocks := by
    rw [toU64_of_nonneg (Int.natCast_nonneg _) (by norm_cast; linarith), Int.toNat_natCast]
  have read : n * 4 % 2 ^ 64 = n * 4 := Nat.mod_eq_of_lt (by linarith)
  have write : blocks * 4 % 2 ^ 64 = blocks * 4 := Nat.mod_eq_of_lt (by linarith)
  have all : (n * 4 + blocks * 4) % 2 ^ 64 = n * 4 + blocks * 4 := Nat.mod_eq_of_lt (by linarith)
  have same : reductionTraffic n blocks =
      ⟨n * 4, blocks * 4, n * 4 + blocks * 4, if blocks < n then n - blocks else 0⟩ := by
    unfold reductionTraffic
    dsimp only
    rw [size, read, write, all]
  have fewer : (if blocks < n then n - blocks else 0) ≤ n := by split_ifs <;> omega
  rw [same]
  exact ⟨by dsimp only; linarith, rfl, by dsimp only; linarith⟩

/-! ### The line -/

/-- A quotient of two `double`s, where it is a number. -/
def divided (dividend divisor : ℚ) : Option ℚ := if divisor = 0 then none else some (dividend / divisor)

/-- The numbers of the `RESULT` line that are computed from the peaks and the times. -/
structure Result where
  arithmeticIntensity : ℚ
  rooflineRegion : Region
  rooflineKnee : ℚ
  p50Ms : ℚ
  p95Ms : ℚ
  syncP50Ms : ℚ
  syncP95Ms : ℚ
  gbsP50 : ℚ
  gbsP95Latency : ℚ
deriving DecidableEq, Repr

/-- Decimal GB/s of so many bytes in so many milliseconds. -/
def rate (bytesPerIter : ℕ) (ms : ℚ) : Option ℚ :=
  (divided bytesPerIter (ms / 1000)).map (· / 1000000000)

/-- The end of `main`, up to the line. -/
def resultLine (traffic : Traffic) (peakFp32Gflops peakMemGbs : ℚ) (timesMs syncTimesMs : List ℚ) :
    Option Result := do
  let arithmeticIntensity ← divided traffic.flopsPerIter traffic.bytesPerIter
  let (region, knee) := classifyRoofline arithmeticIntensity peakFp32Gflops peakMemGbs
  let p50 ← percentileMs timesMs (1 / 2)
  let p95 ← percentileMs timesMs (19 / 20)
  let syncP50 ← percentileMs syncTimesMs (1 / 2)
  let syncP95 ← percentileMs syncTimesMs (19 / 20)
  let gbsP50 ← rate traffic.bytesPerIter p50
  let gbsP95 ← rate traffic.bytesPerIter p95
  some ⟨arithmeticIntensity, region, knee, p50, p95, syncP50, syncP95, gbsP50, gbsP95⟩

/-- The rate of a time that is not 0. -/
def rateOf (bytesPerIter : ℕ) (ms : ℚ) : ℚ := bytesPerIter / (ms / 1000) / 1000000000

theorem rate_eq (bytesPerIter : ℕ) {ms : ℚ} (positive : 0 < ms) :
    rate bytesPerIter ms = some (rateOf bytesPerIter ms) := by
  have apart : ms / 1000 ≠ 0 := (div_pos positive (by norm_num)).ne'
  rw [rate, divided, if_neg apart, Option.map_some, rateOf]

/-- A longer time is a lower rate. -/
theorem rateOf_anti (bytesPerIter : ℕ) {ms ms' : ℚ} (positive : 0 < ms) (order : ms ≤ ms') :
    rateOf bytesPerIter ms' ≤ rateOf bytesPerIter ms := by
  unfold rateOf
  have short : 0 < ms / 1000 := div_pos positive (by norm_num)
  have long : ms / 1000 ≤ ms' / 1000 := by gcongr
  gcongr

/-- **A rate at a percentile lies between any bounds of the rates of the launches.** -/
theorem rate_mem (bytesPerIter : ℕ) {timesMs : List ℚ} (timed : timesMs ≠ [])
    (positive : ∀ ms ∈ timesMs, 0 < ms)
    {q : ℚ} (nonneg : 0 ≤ q) :
    0 < quantile timesMs q ∧ ∀ low high, (∀ ms ∈ timesMs, rateOf bytesPerIter ms ∈ Set.Icc low high) →
      rateOf bytesPerIter (quantile timesMs q) ∈ Set.Icc low high := by
  obtain ⟨least, first⟩ := Option.ne_none_iff_exists'.mp (List.min?_eq_none_iff.not.mpr timed)
  obtain ⟨greatest, last⟩ := Option.ne_none_iff_exists'.mp (List.max?_eq_none_iff.not.mpr timed)
  obtain ⟨fastest, below⟩ := List.min?_eq_some_iff.mp first
  obtain ⟨slowest, above⟩ := List.max?_eq_some_iff.mp last
  have within := quantile_mem_Icc timed nonneg fun ms member => ⟨below ms member, above ms member⟩
  have some : 0 < quantile timesMs q := (positive least fastest).trans_le within.1
  refine ⟨some, fun low high bounds => ⟨?_, ?_⟩⟩
  · exact (bounds greatest slowest).1.trans (rateOf_anti bytesPerIter some within.2)
  · exact (rateOf_anti bytesPerIter (positive least fastest) within.1).trans (bounds least fastest).2

/-- How the numbers of a line fit together. -/
structure Result.Sound (traffic : Traffic) (peakFp32Gflops peakMemGbs : ℚ) (timesMs : List ℚ)
    (result : Result) :
    Prop where
  low : result.arithmeticIntensity ≤ 1 / 4
  region : 0 < peakFp32Gflops → 0 < peakMemGbs →
    (result.rooflineRegion = .memoryBound ↔
      attainable result.arithmeticIntensity peakFp32Gflops peakMemGbs < peakFp32Gflops) ∧
    result.rooflineKnee * peakMemGbs = peakFp32Gflops
  unknown : ¬ (0 < peakFp32Gflops ∧ 0 < peakMemGbs) → result.rooflineRegion = .memoryBoundLowAiExpected
  times : result.p50Ms ≤ result.p95Ms
  syncTimes : result.syncP50Ms ≤ result.syncP95Ms
  rates : result.gbsP95Latency ≤ result.gbsP50
  bounds : ∀ slow fast, (∀ ms ∈ timesMs, rateOf traffic.bytesPerIter ms ∈ Set.Icc slow fast) →
    slow ≤ result.gbsP95Latency ∧ result.gbsP50 ≤ fast

/-- **The line of a program that counts its bytes** has numbers, which fit together. -/
theorem resultLine_sound {traffic : Traffic} (counted : Counted traffic) (peakFp32Gflops peakMemGbs : ℚ)
    {timesMs syncTimesMs : List ℚ} (timed : timesMs ≠ []) (synced : syncTimesMs ≠ [])
    (positive : ∀ ms ∈ timesMs, 0 < ms) :
    ∃ result, resultLine traffic peakFp32Gflops peakMemGbs timesMs syncTimesMs = some result ∧
      result.Sound traffic peakFp32Gflops peakMemGbs timesMs := by
  have bytes : (0 : ℚ) < traffic.bytesPerIter := by exact_mod_cast counted.some
  obtain ⟨some₅₀, within₅₀⟩ := rate_mem traffic.bytesPerIter timed positive (show (0 : ℚ) ≤ 1 / 2 by norm_num)
  obtain ⟨some₉₅, within₉₅⟩ := rate_mem traffic.bytesPerIter timed positive (show (0 : ℚ) ≤ 19 / 20 by norm_num)
  have order := quantile_mono timed (show (0 : ℚ) ≤ 1 / 2 by norm_num) (show (1 / 2 : ℚ) ≤ 19 / 20 by norm_num)
  have low : (traffic.flopsPerIter : ℚ) / traffic.bytesPerIter ≤ 1 / 4 := by
    rw [div_le_div_iff₀ bytes (by norm_num)]
    have few : (4 * traffic.flopsPerIter : ℚ) ≤ traffic.bytesPerIter := by exact_mod_cast counted.few
    linarith
  refine ⟨⟨traffic.flopsPerIter / traffic.bytesPerIter,
    (classifyRoofline (traffic.flopsPerIter / traffic.bytesPerIter) peakFp32Gflops peakMemGbs).1,
    (classifyRoofline (traffic.flopsPerIter / traffic.bytesPerIter) peakFp32Gflops peakMemGbs).2,
    quantile timesMs (1 / 2), quantile timesMs (19 / 20), quantile syncTimesMs (1 / 2),
    quantile syncTimesMs (19 / 20), rateOf traffic.bytesPerIter (quantile timesMs (1 / 2)),
    rateOf traffic.bytesPerIter (quantile timesMs (19 / 20))⟩, ?_, ?_⟩
  · unfold resultLine
    rw [divided, if_neg bytes.ne', percentileMs_eq timed (by norm_num) (by norm_num),
      percentileMs_eq timed (by norm_num) (by norm_num), percentileMs_eq synced (by norm_num) (by norm_num),
      percentileMs_eq synced (by norm_num) (by norm_num)]
    simp only [Option.bind_eq_bind, Option.bind_some, rate_eq _ some₅₀, rate_eq _ some₉₅]
  · exact {
      low := low
      region := fun computes moves => ⟨memoryBound_iff computes moves, knee_mul computes moves⟩
      unknown := fun missing => by
        have little : (traffic.flopsPerIter : ℚ) / traffic.bytesPerIter < 1 := by linarith
        simp only [classifyRoofline, if_neg missing, if_pos little]
      times := order
      syncTimes := quantile_mono synced (by norm_num) (by norm_num)
      rates := rateOf_anti traffic.bytesPerIter some₅₀ order
      bounds := fun slow fast bounds => ⟨(within₉₅ slow fast bounds).1, (within₅₀ slow fast bounds).2⟩ }

/-- **The result lines of both benchmarks**, for all sizes that do not wrap, all peaks and all times: at most
one operation is counted for four bytes, so without both peaks the region is `memory_bound_low_ai_expected`;
with them it is `memory_bound` exactly if the memory keeps the operations below their peak, and the roofs meet
at the knee; and the rate at the 95th percentile is at most that at the median, and both lie between any bounds
of the rates of the launches. -/
theorem result_line (n blocks : ℕ) (some : 0 < n) (small : 12 * n < 2 ^ 64) (few : blocks ≤ n)
    {traffic : Traffic} (own : traffic = vectorAddTraffic n ∨ traffic = reductionTraffic n blocks)
    (peakFp32Gflops peakMemGbs : ℚ) {timesMs syncTimesMs : List ℚ} (timed : timesMs ≠ [])
    (synced : syncTimesMs ≠ []) (positive : ∀ ms ∈ timesMs, 0 < ms) :
    ∃ result, resultLine traffic peakFp32Gflops peakMemGbs timesMs syncTimesMs = .some result ∧
      result.Sound traffic peakFp32Gflops peakMemGbs timesMs := by
  have counted : Counted traffic := by
    rcases own with rfl | rfl
    · exact vectorAddTraffic_counted some small
    · exact reductionTraffic_counted some (by linarith)
  exact resultLine_sound counted peakFp32Gflops peakMemGbs timed synced positive

/-- A thousand elements, timed twice. -/
theorem thousand_result :
    ∃ result, resultLine (vectorAddTraffic 1000) 0 0 [1, 2] [3, 4] = some result ∧
      result.Sound (vectorAddTraffic 1000) 0 0 [1, 2] :=
  result_line 1000 0 (by decide) (by decide) (by decide) (Or.inl rfl) 0 0 (by decide) (by decide)
    (by decide)

end Insist.Benchmark
