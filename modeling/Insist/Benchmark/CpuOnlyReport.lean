/-
**The report of `run_cpu_only_benchmark.py`**: `write_outputs`, and the rounds of `main`.

`write_outputs` groups the rows by a text made of phase and system, which it takes apart again for the table.
The arithmetic is exact, and nothing is refused on its way into a file: not by `json.dumps`, which has no limit
on the digits of a number or on the depth of a list, not by UTF-8, which can encode all characters, and not by
the file system. The headings, the metadata, the metrics and the sentences of the report that depend on nothing
are left out.

* `splitOnce_keyOf` — phase and system are read back if the separator is not met too early;
* `tabulates` — the table has one line for each phase and system, in the order of their texts, each with the
  summary of all of its rows;
* `report_ok_iff` — the report is written exactly if every preview is a text;
* **`outputs_written`** — what `write_outputs` writes, and **`main_reports`** — what `main` writes, whatever the
  servers answer.
-/
import Insist.Benchmark.CpuOnly
import Insist.Lib.Grouping
import Mathlib.Data.Char
import Mathlib.Data.List.Lex
import Mathlib.Data.List.Infix

namespace Insist.Benchmark.CpuOnly

open Lib

/-! ### `write_outputs` -/

/-- `f"{row['phase']}::{row['system']}"`. -/
def keyOf (phase system : List Char) : List Char := phase ++ ':' :: ':' :: system

def Row.key (row : Row) : List Char := keyOf row.phase row.system

/-- `key.split("::", 1)`, if there are two parts. -/
def splitOnce : List Char → Option (List Char × List Char)
  | [] => none
  | ':' :: ':' :: rest => some ([], rest)
  | char :: rest => (splitOnce rest).map fun (before, after) => (char :: before, after)

/-- A line of the summary table. -/
structure Line where
  phase : List Char
  system : List Char
  item : Summary
deriving DecidableEq

/-- A line of the table of the requests. -/
structure RequestLine where
  phase : List Char
  round : ℕ
  system : List Char
  latencyS : ℚ
  completionTokens : ℤ
  completionTokS : ℚ
  preview : List Char
deriving DecidableEq

/-- What of the report depends on the results. -/
structure Report where
  table : List Line
  requests : List RequestLine
  /-- The winner of the serial rounds, and by how much. -/
  winner : Option (List Char × ℚ)
  /-- The throughputs of the concurrent rounds. -/
  paired : Option (ℚ × ℚ)
deriving DecidableEq

/-- What is written: `results.json` and `results.csv`, and then the report, if there is nothing raised. -/
structure Outputs where
  summaries : List (List Char × Summary)
  results : List Row
  report : Except Raised Report

/-- The summary of a group. -/
def summarizeGroup (group : List Char × List Row) : Except Raised (List Char × Summary) :=
  match summarize group.2 with
  | some summary => .ok (group.1, summary)
  | none => .error .indexError

/-- A turn of the loop over `sorted(summaries)`. -/
def tableLine (summaries : List (List Char × Summary)) (key : List Char) : Except Raised Line :=
  match splitOnce key, summaries.lookup key with
  | some (phase, system), some item => .ok ⟨phase, system, item⟩
  | none, _ => .error .valueError
  | some _, none => .error .keyError

/-- `row["text_preview"].replace("|", "\\|").replace("\n", " ")`; only a text has `replace`. -/
def Preview.cell : Preview → Except Raised (List Char)
  | .text chars =>
      .ok ((chars.flatMap fun char => if char = '|' then ['\\', '|'] else [char]).map
        fun char => if char = '\n' then ' ' else char)
  | .items _ => .error .attributeError

/-- A turn of the loop over the results. -/
def requestLine (row : Row) : Except Raised RequestLine :=
  match row.textPreview.cell with
  | .ok preview =>
      .ok ⟨row.phase, row.round, row.system, row.latencyS, row.completionTokens, row.completionTokS, preview⟩
  | .error raised => .error raised

/-- The throughputs of the two systems in a phase, if there are both. -/
def throughputs (summaries : List (List Char × Summary)) (phase : String) : Option (ℚ × ℚ) := do
  let llama ← summaries.lookup (keyOf phase.toList "llama.cpp".toList)
  let nano ← summaries.lookup (keyOf phase.toList "nano_vllm_gguf".toList)
  return (llama.aggregateCompletionTokS, nano.aggregateCompletionTokS)

/-- `faster` and `ratio`. -/
def winner (summaries : List (List Char × Summary)) : Option (List Char × ℚ) := do
  let (llamaTps, nanoTps) ← throughputs summaries "serial"
  if llamaTps ≠ 0 ∧ nanoTps ≠ 0 then
    return (if llamaTps > nanoTps then "llama.cpp".toList else "nano_vllm_gguf".toList,
      max llamaTps nanoTps / max (min llamaTps nanoTps) (1 / 10 ^ 9))
  none

/-- The report. -/
def writeReport (summaries : List (List Char × Summary)) (results : List Row) : Except Raised Report := do
  let table ← (ascending (summaries.map Prod.fst)).mapM (tableLine summaries)
  let requests ← results.mapM requestLine
  return { table, requests, winner := winner summaries, paired := throughputs summaries "paired_concurrent" }

/-- `write_outputs`. -/
def writeOutputs (results : List Row) : Except Raised Outputs := do
  let summaries ← (grouped Row.key results).mapM summarizeGroup
  return { summaries, results, report := writeReport summaries results }

/-! ### The rounds of `main` -/

def warmupRounds : ℕ := 1
def serialRounds : ℕ := 5
def pairedRounds : ℕ := 5

/-- The keys of `systems`. -/
def systems : List (List Char) := ["llama.cpp".toList, "nano_vllm_gguf".toList]

/-- What the servers do: the answer to the request of a system in a round of a phase. -/
abbrev Servers := String → List Char → ℕ → Posted

/-- The rounds of a phase. In a concurrent round the two calls of `run_one` overlap, but their results are taken
in the order of the systems. -/
def phaseRows (servers : Servers) (phase : String) (rounds : ℕ) : List Row :=
  (List.range' 1 rounds).flatMap fun round =>
    systems.map fun system => runOne system phase.toList round (servers phase system round)

/-- `results`. -/
def mainResults (servers : Servers) : List Row :=
  phaseRows servers "warmup" warmupRounds ++ phaseRows servers "serial" serialRounds ++
    phaseRows servers "paired_concurrent" pairedRounds

/-! ### Phase and system, read back -/

/-- The separator does not begin in the phase. -/
def Clear (phase : List Char) : Prop := ¬ [':', ':'] <:+: phase ++ [':']

instance decidableClear (phase : List Char) : Decidable (Clear phase) := inferInstanceAs (Decidable (¬ _))

theorem Clear.tail {char : Char} {phase : List Char} (clear : Clear (char :: phase)) : Clear phase :=
  fun early => clear (early.trans (List.suffix_cons char (phase ++ [':'])).isInfix)

theorem splitOnce_cons {char : Char} {rest : List Char} (other : ¬ [':', ':'] <+: char :: rest) :
    splitOnce (char :: rest) = (splitOnce rest).map fun (before, after) => (char :: before, after) := by
  refine splitOnce.eq_3 char rest fun rest' first second => other ?_
  rw [first, second]
  exact List.prefix_append [':', ':'] rest'

/-- **A clear phase is read back, with its system.** -/
theorem splitOnce_keyOf {phase : List Char} (clear : Clear phase) (system : List Char) :
    splitOnce (keyOf phase system) = some (phase, system) := by
  induction phase with
  | nil => rfl
  | cons char phase ih =>
      rw [keyOf, List.cons_append, splitOnce_cons, ← keyOf, ih clear.tail, Option.map_some]
      intro early
      refine clear (List.IsPrefix.isInfix ?_)
      cases phase with
      | nil =>
          obtain ⟨rest, same⟩ := early
          simp only [List.nil_append, List.cons_append, List.cons.injEq] at same
          rw [← same.1]
          exact List.prefix_refl _
      | cons next phase =>
          obtain ⟨rest, same⟩ := early
          simp only [List.nil_append, List.cons_append, List.cons.injEq] at same
          rw [← same.1, ← same.2.1]
          exact ⟨phase ++ [':'], rfl⟩

/-! ### Loops that can raise -/

section Loops

variable {α β ε : Type*} {f : α → Except ε β}

theorem mapM_ok {g : α → β} {items : List α} (all : ∀ item ∈ items, f item = .ok (g item)) :
    items.mapM f = .ok (items.map g) := by
  induction items with
  | nil => rfl
  | cons item items ih =>
      rw [List.mapM_cons, all item List.mem_cons_self, ih fun other member =>
        all other (List.mem_cons_of_mem _ member)]
      rfl

/-- A loop raises something exactly if one of its turns does. -/
theorem mapM_ok_iff {items : List α} : (∃ results, items.mapM f = .ok results) ↔ ∀ item ∈ items, ∃ result,
    f item = .ok result := by
  induction items with
  | nil => exact iff_of_true ⟨[], rfl⟩ fun item member => nomatch member
  | cons item items ih =>
      rw [List.mapM_cons, List.forall_mem_cons, ← ih]
      constructor
      · rintro ⟨results, ran⟩
        cases first : f item with
        | error raised => rw [first] at ran; cases ran
        | ok result =>
            rw [first] at ran
            cases rest : items.mapM f with
            | error raised => rw [rest] at ran; cases ran
            | ok results => exact ⟨⟨result, rfl⟩, results, rfl⟩
      · rintro ⟨⟨result, first⟩, results, rest⟩
        rw [first, rest]
        exact ⟨result :: results, rfl⟩

end Loops

/-! ### The table -/

section Table

variable {results : List Row}

/-- The summaries. -/
def summariesOf (results : List Row) : List (List Char × Summary) :=
  (grouped Row.key results).map fun group => (group.1, summaryOf group.2)

theorem mapM_summarizeGroup (results : List Row) :
    (grouped Row.key results).mapM summarizeGroup = .ok (summariesOf results) :=
  mapM_ok fun group _ => by rw [summarizeGroup, summarize_eq]

theorem keys_summariesOf (results : List Row) :
    (summariesOf results).map Prod.fst = (grouped Row.key results).map Prod.fst := by
  rw [summariesOf, List.map_map]
  rfl

theorem nodup_summariesOf (results : List Row) : ((summariesOf results).map Prod.fst).Nodup :=
  keys_summariesOf results ▸ nodup_grouped Row.key results

/-- The texts that are summarised are those of the rows. -/
theorem mem_keys {key : List Char} : key ∈ (summariesOf results).map Prod.fst ↔ ∃ row ∈ results,
    row.key = key := by
  rw [keys_summariesOf]
  constructor
  · intro member
    obtain ⟨⟨key, list⟩, inside, rfl⟩ := List.mem_map.mp member
    obtain ⟨same, nonempty⟩ := mem_grouped.mp inside
    obtain ⟨row, listed⟩ := List.exists_mem_of_ne_nil _ nonempty
    rw [same] at listed
    exact ⟨row, List.mem_of_mem_filter listed, of_decide_eq_true (List.mem_filter.mp listed).2⟩
  · rintro ⟨row, inside, rfl⟩
    have listed : row ∈ results.filter (·.key = row.key) := List.mem_filter.mpr ⟨inside, decide_eq_true rfl⟩
    exact List.mem_map.mpr ⟨_, mem_grouped.mpr ⟨rfl, List.ne_nil_of_mem listed⟩, rfl⟩

/-- The summary of a text is that of its rows. -/
theorem lookup_summariesOf {row : Row} (inside : row ∈ results) :
    (summariesOf results).lookup row.key = some (summaryOf (results.filter (·.key = row.key))) := by
  have listed : row ∈ results.filter (·.key = row.key) := List.mem_filter.mpr ⟨inside, decide_eq_true rfl⟩
  have group : (row.key, results.filter (·.key = row.key)) ∈ grouped Row.key results :=
    mem_grouped.mpr ⟨rfl, List.ne_nil_of_mem listed⟩
  refine (lookup_eq_some_iff (nodup_summariesOf results)).mpr ?_
  rw [summariesOf]
  exact List.mem_map_of_mem (f := fun group => (group.1, summaryOf group.2)) group

/-- The rows of a system in a phase. -/
def rowsOf (results : List Row) (phase system : List Char) : List Row :=
  results.filter fun row => row.phase = phase ∧ row.system = system

theorem key_eq_iff {row : Row} {phase system : List Char} (clear : Clear row.phase) (clear' : Clear phase) :
    row.key = keyOf phase system ↔ row.phase = phase ∧ row.system = system := by
  constructor
  · intro same
    have parts := congrArg splitOnce same
    rw [Row.key, splitOnce_keyOf clear, splitOnce_keyOf clear'] at parts
    cases parts
    exact ⟨rfl, rfl⟩
  · rintro ⟨rfl, rfl⟩
    rfl

/-- The line of a text. -/
def lineOf (results : List Row) (key : List Char) : Line :=
  let (phase, system) := (splitOnce key).getD ([], [])
  ⟨phase, system, summaryOf (rowsOf results phase system)⟩

variable (clear : ∀ row ∈ results, Clear row.phase)

include clear

theorem filter_key {row : Row} (inside : row ∈ results) :
    results.filter (·.key = row.key) = rowsOf results row.phase row.system :=
  List.filter_congr fun other member => by
    rw [decide_eq_decide]
    exact key_eq_iff (clear other member) (clear row inside)

theorem lineOf_key {row : Row} (inside : row ∈ results) :
    lineOf results row.key = ⟨row.phase, row.system, summaryOf (rowsOf results row.phase row.system)⟩ := by
  rw [lineOf, Row.key, splitOnce_keyOf (clear row inside)]
  rfl

/-- **The loop over the texts makes a line for each.** -/
theorem mapM_tableLine : (ascending ((summariesOf results).map Prod.fst)).mapM
    (tableLine (summariesOf results)) =
    .ok ((ascending ((summariesOf results).map Prod.fst)).map (lineOf results)) := by
  refine mapM_ok fun key member => ?_
  obtain ⟨row, inside, rfl⟩ := mem_keys.mp ((ascending_perm _).mem_iff.mp member)
  rw [lineOf_key clear inside, tableLine, lookup_summariesOf inside, filter_key clear inside, Row.key,
    splitOnce_keyOf (clear row inside)]

/-- The lines are in the order of their texts. -/
theorem keys_table : ((ascending ((summariesOf results).map Prod.fst)).map (lineOf results)).map
    (fun line => keyOf line.phase line.system) = ascending ((summariesOf results).map Prod.fst) := by
  rw [List.map_map]
  refine (List.map_congr_left fun key member => ?_).trans (List.map_id _)
  obtain ⟨row, inside, rfl⟩ := mem_keys.mp ((ascending_perm _).mem_iff.mp member)
  rw [Function.comp_apply, lineOf_key clear inside]
  rfl

/-- Every row is counted in one line. -/
theorem sum_counts :
    (((ascending ((summariesOf results).map Prod.fst)).map (lineOf results)).map (·.item.count)).sum =
    results.length := by
  have sorted := (ascending_perm ((summariesOf results).map Prod.fst)).map fun key =>
    (lineOf results key).item.count
  rw [List.map_map]
  refine sorted.sum_eq.trans ?_
  rw [summariesOf, List.map_map, List.map_map, ← (perm_grouped Row.key results).length_eq, List.length_flatMap]
  congr 1
  refine List.map_congr_left fun group member => ?_
  obtain ⟨same, nonempty⟩ := mem_grouped.mp member
  obtain ⟨row, listed⟩ := List.exists_mem_of_ne_nil _ nonempty
  rw [same] at listed
  obtain ⟨inside, equal⟩ := List.mem_filter.mp listed
  have key : row.key = group.1 := of_decide_eq_true equal
  show (lineOf results group.1).item.count = group.2.length
  rw [same, ← key, lineOf_key clear inside, filter_key clear inside]
  rfl

end Table

/-- A table with one line for each system in each phase. -/
structure Tabulates (results : List Row) (table : List Line) : Prop where
  sorted : (table.map fun line => keyOf line.phase line.system).SortedLT
  lines : ∀ line, line ∈ table ↔
    rowsOf results line.phase line.system ≠ [] ∧ summarize (rowsOf results line.phase line.system) =
      some line.item
  counts : (table.map (·.item.count)).sum = results.length

section Outputs

variable {results : List Row}

/-- **The table has one line for each system in each phase.** -/
theorem tabulates (clear : ∀ row ∈ results, Clear row.phase) :
    Tabulates results ((ascending ((summariesOf results).map Prod.fst)).map (lineOf results)) where
  sorted := by
    rw [keys_table clear]
    exact (ascending_sorted _).sortedLT_of_nodup ((ascending_perm _).nodup_iff.mpr (nodup_summariesOf results))
  lines line := by
    rw [List.mem_map, summarize_eq, Option.some_inj]
    constructor
    · rintro ⟨key, member, rfl⟩
      obtain ⟨row, inside, rfl⟩ := mem_keys.mp ((ascending_perm _).mem_iff.mp member)
      rw [lineOf_key clear inside]
      exact ⟨List.ne_nil_of_mem (List.mem_filter.mpr ⟨inside, decide_eq_true ⟨rfl, rfl⟩⟩), rfl⟩
    · rintro ⟨nonempty, same⟩
      obtain ⟨row, listed⟩ := List.exists_mem_of_ne_nil _ nonempty
      obtain ⟨inside, equal⟩ := List.mem_filter.mp listed
      obtain ⟨phase, system⟩ := of_decide_eq_true equal
      refine ⟨row.key, (ascending_perm _).mem_iff.mpr (mem_keys.mpr ⟨row, inside, rfl⟩), ?_⟩
      rw [lineOf_key clear inside, phase, system, same]
  counts := sum_counts clear

/-- What can be written of a request. -/
theorem requestLine_ok_iff {row : Row} :
    (∃ line, requestLine row = .ok line) ↔ ∃ text, row.textPreview = .text text := by
  unfold requestLine
  cases preview : row.textPreview with
  | text chars => exact iff_of_true ⟨_, rfl⟩ ⟨chars, rfl⟩
  | items items => exact iff_of_false (fun ⟨_, same⟩ => nomatch same) fun ⟨_, same⟩ => nomatch same

/-- What is written in any case. -/
theorem writeOutputs_eq (results : List Row) :
    writeOutputs results = .ok ⟨summariesOf results, results, writeReport (summariesOf results) results⟩ := by
  rw [writeOutputs, mapM_summarizeGroup]
  rfl

theorem writeReport_eq (clear : ∀ row ∈ results, Clear row.phase) :
    writeReport (summariesOf results) results =
      (results.mapM requestLine).map fun requests =>
        ⟨(ascending ((summariesOf results).map Prod.fst)).map (lineOf results), requests,
          winner (summariesOf results),
          throughputs (summariesOf results) "paired_concurrent"⟩ := by
  rw [writeReport, mapM_tableLine clear]
  cases results.mapM requestLine <;> rfl

theorem report_ok_iff (clear : ∀ row ∈ results, Clear row.phase) :
    (∃ report, writeReport (summariesOf results) results = .ok report) ↔
      ∀ row ∈ results, ∃ text, row.textPreview = .text text := by
  rw [writeReport_eq clear]
  refine Iff.trans ?_ (mapM_ok_iff.trans (forall₂_congr fun row _ => requestLine_ok_iff))
  cases results.mapM requestLine with
  | ok requests => exact iff_of_true ⟨_, rfl⟩ ⟨_, rfl⟩
  | error raised => exact iff_of_false (fun ⟨_, same⟩ => nomatch same) fun ⟨_, same⟩ => nomatch same

theorem report_eq (clear : ∀ row ∈ results, Clear row.phase) {report : Report}
    (written : writeReport (summariesOf results) results = .ok report) :
    ∃ requests, report = ⟨(ascending ((summariesOf results).map Prod.fst)).map (lineOf results), requests,
      winner (summariesOf results), throughputs (summariesOf results) "paired_concurrent"⟩ := by
  rw [writeReport_eq clear] at written
  cases listed : results.mapM requestLine with
  | ok requests =>
      rw [listed] at written
      cases written
      exact ⟨requests, rfl⟩
  | error raised =>
      rw [listed] at written
      cases written

/-- **`write_outputs` writes what it was given**, in exact arithmetic, for all rows of characters whose phases
can be told from the separator: the results always, and the report unless a preview is no text. The table of the
report has a line for each system in each phase, in the order of their texts, with the summary of exactly the
rows of this system in this phase, and every row is counted in one line. -/
theorem outputs_written (clear : ∀ row ∈ results, Clear row.phase) :
    ∃ outputs, writeOutputs results = .ok outputs ∧ outputs.results = results ∧
      ((∃ report, outputs.report = .ok report) ↔ ∀ row ∈ results, ∃ text, row.textPreview = .text text) ∧
      ∀ report, outputs.report = .ok report → Tabulates results report.table := by
  refine ⟨_, writeOutputs_eq results, rfl, report_ok_iff clear, fun report written => ?_⟩
  obtain ⟨requests, same⟩ := report_eq clear written
  rw [same]
  exact tabulates clear

/-- A request that could not be made, in a phase with a single colon. -/
theorem refused_written :
    ∃ outputs, writeOutputs [runOne "llama.cpp".toList "a:b".toList 1 (.error (.post []))] = .ok outputs ∧
      ∃ report, outputs.report = .ok report ∧
        Tabulates [runOne "llama.cpp".toList "a:b".toList 1 (.error (.post []))] report.table := by
  have clear : ∀ row ∈ [runOne "llama.cpp".toList "a:b".toList 1 (.error (.post []))], Clear row.phase := by
    decide +kernel
  obtain ⟨outputs, wrote, _, ok, table⟩ := outputs_written clear
  obtain ⟨report, written⟩ := ok.mpr fun row member => ⟨[], by rw [List.mem_singleton.mp member]; rfl⟩
  exact ⟨outputs, wrote, report, written, table report written⟩

end Outputs

/-! ### What `main` writes -/

section Main

variable (servers : Servers)

/-- The phases of `main`, in the order of the table. -/
def phases : List (String × ℕ) :=
  [("paired_concurrent", pairedRounds), ("serial", serialRounds), ("warmup", warmupRounds)]

/-- The rows of a system in the rounds of a phase. -/
def systemRows (phase : String) (rounds : ℕ) (system : List Char) : List Row :=
  (List.range' 1 rounds).map fun round => runOne system phase.toList round (servers phase system round)

theorem mem_phaseRows {phase : String} {rounds : ℕ} {row : Row} : row ∈ phaseRows servers phase rounds ↔
    ∃ system ∈ systems, row ∈ systemRows servers phase rounds system := by
  simp only [phaseRows, systemRows, List.mem_flatMap, List.mem_map]
  constructor
  · rintro ⟨round, inside, system, listed, rfl⟩
    exact ⟨system, listed, round, inside, rfl⟩
  · rintro ⟨system, listed, round, inside, rfl⟩
    exact ⟨round, inside, system, listed, rfl⟩

theorem mem_mainResults {row : Row} : row ∈ mainResults servers ↔
    ∃ entry ∈ phases, ∃ system ∈ systems, row ∈ systemRows servers entry.1 entry.2 system := by
  rw [mainResults, List.mem_append, List.mem_append, mem_phaseRows, mem_phaseRows, mem_phaseRows, phases]
  constructor
  · rintro ((warmup | serial) | paired)
    · exact ⟨_, .tail _ (.tail _ (.head _)), warmup⟩
    · exact ⟨_, .tail _ (.head _), serial⟩
    · exact ⟨_, .head _, paired⟩
  · rintro ⟨entry, listed, rows⟩
    rcases listed with _ | ⟨_, _ | ⟨_, _ | ⟨_, none⟩⟩⟩
    · exact .inr rows
    · exact .inl (.inr rows)
    · exact .inl (.inl rows)
    · exact absurd none List.not_mem_nil

theorem phase_of_systemRows {phase : String} {rounds : ℕ} {system : List Char} {row : Row}
    (member : row ∈ systemRows servers phase rounds system) :
    row.phase = phase.toList ∧ row.system = system := by
  obtain ⟨round, _, rfl⟩ := List.mem_map.mp member
  exact ⟨runOne_phase _ _ _ _, runOne_system _ _ _ _⟩

theorem mainResults_clear : ∀ row ∈ mainResults servers, Clear row.phase := by
  intro row member
  obtain ⟨entry, listed, system, _, inside⟩ := (mem_mainResults servers).mp member
  rw [(phase_of_systemRows servers inside).1]
  have clear : ∀ entry ∈ phases, Clear entry.1.toList := by decide +kernel
  exact clear entry listed

theorem filter_systems {system : List Char} (listed : system ∈ systems) :
    systems.filter (· = system) = [system] := by
  have all : ∀ system ∈ systems, systems.filter (· = system) = [system] := by decide +kernel
  exact all system listed

/-- The rounds of a phase, for one system. -/
theorem rowsOf_phaseRows {phase phase' : String} {rounds : ℕ} {system : List Char} (listed : system ∈ systems) :
    rowsOf (phaseRows servers phase' rounds) phase.toList system =
      if phase' = phase then systemRows servers phase rounds system else [] := by
  have turn (round : ℕ) : (systems.map fun system =>
    runOne system phase'.toList round (servers phase' system round)).filter
      (fun row => row.phase = phase.toList ∧ row.system = system) =
      if phase' = phase then [runOne system phase.toList round (servers phase system round)] else [] := by
    rw [List.filter_map]
    have same (other : List Char) : ((fun row : Row =>
      decide (row.phase = phase.toList ∧ row.system = system)) ∘
        fun system => runOne system phase'.toList round (servers phase' system round)) other =
        decide (phase' = phase ∧ other = system) := by
      simp only [Function.comp_apply, runOne_phase, runOne_system, String.toList_inj]
    rw [funext same]
    split_ifs with here
    · subst here
      simp only [true_and, filter_systems listed, List.map_cons, List.map_nil]
    · simp only [here, false_and, decide_false, List.filter_false, List.map_nil]
  rw [rowsOf, phaseRows, List.filter_flatMap, funext turn]
  split_ifs
  · rw [systemRows, List.map_eq_flatMap]
  · exact List.flatMap_eq_nil_iff.mpr fun _ _ => rfl

/-- **The rows of a system in a phase are those of its rounds.** -/
theorem rowsOf_mainResults {entry : String × ℕ} (inside : entry ∈ phases) {system : List Char}
    (listed : system ∈ systems) :
    rowsOf (mainResults servers) entry.1.toList system = systemRows servers entry.1 entry.2 system := by
  have parts : rowsOf (mainResults servers) entry.1.toList system =
      (if "warmup" = entry.1 then systemRows servers entry.1 warmupRounds system else []) ++
        (if "serial" = entry.1 then systemRows servers entry.1 serialRounds system else []) ++
        if "paired_concurrent" = entry.1 then systemRows servers entry.1 pairedRounds system else [] := by
    rw [← rowsOf_phaseRows servers listed, ← rowsOf_phaseRows servers listed,
      ← rowsOf_phaseRows servers listed, rowsOf,
      mainResults, List.filter_append, List.filter_append]
    rfl
  rw [parts]
  rcases inside with _ | ⟨_, _ | ⟨_, _ | ⟨_, none⟩⟩⟩
  · rw [if_neg (by decide), if_neg (by decide), if_pos rfl, List.nil_append, List.nil_append]
  · rw [if_neg (by decide), if_pos rfl, if_neg (by decide), List.nil_append, List.append_nil]
  · rw [if_pos rfl, if_neg (by decide), if_neg (by decide), List.append_nil, List.append_nil]
  · exact absurd none List.not_mem_nil

/-- The texts of the systems in the phases, in order. -/
def mainKeys : List (List Char) := phases.flatMap fun entry => systems.map (keyOf entry.1.toList)

theorem mem_mainKeys {key : List Char} :
    key ∈ (summariesOf (mainResults servers)).map Prod.fst ↔ key ∈ mainKeys := by
  rw [mem_keys, mainKeys, List.mem_flatMap]
  constructor
  · rintro ⟨row, member, rfl⟩
    obtain ⟨entry, inside, system, listed, rows⟩ := (mem_mainResults servers).mp member
    obtain ⟨phase, same⟩ := phase_of_systemRows servers rows
    exact ⟨entry, inside, List.mem_map.mpr ⟨system, listed, by rw [Row.key, phase, same]⟩⟩
  · rintro ⟨entry, inside, texts⟩
    obtain ⟨system, listed, rfl⟩ := List.mem_map.mp texts
    have rounds : ∀ entry ∈ phases, 1 ∈ List.range' 1 entry.2 := by decide +kernel
    have member : runOne system entry.1.toList 1 (servers entry.1 system 1) ∈
        systemRows servers entry.1 entry.2 system :=
      List.mem_map.mpr ⟨1, rounds entry inside, rfl⟩
    refine ⟨_, (mem_mainResults servers).mpr ⟨entry, inside, system, listed, member⟩, ?_⟩
    rw [Row.key, runOne_phase, runOne_system]

/-- The order of the table. -/
theorem ascending_mainKeys : ascending ((summariesOf (mainResults servers)).map Prod.fst) = mainKeys := by
  have sorted : (ascending ((summariesOf (mainResults servers)).map Prod.fst)).SortedLT :=
    (ascending_sorted _).sortedLT_of_nodup ((ascending_perm _).nodup_iff.mpr (nodup_summariesOf _))
  have sorted' : mainKeys.SortedLT := by decide +kernel
  exact sorted.eq_of_mem_iff sorted' fun key => (ascending_perm _).mem_iff.trans (mem_mainKeys servers)

/-- The table that `main` writes. -/
def mainTable : List Line :=
  phases.flatMap fun entry => systems.map fun system =>
    ⟨entry.1.toList, system, summaryOf (systemRows servers entry.1 entry.2 system)⟩

theorem map_lineOf : mainKeys.map (lineOf (mainResults servers)) = mainTable servers := by
  rw [mainKeys, List.map_flatMap, mainTable]
  refine List.flatMap_congr fun entry inside => ?_
  rw [List.map_map]
  refine List.map_congr_left fun system listed => ?_
  have clear : ∀ entry ∈ phases, Clear entry.1.toList := by decide +kernel
  rw [Function.comp_apply, lineOf, splitOnce_keyOf (clear entry inside), Option.getD_some]
  dsimp only
  rw [rowsOf_mainResults servers inside listed]

/-- The summary of a system in a phase. -/
theorem lookup_mainResults {entry : String × ℕ} (inside : entry ∈ phases) {system : List Char}
    (listed : system ∈ systems) :
    (summariesOf (mainResults servers)).lookup (keyOf entry.1.toList system) =
      some (summaryOf (systemRows servers entry.1 entry.2 system)) := by
  have member : keyOf entry.1.toList system ∈ mainKeys :=
    List.mem_flatMap.mpr ⟨entry, inside, List.mem_map_of_mem listed⟩
  obtain ⟨row, known, same⟩ := mem_keys.mp ((mem_mainKeys servers).mpr member)
  have clear : ∀ entry ∈ phases, Clear entry.1.toList := by decide +kernel
  obtain ⟨phase, system⟩ := (key_eq_iff (mainResults_clear servers row known) (clear entry inside)).mp same
  rw [← same, lookup_summariesOf known, filter_key (mainResults_clear servers) known, phase, system,
    rowsOf_mainResults servers inside listed]

/-- The throughputs of a phase. -/
theorem throughputs_mainResults {phase : String} {rounds : ℕ} (inside : (phase, rounds) ∈ phases) :
    throughputs (summariesOf (mainResults servers)) phase =
      some ((summaryOf (systemRows servers phase rounds "llama.cpp".toList)).aggregateCompletionTokS,
        (summaryOf (systemRows servers phase rounds "nano_vllm_gguf".toList)).aggregateCompletionTokS) := by
  have llama := lookup_mainResults servers inside (List.mem_cons_self : "llama.cpp".toList ∈ systems)
  have nano := lookup_mainResults servers inside
    (List.mem_cons_of_mem _ List.mem_cons_self : "nano_vllm_gguf".toList ∈ systems)
  rw [throughputs, llama, nano]
  rfl

/-- The winner is the system with the greater throughput, if both have one. -/
structure NamesWinner (llama nano : Summary) (named : Option (List Char × ℚ)) : Prop where
  silent : named = none ↔ llama.aggregateCompletionTokS = 0 ∨ nano.aggregateCompletionTokS = 0
  faster : ∀ faster ratio, named = some (faster, ratio) →
    faster = "llama.cpp".toList ∧ nano.aggregateCompletionTokS < llama.aggregateCompletionTokS ∨
      faster = "nano_vllm_gguf".toList ∧ llama.aggregateCompletionTokS ≤ nano.aggregateCompletionTokS
  ratio : ∀ faster ratio, named = some (faster, ratio) → 1 / 10 ^ 9 ≤ llama.aggregateCompletionTokS →
    1 / 10 ^ 9 ≤ nano.aggregateCompletionTokS → 1 ≤ ratio

theorem winner_named {summaries : List (List Char × Summary)} {llama nano : Summary}
    (both : throughputs summaries "serial" =
      some (llama.aggregateCompletionTokS, nano.aggregateCompletionTokS)) :
    NamesWinner llama nano (winner summaries) := by
  have named : winner summaries =
      if llama.aggregateCompletionTokS ≠ 0 ∧ nano.aggregateCompletionTokS ≠ 0 then
        some (if llama.aggregateCompletionTokS > nano.aggregateCompletionTokS then "llama.cpp".toList
            else "nano_vllm_gguf".toList,
          max llama.aggregateCompletionTokS nano.aggregateCompletionTokS /
            max (min llama.aggregateCompletionTokS nano.aggregateCompletionTokS) (1 / 10 ^ 9))
      else none := by
    rw [winner, both]
    rfl
  rw [named]
  refine ⟨?_, fun faster ratio same => ?_, fun faster ratio same fast fast' => ?_⟩
  · by_cases some : llama.aggregateCompletionTokS ≠ 0 ∧ nano.aggregateCompletionTokS ≠ 0
    · rw [if_pos some]
      exact iff_of_false (Option.some_ne_none _) fun none => none.elim some.1 some.2
    · rw [if_neg some]
      exact iff_of_true rfl (by tauto)
  · split_ifs at same with some more
    · cases same
      exact .inl ⟨rfl, more⟩
    · cases same
      exact .inr ⟨rfl, not_lt.mp more⟩
  · split_ifs at same with some more
    all_goals
      cases same
      rw [max_eq_left (le_min fast fast')]
      exact (one_le_div (lt_of_lt_of_le (by norm_num) (le_min fast fast'))).mpr min_le_max

/-- **What `main` writes, whatever the servers answer** to each of its requests, or do not, in exact arithmetic:
the results of all rounds in their order, and, unless some server has got a preview into a row that is no text,
the report. Its table has the systems of the three phases in order, each with the summary of exactly its own
rounds, and it names the system that was faster in the serial rounds. -/
theorem main_reports :
    ∃ outputs, writeOutputs (mainResults servers) = .ok outputs ∧ outputs.results = mainResults servers ∧
      ((∃ report, outputs.report = .ok report) ↔
        ∀ entry ∈ phases, ∀ system ∈ systems, ∀ row ∈ systemRows servers entry.1 entry.2 system,
          ∃ text, row.textPreview = .text text) ∧
      ∀ report, outputs.report = .ok report →
        report.table.map (fun line => (line.phase, line.system, some line.item)) =
          (phases.flatMap fun entry => systems.map fun system =>
            (entry.1.toList, system, summarize (systemRows servers entry.1 entry.2 system))) ∧
        ∀ llama nano, summarize (systemRows servers "serial" serialRounds "llama.cpp".toList) = some llama →
          summarize (systemRows servers "serial" serialRounds "nano_vllm_gguf".toList) = some nano →
          NamesWinner llama nano report.winner := by
  have clear := mainResults_clear servers
  refine ⟨_, writeOutputs_eq _, rfl, ?_, fun report written => ?_⟩
  · rw [report_ok_iff clear]
    constructor
    · intro all entry inside system listed row member
      exact all row ((mem_mainResults servers).mpr ⟨entry, inside, system, listed, member⟩)
    · intro all row member
      obtain ⟨entry, inside, system, listed, rows⟩ := (mem_mainResults servers).mp member
      exact all entry inside system listed row rows
  · obtain ⟨requests, same⟩ := report_eq clear written
    rw [same]
    refine ⟨?_, fun llama nano first second => ?_⟩
    · dsimp only
      rw [ascending_mainKeys, map_lineOf, mainTable, List.map_flatMap]
      refine List.flatMap_congr fun entry inside => ?_
      rw [List.map_map]
      exact List.map_congr_left fun system listed => by rw [Function.comp_apply, summarize_eq]
    · rw [summarize_eq] at first second
      cases first
      cases second
      have inside : ("serial", serialRounds) ∈ phases := List.mem_cons_of_mem _ List.mem_cons_self
      exact winner_named (throughputs_mainResults servers inside)

end Main

end Insist.Benchmark.CpuOnly
