/-
**The command lines of the bandwidth benchmarks**: the loop over `argv` in `main` of `src/vector_add.cu` and of
`src/reduction.cu`, which are the same.

The loop takes a flag and its value at a time. What `parse_f64` makes of a text is arbitrary here, so what is
said holds for every reading of the two peaks.

* `readArguments_words` — accepted flags at the front are read before anything else, whatever follows;
* `last_value_wins` — the setting of a flag is the last value that is given for it, or the default;
* `command_line_read_iff` — **which command lines run the benchmark, ask for help, or are refused, with which
  message, and whether the help follows it**;
* `decimals_in_any_order` — **numbers that are written out are read back**, in whatever order their flags stand;
* `options_of_arguments` — what a command line runs, some texts of the options run.
-/
import Insist.Benchmark.Launch
import Insist.Lib.Assigning
import Mathlib.Data.List.TakeWhile

namespace Insist.Benchmark

open Lib Kernels.Reduction

/-! ### Flags -/

/-- The flags that take a value. -/
inductive Flag
  | n
  | warmup
  | repeats
  | block
  | peakFp32Gflops
  | peakMemGbs
deriving DecidableEq, Repr

namespace Flag

/-- How the flag is written. -/
def text : Flag → List Char
  | n => "--n".toList
  | warmup => "--warmup".toList
  | repeats => "--repeat".toList
  | block => "--block".toList
  | peakFp32Gflops => "--peak-fp32-gflops".toList
  | peakMemGbs => "--peak-mem-gbs".toList

/-- The flag that an argument is, in the order of the comparisons. -/
def ofText (argument : List Char) : Option Flag :=
  if argument = "--n".toList then some n
  else if argument = "--warmup".toList then some warmup
  else if argument = "--repeat".toList then some repeats
  else if argument = "--block".toList then some block
  else if argument = "--peak-fp32-gflops".toList then some peakFp32Gflops
  else if argument = "--peak-mem-gbs".toList then some peakMemGbs
  else none

/-- What the parser of the flag's value complains of. -/
def complaint : Flag → List Char
  | n => "Invalid integer: ".toList
  | warmup | repeats | block => "Invalid positive integer: ".toList
  | peakFp32Gflops | peakMemGbs => "Invalid positive number: ".toList

/-- The type of the variable that the flag sets. -/
def Value (F : Type) : Flag → Type
  | n => ℕ
  | warmup | repeats | block => ℤ
  | peakFp32Gflops | peakMemGbs => F

theorem ofText_text (flag : Flag) : ofText flag.text = some flag := by
  cases flag <;> decide

theorem text_of_ofText {argument : List Char} {flag : Flag} (found : ofText argument = some flag) :
    argument = flag.text := by
  unfold ofText at found
  split_ifs at found <;> cases found <;> assumption

end Flag

/-- `--help` and `-h`. -/
def IsHelp (argument : List Char) : Prop := argument = "--help".toList ∨ argument = "-h".toList

instance decidableIsHelp (argument : List Char) : Decidable (IsHelp argument) :=
  inferInstanceAs (Decidable (_ ∨ _))

theorem not_isHelp_text (flag : Flag) : ¬ IsHelp flag.text := by
  cases flag <;> decide

/-! ### The loop -/

/-- The variables that the loop sets. -/
structure Settings (F : Type) where
  n : ℕ
  warmup : ℤ
  repeats : ℤ
  blockSize : ℤ
  peakFp32Gflops : F
  peakMemGbs : F
deriving DecidableEq, Repr

namespace Settings

variable {F : Type}

/-- Before the loop. -/
def initial (F : Type) [Zero F] : Settings F where
  n := 268435456
  warmup := 10
  repeats := 50
  blockSize := 256
  peakFp32Gflops := 0
  peakMemGbs := 0

/-- The variable of a flag. -/
def get : (flag : Flag) → Settings F → flag.Value F
  | .n, settings => settings.n
  | .warmup, settings => settings.warmup
  | .repeats, settings => settings.repeats
  | .block, settings => settings.blockSize
  | .peakFp32Gflops, settings => settings.peakFp32Gflops
  | .peakMemGbs, settings => settings.peakMemGbs

/-- It is set. -/
def set : (flag : Flag) → flag.Value F → Settings F → Settings F
  | .n, value, settings => { settings with n := value }
  | .warmup, value, settings => { settings with warmup := value }
  | .repeats, value, settings => { settings with repeats := value }
  | .block, value, settings => { settings with blockSize := value }
  | .peakFp32Gflops, value, settings => { settings with peakFp32Gflops := value }
  | .peakMemGbs, value, settings => { settings with peakMemGbs := value }

@[simp] theorem get_set (flag : Flag) (value : flag.Value F) (settings : Settings F) :
    get flag (settings.set flag value) = value := by
  cases flag <;> rfl

theorem get_set_of_ne {flag other : Flag} (different : flag ≠ other) (value : flag.Value F)
    (settings : Settings F) :
    get other (settings.set flag value) = get other settings := by
  cases flag <;> cases other <;> first | rfl | exact absurd rfl different

theorem ext_get {settings settings' : Settings F} (same : ∀ flag, get flag settings = get flag settings') :
    settings = settings' := by
  obtain ⟨n, warmup, repeats, blockSize, peakFp32Gflops, peakMemGbs⟩ := settings
  obtain ⟨n', warmup', repeats', blockSize', peakFp32Gflops', peakMemGbs'⟩ := settings'
  obtain rfl : n = n' := same .n
  obtain rfl : warmup = warmup' := same .warmup
  obtain rfl : repeats = repeats' := same .repeats
  obtain rfl : blockSize = blockSize' := same .block
  obtain rfl : peakFp32Gflops = peakFp32Gflops' := same .peakFp32Gflops
  obtain rfl : peakMemGbs = peakMemGbs' := same .peakMemGbs
  rfl

end Settings

/-- What the loop comes to. -/
inductive Command (F : Type)
  /-- `main` goes on. -/
  | runs (settings : Settings F)
  /-- It prints the help and returns 0. -/
  | helps
  /-- It prints this to `stderr`, the help or no help after it, and returns or exits with `EXIT_FAILURE`. -/
  | fails (message : List Char) (printsHelp : Bool)
deriving DecidableEq, Repr

section Loop

variable {F : Type} (parseF64 : List Char → Option F)

/-- The parser of a flag's value; `none` where it exits. -/
def Flag.parse : (flag : Flag) → List Char → Option (flag.Value F)
  | .n => parseU64
  | .warmup | .repeats | .block => parseI32
  | .peakFp32Gflops | .peakMemGbs => parseF64

/-- `Unknown or incomplete argument`. -/
def incomplete (argument : List Char) : List Char :=
  "Unknown or incomplete argument: ".toList ++ argument ++ ['\n']

/-- The loop over `argv`, from some argument on. -/
def readArguments : List (List Char) → Settings F → Command F
  | [], settings => .runs settings
  | [argument], _ => if IsHelp argument then .helps else .fails (incomplete argument) true
  | argument :: value :: rest, settings =>
      if IsHelp argument then .helps
      else
        match Flag.ofText argument with
        | none => .fails (incomplete argument) true
        | some flag =>
            match flag.parse parseF64 value with
            | none => .fails (flag.complaint ++ value ++ ['\n']) false
            | some parsed => readArguments rest (settings.set flag parsed)

end Loop

/-! ### What it reads -/

section Reading

variable {F : Type} (parseF64 : List Char → Option F)

/-- A flag and a value that its parser accepts. -/
structure Assignment where
  flag : Flag
  text : List Char
  value : flag.Value F
  parses : flag.parse parseF64 text = some value

namespace Assignment

variable {parseF64}

/-- How it stands in a command line. -/
def words (assignment : Assignment parseF64) : List (List Char) := [assignment.flag.text, assignment.text]

/-- What the loop does with it. -/
def set (assignment : Assignment parseF64) (settings : Settings F) : Settings F :=
  settings.set assignment.flag assignment.value

end Assignment

/-- Assignments set the variables of `main`. -/
def settingsOf : Assigning (Assignment parseF64) (Settings F) Flag (Flag.Value F) where
  field assignment := some assignment.flag
  assign := Assignment.set
  get := Settings.get
  get_congr {flag settings settings'} assignment same := by
    by_cases own : assignment.flag = flag
    · subst own
      rw [Assignment.set, Assignment.set, Settings.get_set, Settings.get_set]
    · rw [Assignment.set, Assignment.set, Settings.get_set_of_ne own, Settings.get_set_of_ne own, same]
  get_other {flag assignment} settings other :=
    Settings.get_set_of_ne (fun same => other (congrArg some same)) assignment.value settings
  ext := Settings.ext_get

variable {parseF64} {settings settings' : Settings F}

/-- **Accepted flags at the front are read before anything else**, whatever follows. -/
theorem readArguments_words (assignments : List (Assignment parseF64)) (rest : List (List Char)) :
    readArguments parseF64 (assignments.flatMap Assignment.words ++ rest) settings =
      readArguments parseF64 rest ((settingsOf parseF64).assignAll assignments settings) := by
  induction assignments generalizing settings with
  | nil => rfl
  | cons assignment assignments ih =>
      have turn : readArguments parseF64 (assignment.flag.text :: assignment.text ::
          (assignments.flatMap Assignment.words ++ rest)) settings =
          readArguments parseF64 (assignments.flatMap Assignment.words ++ rest) (assignment.set settings) := by
        rw [readArguments, if_neg (not_isHelp_text _), Flag.ofText_text]
        simp only [assignment.parses]
        rfl
      exact turn.trans ih

/-- What is left of a command line when the loop stops. -/
inductive Stops (parseF64 : List Char → Option F) : List (List Char) → Command F → Settings F → Prop
  | atEnd (settings : Settings F) : Stops parseF64 [] (.runs settings) settings
  | atHelp {argument : List Char} (help : IsHelp argument) (rest : List (List Char)) (settings : Settings F) :
      Stops parseF64 (argument :: rest) .helps settings
  | atUnknown {argument : List Char} (help : ¬ IsHelp argument) (rest : List (List Char))
      (incomplete : Flag.ofText argument = none ∨ rest = []) (settings : Settings F) :
      Stops parseF64 (argument :: rest) (.fails (Benchmark.incomplete argument) true) settings
  | atInvalid {flag : Flag} {value : List Char} (refused : flag.parse parseF64 value = none)
      (rest : List (List Char)) (settings : Settings F) :
      Stops parseF64 (flag.text :: value :: rest) (.fails (flag.complaint ++ value ++ ['\n']) false) settings

theorem readArguments_of_stops {rest : List (List Char)} {command : Command F}
    (stops : Stops parseF64 rest command settings) : readArguments parseF64 rest settings = command := by
  cases stops with
  | atEnd => rfl
  | atHelp help rest =>
      cases rest with
      | nil => exact if_pos help
      | cons => rw [readArguments, if_pos help]
  | atUnknown help rest incomplete =>
      cases rest with
      | nil => exact if_neg help
      | cons =>
          have unknown := incomplete.resolve_right (by simp)
          rw [readArguments, if_neg help, unknown]
  | atInvalid refused rest =>
      rw [readArguments, if_neg (not_isHelp_text _), Flag.ofText_text]
      simp only [refused]

/-- **A command line is accepted flags and where the loop stops.** -/
theorem exists_stops (arguments : List (List Char)) (settings : Settings F) :
    ∃ assignments : List (Assignment parseF64), ∃ rest,
      arguments = assignments.flatMap Assignment.words ++ rest ∧
      Stops parseF64 rest (readArguments parseF64 arguments settings)
        ((settingsOf parseF64).assignAll assignments settings) := by
  fun_induction readArguments parseF64 arguments settings with
  | case1 settings => exact ⟨[], [], rfl, .atEnd settings⟩
  | case2 argument settings help => exact ⟨[], [argument], rfl, .atHelp help [] settings⟩
  | case3 argument settings help => exact ⟨[], [argument], rfl, .atUnknown help [] (Or.inr rfl) settings⟩
  | case4 argument value rest settings help =>
      exact ⟨[], argument :: value :: rest, rfl, .atHelp help _ settings⟩
  | case5 argument value rest settings help unknown =>
      exact ⟨[], argument :: value :: rest, rfl, .atUnknown help _ (Or.inl unknown) settings⟩
  | case6 argument value rest settings help flag known refused =>
      obtain rfl := Flag.text_of_ofText known
      exact ⟨[], flag.text :: value :: rest, rfl, .atInvalid refused rest settings⟩
  | case7 argument value rest settings help flag known parsed parses ih =>
      obtain rfl := Flag.text_of_ofText known
      obtain ⟨assignments, later, rfl, stops⟩ := ih
      exact ⟨⟨flag, value, parsed, parses⟩ :: assignments, later, rfl, stops⟩

theorem readArguments_eq_iff {arguments : List (List Char)} {command : Command F} :
    readArguments parseF64 arguments settings = command ↔
      ∃ assignments : List (Assignment parseF64), ∃ rest,
        arguments = assignments.flatMap Assignment.words ++ rest ∧
        Stops parseF64 rest command ((settingsOf parseF64).assignAll assignments settings) := by
  constructor
  · rintro rfl
    exact exists_stops arguments settings
  · rintro ⟨assignments, rest, rfl, stops⟩
    rw [readArguments_words, readArguments_of_stops stops]

/-- The values that are given for a flag, in their order. -/
def valuesOf (flag : Flag) (assignments : List (Assignment parseF64)) : List (flag.Value F) :=
  assignments.filterMap fun assignment =>
    if same : assignment.flag = flag then some (same ▸ assignment.value) else none

/-- **The last value wins**, over the others and over the default. -/
theorem last_value_wins (flag : Flag) (assignments : List (Assignment parseF64)) :
    Settings.get flag ((settingsOf parseF64).assignAll assignments settings) =
      (valuesOf flag assignments).getLastD (settings.get flag) := by
  induction assignments generalizing settings with
  | nil => rfl
  | cons assignment assignments ih =>
      refine (@ih (assignment.set settings)).trans ?_
      by_cases own : assignment.flag = flag
      · subst own
        have first : valuesOf assignment.flag (assignment :: assignments) =
            assignment.value :: valuesOf assignment.flag assignments :=
          List.filterMap_cons_some (dif_pos rfl)
        rw [first, List.getLastD_cons, Assignment.set, Settings.get_set]
      · have skipped : valuesOf flag (assignment :: assignments) = valuesOf flag assignments :=
          List.filterMap_cons_none (dif_neg own)
        rw [skipped, Assignment.set, Settings.get_set_of_ne own]

/-- **What a command line comes to**: it runs the benchmark exactly if it is flags, each with a value that its
parser accepts, and then every setting is the last value that is given for it, or the default; it asks for help
exactly if there is `--help` or `-h` where a flag could stand, after flags that are accepted; and it is refused
exactly if there is an argument that is no flag, a flag without a value, or a value that is not accepted, after
such flags. That is what the message says, and in the first two cases the help follows it. -/
theorem command_line_read_iff [Zero F] (parseF64 : List Char → Option F) (arguments : List (List Char)) :
    (∀ settings, readArguments parseF64 arguments (Settings.initial F) = .runs settings ↔
      ∃ assignments : List (Assignment parseF64), arguments = assignments.flatMap Assignment.words ∧
        ∀ flag, settings.get flag = (valuesOf flag assignments).getLastD ((Settings.initial F).get flag)) ∧
    (readArguments parseF64 arguments (Settings.initial F) = .helps ↔
      ∃ assignments : List (Assignment parseF64), ∃ help rest, IsHelp help ∧
        arguments = assignments.flatMap Assignment.words ++ help :: rest) ∧
    ∀ message printsHelp, readArguments parseF64 arguments (Settings.initial F) = .fails message printsHelp ↔
      ∃ assignments : List (Assignment parseF64),
        (∃ argument rest, ¬ IsHelp argument ∧ (Flag.ofText argument = none ∨ rest = []) ∧
          arguments = assignments.flatMap Assignment.words ++ argument :: rest ∧
          message = incomplete argument ∧ printsHelp = true) ∨
        ∃ flag value rest, Flag.parse parseF64 flag value = none ∧
          arguments = assignments.flatMap Assignment.words ++ flag.text :: value :: rest ∧
          message = flag.complaint ++ value ++ ['\n'] ∧ printsHelp = false := by
  refine ⟨fun settings => ?_, ?_, fun message printsHelp => ?_⟩
  · rw [readArguments_eq_iff]
    constructor
    · rintro ⟨assignments, rest, rfl, stops⟩
      generalize final : (settingsOf parseF64).assignAll assignments _ = reached at stops
      cases stops
      subst final
      exact ⟨assignments, List.append_nil _, fun flag => last_value_wins flag assignments⟩
    · rintro ⟨assignments, rfl, values⟩
      have same : settings = (settingsOf parseF64).assignAll assignments (Settings.initial F) :=
        Settings.ext_get fun flag => (values flag).trans (last_value_wins flag assignments).symm
      exact ⟨assignments, [], (List.append_nil _).symm, same ▸ .atEnd settings⟩
  · rw [readArguments_eq_iff]
    constructor
    · rintro ⟨assignments, _, rfl, stops⟩
      cases stops with
      | atHelp help rest => exact ⟨assignments, _, rest, help, rfl⟩
    · rintro ⟨assignments, argument, rest, help, rfl⟩
      exact ⟨assignments, _, rfl, .atHelp help rest _⟩
  · rw [readArguments_eq_iff]
    constructor
    · rintro ⟨assignments, _, rfl, stops⟩
      cases stops with
      | atUnknown help rest unread => exact ⟨assignments, Or.inl ⟨_, rest, help, unread, rfl, rfl, rfl⟩⟩
      | atInvalid refused rest => exact ⟨assignments, Or.inr ⟨_, _, rest, refused, rfl, rfl, rfl⟩⟩
    · rintro ⟨assignments,
        ⟨argument, rest, help, unread, rfl, rfl, rfl⟩ | ⟨flag, value, rest, refused, rfl, rfl, rfl⟩⟩
      · exact ⟨assignments, _, rfl, .atUnknown help rest unread _⟩
      · exact ⟨assignments, _, rfl, .atInvalid refused rest _⟩

end Reading

/-! ### Numbers that are written out -/

/-- A number, as it is written. -/
def decimal (number : ℕ) : List Char := Nat.toDigits 10 number

theorem ofDigits_eq {digits : List Char} (all : ∀ digit ∈ digits, digit.isDigit) :
    ofDigits digits = Nat.ofDigitChars 10 digits 0 := by
  have generalised : ∀ (digits : List Char) (start : ℕ), (∀ digit ∈ digits, digit.isDigit) →
      digits.foldl (fun value digit => 10 * value + (digit.toNat - '0'.toNat : ℤ)) (start : ℤ) =
        (Nat.ofDigitChars 10 digits start : ℤ) := by
    intro digits
    induction digits with
    | nil => intro start _; rfl
    | cons digit digits ih =>
        intro start all
        obtain ⟨first, others⟩ := List.forall_mem_cons.mp all
        have low : 48 ≤ digit.toNat := (Char.isDigit_iff_toNat.mp first).1
        have step : 10 * (start : ℤ) + (digit.toNat - '0'.toNat) =
            ((10 * start + (digit.toNat - '0'.toNat) : ℕ) : ℤ) := by
          change 10 * (start : ℤ) + (digit.toNat - (48 : ℕ)) = ((10 * start + (digit.toNat - 48) : ℕ) : ℤ)
          omega
        rw [List.foldl_cons, Nat.ofDigitChars_cons, ← ih _ others, step]
  exact generalised digits 0 all

theorem isDigit_decimal (number : ℕ) : ∀ digit ∈ decimal number, digit.isDigit :=
  fun _ mem => Nat.isDigit_of_mem_toDigits (by decide) (by decide) mem

theorem ofDigits_decimal (number : ℕ) : ofDigits (decimal number) = number := by
  rw [ofDigits_eq (isDigit_decimal number)]
  exact congrArg _ (Nat.ofDigitChars_toDigits (by decide) (by decide))

/-- A text of digits has no space and no sign. -/
theorem exists_digit_cons {text : List Char} (nonempty : text ≠ []) (all : ∀ digit ∈ text, digit.isDigit) :
    ∃ first rest, text = first :: rest ∧ first ≠ '-' ∧ first ≠ '+' ∧ isSpace first = false := by
  obtain ⟨first, rest, rfl⟩ := List.exists_cons_of_ne_nil nonempty
  have digit := all first List.mem_cons_self
  have low : 48 ≤ first.toNat := (Char.isDigit_iff_toNat.mp digit).1
  refine ⟨first, rest, rfl, ?_, ?_, ?_⟩
  · rintro rfl
    exact absurd digit (by decide)
  · rintro rfl
    exact absurd digit (by decide)
  · have blank : first ≠ ' ' := by
      rintro rfl
      exact absurd digit (by decide)
    unfold isSpace
    rw [beq_false_of_ne blank, Bool.false_or, Bool.and_eq_false_iff]
    exact Or.inr (decide_eq_false (by omega))

theorem takeWhile_of_all {text : List Char} (all : ∀ digit ∈ text, digit.isDigit) :
    text.takeWhile Char.isDigit = text ∧ text.dropWhile Char.isDigit = [] :=
  ⟨List.takeWhile_eq_self_iff.mpr all, List.dropWhile_eq_nil_iff.mpr all⟩

/-- `strtoull` takes a number that is written out. -/
theorem strtoull_decimal {number : ℕ} (small : number < 2 ^ 64) : strtoull (decimal number) = (number, []) := by
  have value := ofDigits_decimal number
  obtain ⟨digits, left⟩ := takeWhile_of_all (isDigit_decimal number)
  obtain ⟨first, rest, written, minus, plus, space⟩ :=
    exists_digit_cons Nat.toDigits_ne_nil (isDigit_decimal number)
  change decimal number = _ at written
  rw [written] at value digits left ⊢
  unfold strtoull
  rw [List.dropWhile_cons_of_neg (by rw [space]; decide)]
  split
  rename_i sign body taken
  split at taken
  · exact absurd (List.cons.inj ‹_›).1 minus
  · exact absurd (List.cons.inj ‹_›).1 plus
  · obtain ⟨rfl, rfl⟩ := Prod.mk.inj taken
    have number_eq : (1 * (number : ℤ) % 2 ^ 64).toNat = number := by omega
    simp only [digits, left, value, number_eq]
    rw [if_pos (by exact_mod_cast small)]

/-- So does `strtol`. -/
theorem strtol_decimal {number : ℕ} (small : number < 2 ^ 31) :
    strtol (decimal number) = ((number : ℤ), []) := by
  have value := ofDigits_decimal number
  obtain ⟨digits, left⟩ := takeWhile_of_all (isDigit_decimal number)
  obtain ⟨first, rest, written, minus, plus, space⟩ :=
    exists_digit_cons Nat.toDigits_ne_nil (isDigit_decimal number)
  change decimal number = _ at written
  rw [written] at value digits left ⊢
  unfold strtol
  rw [List.dropWhile_cons_of_neg (by rw [space]; decide)]
  split
  rename_i sign body taken
  split at taken
  · exact absurd (List.cons.inj ‹_›).1 minus
  · exact absurd (List.cons.inj ‹_›).1 plus
  · obtain ⟨rfl, rfl⟩ := Prod.mk.inj taken
    have number_eq : max (-2 ^ 63) (min (2 ^ 63 - 1) (1 * (number : ℤ))) = number := by omega
    simp only [digits, left, value, number_eq]

theorem parseU64_decimal {number : ℕ} (small : number < 2 ^ 64) : parseU64 (decimal number) = some number := by
  have nonempty : ([] : List Char) ≠ decimal number := Nat.toDigits_ne_nil.symm
  unfold parseU64
  rw [strtoull_decimal small]
  exact if_neg (by simp [nonempty])

theorem parseI32_decimal {number : ℕ} (positive : 0 < number) (small : number < 2 ^ 31) :
    parseI32 (decimal number) = some (number : ℤ) := by
  have nonempty : ([] : List Char) ≠ decimal number := Nat.toDigits_ne_nil.symm
  have kept : Int.bmod number (2 ^ 32) = number := Int.bmod_eq_of_le (by omega) (by omega)
  unfold parseI32
  rw [strtol_decimal small]
  simp only [nonempty, not_true_eq_false, ne_eq, false_or]
  rw [if_neg (by omega), kept]

/-- A flag with a number that its parser reads as it is. -/
inductive Written
  | n (number : ℕ) (small : number < 2 ^ 64)
  | warmup (number : ℕ) (positive : 0 < number) (small : number < 2 ^ 31)
  | repeats (number : ℕ) (positive : 0 < number) (small : number < 2 ^ 31)
  | block (number : ℕ) (positive : 0 < number) (small : number < 2 ^ 31)
deriving DecidableEq

namespace Written

/-- How it is written in a command line. -/
def words : Written → List (List Char)
  | n number _ => [Flag.n.text, decimal number]
  | warmup number _ _ => [Flag.warmup.text, decimal number]
  | repeats number _ _ => [Flag.repeats.text, decimal number]
  | block number _ _ => [Flag.block.text, decimal number]

variable {F : Type} (parseF64 : List Char → Option F)

/-- What the loop reads. -/
def assignment : Written → Assignment parseF64
  | n number small => ⟨.n, decimal number, number, parseU64_decimal small⟩
  | warmup number positive small => ⟨.warmup, decimal number, (number : ℤ), parseI32_decimal positive small⟩
  | repeats number positive small => ⟨.repeats, decimal number, (number : ℤ), parseI32_decimal positive small⟩
  | block number positive small => ⟨.block, decimal number, (number : ℤ), parseI32_decimal positive small⟩

theorem words_assignment (written : Written) : (written.assignment parseF64).words = written.words := by
  cases written <;> rfl

end Written

/-- **Numbers that are written out are read back**: whatever the four numbers are, as long as their types hold
them and the three that have to be are positive, and in whatever order the flags stand. -/
theorem decimals_in_any_order {F : Type} [Zero F] (parseF64 : List Char → Option F)
    {n warmup repeats blockSize : ℕ}
    (small : n < 2 ^ 64) (warm : 0 < warmup ∧ warmup < 2 ^ 31) (timed : 0 < repeats ∧ repeats < 2 ^ 31)
    (block : 0 < blockSize ∧ blockSize < 2 ^ 31) {written : List Written}
    (order : written.Perm
      [.n n small, .warmup warmup warm.1 warm.2, .repeats repeats timed.1 timed.2,
        .block blockSize block.1 block.2]) :
    readArguments parseF64 (written.flatMap Written.words) (Settings.initial F) =
      .runs
          { Settings.initial F with n := n, warmup := warmup, repeats := repeats, blockSize := blockSize } := by
  have words : written.flatMap Written.words =
      (written.map (Written.assignment parseF64)).flatMap Assignment.words ++ [] := by
    simp only [List.append_nil, List.flatMap_map, Written.words_assignment]
  have once : ([.n n small, .warmup warmup warm.1 warm.2, .repeats repeats timed.1 timed.2,
      .block blockSize block.1 block.2].map (Written.assignment parseF64)).Pairwise fun item item' =>
        (settingsOf parseF64).field item ≠ (settingsOf parseF64).field item' := by
    simp [settingsOf, Written.assignment]
  have alike := Assigning.alike_of_perm (order.map (Written.assignment parseF64)).symm once
  rw [words, readArguments_words, ← Assigning.assignAll_eq_of_alike alike]
  rfl

/-- The number of elements last, and no warm-up to speak of. -/
theorem small_benchmark_read :
    readArguments (F := ℚ) (fun _ => none)
        ([.block 128 (by decide) (by decide), .repeats 5 (by decide) (by decide), .n 1024 (by decide),
          .warmup 1 (by decide) (by decide)].flatMap Written.words) (Settings.initial ℚ) =
      .runs { Settings.initial ℚ with n := 1024, warmup := 1, repeats := 5, blockSize := 128 } :=
  decimals_in_any_order _ (by decide) (by decide) (by decide) (by decide) (by decide)

/-! ### The options of the launches -/

section Options

variable {F : Type} {parseF64 : List Char → Option F}

/-- What the parser of a flag made of some text is what it makes of one after the loop. -/
theorem exists_text (assignments : List (Assignment parseF64)) (settings : Settings F) (flag : Flag)
    (start : ∃ text, flag.parse parseF64 text = some (settings.get flag)) :
    ∃ text, flag.parse parseF64 text =
      some (Settings.get flag ((settingsOf parseF64).assignAll assignments settings)) := by
  induction assignments generalizing settings with
  | nil => exact start
  | cons assignment assignments ih =>
      refine ih (assignment.set settings) ?_
      by_cases own : assignment.flag = flag
      · subst own
        exact ⟨assignment.text, by rw [Assignment.set, Settings.get_set]; exact assignment.parses⟩
      · rw [Assignment.set, Settings.get_set_of_ne own]
        exact start

/-- **What a command line runs, some texts of the four options run.** -/
theorem options_of_arguments [Zero F] {arguments : List (List Char)} {settings : Settings F}
    (reads : readArguments parseF64 arguments (Settings.initial F) = .runs settings) :
    ∃ options : Options, parseU64 options.n = some settings.n ∧
    parseI32 options.block = some settings.blockSize ∧
      parseI32 options.warmup = some settings.warmup ∧ parseI32 options.repeats = some settings.repeats := by
  obtain ⟨assignments, rest, rfl, stops⟩ := readArguments_eq_iff.mp reads
  generalize final : (settingsOf parseF64).assignAll assignments _ = reached at stops
  cases stops
  subst final
  obtain ⟨n, parsedN⟩ := exists_text assignments (.initial F) .n
    ⟨defaults.n, show parseU64 defaults.n = some 268435456 by decide⟩
  obtain ⟨block, parsedBlock⟩ := exists_text assignments (.initial F) .block
    ⟨defaults.block, show parseI32 defaults.block = some 256 by decide⟩
  obtain ⟨warmup, parsedWarmup⟩ := exists_text assignments (.initial F) .warmup
    ⟨defaults.warmup, show parseI32 defaults.warmup = some 10 by decide⟩
  obtain ⟨repeats, parsedRepeats⟩ := exists_text assignments (.initial F) .repeats
    ⟨defaults.repeats, show parseI32 defaults.repeats = some 50 by decide⟩
  exact ⟨⟨n, block, warmup, repeats⟩, parsedN, parsedBlock, parsedWarmup, parsedRepeats⟩

end Options

end Insist.Benchmark
