/- **The servers of `run_cpu_only_benchmark.py`**: `start_processes`, `wait_ready`, `terminate_process`, and
`main`.

The environment starts and ends the processes, lets time pass and answers the requests; a process that has been
sent a signal can go on all the same. Every call to the system may raise something: the opening of a log,
`subprocess.Popen`, `poll`, `terminate`, `kill` and `wait` of a process, what the rounds do, and the writing.
`main` looks for its files before its `try`, and keeps the two processes only when `start_processes` returns.
The commands and `collect_metrics`, which raises nothing of its own, are left out, and so is what a failing
write leaves in the files.

* `Tidy` — what holds at every point of `main`, with one lemma for each kind of step;
* **`servers_ended`** — if `main` returns, both servers have ended and the report is written; if it raises
  something, it has never had the processes and signalled none, or both have ended, or it has lost one in
  `terminate_process`;
* `first_server_left` — a server that is ready is left running when the other one does not get ready.
-/
import Insist.Benchmark.CpuOnlyReport
import Insist.Lib.Machine

namespace Insist.Benchmark.CpuOnly

open Lib

inductive Server
  | llama
  | nano
deriving DecidableEq, Repr

/-- A `subprocess.Popen`. -/
inductive Process
  /-- It has not been started. -/
  | absent
  | running
  | exited (code : ℤ)
deriving DecidableEq, Repr

/-- `process.terminate()` and `process.kill()`. -/
inductive Signal
  | terminate
  | kill
deriving DecidableEq, Repr

/-- Why `terminate_process` has raised something. -/
inductive Cause
  /-- A call to the system has failed. -/
  | failed
  /-- The process has not ended within the wait after the kill. -/
  | survived
deriving DecidableEq, Repr

/-- Where `main` is. -/
inductive Point
  /-- At the checks for the files. -/
  | checks
  /-- In `start_processes`, before it opens the logs. -/
  | logs
  /-- In `start_processes`, before `subprocess.Popen`. -/
  | popen (server : Server)
  /-- In the loop of `wait_ready`. -/
  | waitReady (server : Server)
  /-- In the rounds. -/
  | requests
  /-- In `terminate_process`, before the test. -/
  | poll (server : Server)
  /-- In `terminate_process`, before `process.terminate()` or `process.kill()`. -/
  | signalling (server : Server) (signal : Signal)
  /-- In the `process.wait` after it. -/
  | waiting (server : Server) (signal : Signal)
  /-- Before `write_outputs`. -/
  | writing
  | returned
  /-- `main` has been left by an exception. -/
  | raised
deriving DecidableEq, Repr

/-- The state of `main` and of the processes. -/
structure Main where
  point : Point := .checks
  processes : Server → Process := fun _ => .absent
  /-- `llama_proc` and `nano_proc` are set. -/
  handles : Bool := false
  /-- The `finally` has been entered by an exception. -/
  pending : Bool := false
  /-- The signals that have been sent. -/
  signals : List (Server × Signal) := []
  /-- The process whose `terminate_process` has raised something. -/
  lost : Option (Server × Cause) := none
  results : List Row := []
  outputs : Option Outputs := none

/-- What `process.wait` does. -/
inductive Wait
  | returns
  /-- It raises `TimeoutExpired`. -/
  | expires
  /-- It raises something else. -/
  | fails
deriving DecidableEq, Repr

/-- The choices of the environment; `works` says that the call does not raise anything. -/
inductive Label
  /-- A process ends. -/
  | exits (server : Server) (code : ℤ)
  /-- The checks for the files. -/
  | checked (found : Bool)
  | opened (works : Bool)
  | popen (works : Bool)
  /-- A turn of the loop of `wait_ready`: is there time left, and with which status is the request answered, if
  it is? If `poll` raises something, that is as if there were no time left. -/
  | turn (inTime : Bool) (answer : Option ℕ)
  /-- The rounds. -/
  | requests (servers : Servers) (works : Bool)
  /-- The test of `terminate_process`. -/
  | cleanup (works : Bool)
  /-- `process.terminate()` or `process.kill()`. -/
  | signal (works : Bool)
  | waited (wait : Wait)
  /-- `write_outputs`. -/
  | write (works : Bool)

namespace Main

/-- An exception in the `try`. -/
def fails (main : Main) : Main := { main with point := .poll .nano, pending := true }

/-- An exception in `terminate_process`. -/
def lose (main : Main) (server : Server) (cause : Cause) : Main :=
  { main with point := .raised, lost := some (server, cause) }

/-- The end of `terminate_process`. -/
def cleaned (main : Main) : Server → Main
  | .nano => { main with point := .poll .llama }
  | .llama => { main with point := if main.pending then .raised else .writing }

/-- `wait_ready` returns. -/
def ready (main : Main) : Server → Main
  | .llama => { main with point := .waitReady .nano }
  | .nano => { main with point := .requests, handles := true }

/-- A turn of the loop of `wait_ready`. -/
def waitTurn (main : Main) (server : Server) (inTime : Bool) (answer : Option ℕ) : Main :=
  if ¬ inTime then main.fails
  else if main.processes server ≠ .running then main.fails
  else if answer = some 200 then main.ready server
  else main

/-- `subprocess.Popen`. -/
def started (main : Main) (server : Server) : Main :=
  { main with
    processes := Function.update main.processes server .running
    point := match server with
      | .llama => .popen .nano
      | .nano => .waitReady .llama }

/-- The test of `terminate_process`. -/
def polled (main : Main) (server : Server) (works : Bool) : Main :=
  if main.handles = false then main.cleaned server
  else if ¬ works then main.lose server .failed
  else if main.processes server ≠ .running then main.cleaned server
  else { main with point := .signalling server .terminate }

/-- `process.terminate()` or `process.kill()`. -/
def signalled (main : Main) (server : Server) (signal : Signal) (works : Bool) : Main :=
  if works then { main with point := .waiting server signal, signals := main.signals ++ [(server, signal)] }
  else main.lose server .failed

/-- `process.wait`, which does not return as long as the process runs. -/
def waited (main : Main) (server : Server) (signal : Signal) : Wait → Option Main
  | .returns => if main.processes server = .running then none else some (main.cleaned server)
  | .expires =>
    match signal with
    | .terminate => some { main with point := .signalling server .kill }
    | .kill => some (main.lose server .survived)
  | .fails => some (main.lose server .failed)

/-- `write_outputs`, whose report may raise something of its own. -/
def written (main : Main) : Main :=
  match writeOutputs main.results with
  | .ok outputs =>
    { main with
      point := match outputs.report with
        | .ok _ => .returned
        | .error _ => .raised
      outputs := some outputs }
  | .error _ => { main with point := .raised }

/-- A step. -/
def step (main : Main) : Label → Option Main
  | .exits server code =>
    if main.processes server = .running then
      some { main with processes := Function.update main.processes server (.exited code) }
    else none
  | .checked found =>
    match main.point with
    | .checks => some { main with point := if found then .logs else .raised }
    | _ => none
  | .opened works =>
    match main.point with
    | .logs => some (if works then { main with point := .popen .llama } else main.fails)
    | _ => none
  | .popen works =>
    match main.point with
    | .popen server => some (if works then main.started server else main.fails)
    | _ => none
  | .turn inTime answer =>
    match main.point with
    | .waitReady server => some (main.waitTurn server inTime answer)
    | _ => none
  | .requests servers works =>
    match main.point with
    | .requests =>
        some (if works then { main with point := .poll .nano, results := mainResults servers } else main.fails)
    | _ => none
  | .cleanup works =>
    match main.point with
    | .poll server => some (main.polled server works)
    | _ => none
  | .signal works =>
    match main.point with
    | .signalling server signal => some (main.signalled server signal works)
    | _ => none
  | .waited wait =>
    match main.point with
    | .waiting server signal => main.waited server signal wait
    | _ => none
  | .write works =>
    match main.point with
    | .writing => some (if works then main.written else { main with point := .raised })
    | _ => none

/-- `main`. -/
def machine : Machine Main Label := ⟨step⟩

/-! ### What holds at every point -/

/-- The process has ended. -/
def Ended (main : Main) (server : Server) : Prop := ∃ code, main.processes server = .exited code

/-- `main` has no process, and none has been sent a signal. -/
structure Unheld (main : Main) : Prop where
  handles : main.handles = false
  signals : main.signals = []

/-- `main` has both processes, and all results if nothing has been raised. -/
structure Held (main : Main) : Prop where
  handles : main.handles = true
  started : ∀ server, main.processes server ≠ .absent
  results : main.pending = false → ∃ servers, main.results = mainResults servers

/-- The second process has not been sent a signal. -/
def LlamaSpared (main : Main) : Prop := ∀ signal, (Server.llama, signal) ∉ main.signals

/-- In the `terminate_process` of a process that `main` has: the other one has not been looked at, or has
ended. -/
def Ending (main : Main) : Server → Prop
  | .nano => main.Held ∧ main.LlamaSpared
  | .llama => main.Held ∧ main.Ended .nano

/-- What holds when an exception has left `main`. -/
inductive Left (main : Main) : Prop
  /-- A file is missing, or `start_processes` has raised it. -/
  | unheld (unheld : main.Unheld)
  /-- The rounds or `write_outputs` have raised it. -/
  | ended (ended : ∀ server, main.Ended server)
  /-- `terminate_process` has raised it for Nano vLLM, so the other server has not been sent a signal. -/
  | nano {cause : Cause} (lost : main.lost = some (.nano, cause))
      (killed : cause = .survived → (.nano, .kill) ∈ main.signals) (spared : main.LlamaSpared)
  /-- `terminate_process` has raised it for llama.cpp. -/
  | llama {cause : Cause} (lost : main.lost = some (.llama, cause))
      (killed : cause = .survived → (.llama, .kill) ∈ main.signals) (nano : main.Ended .nano)

/-- What holds at a point. -/
def Tidy (main : Main) : Point → Prop
  | .checks | .logs | .popen .llama => main.Unheld ∧ main.pending = false
  | .popen .nano => main.Unheld ∧ main.pending = false ∧ main.processes .llama ≠ .absent
  | .waitReady _ => main.Unheld ∧ main.pending = false ∧ ∀ server, main.processes server ≠ .absent
  | .requests => main.handles = true ∧ (∀ server, main.processes server ≠ .absent) ∧ main.LlamaSpared
  | .poll server => main.Unheld ∧ main.pending = true ∨ main.Ending server
  | .signalling server _ => main.Ending server
  | .waiting server signal => main.Ending server ∧ (server, signal) ∈ main.signals
  | .writing => (∀ server, main.Ended server) ∧ ∃ servers, main.results = mainResults servers
  | .returned => (∀ server, main.Ended server) ∧ ∃ servers outputs report, main.outputs = some outputs ∧
      writeOutputs (mainResults servers) = .ok outputs ∧ outputs.report = .ok report
  | .raised => main.Left

variable {main : Main} {server : Server} {signal : Signal}

theorem Unheld.spared (unheld : main.Unheld) : main.LlamaSpared := by
  intro signal
  rw [unheld.signals]
  exact List.not_mem_nil

theorem Ending.held (ending : main.Ending server) : main.Held := by
  cases server <;> exact ending.1

/-- A process that `main` has, and that does not run, has ended. -/
theorem Held.ended (held : main.Held) (stopped : main.processes server ≠ .running) : main.Ended server := by
  cases now : main.processes server with
  | absent => exact absurd now (held.started server)
  | running => exact absurd now stopped
  | exited code => exact ⟨code, now⟩

/-- Only what is said of a point depends on the point. -/
theorem Ending.at_point (ending : main.Ending server) (point : Point) :
    Ending { main with point := point } server := by
  cases server <;> exact ⟨⟨ending.1.handles, ending.1.started, ending.1.results⟩, ending.2⟩

/-! ### Step by step -/

section Exits

variable {code : ℤ} (running : main.processes server = .running)

/-- `main` when a process has ended. -/
abbrev exited (main : Main) (server : Server) (code : ℤ) : Main :=
  { main with processes := Function.update main.processes server (.exited code) }

theorem exited_started {other : Server} (started : main.processes other ≠ .absent) :
    (main.exited server code).processes other ≠ .absent := by
  by_cases same : other = server
  · subst same
    simp
  · simpa [Function.update_of_ne same] using started

include running

theorem exited_ended {other : Server} (ended : main.Ended other) : (main.exited server code).Ended other := by
  obtain ⟨code', before⟩ := ended
  have different : other ≠ server := by
    rintro rfl
    rw [running] at before
    cases before
  exact ⟨code', (Function.update_of_ne different _ _).trans before⟩

theorem exited_ending {which : Server} (ending : main.Ending which) :
    (main.exited server code).Ending which := by
  have held : (main.exited server code).Held :=
    ⟨ending.held.handles, fun other => exited_started (ending.held.started other), ending.held.results⟩
  cases which with
  | nano => exact ⟨held, ending.2⟩
  | llama => exact ⟨held, exited_ended running ending.2⟩

/-- **That a process ends changes nothing at any point.** -/
theorem exited_tidy {point : Point} (tidy : main.Tidy point) : (main.exited server code).Tidy point := by
  cases point with
  | checks | logs => exact ⟨⟨tidy.1.1, tidy.1.2⟩, tidy.2⟩
  | popen first =>
      cases first with
      | llama => exact ⟨⟨tidy.1.1, tidy.1.2⟩, tidy.2⟩
      | nano => exact ⟨⟨tidy.1.1, tidy.1.2⟩, tidy.2.1, exited_started tidy.2.2⟩
  | waitReady _ => exact ⟨⟨tidy.1.1, tidy.1.2⟩, tidy.2.1, fun other => exited_started (tidy.2.2 other)⟩
  | requests => exact ⟨tidy.1, fun other => exited_started (tidy.2.1 other), tidy.2.2⟩
  | poll which => exact tidy.imp (fun both => ⟨⟨both.1.1, both.1.2⟩, both.2⟩) (exited_ending running)
  | signalling which signal => exact exited_ending running tidy
  | waiting which signal => exact ⟨exited_ending running tidy.1, tidy.2⟩
  | writing => exact ⟨fun other => exited_ended running (tidy.1 other), tidy.2⟩
  | returned => exact ⟨fun other => exited_ended running (tidy.1 other), tidy.2⟩
  | raised =>
      cases tidy with
      | unheld unheld => exact .unheld ⟨unheld.1, unheld.2⟩
      | ended ended => exact .ended fun other => exited_ended running (ended other)
      | nano lost killed spared => exact .nano lost killed spared
      | llama lost killed nano => exact .llama lost killed (exited_ended running nano)

end Exits

/-- An exception before `main` has the processes. -/
theorem fails_tidy (unheld : main.Unheld) : main.fails.Tidy main.fails.point := .inl ⟨⟨unheld.1, unheld.2⟩, rfl⟩

theorem started_tidy (tidy : main.Tidy (.popen server)) :
    (main.started server).Tidy (main.started server).point := by
  cases server with
  | llama => exact ⟨⟨tidy.1.1, tidy.1.2⟩, tidy.2, by simp [started]⟩
  | nano =>
      refine ⟨⟨tidy.1.1, tidy.1.2⟩, tidy.2.1, fun server => ?_⟩
      cases server with
      | llama => simpa [started] using tidy.2.2
      | nano => simp [started]

theorem waitTurn_tidy {inTime : Bool} {answer : Option ℕ} (here : main.point = .waitReady server)
    (tidy : main.Tidy (.waitReady server)) :
    (main.waitTurn server inTime answer).Tidy (main.waitTurn server inTime answer).point := by
  unfold waitTurn
  by_cases late : ¬ inTime
  · rw [if_pos late]
    exact fails_tidy tidy.1
  rw [if_neg late]
  by_cases early : main.processes server ≠ .running
  · rw [if_pos early]
    exact fails_tidy tidy.1
  rw [if_neg early]
  by_cases answered : answer = some 200
  · rw [if_pos answered]
    cases server with
    | llama => exact ⟨⟨tidy.1.1, tidy.1.2⟩, tidy.2⟩
    | nano => exact ⟨rfl, tidy.2.2, tidy.1.spared⟩
  · rw [if_neg answered, here]
    exact tidy

/-- The rounds are over, or have raised something. -/
theorem requests_tidy (tidy : main.Tidy .requests) (servers : Servers) :
    Tidy { main with point := .poll .nano, results := mainResults servers } (.poll .nano) ∧
      main.fails.Tidy (.poll .nano) :=
  ⟨.inr ⟨⟨tidy.1, tidy.2.1, fun _ => ⟨servers, rfl⟩⟩, tidy.2.2⟩,
    .inr ⟨⟨tidy.1, tidy.2.1, fun same => by cases same⟩, tidy.2.2⟩⟩

/-- An exception in `terminate_process`. -/
theorem lose_tidy (ending : main.Ending server) {cause : Cause}
    (killed : cause = .survived → (server, .kill) ∈ main.signals) : (main.lose server cause).Tidy .raised := by
  cases server with
  | nano => exact .nano rfl killed ending.2
  | llama => exact .llama rfl killed ending.2

/-- The end of `terminate_process`. -/
theorem cleaned_tidy (stopped : main.processes server ≠ .running) (ending : main.Ending server) :
    (main.cleaned server).Tidy (main.cleaned server).point := by
  have held := ending.held
  cases server with
  | nano => exact .inr ⟨⟨held.handles, held.started, held.results⟩, held.ended stopped⟩
  | llama =>
      have both : ∀ server, main.Ended server := by
        intro server
        cases server with
        | llama => exact held.ended stopped
        | nano => exact ending.2
      cases pending : main.pending with
      | true =>
          rw [cleaned, pending]
          exact .ended both
      | false =>
          rw [cleaned, pending]
          exact ⟨both, held.results pending⟩

/-- `terminate_process` looks at a process. -/
theorem polled_tidy (tidy : main.Tidy (.poll server)) (works : Bool) :
    (main.polled server works).Tidy (main.polled server works).point := by
  unfold polled
  by_cases none : main.handles = false
  · rw [if_pos none]
    have unheld := tidy.resolve_right fun ending => by
      rw [ending.held.handles] at none
      cases none
    cases server with
    | nano => exact .inl ⟨⟨unheld.1.1, unheld.1.2⟩, unheld.2⟩
    | llama =>
        rw [cleaned, unheld.2]
        exact .unheld ⟨unheld.1.1, unheld.1.2⟩
  have ending := tidy.resolve_left fun unheld => none unheld.1.handles
  rw [if_neg none]
  by_cases failed : ¬ works
  · rw [if_pos failed]
    exact lose_tidy ending fun same => by cases same
  rw [if_neg failed]
  by_cases stopped : main.processes server ≠ .running
  · rw [if_pos stopped]
    exact cleaned_tidy stopped ending
  · rw [if_neg stopped]
    exact ending.at_point _

/-- `terminate_process` sends a signal. -/
theorem signalled_tidy (ending : main.Ending server) (works : Bool) :
    (main.signalled server signal works).Tidy (main.signalled server signal works).point := by
  cases works with
  | true =>
      refine ⟨?_, List.mem_append_right _ (List.mem_singleton_self _)⟩
      cases server with
      | nano =>
          refine ⟨⟨ending.1.handles, ending.1.started, ending.1.results⟩, fun other => ?_⟩
          show (Server.llama, other) ∉ main.signals ++ [(.nano, signal)]
          simpa using ending.2 other
      | llama => exact ⟨⟨ending.1.handles, ending.1.started, ending.1.results⟩, ending.2⟩
  | false => exact lose_tidy ending fun same => by cases same

/-- `terminate_process` waits. -/
theorem waited_tidy (ending : main.Ending server) (sent : (server, signal) ∈ main.signals) {wait : Wait}
    {main' : Main}
    (stepped : main.waited server signal wait = some main') : main'.Tidy main'.point := by
  cases wait with
  | returns =>
      rw [waited] at stepped
      split_ifs at stepped with running
      cases stepped
      exact cleaned_tidy running ending
  | expires =>
      cases signal with
      | terminate =>
          cases stepped
          exact ending.at_point _
      | kill =>
          cases stepped
          exact lose_tidy ending fun _ => sent
  | fails =>
      cases stepped
      exact lose_tidy ending fun same => by cases same

theorem written_tidy (tidy : main.Tidy .writing) : main.written.Tidy main.written.point := by
  obtain ⟨ended, servers, same⟩ := tidy
  rw [written, writeOutputs_eq]
  dsimp only
  split
  · refine ⟨ended, servers, _, _, rfl, ?_, ‹_›⟩
    rw [writeOutputs_eq, ← same]
  · exact .ended ended

/-- **Every step leads from a tidy point to another.** -/
theorem step_tidy {label : Label} {main' : Main} (tidy : main.Tidy main.point)
    (stepped : main.step label = some main') :
    main'.Tidy main'.point := by
  cases label with
  | exits server code =>
      rw [step] at stepped
      split_ifs at stepped with running
      cases stepped
      exact exited_tidy running tidy
  | checked found =>
      cases here : main.point <;> rw [step, here] at stepped <;> cases stepped
      rw [here] at tidy
      cases found with
      | true => exact ⟨⟨tidy.1.1, tidy.1.2⟩, tidy.2⟩
      | false => exact .unheld ⟨tidy.1.1, tidy.1.2⟩
  | opened works =>
      cases here : main.point <;> rw [step, here] at stepped <;> cases stepped
      rw [here] at tidy
      cases works with
      | true => exact ⟨⟨tidy.1.1, tidy.1.2⟩, tidy.2⟩
      | false => exact fails_tidy tidy.1
  | popen works =>
      cases here : main.point <;> rw [step, here] at stepped <;> cases stepped
      rename_i server
      rw [here] at tidy
      cases works with
      | true => exact started_tidy tidy
      | false =>
          cases server with
          | llama => exact fails_tidy tidy.1
          | nano => exact fails_tidy tidy.1
  | turn inTime answer =>
      cases here : main.point <;> rw [step, here] at stepped <;> cases stepped
      rw [here] at tidy
      exact waitTurn_tidy here tidy
  | requests servers works =>
      cases here : main.point <;> rw [step, here] at stepped <;> cases stepped
      rw [here] at tidy
      cases works with
      | true => exact (requests_tidy tidy servers).1
      | false => exact (requests_tidy tidy servers).2
  | cleanup works =>
      cases here : main.point <;> rw [step, here] at stepped <;> cases stepped
      rw [here] at tidy
      exact polled_tidy tidy works
  | signal works =>
      cases here : main.point <;> rw [step, here] at stepped <;> cases stepped
      rw [here] at tidy
      exact signalled_tidy tidy works
  | waited wait =>
      cases here : main.point
      case waiting server signal =>
        rw [step, here] at stepped
        rw [here] at tidy
        exact waited_tidy tidy.1 tidy.2 stepped
      all_goals rw [step, here] at stepped; cases stepped
  | write works =>
      cases here : main.point <;> rw [step, here] at stepped <;> cases stepped
      rw [here] at tidy
      cases works with
      | true => exact written_tidy tidy
      | false => exact .ended tidy.1

/-- **No server outlives `main` unnoticed**, whatever the processes, the clock and the servers do, and whichever
calls to the system raise something. If `main` returns, both servers have ended, and the results of all rounds
are written with the report. If an exception leaves it, then either it never had the processes, because a file
was missing or `start_processes` raised the exception, and no process has been sent a signal; or both have
ended; or `terminate_process` has raised something for one of them, which has been killed and did not end or for
which a call to the system failed: for Nano vLLM before llama.cpp has been sent a signal, for llama.cpp after
Nano vLLM has ended. -/
theorem servers_ended {labels : List Label} (ran : machine.run {} labels = some main) :
    (main.point = .returned → (∀ server, main.Ended server) ∧
      ∃ servers outputs report, main.outputs = some outputs ∧
      writeOutputs (mainResults servers) = .ok outputs ∧ outputs.report = .ok report) ∧
    (main.point = .raised → main.Left) := by
  have tidy : main.Tidy main.point := by
    refine Machine.invariant_run (fun main : Main => main.Tidy main.point)
      (fun tidy stepped => step_tidy tidy stepped)
      ?_ ran
    exact ⟨⟨rfl, rfl⟩, rfl⟩
  constructor
  · intro here
    rwa [here] at tidy
  · intro here
    rwa [here] at tidy

/-- No request is answered. -/
def silent : Servers := fun _ _ _ => .error (.post [])

/-- Both servers get ready, and end when they are told to; llama.cpp has to be killed. -/
def wellBehaved : List Label :=
  [.checked true, .opened true, .popen true, .popen true, .turn true none, .turn true (some 200),
    .turn true (some 200), .requests silent true, .cleanup true, .signal true, .exits .nano 1, .waited .returns,
    .cleanup true, .signal true, .waited .expires, .signal true, .exits .llama 1, .waited .returns]

/-- Nano vLLM ends before it is ready. -/
def nanoCrashes : List Label :=
  [.checked true, .opened true, .popen true, .popen true, .turn true (some 200), .exits .nano 1,
    .turn true none,
    .cleanup true, .cleanup true]

theorem wellBehaved_ended : ∃ main : Main, machine.run {} (wellBehaved ++ [.write true]) = some main ∧
    main.point = .returned ∧ ∀ server, main.Ended server := by
  have previews : ∀ row ∈ mainResults silent, ∃ text, row.textPreview = .text text := by
    intro row member
    obtain ⟨entry, _, system, _, rows⟩ := (mem_mainResults silent).mp member
    obtain ⟨round, _, rfl⟩ := List.mem_map.mp rows
    exact ⟨[], rfl⟩
  obtain ⟨report, written⟩ := (report_ok_iff (mainResults_clear silent)).mpr previews
  obtain ⟨before, ran, writing, results⟩ : ∃ before : Main, machine.run {} wellBehaved = some before ∧
      before.point = .writing ∧ before.results = mainResults silent := ⟨_, rfl, rfl, rfl⟩
  have last : machine.step before (.write true) = some
      { before with
        point := .returned
        outputs := some ⟨summariesOf (mainResults silent), mainResults silent, .ok report⟩ } := by
    show before.step (.write true) = _
    rw [step, writing, if_pos rfl, Main.written, results, writeOutputs_eq, written]
  have all := (machine.run_append_eq_some).mpr
    ⟨before, ran, (machine.run_singleton before (.write true)).trans last⟩
  exact ⟨_, all, rfl, ((servers_ended all).1 rfl).1⟩

/-- **llama.cpp is left running when Nano vLLM does not get ready**: `main` has not got the processes yet. -/
theorem first_server_left : ∃ main : Main, machine.run {} nanoCrashes = some main ∧ main.point = .raised ∧
    main.processes .llama = .running ∧ main.signals = [] := by
  refine ⟨_, rfl, rfl, rfl, rfl⟩

end Main

end Insist.Benchmark.CpuOnly
