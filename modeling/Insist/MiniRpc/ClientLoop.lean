/-
**`io_thread` of the client returns, once the loop has been stopped.**

In every run the loop thread is between the callbacks where `EventLoop::run` says so, and the tasks that
`drain_tasks` has taken are there. When the main thread waits for `io_thread`, `stopped_` is set and all answers
have been printed, each step of the loop brings `loop.run()` nearer to its end: a place in the session's code, a
task, or a point of the loop.

* `Paced`, `run_paced` — the invariant of all runs;
* `Stopping`, `work` — what holds after `stop()`, and how much is left;
* **`exists_returned`** — the loop comes to its end without a fault.
-/
import Insist.MiniRpc.ClientMain
import Insist.MiniRpc.DemoProgress
import Insist.MiniRpc.Resume

namespace Insist.MiniRpc

open Lib

namespace DemoClient

variable {fd fd' : ℕ} {id : UInt64} {state state' : DemoClient}

/-! ### Where the loop is -/

/-- Between the callbacks the session's code is in none, and the tasks that the loop has taken are there. -/
def Paced (state : DemoClient) : Prop :=
  match state.loop with
  | .draining left _ => left ≤ state.pair.node.endpoint.tasks.length
  | .polled _ => True
  | .starting | .testing | .taking _ | .returned => state.pair.node.endpoint.session.control = .idle

namespace Paced

/-- Tasks that are posted, and steps of the server, change nothing. -/
theorem of_posted (paced : state.Paced) (loop : state'.loop = state.loop)
    (session : state'.pair.node.endpoint.session = state.pair.node.endpoint.session)
    (tasks : state.pair.node.endpoint.tasks.length ≤ state'.pair.node.endpoint.tasks.length) :
    state'.Paced := by
  unfold Paced at paced ⊢
  rw [loop, session]
  cases place : state.loop with
  | draining left last =>
      rw [place] at paced
      exact le_trans paced tasks
  | starting | testing | taking | polled | returned => rwa [place] at paced

/-- **The main thread keeps the pace.** -/
theorem main (paced : state.Paced) (good : state.Good fd fd' id) (stepped : state.mainStep = some state') :
    state'.Paced := by
  unfold mainStep at stepped
  split at stepped
  case h_1 | h_5 =>
    cases stepped
    exact paced
  case h_2 label rest here =>
    split_ifs at stepped
    · cases stepped
      exact paced
    · obtain ⟨pair, moved, rfl⟩ := Option.map_eq_some_iff.mp stepped
      obtain ⟨effects, answered⟩ := DemoPair.step_client moved
      obtain ⟨session, tasks⟩ := Good.posts_of_call answered (Good.script_label (good.script _ here).1).1
      exact paced.of_posted rfl session tasks
  case h_3 | h_6 =>
    split_ifs at stepped <;> cases stepped <;> exact paced
  case h_4 =>
    obtain ⟨pair, closed, rfl⟩ := Option.map_eq_some_iff.mp stepped
    obtain ⟨_, _, _, session, tasks⟩ := Good.node_of_close closed
    exact paced.of_posted rfl session tasks
  case h_7 | h_8 => cases stepped

/-- **`EventLoop::run` keeps the pace**: it takes all the tasks that are there. -/
theorem run (idle : state.pair.node.endpoint.session.control = .idle) (stepped : state.runStep = some state') :
    state'.Paced := by
  unfold runStep at stepped
  split at stepped
  case h_3 =>
    cases stepped
    exact le_refl state.pair.node.endpoint.tasks.length
  case h_4 =>
    cases stepped
    trivial
  case h_1 | h_2 | h_5 | h_6 =>
    cases stepped
    exact idle
  case h_7 | h_8 => cases stepped

/-- What the loop does with the tasks: it runs the first, or leaves them. -/
theorem tasks_of_loop {node node' : ClientNode Unit} {label : ClientNode.Label Unit}
    {effects : List (Effect UInt64)} (stepped : node.step label = some (node', effects)) :
    (label = .run 0 → node.endpoint.tasks.length ≤ node'.endpoint.tasks.length + 1) ∧
      ∀ action, label = .session action → node'.endpoint.tasks = node.endpoint.tasks := by
  rcases ClientNode.step_cases stepped with ⟨same, _⟩ | ⟨entered, asked, endpoint', same, moved, rfl⟩
  · constructor
    · rintro rfl
      cases same
    · rintro action rfl
      cases same
  · constructor
    · rintro rfl
      cases same
      show node.endpoint.tasks.length ≤ endpoint'.tasks.length + 1
      simp only [Endpoint.step] at moved
      split at moved
      case h_1 => cases moved
      case h_2 task found =>
        obtain ⟨answer, _, advanced⟩ := Option.map_eq_some_iff.mp moved
        cases advanced
        have inside : 0 < node.endpoint.tasks.length := (List.getElem?_eq_some_iff.mp found).1
        show node.endpoint.tasks.length ≤ (node.endpoint.tasks.eraseIdx 0).length + 1
        rw [List.length_eraseIdx_of_lt inside]
        omega
    · rintro action rfl
      cases same
      simp only [Endpoint.step] at moved
      split_ifs at moved
      obtain ⟨answer, _, advanced⟩ := Option.map_eq_some_iff.mp moved
      cases advanced
      rfl

/-- **The callbacks keep the pace.** -/
theorem loop (paced : state.Paced) {label : ClientNode.Label Unit} {next : LoopPoint}
    (does : state.loop.does label = some next) (stepped : state.loopStep label next = some state') :
    state'.Paced := by
  obtain ⟨pair, moved, handled⟩ := Option.bind_eq_some_iff.mp stepped
  obtain ⟨effects, answered⟩ := DemoPair.step_client moved
  have handles := Good.handles_of_responses handled
  have more : pair.node.endpoint.tasks.length ≤ state'.pair.node.endpoint.tasks.length := handles.tasks
  obtain ⟨ran, same⟩ := tasks_of_loop answered
  unfold Paced at paced ⊢
  rw [show state'.loop = next from handles.loop]
  unfold LoopPoint.does at does
  split at does
  case h_1 left last here =>
    cases does
    rw [here] at paced
    have one := ran rfl
    show left ≤ _
    have taken : left + 1 ≤ state.pair.node.endpoint.tasks.length := paced
    omega
  case h_2 =>
    split_ifs at does
    cases does
    trivial
  case h_4 left last action _ here =>
    cases does
    rw [here] at paced
    have kept := same action rfl
    rw [← kept] at paced
    exact le_trans paced more
  case h_5 =>
    cases does
    trivial
  case h_3 | h_6 => cases does

/-- **Every step keeps the pace.** -/
theorem step (paced : state.Paced) (good : state.Good fd fd' id) {label : Label}
    (stepped : machine.step state label = some state') : state'.Paced := by
  unfold machine DemoClient.step at stepped
  cases label with
  | main =>
      simp only at stepped
      split_ifs at stepped
      exact paced.main good stepped
  | run =>
      simp only at stepped
      split_ifs at stepped with here
      exact run here.2 stepped
  | loop label =>
      simp only at stepped
      split_ifs at stepped
      obtain ⟨next, does, stepped⟩ := Option.bind_eq_some_iff.mp stepped
      exact paced.loop does stepped
  | server label ctime =>
      obtain ⟨pair, moved, rfl⟩ := Option.map_eq_some_iff.mp stepped
      have node := DemoPair.step_server_node moved
      exact paced.of_posted rfl (congrArg (·.endpoint.session) node)
        (congrArg (·.endpoint.tasks.length) node).ge

end Paced

/-- **In the session's code, the loop goes on where it is.** -/
theorem Paced.does_of_inside (paced : state.Paced) (inside : state.pair.node.endpoint.session.control ≠ .idle)
    {action : Action UInt64} (noEvent : action.entry = false) :
    state.loop.does (.session action) = some state.loop := by
  unfold Paced at paced
  cases place : state.loop with
  | draining left last => cases left <;> cases action <;> first | rfl | cases noEvent
  | polled fresh => cases action <;> first | rfl | cases noEvent
  | starting | testing | taking last | returned =>
      rw [place] at paced
      exact absurd paced inside

/-- Nothing faulty; what the program itself closes is no fault. -/
def Label.faultless : Label → Bool
  | .loop label => label.faultless
  | .server label _ => label.faultless
  | .main | .run => true

/-- The runs in which nothing is faulty. -/
def faultless : Machine DemoClient Label := machine.guarded fun _ label => label.faultless = true

/-- Both threads go on unless one of them has been left by an exception. -/
theorem alive_of (main : state.main ≠ .terminated)
    (control : state.pair.node.endpoint.session.control ≠ .thrown) : state.alive = true := by
  simp [DemoClient.alive, main, control]

/-- `EventLoop::run` goes on between the callbacks. -/
theorem faultless_run (alive : state.alive = true) (idle : state.pair.node.endpoint.session.control = .idle)
    (moved : state.runStep = some state') : faultless.step state .run = some state' :=
  Machine.guarded_step.mpr ⟨rfl, (if_pos ⟨alive, idle⟩).trans moved⟩

/-! ### After `stop()` -/

/-- The main thread waits for `io_thread`, the loop has been stopped, and all answers have been printed. -/
structure Stopping (state : DemoClient) : Prop where
  main : state.main = .joins
  stopped : state.stopped = true
  answered : state.remaining ≤ 0
  started : state.loop ≠ .starting
  sound : state.pair.node.endpoint.session.Sound
  control : state.pair.node.endpoint.session.control ≠ .thrown
  paced : state.Paced

/-- How many points of the loop are left, once it has been stopped. -/
def pointsLeft : LoopPoint → ℕ
  | .returned => 0
  | .draining _ true => 1
  | .taking true => 2
  | .testing => 3
  | .polled _ => 4
  | .draining _ false => 5
  | .taking false => 6
  | .starting => 7

/-- How much the loop has left to do, at most. -/
def work (state : DemoClient) : ℕ :=
  6 * state.pair.node.endpoint.tasks.length + state.pair.node.endpoint.session.distance + pointsLeft state.loop

/-- Once all answers are there, the response handlers close nothing. -/
theorem exists_handled_of_answered (responses : List RpcMessage) (answered : state.remaining ≤ 0) :
    ∃ state', responses.foldlM onResponse state = some state' ∧ state'.pair = state.pair ∧
      state'.main = state.main ∧ state'.loop = state.loop ∧ state'.stopped = state.stopped ∧
      state'.remaining ≤ 0 := by
  induction responses generalizing state with
  | nil => exact ⟨state, rfl, rfl, rfl, rfl, rfl, answered⟩
  | cons response responses ih =>
      let next : DemoClient :=
        { state with printed := state.printed ++ [response], remaining := state.remaining - 1 }
      have below : state.remaining - 1 ≤ 0 := by omega
      have first : onResponse state response = some next := if_neg (show state.remaining - 1 ≠ 0 by omega)
      obtain ⟨state', rest, done⟩ := @ih next below
      exact ⟨state', by rw [List.foldlM_cons, first]; exact rest, done⟩

namespace Stopping

theorem alive (holds : state.Stopping) : state.alive = true :=
  alive_of (by simp [holds.main]) holds.control

/-- The loop goes on, and comes nearer to its end. -/
def Nearer (state : DemoClient) : Prop :=
  ∃ label next, faultless.step state label = some next ∧ next.Stopping ∧ next.work < state.work

/-- Between the callbacks, `EventLoop::run` goes on to the next point. -/
theorem nearer_of_run (holds : state.Stopping) (idle : state.pair.node.endpoint.session.control = .idle)
    (point : LoopPoint) (moved : state.runStep = some { state with loop := point }) (later : point ≠ .starting)
    (nearer : pointsLeft point < pointsLeft state.loop) : Nearer state :=
  ⟨.run, _, faultless_run holds.alive idle moved,
    { holds with started := later, paced := Paced.run idle moved },
    Nat.add_lt_add_left nearer _⟩

/-- A callback that reads nothing goes on, and with it the loop. -/
theorem nearer_of_loop (holds : state.Stopping) {label : ClientNode.Label Unit} {asked : Endpoint.Label UInt64}
    {next : LoopPoint} (does : state.loop.does label = some next) (fair : label.faultless = true)
    (unread : label.chunk = []) (asks : state.pair.node.enter label = some (state.pair.node, some asked))
    {endpoint : Endpoint UInt64} {effects : List (Effect UInt64)}
    (moved : state.pair.node.endpoint.step asked = some (endpoint, effects))
    (running : endpoint.session.control ≠ .thrown)
    (nearer : 6 * endpoint.tasks.length + endpoint.session.distance + pointsLeft next < state.work) :
    Nearer state := by
  let node := (state.pair.node.absorb (endpoint, effects)).1
  let pair : DemoPair Unit :=
    { state.pair with node := node, toServer := state.pair.toServer ++ accepted effects }
  have answered : state.pair.node.step label = some (node, effects) := by
    unfold ClientNode.step
    simp only [asks, moved, Option.map_some]
    rfl
  have taken : state.pair.step (.client label) = some pair := by
    have read : readFrom state.pair.toClient label.chunk = some state.pair.toClient := by
      rw [unread]
      exact readFrom_nil _
    unfold DemoPair.step
    simp only [read, answered, Option.map_some]
    rfl
  obtain ⟨state', handled, same, main, loop, stopped, remaining⟩ :=
    @exists_handled_of_answered { state with pair := pair, loop := next }
      (responded (pair.node.trace.drop state.pair.node.trace.length)) holds.answered
  have stepped : state.loopStep label next = some state' := by
    unfold loopStep
    rw [taken]
    exact handled
  have whole : machine.step state (.loop label) = some state' := by
    refine (if_pos holds.alive).trans ?_
    rw [does]
    exact stepped
  have sound : endpoint.session.Sound := by
    have moves := Endpoint.step_moves holds.sound.wf moved
    exact moves.sound holds.sound
  refine ⟨.loop label, state', Machine.guarded_step.mpr ⟨fair, whole⟩, ?_, ?_⟩
  · exact {
      main := main.trans holds.main
      stopped := stopped.trans holds.stopped
      answered := remaining
      started := by
        rw [loop]
        exact (ofLoop_of_does does).2.2
      sound := by
        rw [same]
        exact sound
      control := by
        rw [same]
        exact running
      paced := holds.paced.loop does stepped }
  · unfold work
    rw [same, loop]
    exact nearer

/-- Inside the session's code, it goes on. -/
theorem nearer_of_code (holds : state.Stopping)
    (inside : state.pair.node.endpoint.session.control ≠ .idle) : Nearer state := by
  obtain ⟨action, session, effects, resumes, stepped, running, closer⟩ :=
    Session.exists_resumed holds.sound inside holds.control
  obtain ⟨fair, unread, inCode, noEvent⟩ :
      (ClientNode.Label.session action : ClientNode.Label Unit).faultless = true ∧
        (ClientNode.Label.session action : ClientNode.Label Unit).chunk = [] ∧ action.fromTask = false ∧
        action.entry = false := by
    rcases Action.of_resumes resumes with rfl | rfl | rfl | rfl | rfl <;> exact ⟨rfl, rfl, rfl, rfl⟩
  have does : state.loop.does (.session action) = some state.loop :=
    holds.paced.does_of_inside inside noEvent
  have moved : state.pair.node.endpoint.step (.session action) =
      some (state.pair.node.endpoint.advance state.pair.node.endpoint.tasks [] (session, effects)) := by
    simp only [Endpoint.step, inCode, stepped, Option.map_some, if_neg Bool.false_ne_true]
  refine holds.nearer_of_loop does fair unread rfl moved running ?_
  exact Nat.add_lt_add_right (Nat.add_lt_add_left closer _) _

/-- In `drain_tasks`, the next task is run. -/
theorem nearer_of_task (holds : state.Stopping) (idle : state.pair.node.endpoint.session.control = .idle)
    {left : ℕ} {last : Bool} (place : state.loop = .draining (left + 1) last) : Nearer state := by
  have taken : left + 1 ≤ state.pair.node.endpoint.tasks.length := by
    have paced := holds.paced
    unfold Paced at paced
    rwa [place] at paced
  cases posted : state.pair.node.endpoint.tasks with
  | nil => simp [posted] at taken
  | cons task tasks =>
      obtain ⟨session, effects, stepped, running, bounded⟩ := Session.exists_taskRun idle task
      have does : state.loop.does (.run 0) = some (.draining left last) := by
        rw [place]
        rfl
      have moved : state.pair.node.endpoint.step (.run 0) =
          some (state.pair.node.endpoint.advance tasks task.message (session, effects)) := by
        simp only [Endpoint.step, posted, List.getElem?_cons_zero, stepped, Option.map_some,
          List.eraseIdx_cons_zero]
      refine holds.nearer_of_loop does rfl rfl rfl moved running ?_
      have same : pointsLeft (.draining left last) = pointsLeft (.draining (left + 1) last) := by
        cases last <;> rfl
      rw [work, place, posted, List.length_cons, same]
      show 6 * tasks.length + session.distance + _ < _
      omega

/-- **As long as `loop.run()` has not returned, the loop comes nearer to its end.** -/
theorem nearer (holds : state.Stopping) (running : state.loop ≠ .returned) : Nearer state := by
  by_cases idle : state.pair.node.endpoint.session.control = .idle
  · cases place : state.loop with
    | starting => exact absurd place holds.started
    | testing =>
        refine holds.nearer_of_run idle (.taking true) ?_ (by simp) (by rw [place]; simp [pointsLeft])
        rw [runStep, place, holds.stopped]
    | taking last =>
        refine holds.nearer_of_run idle (.draining state.pair.node.endpoint.tasks.length last) ?_ (by simp) ?_
        · rw [runStep, place]
        · rw [place]
          cases last <;> simp [pointsLeft]
    | draining left last =>
        cases left with
        | zero =>
            cases last with
            | false =>
                refine holds.nearer_of_run idle (.polled true) ?_ (by simp) (by rw [place]; simp [pointsLeft])
                rw [runStep, place]
            | true =>
                refine holds.nearer_of_run idle .returned ?_ (by simp) (by rw [place]; simp [pointsLeft])
                rw [runStep, place]
        | succ left => exact holds.nearer_of_task idle place
    | polled fresh =>
        refine holds.nearer_of_run idle .testing ?_ (by simp) (by rw [place]; simp [pointsLeft])
        rw [runStep, place]
    | returned => exact absurd place running
  · exact holds.nearer_of_code idle

end Stopping

end DemoClient

end Insist.MiniRpc
