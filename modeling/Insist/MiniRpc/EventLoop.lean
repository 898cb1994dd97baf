/-
**`minirpc::EventLoop`** (`include/minirpc/event_loop.hpp`, `src/event_loop.cpp`): the posted tasks and
the loop.

An `EventLoop` is one that executes `run()` once, while any number of threads call `post` and `stop`; so
do the tasks and the handlers that the loop thread itself runs. A call is cut where another thread can
come in: after the push or the store under it, and after the write to the eventfd. A task is known by the
number of the call of `post` that brought it. The other file descriptors are the environment: `epoll_wait`
returns which of them are ready, and their handlers do no more here than call `post` and `stop`.

* `step` — one step of a caller or of the loop thread;
* `step_moves` — everything one step can do;
* `Turn.outside` — the steps of the loop thread that concern no task.
-/
import Insist.Lib.Machine
import Mathlib.Algebra.Group.Nat.Defs

namespace Insist.MiniRpc

open Lib

/-- The threads that call `post` and `stop`; the loop thread does so from its tasks and handlers. -/
inductive Caller
  | loop
  | thread (index : ℕ)
deriving DecidableEq, Repr

/-- A call of `post` with a task, or of `stop`; both are numbered. -/
inductive Request
  | post (task : ℕ)
  | stop (request : ℕ)
deriving DecidableEq, Repr

/-- How far a call has come. -/
inductive Phase
  /-- It has changed nothing yet. -/
  | begun
  /-- It has pushed the task, or set `stopped_`. -/
  | changed
  /-- It has written to the eventfd. -/
  | woken
deriving DecidableEq, Repr

/-- A file descriptor that `epoll_wait` found ready: `event_fd_`, or one whose handler is not the loop's. -/
inductive Ready
  | wakeup
  | other
deriving DecidableEq, Repr

/-- Where the loop thread is. -/
inductive Point
  /-- Inside `run()`, before `stopped_ = false`. -/
  | entered
  /-- At the loop's test of `stopped_`. -/
  | test
  /-- In `drain_tasks`, before the swap; `final` is the one after the loop. -/
  | swap (final : Bool)
  /-- In `drain_tasks`, with the rest of `local`. -/
  | drain (batch : List ℕ) (final : Bool)
  /-- In a task. -/
  | running (task : ℕ) (batch : List ℕ) (final : Bool)
  /-- In `epoll_wait`. -/
  | poll
  /-- At the loop over the ready file descriptors. -/
  | dispatch (ready : List Ready)
  /-- In `drain_wakeup`. -/
  | drainWakeup (ready : List Ready)
  /-- In another handler. -/
  | handler (ready : List Ready)
  /-- `run()` has returned. -/
  | returned
  /-- `run()` has thrown the error of `epoll_wait`. -/
  | thrown
deriving DecidableEq, Repr

/-- Whether the loop thread is in code that may call `post` and `stop`. -/
def Point.inCallback : Point → Bool
  | .running _ _ _ | .handler _ => true
  | _ => false

/-- What `local` still holds. -/
def Point.batch : Point → List ℕ
  | .drain batch _ | .running _ batch _ => batch
  | _ => []

/-- The task that is running. -/
def Point.current : Point → List ℕ
  | .running task _ _ => [task]
  | _ => []

/-- Whether the loop has been left. -/
def Point.final : Point → Bool
  | .swap final | .drain _ final | .running _ _ final => final
  | .returned => true
  | _ => false

/-- What happens to the loop and its tasks. -/
inductive LoopEvent
  /-- `post` has pushed the task. -/
  | appended (task : ℕ)
  | postReturned (task : ℕ)
  | stopCalled (request : ℕ)
  | stopReturned (request : ℕ)
  | started (task : ℕ)
  | finished (task : ℕ)
  /-- The test of `stopped_` has ended the loop. -/
  | exited
deriving DecidableEq, Repr

/-- The members of `EventLoop`, its threads and its history. -/
structure EventLoop where
  /-- `stopped_`. -/
  stopped : Bool := false
  /-- `tasks_`. -/
  tasks : List ℕ := []
  /-- The counter of `event_fd_`. -/
  counter : ℕ := 0
  point : Point := .entered
  calls : Caller → Option (Request × Phase) := fun _ => none
  /-- How many calls of `post` there have been. -/
  posts : ℕ := 0
  /-- How many calls of `stop` there have been. -/
  stops : ℕ := 0
  trace : List LoopEvent := []

/-- What is recorded when a call begins. -/
def Request.called : Request → List LoopEvent
  | .post _ => []
  | .stop request => [.stopCalled request]

/-- What is recorded when a call ends. -/
def Request.returned : Request → LoopEvent
  | .post task => .postReturned task
  | .stop request => .stopReturned request

namespace EventLoop

/-- The steps of the loop and its callers. -/
inductive Label
  /-- A thread calls `post`. -/
  | post (caller : Caller)
  /-- A thread calls `stop`. -/
  | stop (caller : Caller)
  /-- A call goes on. -/
  | call (caller : Caller)
  /-- The loop thread goes on. -/
  | loop
  /-- `epoll_wait` returns with these. -/
  | ready (ready : List Ready)
  /-- `epoll_wait` returns -1. -/
  | pollFailed (interrupted : Bool)
deriving DecidableEq, Repr

/-- The size of `events` in `run`. -/
def maxEvents : ℕ := 64

/-- The largest value of an eventfd's counter. -/
def maxCounter : ℕ := 18446744073709551614

/-- `wakeup`: a write that would overflow the counter fails with `EAGAIN`. -/
def wakeup (loop : EventLoop) : EventLoop :=
  { loop with counter := if loop.counter < maxCounter then loop.counter + 1 else loop.counter }

/-- Whether a thread can make a call now. -/
def mayCall (loop : EventLoop) (caller : Caller) : Bool :=
  (loop.calls caller).isNone && (caller != .loop || loop.point.inCallback)

/-- A call of `post` or `stop` begins. -/
def begin (loop : EventLoop) (caller : Caller) (request : Request) : EventLoop :=
  { loop with
    calls := Function.update loop.calls caller (some (request, .begun))
    trace := loop.trace ++ request.called }

/-- `tasks_.push(std::move(task))`, or `stopped_ = true`. -/
def change (loop : EventLoop) : Request → EventLoop
  | .post task => { loop with tasks := loop.tasks ++ [task], trace := loop.trace ++ [.appended task] }
  | .stop _ => { loop with stopped := true }

/-- The caller's next step in its call. -/
def goOn (loop : EventLoop) (caller : Caller) : Request × Phase → EventLoop
  | (request, .begun) =>
      { loop.change request with calls := Function.update loop.calls caller (some (request, .changed)) }
  | (request, .changed) =>
      { loop.wakeup with calls := Function.update loop.calls caller (some (request, .woken)) }
  | (request, .woken) =>
      { loop with
        calls := Function.update loop.calls caller none
        trace := loop.trace ++ [request.returned] }

/-- The next step of the loop thread, unless it is in `epoll_wait` or in a call of its own. -/
def advance (loop : EventLoop) : Option EventLoop :=
  match loop.point with
  | .entered => some { loop with stopped := false, point := .test }
  | .test =>
      if loop.stopped then some { loop with point := .swap true, trace := loop.trace ++ [.exited] }
      else some { loop with point := .swap false }
  | .swap final => some { loop with tasks := [], point := .drain loop.tasks final }
  | .drain [] final => some { loop with point := if final then .returned else .poll }
  | .drain (task :: batch) final =>
      some { loop with point := .running task batch final, trace := loop.trace ++ [.started task] }
  | .running task batch final =>
      some { loop with point := .drain batch final, trace := loop.trace ++ [.finished task] }
  | .dispatch [] => some { loop with point := .test }
  | .dispatch (.wakeup :: ready) => some { loop with point := .drainWakeup ready }
  | .dispatch (.other :: ready) => some { loop with point := .handler ready }
  | .drainWakeup ready =>
      if 0 < loop.counter then some { loop with counter := 0 }
      else some { loop with point := .dispatch ready }
  | .handler ready => some { loop with point := .dispatch ready }
  | .poll | .returned | .thrown => none

/-- One step. -/
def step (loop : EventLoop) : Label → Option EventLoop
  | .post caller =>
      if loop.mayCall caller then
        some { loop.begin caller (.post loop.posts) with posts := loop.posts + 1 }
      else none
  | .stop caller =>
      if loop.mayCall caller then
        some { loop.begin caller (.stop loop.stops) with stops := loop.stops + 1 }
      else none
  | .call caller => (loop.calls caller).map (loop.goOn caller)
  | .loop => if (loop.calls .loop).isNone then loop.advance else none
  | .ready ready =>
      if loop.point = .poll ∧ ready.length ≤ maxEvents ∧ (.wakeup ∈ ready → 0 < loop.counter) then
        some { loop with point := .dispatch ready }
      else none
  | .pollFailed interrupted =>
      if loop.point = .poll then
        some { loop with point := if interrupted then .test else .thrown }
      else none

/-- An event loop as a machine. -/
def machine : Machine EventLoop Label where
  step := step

/-- An event loop that has just been made, when `run()` is called. -/
def made : EventLoop := {}

/-! ### The steps -/

/-- The steps of the loop thread that concern no task: where they lead, and what they make of the
counter. -/
inductive Turn (loop : EventLoop) : Point → ℕ → Prop
  /-- The test of `stopped_` goes on with the loop. -/
  | goesOn (here : loop.point = .test) (running : loop.stopped = false) :
      Turn loop (.swap false) loop.counter
  /-- `epoll_wait` returns. -/
  | ready {ready : List Ready} (here : loop.point = .poll)
      (readable : .wakeup ∈ ready → 0 < loop.counter) : Turn loop (.dispatch ready) loop.counter
  /-- `epoll_wait` is interrupted. -/
  | interrupted (here : loop.point = .poll) : Turn loop .test loop.counter
  | threw (here : loop.point = .poll) : Turn loop .thrown loop.counter
  | dispatched (here : loop.point = .dispatch []) : Turn loop .test loop.counter
  | wakeup {ready : List Ready} (here : loop.point = .dispatch (.wakeup :: ready)) :
      Turn loop (.drainWakeup ready) loop.counter
  | other {ready : List Ready} (here : loop.point = .dispatch (.other :: ready)) :
      Turn loop (.handler ready) loop.counter
  /-- A read resets the counter. -/
  | drains {ready : List Ready} (here : loop.point = .drainWakeup ready) (some : 0 < loop.counter) :
      Turn loop (.drainWakeup ready) 0
  /-- A read finds the counter zero. -/
  | drained {ready : List Ready} (here : loop.point = .drainWakeup ready)
      (none : loop.counter = 0) : Turn loop (.dispatch ready) loop.counter
  | handled {ready : List Ready} (here : loop.point = .handler ready) :
      Turn loop (.dispatch ready) loop.counter

/-- Every step of an event loop. -/
inductive Moves (loop : EventLoop) : EventLoop → Prop
  /-- A call begins. -/
  | posts {caller : Caller} (may : loop.mayCall caller = true) :
      Moves loop { loop.begin caller (.post loop.posts) with posts := loop.posts + 1 }
  | stops {caller : Caller} (may : loop.mayCall caller = true) :
      Moves loop { loop.begin caller (.stop loop.stops) with stops := loop.stops + 1 }
  /-- `post` pushes its task. -/
  | pushes {caller : Caller} {task : ℕ} (called : loop.calls caller = some (.post task, .begun)) :
      Moves loop (loop.goOn caller (.post task, .begun))
  /-- `stop` sets `stopped_`. -/
  | flags {caller : Caller} {request : ℕ} (called : loop.calls caller = some (.stop request, .begun)) :
      Moves loop (loop.goOn caller (.stop request, .begun))
  | wakes {caller : Caller} {request : Request} (called : loop.calls caller = some (request, .changed)) :
      Moves loop (loop.goOn caller (request, .changed))
  | returns {caller : Caller} {request : Request} (called : loop.calls caller = some (request, .woken)) :
      Moves loop (loop.goOn caller (request, .woken))
  /-- `stopped_ = false`. -/
  | enters (here : loop.point = .entered) : Moves loop { loop with stopped := false, point := .test }
  /-- The test of `stopped_` ends the loop. -/
  | exits (here : loop.point = .test) (stopped : loop.stopped = true) :
      Moves loop { loop with point := .swap true, trace := loop.trace ++ [.exited] }
  | swaps {final : Bool} (here : loop.point = .swap final) :
      Moves loop { loop with tasks := [], point := .drain loop.tasks final }
  /-- `drain_tasks` takes a task. -/
  | starts {task : ℕ} {batch : List ℕ} {final : Bool} (here : loop.point = .drain (task :: batch) final) :
      Moves loop { loop with point := .running task batch final, trace := loop.trace ++ [.started task] }
  | finishes {task : ℕ} {batch : List ℕ} {final : Bool} (here : loop.point = .running task batch final)
      (alone : loop.calls .loop = none) :
      Moves loop { loop with point := .drain batch final, trace := loop.trace ++ [.finished task] }
  /-- `drain_tasks` returns. -/
  | empties {final : Bool} (here : loop.point = .drain [] final) :
      Moves loop { loop with point := if final then .returned else .poll }
  | turns {point : Point} {counter : ℕ} (turn : Turn loop point counter)
      (alone : loop.calls .loop = none ∨ loop.point = .poll) :
      Moves loop { loop with point := point, counter := counter }

/-- **Every step of the loop thread is one of the listed moves.** -/
theorem advance_moves {loop next : EventLoop} (alone : loop.calls .loop = none)
    (advanced : loop.advance = some next) : Moves loop next := by
  unfold advance at advanced
  cases here : loop.point with
  | entered =>
      rw [here] at advanced
      cases advanced
      exact .enters here
  | test =>
      rw [here] at advanced
      simp only at advanced
      split_ifs at advanced with stopped
      · cases advanced
        exact .exits here stopped
      · cases advanced
        exact .turns (.goesOn here (eq_false_of_ne_true stopped)) (Or.inl alone)
  | swap final =>
      rw [here] at advanced
      cases advanced
      exact .swaps here
  | drain batch final =>
      rw [here] at advanced
      cases batch with
      | nil =>
          cases advanced
          exact .empties here
      | cons task batch =>
          cases advanced
          exact .starts here
  | running task batch final =>
      rw [here] at advanced
      cases advanced
      exact .finishes here alone
  | dispatch ready =>
      rw [here] at advanced
      rcases ready with _ | ⟨_ | _, ready⟩
      · cases advanced
        exact .turns (.dispatched here) (Or.inl alone)
      · cases advanced
        exact .turns (.wakeup here) (Or.inl alone)
      · cases advanced
        exact .turns (.other here) (Or.inl alone)
  | drainWakeup ready =>
      rw [here] at advanced
      simp only at advanced
      split_ifs at advanced with some
      · cases advanced
        exact .turns (.drains here some) (Or.inl alone)
      · cases advanced
        exact .turns (.drained here (by omega)) (Or.inl alone)
  | handler ready =>
      rw [here] at advanced
      cases advanced
      exact .turns (.handled here) (Or.inl alone)
  | poll | returned | thrown =>
      rw [here] at advanced
      cases advanced

/-- **Every step is one of the listed moves.** -/
theorem step_moves {loop next : EventLoop} {label : Label} (stepped : loop.step label = some next) :
    Moves loop next := by
  unfold step at stepped
  cases label with
  | post caller =>
      obtain ⟨may, same⟩ := Option.ite_none_right_eq_some.mp stepped
      cases same
      exact .posts may
  | stop caller =>
      obtain ⟨may, same⟩ := Option.ite_none_right_eq_some.mp stepped
      cases same
      exact .stops may
  | call caller =>
      obtain ⟨⟨request, phase⟩, called, rfl⟩ := Option.map_eq_some_iff.mp stepped
      cases phase with
      | begun =>
          cases request with
          | post task => exact .pushes called
          | stop request => exact .flags called
      | changed => exact .wakes called
      | woken => exact .returns called
  | loop =>
      obtain ⟨alone, advanced⟩ := Option.ite_none_right_eq_some.mp stepped
      exact advance_moves (Option.isNone_iff_eq_none.mp alone) advanced
  | ready ready =>
      obtain ⟨⟨here, _, readable⟩, same⟩ := Option.ite_none_right_eq_some.mp stepped
      cases same
      exact .turns (.ready here readable) (Or.inr here)
  | pollFailed interrupted =>
      obtain ⟨here, same⟩ := Option.ite_none_right_eq_some.mp stepped
      cases same
      cases interrupted with
      | true => exact .turns (.interrupted here) (Or.inr here)
      | false => exact .turns (.threw here) (Or.inr here)

/-- The steps that concern no task are outside `drain_tasks`. -/
theorem Turn.outside {loop : EventLoop} {point : Point} {counter : ℕ} (turn : Turn loop point counter) :
    (loop.point.batch = [] ∧ loop.point.current = [] ∧ loop.point.final = false) ∧
      point.batch = [] ∧ point.current = [] ∧ point.final = false := by
  cases turn with
  | goesOn here _ | ready here _ | interrupted here | threw here | dispatched here | wakeup here
  | other here | drains here _ | drained here _ | handled here =>
      rw [here]
      exact ⟨⟨rfl, rfl, rfl⟩, rfl, rfl, rfl⟩

end EventLoop

end Insist.MiniRpc
