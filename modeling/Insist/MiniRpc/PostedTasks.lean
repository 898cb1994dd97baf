/-
**Posted tasks run once, in order, and none is lost at shutdown.**

The projections of an event loop's history, and what every step keeps of them:

* `Queue` — the tasks that were started, the batch that was swapped out and the queue make up what was
  appended, in this order;
* `Numbered` — every call of `post` appends a task of its own;
* `Backed` — `post` returns after its push, and the loop is left after a call of `stop`;
* `Leaving` — whatever was appended before the loop's last test has been started or is in the last batch.

`posted_tasks_run` draws them together for every run.
-/
import Insist.Lib.History
import Insist.MiniRpc.EventLoop
import Mathlib.Data.List.Nodup

namespace Insist.MiniRpc

open Lib Lib.History

namespace EventLoop

/-! ### What the history says of the tasks -/

/-- The tasks in the order in which `post` appended them. -/
def appendedTasks (trace : List LoopEvent) : List ℕ :=
  trace.flatMap fun
    | .appended task => [task]
    | _ => []

/-- The tasks in the order in which they were started. -/
def startedTasks (trace : List LoopEvent) : List ℕ :=
  trace.flatMap fun
    | .started task => [task]
    | _ => []

/-- The tasks in the order in which they returned. -/
def finishedTasks (trace : List LoopEvent) : List ℕ :=
  trace.flatMap fun
    | .finished task => [task]
    | _ => []

@[simp] theorem appendedTasks_append (first second : List LoopEvent) :
    appendedTasks (first ++ second) = appendedTasks first ++ appendedTasks second :=
  List.flatMap_append

@[simp] theorem startedTasks_append (first second : List LoopEvent) :
    startedTasks (first ++ second) = startedTasks first ++ startedTasks second :=
  List.flatMap_append

@[simp] theorem finishedTasks_append (first second : List LoopEvent) :
    finishedTasks (first ++ second) = finishedTasks first ++ finishedTasks second :=
  List.flatMap_append

theorem mem_finishedTasks {trace : List LoopEvent} {task : ℕ} :
    task ∈ finishedTasks trace ↔ .finished task ∈ trace := by
  unfold finishedTasks
  rw [List.mem_flatMap]
  constructor
  · rintro ⟨event, member, same⟩
    cases event with
    | finished other =>
        rw [List.mem_singleton.mp same]
        exact member
    | _ => cases same
  · intro member
    exact ⟨_, member, List.mem_singleton_self task⟩

/-- A call's beginning and end start, finish and append no task. -/
theorem tasks_of_called (request : Request) :
    appendedTasks request.called = [] ∧ startedTasks request.called = [] ∧
      finishedTasks request.called = [] := by
  cases request <;> exact ⟨rfl, rfl, rfl⟩

theorem tasks_of_returned (request : Request) :
    appendedTasks [request.returned] = [] ∧ startedTasks [request.returned] = [] ∧
      finishedTasks [request.returned] = [] := by
  cases request <;> exact ⟨rfl, rfl, rfl⟩

/-! ### First in, first out -/

/-- The tasks that were started, the batch and the queue make up what was appended; all but the running
one have returned. -/
structure Queue (loop : EventLoop) : Prop where
  order : appendedTasks loop.trace = startedTasks loop.trace ++ loop.point.batch ++ loop.tasks
  ran : startedTasks loop.trace = finishedTasks loop.trace ++ loop.point.current

theorem made_queue : Queue made := ⟨rfl, rfl⟩

/-- A step that leaves the tasks where they are. -/
theorem Queue.same {loop next : EventLoop} (holds : Queue loop) {events : List LoopEvent}
    (trace : next.trace = loop.trace ++ events)
    (nothing : appendedTasks events = [] ∧ startedTasks events = [] ∧ finishedTasks events = [])
    (batch : next.point.batch = loop.point.batch) (current : next.point.current = loop.point.current)
    (tasks : next.tasks = loop.tasks) : Queue next := by
  obtain ⟨appended, started, finished⟩ := nothing
  constructor
  · rw [trace, appendedTasks_append, startedTasks_append, appended, started, batch, tasks,
      List.append_nil, List.append_nil]
    exact holds.order
  · rw [trace, startedTasks_append, finishedTasks_append, started, finished, current, List.append_nil,
      List.append_nil]
    exact holds.ran

/-- **Every step keeps the order.** -/
theorem Moves.queue {loop next : EventLoop} (moves : Moves loop next) (holds : Queue loop) :
    Queue next := by
  have nothing : appendedTasks [] = [] ∧ startedTasks [] = [] ∧ finishedTasks [] = [] := ⟨rfl, rfl, rfl⟩
  cases moves with
  | posts may => exact holds.same rfl (tasks_of_called _) rfl rfl rfl
  | stops may => exact holds.same rfl (tasks_of_called _) rfl rfl rfl
  | @pushes caller task called =>
      constructor
      · show appendedTasks (loop.trace ++ [LoopEvent.appended task]) =
          startedTasks (loop.trace ++ [LoopEvent.appended task]) ++ loop.point.batch ++ (loop.tasks ++ [task])
        rw [appendedTasks_append, startedTasks_append, holds.order]
        simp [appendedTasks, startedTasks]
      · show startedTasks (loop.trace ++ [LoopEvent.appended task]) =
          finishedTasks (loop.trace ++ [LoopEvent.appended task]) ++ loop.point.current
        rw [startedTasks_append, finishedTasks_append, holds.ran]
        simp [startedTasks, finishedTasks]
  | flags called => exact holds.same (List.append_nil _).symm nothing rfl rfl rfl
  | wakes called => exact holds.same (List.append_nil _).symm nothing rfl rfl rfl
  | returns called => exact holds.same rfl (tasks_of_returned _) rfl rfl rfl
  | enters here =>
      exact holds.same (List.append_nil _).symm nothing (by rw [here]; rfl) (by rw [here]; rfl) rfl
  | exits here stopped =>
      exact holds.same rfl ⟨rfl, rfl, rfl⟩ (by rw [here]; rfl) (by rw [here]; rfl) rfl
  | @swaps final here =>
      have order := holds.order
      have ran := holds.ran
      rw [here] at order ran
      constructor
      · show appendedTasks loop.trace = startedTasks loop.trace ++ loop.tasks ++ []
        rw [List.append_nil, order]
        exact congrArg (· ++ loop.tasks) (List.append_nil _)
      · exact ran
  | @starts task batch final here =>
      have order := holds.order
      have ran := holds.ran
      rw [here] at order ran
      constructor
      · show appendedTasks (loop.trace ++ [LoopEvent.started task]) =
          startedTasks (loop.trace ++ [LoopEvent.started task]) ++ batch ++ loop.tasks
        rw [appendedTasks_append, startedTasks_append, order]
        simp [appendedTasks, startedTasks, Point.batch]
      · show startedTasks (loop.trace ++ [LoopEvent.started task]) =
          finishedTasks (loop.trace ++ [LoopEvent.started task]) ++ [task]
        rw [startedTasks_append, finishedTasks_append, ran]
        simp [startedTasks, finishedTasks, Point.current]
  | @finishes task batch final here alone =>
      have order := holds.order
      have ran := holds.ran
      rw [here] at order ran
      constructor
      · show appendedTasks (loop.trace ++ [LoopEvent.finished task]) =
          startedTasks (loop.trace ++ [LoopEvent.finished task]) ++ batch ++ loop.tasks
        rw [appendedTasks_append, startedTasks_append, order]
        simp [appendedTasks, startedTasks, Point.batch]
      · show startedTasks (loop.trace ++ [LoopEvent.finished task]) =
          finishedTasks (loop.trace ++ [LoopEvent.finished task]) ++ []
        rw [startedTasks_append, finishedTasks_append, ran]
        simp [startedTasks, finishedTasks, Point.current]
  | @empties final here =>
      refine holds.same (List.append_nil _).symm nothing ?_ ?_ rfl
      · rw [here]
        cases final <;> rfl
      · rw [here]
        cases final <;> rfl
  | turns turn alone =>
      obtain ⟨⟨batch, current, _⟩, batch', current', _⟩ := turn.outside
      exact holds.same (List.append_nil _).symm nothing (batch'.trans batch.symm)
        (current'.trans current.symm) rfl

/-! ### Every call appends its own task -/

/-- A call after another one has moved is that one, or is where it was. -/
theorem update_eq_some {calls : Caller → Option (Request × Phase)} {caller other : Caller}
    {moved : Option (Request × Phase)} {state : Request × Phase}
    (called : Function.update calls caller moved other = some state) :
    (other = caller ∧ moved = some state) ∨ (other ≠ caller ∧ calls other = some state) := by
  rw [Function.update_apply] at called
  split_ifs at called with same
  · exact Or.inl ⟨same, called⟩
  · exact Or.inr ⟨same, called⟩

/-- The appended tasks are different calls' tasks, and no call that has yet to push its task shares it. -/
structure Numbered (loop : EventLoop) : Prop where
  appended : ∀ task ∈ appendedTasks loop.trace, task < loop.posts
  waiting : ∀ caller task, loop.calls caller = some (.post task, .begun) →
    task < loop.posts ∧ task ∉ appendedTasks loop.trace
  own : ∀ caller other task, loop.calls caller = some (.post task, .begun) →
    loop.calls other = some (.post task, .begun) → caller = other
  once : (appendedTasks loop.trace).Nodup

theorem made_numbered : Numbered made where
  appended task member := by cases member
  waiting caller task called := by cases called
  own caller other task called := by cases called
  once := List.nodup_nil

/-- A step that appends no task and begins no call of `post`. -/
theorem Numbered.same {loop next : EventLoop} (holds : Numbered loop) {added : List LoopEvent}
    (trace : next.trace = loop.trace ++ added) (none : appendedTasks added = [])
    (posts : next.posts = loop.posts)
    (calls : ∀ caller task, next.calls caller = some (.post task, .begun) →
      loop.calls caller = some (.post task, .begun)) : Numbered next := by
  have tasks : appendedTasks next.trace = appendedTasks loop.trace := by
    rw [trace, appendedTasks_append, none, List.append_nil]
  refine ⟨?_, fun caller task called => ?_, fun caller other task here there => ?_, ?_⟩
  · rw [tasks, posts]
    exact holds.appended
  · rw [tasks, posts]
    exact holds.waiting caller task (calls caller task called)
  · exact holds.own caller other task (calls caller task here) (calls other task there)
  · rw [tasks]
    exact holds.once

/-- A call of `post` gets the next number. -/
theorem Numbered.post {loop : EventLoop} (holds : Numbered loop) (caller : Caller) :
    Numbered { loop.begin caller (.post loop.posts) with posts := loop.posts + 1 } := by
  have trace : appendedTasks (loop.trace ++ (Request.post loop.posts).called) = appendedTasks loop.trace := by
    rw [appendedTasks_append, (tasks_of_called _).1, List.append_nil]
  refine ⟨fun task member => ?_, fun other task called => ?_, fun one other task here there => ?_, ?_⟩
  · exact Nat.lt_succ_of_lt (holds.appended task (trace ▸ member))
  · show task < loop.posts + 1 ∧ task ∉ appendedTasks (loop.trace ++ _)
    rw [trace]
    rcases update_eq_some called with ⟨_, new⟩ | ⟨_, old⟩
    · cases new
      exact ⟨Nat.lt_succ_self _, fun member => Nat.lt_irrefl _ (holds.appended _ member)⟩
    · obtain ⟨before, absent⟩ := holds.waiting other task old
      exact ⟨Nat.lt_succ_of_lt before, absent⟩
  · -- the new call's number is larger than those of the others
    rcases update_eq_some here with ⟨rfl, new⟩ | ⟨_, old⟩
    · rcases update_eq_some there with ⟨rfl, _⟩ | ⟨_, old⟩
      · rfl
      · cases new
        exact absurd (holds.waiting other _ old).1 (Nat.lt_irrefl _)
    · rcases update_eq_some there with ⟨rfl, new⟩ | ⟨_, old'⟩
      · cases new
        exact absurd (holds.waiting one _ old).1 (Nat.lt_irrefl _)
      · exact holds.own one other task old old'
  · show (appendedTasks (loop.trace ++ _)).Nodup
    rw [trace]
    exact holds.once

/-- The calls after one that has left its first phase. -/
theorem waiting_of_update {calls : Caller → Option (Request × Phase)} {caller : Caller}
    {moved : Option (Request × Phase)} (later : ∀ task, moved ≠ some (.post task, .begun))
    (other : Caller) (task : ℕ)
    (called : Function.update calls caller moved other = some (.post task, .begun)) :
    calls other = some (.post task, .begun) := by
  rcases update_eq_some called with ⟨_, here⟩ | ⟨_, there⟩
  · exact absurd here (later task)
  · exact there

/-- The call appends the task that it has the number of, and is the only one with it. -/
theorem Numbered.push {loop : EventLoop} (holds : Numbered loop) {caller : Caller} {task : ℕ}
    (called : loop.calls caller = some (.post task, .begun)) :
    Numbered (loop.goOn caller (.post task, .begun)) := by
  obtain ⟨before, absent⟩ := holds.waiting caller task called
  have trace : appendedTasks (loop.trace ++ [LoopEvent.appended task]) =
      appendedTasks loop.trace ++ [task] := by
    rw [appendedTasks_append]
    rfl
  refine ⟨fun other member => ?_, fun other task' called' => ?_, fun one other task' here there => ?_, ?_⟩
  · rcases List.mem_append.mp (trace ▸ member) with old | new
    · exact holds.appended other old
    · rwa [List.mem_singleton.mp new]
  · show task' < loop.posts ∧ task' ∉ appendedTasks (loop.trace ++ [LoopEvent.appended task])
    rw [trace]
    rcases update_eq_some called' with ⟨_, new⟩ | ⟨different, old⟩
    · cases new
    · obtain ⟨before', absent'⟩ := holds.waiting other task' old
      refine ⟨before', fun member => ?_⟩
      rcases List.mem_append.mp member with former | last
      · exact absent' former
      · rw [List.mem_singleton.mp last] at old
        exact different (holds.own other caller task old called)
  · exact holds.own one other task' (waiting_of_update (by simp) one task' here)
      (waiting_of_update (by simp) other task' there)
  · show (appendedTasks (loop.trace ++ [LoopEvent.appended task])).Nodup
    rw [trace]
    exact List.nodup_append.mpr ⟨holds.once, List.nodup_singleton task, fun old member new last same =>
      absent (List.mem_singleton.mp last ▸ same ▸ member)⟩

/-- **Every step gives each task one number.** -/
theorem Moves.numbered {loop next : EventLoop} (moves : Moves loop next) (holds : Numbered loop) :
    Numbered next := by
  have unchanged : loop.trace = loop.trace ++ [] := (List.append_nil _).symm
  cases moves with
  | @posts caller may => exact holds.post caller
  | stops may => exact holds.same rfl (tasks_of_called _).1 rfl (waiting_of_update (by simp))
  | pushes called => exact holds.push called
  | flags called => exact holds.same unchanged rfl rfl (waiting_of_update (by simp))
  | wakes called => exact holds.same unchanged rfl rfl (waiting_of_update (by simp))
  | returns called => exact holds.same rfl (tasks_of_returned _).1 rfl (waiting_of_update (by simp))
  | exits here stopped => exact holds.same rfl rfl rfl fun _ _ called => called
  | starts here => exact holds.same rfl rfl rfl fun _ _ called => called
  | finishes here alone => exact holds.same rfl rfl rfl fun _ _ called => called
  | enters here | swaps here | empties here | turns turn alone =>
      exact holds.same unchanged rfl rfl fun _ _ called => called

/-! ### What a return relies on -/

/-- `post` returns after its push, and the loop is left after a call of `stop`. -/
def Reason (before : List LoopEvent) : LoopEvent → Prop
  | .postReturned task => task ∈ appendedTasks before
  | .exited => ∃ request, .stopCalled request ∈ before
  | _ => True

/-- The calls under way and the flag are backed by the history. -/
structure Backed (loop : EventLoop) : Prop where
  pushed : ∀ caller task phase, loop.calls caller = some (.post task, phase) →
    phase = .begun ∨ task ∈ appendedTasks loop.trace
  stopping : ∀ caller request phase, loop.calls caller = some (.stop request, phase) →
    .stopCalled request ∈ loop.trace
  stopped : loop.stopped = true → ∃ request, .stopCalled request ∈ loop.trace
  reasons : Always Reason loop.trace

theorem made_backed : Backed made where
  pushed caller task phase called := by cases called
  stopping caller request phase called := by cases called
  stopped set := by cases set
  reasons := always_nil

/-- A call that has just begun, or was under way before. -/
def FromCall (loop next : EventLoop) (request : Request) (phase : Phase) (caller : Caller) : Prop :=
  (phase = .begun ∧ ∀ number, request = .stop number → .stopCalled number ∈ next.trace) ∨
    ∃ former, loop.calls caller = some (request, former) ∧ (former = .begun → phase = .begun)

/-- A step that pushes nothing and sets no flag. -/
theorem Backed.grow {loop next : EventLoop} (holds : Backed loop) {events : List LoopEvent}
    (trace : next.trace = loop.trace ++ events) (reasons : Always Reason (loop.trace ++ events))
    (calls : ∀ caller request phase, next.calls caller = some (request, phase) →
      FromCall loop next request phase caller)
    (stopped : next.stopped = true → loop.stopped = true) : Backed next where
  pushed caller task phase called := by
    rcases calls caller _ phase called with ⟨begun, _⟩ | ⟨former, before, still⟩
    · exact Or.inl begun
    · refine (holds.pushed caller task former before).imp still fun member => ?_
      rw [trace, appendedTasks_append]
      exact List.mem_append_left _ member
  stopping caller request phase called := by
    rcases calls caller _ phase called with ⟨_, new⟩ | ⟨former, before, _⟩
    · exact new request rfl
    · rw [trace]
      exact List.mem_append_left _ (holds.stopping caller request former before)
  stopped set := by
    obtain ⟨request, member⟩ := holds.stopped (stopped set)
    exact ⟨request, trace ▸ List.mem_append_left _ member⟩
  reasons := trace ▸ reasons

/-- One more event with its reason. -/
theorem Backed.record {loop : EventLoop} (holds : Backed loop) {event : LoopEvent}
    (reason : Reason loop.trace event) : Always Reason (loop.trace ++ [event]) :=
  always_append_singleton.mpr ⟨holds.reasons, reason⟩

theorem Backed.silent {loop : EventLoop} (holds : Backed loop) : Always Reason (loop.trace ++ []) := by
  rw [List.append_nil]
  exact holds.reasons

/-- **Every step keeps the history backing the calls.** -/
theorem Moves.backed {loop next : EventLoop} (moves : Moves loop next) (holds : Backed loop) :
    Backed next := by
  have unmoved : ∀ caller request phase, loop.calls caller = some (request, phase) →
      FromCall loop next request phase caller :=
    fun caller request phase called => Or.inr ⟨phase, called, id⟩
  cases moves with
  | @posts caller may =>
      refine holds.grow rfl ?_ (fun other request phase called => ?_) id
      · exact holds.silent
      · rcases update_eq_some called with ⟨_, new⟩ | ⟨_, old⟩
        · cases new
          exact Or.inl ⟨rfl, by simp⟩
        · exact Or.inr ⟨phase, old, id⟩
  | @stops caller may =>
      refine holds.grow rfl (holds.record trivial) (fun other request phase called => ?_) id
      rcases update_eq_some called with ⟨_, new⟩ | ⟨_, old⟩
      · cases new
        refine Or.inl ⟨rfl, fun number same => ?_⟩
        cases same
        exact List.mem_append_right _ (List.mem_singleton_self _)
      · exact Or.inr ⟨phase, old, id⟩
  | @pushes caller task called =>
      have record : Always Reason (loop.trace ++ [LoopEvent.appended task]) := holds.record trivial
      refine ⟨fun other task' phase called' => ?_, fun other request phase called' => ?_, fun set => ?_, record⟩
      · show phase = .begun ∨ task' ∈ appendedTasks (loop.trace ++ [LoopEvent.appended task])
        rw [appendedTasks_append]
        rcases update_eq_some called' with ⟨_, new⟩ | ⟨_, old⟩
        · cases new
          exact Or.inr (List.mem_append_right _ (List.mem_singleton_self _))
        · exact (holds.pushed other task' phase old).imp id (List.mem_append_left _)
      · rcases update_eq_some called' with ⟨_, new⟩ | ⟨_, old⟩
        · cases new
        · exact List.mem_append_left _ (holds.stopping other request phase old)
      · obtain ⟨request, member⟩ := holds.stopped set
        exact ⟨request, List.mem_append_left _ member⟩
  | @flags caller request called =>
      refine ⟨fun other task phase called' => ?_, fun other request' phase called' => ?_, fun set => ?_,
        holds.reasons⟩
      · rcases update_eq_some called' with ⟨_, new⟩ | ⟨_, old⟩
        · cases new
        · exact holds.pushed other task phase old
      · rcases update_eq_some called' with ⟨_, new⟩ | ⟨_, old⟩
        · cases new
          exact holds.stopping caller request .begun called
        · exact holds.stopping other request' phase old
      · exact ⟨request, holds.stopping caller request .begun called⟩
  | @wakes caller request called =>
      refine holds.grow (List.append_nil _).symm holds.silent (fun other request' phase called' => ?_) id
      rcases update_eq_some called' with ⟨rfl, new⟩ | ⟨_, old⟩
      · cases new
        exact Or.inr ⟨.changed, called, by simp⟩
      · exact Or.inr ⟨phase, old, id⟩
  | @returns caller request called =>
      have reason : Reason loop.trace request.returned := by
        cases request with
        | post task => exact (holds.pushed caller task .woken called).resolve_left (by simp)
        | stop request => trivial
      refine holds.grow rfl (holds.record reason) (fun other request' phase called' => ?_) id
      rcases update_eq_some called' with ⟨_, new⟩ | ⟨_, old⟩
      · cases new
      · exact Or.inr ⟨phase, old, id⟩
  | enters here => exact holds.grow (List.append_nil _).symm holds.silent unmoved (by simp)
  | exits here stopped => exact holds.grow rfl (holds.record (holds.stopped stopped)) unmoved id
  | starts here => exact holds.grow rfl (holds.record trivial) unmoved id
  | finishes here alone => exact holds.grow rfl (holds.record trivial) unmoved id
  | swaps here | empties here | turns turn alone =>
      exact holds.grow (List.append_nil _).symm holds.silent unmoved id

/-! ### The last batch -/

/-- Once the loop has been left, what was appended before that has been started or is in the batch, unless
the last swap is still to come. -/
def Leaving (loop : EventLoop) : Prop :=
  ∀ before after, loop.trace = before ++ .exited :: after → loop.point.final = true ∧
    (loop.point = .swap true ∨
      ∀ task ∈ appendedTasks before, task ∈ startedTasks loop.trace ++ loop.point.batch)

theorem made_leaving : Leaving made := by
  intro before after same
  cases before <;> cases same

/-- A step after which the part that was taken is the same. -/
theorem Leaving.same {loop next : EventLoop} (holds : Leaving loop) {events : List LoopEvent}
    (trace : next.trace = loop.trace ++ events) (few : events.length ≤ 1) (staying : .exited ∉ events)
    (taken : loop.point.final = true → next.point.final = true ∧
      (loop.point = .swap true → next.point = .swap true) ∧
      startedTasks next.trace ++ next.point.batch = startedTasks loop.trace ++ loop.point.batch) :
    Leaving next := by
  intro before after same
  obtain ⟨rest, earlier⟩ : ∃ rest, loop.trace = before ++ .exited :: rest := by
    rw [trace] at same
    rcases events with _ | ⟨event, _ | ⟨_, _⟩⟩
    · exact ⟨after, by rwa [List.append_nil] at same⟩
    · rcases snoc_eq_append_cons.mp same with ⟨_, rfl, _⟩ | ⟨rest, earlier, _⟩
      · exact absurd (List.mem_singleton_self _) staying
      · exact ⟨rest, earlier⟩
    · simp at few
  obtain ⟨left, part⟩ := holds before rest earlier
  obtain ⟨final, swap, same⟩ := taken left
  refine ⟨final, part.imp swap fun member => ?_⟩
  rwa [same]

/-- A step of a caller. -/
theorem Leaving.caller {loop next : EventLoop} (holds : Leaving loop) {events : List LoopEvent}
    (trace : next.trace = loop.trace ++ events) (few : events.length ≤ 1) (staying : .exited ∉ events)
    (nothing : startedTasks events = []) (point : next.point = loop.point) : Leaving next := by
  refine holds.same trace few staying fun left => ⟨point ▸ left, fun swap => point ▸ swap, ?_⟩
  rw [trace, startedTasks_append, nothing, List.append_nil, point]

/-- **Every step keeps the last batch complete.** -/
theorem Moves.leaving {loop next : EventLoop} (moves : Moves loop next) (queue : Queue loop)
    (holds : Leaving loop) : Leaving next := by
  have silent : loop.trace = loop.trace ++ [] := (List.append_nil _).symm
  cases moves with
  | posts may => exact holds.caller rfl (by simp [Request.called]) (by simp [Request.called]) rfl rfl
  | stops may => exact holds.caller rfl (by simp [Request.called]) (by simp [Request.called]) rfl rfl
  | pushes called => exact holds.caller rfl (by simp) (by simp) rfl rfl
  | flags called => exact holds.caller silent (by simp) (by simp) rfl rfl
  | wakes called => exact holds.caller silent (by simp) (by simp) rfl rfl
  | @returns caller request called =>
      refine holds.caller rfl (by simp) ?_ (tasks_of_returned request).2.1 rfl
      cases request <;> simp [Request.returned]
  | enters here =>
      refine holds.same silent (by simp) (by simp) fun left => ?_
      rw [here] at left
      cases left
  | exits here stopped =>
      intro before after same
      rcases snoc_eq_append_cons.mp same with _ | ⟨rest, earlier, _⟩
      · exact ⟨rfl, Or.inl rfl⟩
      · have left := (holds before rest earlier).1
        rw [here] at left
        cases left
  | @swaps final here =>
      intro before after same
      have left := (holds before after same).1
      have order := queue.order
      rw [here] at left order
      refine ⟨left, Or.inr fun task member => ?_⟩
      -- everything appended so far has been started or is in the queue, which becomes the batch
      have appended : task ∈ appendedTasks loop.trace := by
        rw [same, appendedTasks_append]
        exact List.mem_append_left _ member
      rw [order, show (Point.swap final).batch = [] from rfl, List.append_nil] at appended
      exact appended
  | @starts task batch final here =>
      refine holds.same rfl (by simp) (by simp) fun left => ?_
      rw [here] at left ⊢
      refine ⟨left, by simp, ?_⟩
      show startedTasks (loop.trace ++ [LoopEvent.started task]) ++ batch =
        startedTasks loop.trace ++ task :: batch
      rw [startedTasks_append, List.append_assoc]
      rfl
  | @finishes task batch final here alone =>
      refine holds.same rfl (by simp) (by simp) fun left => ?_
      rw [here] at left ⊢
      refine ⟨left, by simp, ?_⟩
      show startedTasks (loop.trace ++ [LoopEvent.finished task]) ++ batch = startedTasks loop.trace ++ batch
      rw [startedTasks_append]
      exact congrArg (· ++ batch) (List.append_nil _)
  | @empties final here =>
      refine holds.same silent (by simp) (by simp) fun left => ?_
      rw [here] at left ⊢
      obtain rfl : final = true := left
      exact ⟨rfl, by simp, rfl⟩
  | turns turn alone =>
      refine holds.same silent (by simp) (by simp) fun left => ?_
      rw [turn.outside.1.2.2] at left
      cases left

/-- The loop is left by its test only. -/
theorem Moves.left {loop next : EventLoop} (moves : Moves loop next)
    (holds : loop.point.final = true → .exited ∈ loop.trace) :
    next.point.final = true → .exited ∈ next.trace := by
  intro left
  cases moves with
  | exits here stopped => exact List.mem_append_right _ (List.mem_singleton_self _)
  | posts may | stops may | pushes called | returns called => exact List.mem_append_left _ (holds left)
  | flags called | wakes called => exact holds left
  | enters here => cases left
  | swaps here => exact holds (by rw [here]; exact left)
  | starts here => exact List.mem_append_left _ (holds (by rw [here]; exact left))
  | finishes here alone => exact List.mem_append_left _ (holds (by rw [here]; exact left))
  | @empties final here =>
      cases final with
      | true => exact holds (by rw [here]; rfl)
      | false => cases left
  | turns turn alone =>
      rw [show _ = false from turn.outside.2.2.2] at left
      cases left

/-! ### Every run -/

/-- What holds of an event loop in every state. -/
structure Good (loop : EventLoop) : Prop where
  queue : Queue loop
  numbered : Numbered loop
  backed : Backed loop
  leaving : Leaving loop
  left : loop.point.final = true → .exited ∈ loop.trace

theorem run_good {labels : List Label} {loop : EventLoop} (ran : machine.run made labels = some loop) :
    Good loop := by
  refine Machine.invariant_run Good ?_
    ⟨made_queue, made_numbered, made_backed, made_leaving, fun left => by cases left⟩ ran
  intro loop label next good stepped
  have moves := step_moves stepped
  exact ⟨moves.queue good.queue, moves.numbered good.numbered, moves.backed good.backed,
    moves.leaving good.queue good.leaving, moves.left good.left⟩

/-- A task that was appended before the loop's last test has returned when `run()` has. -/
theorem Good.finished {loop : EventLoop} (good : Good loop) (returned : loop.point = .returned)
    {before after : List LoopEvent} (exited : loop.trace = before ++ .exited :: after) {task : ℕ}
    (appended : task ∈ appendedTasks before) : .finished task ∈ loop.trace := by
  have taken := (good.leaving before after exited).2.resolve_left (by rw [returned]; simp) task appended
  have ran := good.queue.ran
  rw [returned] at taken ran
  rw [show Point.returned.batch = [] from rfl, List.append_nil, ran,
    show Point.returned.current = [] from rfl, List.append_nil] at taken
  exact mem_finishedTasks.mp taken

/-- **Posted tasks run in order, at most once, and none is lost when the loop is stopped.** In every run the
started tasks are the first of the appended ones, which are all different; `run()` returns only if some
`stop` was called before the loop's last test, and when it has returned, every task whose `post` returned
before such a call of `stop` has run. -/
theorem posted_tasks_run {labels : List Label} {loop : EventLoop}
    (ran : machine.run made labels = some loop) :
    startedTasks loop.trace <+: appendedTasks loop.trace ∧ (appendedTasks loop.trace).Nodup ∧
      (startedTasks loop.trace).Nodup ∧
      (loop.point = .returned →
        (∃ early request late rest,
          loop.trace = early ++ .stopCalled request :: late ++ .exited :: rest) ∧
        ∀ early request late rest, loop.trace = early ++ .stopCalled request :: late ++ .exited :: rest →
          ∀ task, .postReturned task ∈ early → .finished task ∈ loop.trace) := by
  have good := run_good ran
  have order : startedTasks loop.trace <+: appendedTasks loop.trace := by
    rw [good.queue.order, List.append_assoc]
    exact List.prefix_append _ _
  refine ⟨order, good.numbered.once, good.numbered.once.sublist order.sublist, fun returned => ⟨?_, ?_⟩⟩
  · obtain ⟨before, rest, exited⟩ := List.append_of_mem (good.left (by rw [returned]; rfl))
    obtain ⟨request, member⟩ := good.backed.reasons before .exited rest exited
    obtain ⟨early, late, rfl⟩ := List.append_of_mem member
    exact ⟨early, request, late, rest, exited⟩
  · intro early request late rest exited task posted
    refine good.finished returned exited ?_
    -- the push came before the return of `post`
    obtain ⟨first, second, rfl⟩ := List.append_of_mem posted
    have pushed : task ∈ appendedTasks first :=
      good.backed.reasons first (.postReturned task)
        (second ++ .stopCalled request :: late ++ .exited :: rest) (by rw [exited]; simp)
    simp only [appendedTasks_append, List.mem_append]
    exact Or.inl (Or.inl pushed)

/-- Thread 0 posts a task, which posts another one when it runs; later it posts a third, thread 1 calls
`stop`, and the loop is left. -/
def threeTasks : List Label :=
  [.post (.thread 0), .call (.thread 0), .call (.thread 0), .call (.thread 0),
    .loop, .loop, .loop, .loop, .post .loop, .call .loop, .call .loop, .call .loop, .loop, .loop,
    .ready [.wakeup], .loop, .loop, .loop,
    .post (.thread 0), .call (.thread 0), .call (.thread 0), .call (.thread 0),
    .stop (.thread 1), .call (.thread 1), .call (.thread 1), .call (.thread 1),
    .loop, .loop, .loop, .loop, .loop, .loop, .loop, .loop]

/-- The third task's `post` had returned when `stop` was called, and the task runs after the loop. -/
theorem threeTasks_run : ∃ loop, machine.run made threeTasks = some loop ∧ loop.point = .returned ∧
    startedTasks loop.trace = [0, 1, 2] ∧ .finished 2 ∈ loop.trace := by
  have ran : machine.run made threeTasks = some ((machine.run made threeTasks).get (by decide +kernel)) :=
    (Option.some_get _).symm
  refine ⟨_, ran, by decide +kernel, by decide +kernel, ?_⟩
  exact ((posted_tasks_run ran).2.2.2 (by decide +kernel)).2
    [.appended 0, .postReturned 0, .started 0, .appended 1, .postReturned 1, .finished 0,
      .appended 2, .postReturned 2] 0 [.stopReturned 0]
    [.started 1, .finished 1, .started 2, .finished 2] (by decide +kernel) 2 (by decide +kernel)

end EventLoop

end Insist.MiniRpc
