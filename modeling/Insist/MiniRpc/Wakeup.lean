/-
**What a poster and a stopper can rely on.**

* `Awake` — from the test of `stopped_` on, a set flag, and from the swap on, a queued task, leave the eventfd
  readable or its writer on the way; `no_lost_wakeup` reads this off where the loop is blocked;
* `Standing` — as long as no `stop` sets the flag before `run()` has reset it, a flag that was set stays set;
* `stop_stands` — in every run that meets this, a `stop` that has returned is not undone and at most one more
  poll begins; and whenever a `stop` sets the flag before the reset, the loop can go on as if it had not been
  called.
-/
import Insist.MiniRpc.EventLoop

namespace Insist.MiniRpc

open Lib

/-- After the test of `stopped_`, before `epoll_wait` has returned. -/
def Point.tested : Point → Bool
  | .swap false | .drain _ false | .running _ _ false | .poll => true
  | _ => false

/-- After the swap, before `epoll_wait` has returned. -/
def Point.swapped : Point → Bool
  | .drain _ false | .running _ _ false | .poll => true
  | _ => false

/-- The polls that are still ahead although the test of `stopped_` is behind. -/
def Point.pollsOwed : Point → ℕ
  | .swap false | .drain _ false | .running _ _ false => 1
  | _ => 0

theorem Point.tested_of_swapped {point : Point} (swapped : point.swapped = true) :
    point.tested = true := by
  unfold Point.swapped at swapped
  split at swapped
  · rfl
  · rfl
  · rfl
  · cases swapped

namespace EventLoop

/-! ### No lost wakeup -/

/-- The eventfd is readable, or some call is between its change and its write. -/
def Pending (loop : EventLoop) : Prop :=
  0 < loop.counter ∨ ∃ caller request, loop.calls caller = some (request, .changed)

/-- A caller that is not between its change and its write moves. -/
theorem Pending.of_update {loop next : EventLoop} (pending : Pending loop) {caller : Caller}
    {state : Option (Request × Phase)} (counter : next.counter = loop.counter)
    (calls : next.calls = Function.update loop.calls caller state)
    (elsewhere : ∀ request, loop.calls caller ≠ some (request, .changed)) : Pending next := by
  unfold Pending
  rw [counter, calls]
  refine pending.imp id ?_
  rintro ⟨other, request, changed⟩
  have different : other ≠ caller := by
    rintro rfl
    exact elsewhere request changed
  exact ⟨other, request, by rwa [Function.update_of_ne different]⟩

/-- What is due leaves the loop awake. -/
structure Awake (loop : EventLoop) : Prop where
  tasks : loop.point.swapped = true → loop.tasks ≠ [] → Pending loop
  stopped : loop.point.tested = true → loop.stopped = true → Pending loop

/-- Outside the stretch from the test of `stopped_` to `epoll_wait` nothing is due. -/
theorem Awake.of_untested {loop : EventLoop} (untested : loop.point.tested = false) : Awake loop := by
  constructor
  · intro swapped
    rw [Point.tested_of_swapped swapped] at untested
    cases untested
  · intro tested
    rw [untested] at tested
    cases tested

/-- A step after which as much is pending, and no more is due. -/
theorem Awake.same {loop next : EventLoop} (awake : Awake loop) (pending : Pending loop → Pending next)
    (tasks : next.point.swapped = true → loop.point.swapped = true ∧ next.tasks = loop.tasks)
    (stopped : next.point.tested = true → loop.point.tested = true ∧ next.stopped = loop.stopped) :
    Awake next := by
  constructor
  · intro swapped due
    obtain ⟨before, same⟩ := tasks swapped
    rw [same] at due
    exact pending (awake.tasks before due)
  · intro tested due
    obtain ⟨before, same⟩ := stopped tested
    rw [same] at due
    exact pending (awake.stopped before due)

/-- The steps of the loop thread that concern no task go through the test of `stopped_`. -/
theorem Turn.tested {loop : EventLoop} {point : Point} {counter : ℕ} (turn : Turn loop point counter) :
    point.swapped = false ∧ (point.tested = true → loop.stopped = false) := by
  cases turn with
  | goesOn here running => exact ⟨rfl, fun _ => running⟩
  | ready | interrupted | threw | dispatched | wakeup | other | drains | drained | handled =>
      exact ⟨rfl, fun impossible => by cases impossible⟩

/-- **Every step keeps the loop awake.** -/
theorem Moves.awake {loop next : EventLoop} (moves : Moves loop next) (awake : Awake loop) :
    Awake next := by
  have idle {caller : Caller} (may : loop.mayCall caller = true) (request : Request) :
      loop.calls caller ≠ some (request, .changed) := by
    intro changed
    simp [mayCall, changed] at may
  cases moves with
  | @posts caller may =>
      exact awake.same (fun pending => pending.of_update rfl rfl (idle may)) (fun here => ⟨here, rfl⟩)
        fun here => ⟨here, rfl⟩
  | @stops caller may =>
      exact awake.same (fun pending => pending.of_update rfl rfl (idle may)) (fun here => ⟨here, rfl⟩)
        fun here => ⟨here, rfl⟩
  | @pushes caller task called =>
      have pending : Pending (loop.goOn caller (.post task, .begun)) :=
        Or.inr ⟨caller, .post task, Function.update_self caller _ _⟩
      exact ⟨fun _ _ => pending, fun _ _ => pending⟩
  | @flags caller request called =>
      have pending : Pending (loop.goOn caller (.stop request, .begun)) :=
        Or.inr ⟨caller, .stop request, Function.update_self caller _ _⟩
      exact ⟨fun _ _ => pending, fun _ _ => pending⟩
  | @wakes caller request called =>
      have pending : Pending (loop.goOn caller (request, .changed)) := by
        refine Or.inl ?_
        show 0 < if loop.counter < maxCounter then loop.counter + 1 else loop.counter
        unfold maxCounter
        split_ifs <;> omega
      exact ⟨fun _ _ => pending, fun _ _ => pending⟩
  | returns called =>
      exact awake.same (fun pending => pending.of_update rfl rfl (by simp [called]))
        (fun here => ⟨here, rfl⟩) fun here => ⟨here, rfl⟩
  | enters here => exact Awake.of_untested rfl
  | exits here stopped => exact Awake.of_untested rfl
  | @swaps final here =>
      constructor
      · intro _ due
        exact absurd rfl due
      · intro tested due
        refine awake.stopped ?_ due
        rw [here]
        cases final with
        | true => cases tested
        | false => rfl
  | @starts task batch final here =>
      have same : (Point.running task batch final).swapped = loop.point.swapped ∧
          (Point.running task batch final).tested = loop.point.tested := by
        rw [here]
        cases final <;> exact ⟨rfl, rfl⟩
      exact awake.same id (fun swapped => ⟨same.1 ▸ swapped, rfl⟩) fun tested => ⟨same.2 ▸ tested, rfl⟩
  | @finishes task batch final here alone =>
      have same : (Point.drain batch final).swapped = loop.point.swapped ∧
          (Point.drain batch final).tested = loop.point.tested := by
        rw [here]
        cases final <;> exact ⟨rfl, rfl⟩
      exact awake.same id (fun swapped => ⟨same.1 ▸ swapped, rfl⟩) fun tested => ⟨same.2 ▸ tested, rfl⟩
  | @empties final here =>
      cases final with
      | true => exact Awake.of_untested rfl
      | false =>
          have before : loop.point.swapped = true ∧ loop.point.tested = true := by
            rw [here]
            exact ⟨rfl, rfl⟩
          exact awake.same id (fun _ => ⟨before.1, rfl⟩) fun _ => ⟨before.2, rfl⟩
  | turns turn alone =>
      constructor
      · intro swapped
        rw [show _ = false from turn.tested.1] at swapped
        cases swapped
      · intro tested due
        rw [show _ = false from turn.tested.2 tested] at due
        cases due

/-- **No lost wakeup.** Whenever the loop thread is blocked in `epoll_wait` while a task is queued or
`stopped_` is set, the eventfd is readable, or some `post` or `stop` is between its change and its write. -/
theorem no_lost_wakeup {labels : List Label} {loop : EventLoop} (ran : machine.run made labels = some loop)
    (blocked : loop.point = .poll) (due : loop.tasks ≠ [] ∨ loop.stopped = true) :
    0 < loop.counter ∨ ∃ caller request, loop.calls caller = some (request, .changed) := by
  have awake : Awake loop := by
    refine Machine.invariant_run Awake (fun awake stepped => ?_) (Awake.of_untested rfl) ran
    exact (step_moves stepped).awake awake
  rcases due with queued | stopped
  · exact awake.tasks (by rw [blocked]; rfl) queued
  · exact awake.stopped (by rw [blocked]; rfl) stopped

/-- The loop blocks, a thread pushes a task and is about to write, and another one calls `stop`. -/
def pushedWhileBlocked : List Label :=
  [.loop, .loop, .loop, .loop, .post (.thread 0), .call (.thread 0), .stop (.thread 1), .call (.thread 1),
    .call (.thread 1)]

theorem pushedWhileBlocked_awake : ∃ loop, machine.run made pushedWhileBlocked = some loop ∧
    loop.point = .poll ∧ loop.tasks = [0] ∧
    (0 < loop.counter ∨ ∃ caller request, loop.calls caller = some (request, .changed)) := by
  have ran : machine.run made pushedWhileBlocked =
      some ((machine.run made pushedWhileBlocked).get (by decide +kernel)) := (Option.some_get _).symm
  exact ⟨_, ran, by decide +kernel, by decide +kernel,
    no_lost_wakeup ran (by decide +kernel) (Or.inl (by decide +kernel))⟩

/-! ### A stop that stands -/

/-- Whether the step sets `stopped_`. -/
def setsFlag (loop : EventLoop) : Label → Bool
  | .call caller =>
      match loop.calls caller with
      | some (.stop _, .begun) => true
      | _ => false
  | _ => false

/-- An event loop in which no `stop` sets the flag before `run()` has reset it. -/
def timely : Machine EventLoop Label :=
  machine.guarded fun loop label => loop.setsFlag label = true → loop.point ≠ .entered

/-- Some `stop` has set the flag. -/
def Flagged (loop : EventLoop) : Prop :=
  (∃ request, LoopEvent.stopReturned request ∈ loop.trace) ∨
    ∃ caller request phase, loop.calls caller = some (.stop request, phase) ∧ phase ≠ .begun

/-- A flag that was set is still set, and the reset is over. -/
structure Standing (loop : EventLoop) : Prop where
  flagged : loop.Flagged → loop.stopped = true ∧ loop.point ≠ .entered
  entered : loop.point = .entered → loop.stopped = false

/-- A caller moves, and no `stop` has set the flag by it. -/
theorem Flagged.of_update {loop next : EventLoop} (flagged : next.Flagged) {caller : Caller}
    {state : Option (Request × Phase)}
    (trace : ∀ request, LoopEvent.stopReturned request ∈ next.trace → loop.Flagged)
    (calls : next.calls = Function.update loop.calls caller state)
    (here : ∀ request phase, state = some (.stop request, phase) → phase ≠ .begun → loop.Flagged) :
    loop.Flagged := by
  rcases flagged with ⟨request, returned⟩ | ⟨other, request, phase, called, changed⟩
  · exact trace request returned
  · rw [calls] at called
    by_cases same : other = caller
    · rw [same, Function.update_self] at called
      exact here request phase called changed
    · rw [Function.update_of_ne same] at called
      exact Or.inr ⟨other, request, phase, called, changed⟩

/-- A step that leaves every call where it is. -/
theorem Flagged.of_same {loop next : EventLoop} (flagged : next.Flagged)
    (trace : ∀ request, LoopEvent.stopReturned request ∈ next.trace →
      LoopEvent.stopReturned request ∈ loop.trace)
    (calls : next.calls = loop.calls) : loop.Flagged := by
  rcases flagged with ⟨request, returned⟩ | called
  · exact Or.inl ⟨request, trace request returned⟩
  · rw [calls] at called
    exact Or.inr called

/-- Only the reset leaves `entered`, and nothing leads there. -/
theorem Turn.past {loop : EventLoop} {point : Point} {counter : ℕ} (turn : Turn loop point counter) :
    loop.point ≠ .entered ∧ point ≠ .entered := by
  cases turn with
  | goesOn here _ | ready here _ | interrupted here | threw here | dispatched here | wakeup here
  | other here | drains here _ | drained here _ | handled here =>
      rw [here]
      exact ⟨Point.noConfusion, Point.noConfusion⟩

theorem made_standing : Standing made where
  flagged flagged := by
    rcases flagged with ⟨request, returned⟩ | ⟨caller, request, phase, called, _⟩
    · cases returned
    · cases called
  entered _ := rfl

/-- A step that sets no flag, resets none and does not lead back into the reset. -/
theorem Standing.same {loop next : EventLoop} (standing : Standing loop)
    (flagged : next.Flagged → loop.Flagged) (stopped : next.stopped = loop.stopped)
    (entered : next.point = .entered → loop.point = .entered) : Standing next := by
  constructor
  · intro later
    obtain ⟨set, past⟩ := standing.flagged (flagged later)
    exact ⟨stopped.trans set, fun back => past (entered back)⟩
  · intro back
    exact stopped.trans (standing.entered (entered back))

/-- **Every step keeps a flag that was set**, if none is set before the reset. -/
theorem Moves.standing {loop next : EventLoop} (moves : Moves loop next) (standing : Standing loop)
    (timely : loop.point = .entered → next.stopped = true → loop.stopped = true) : Standing next := by
  cases moves with
  | @posts caller may =>
      refine standing.same (fun flagged => flagged.of_update ?_ rfl ?_) rfl id
      · intro request returned
        exact Or.inl ⟨request, by simpa [begin, Request.called] using returned⟩
      · intro request phase called
        cases called
  | @stops caller may =>
      refine standing.same (fun flagged => flagged.of_update ?_ rfl ?_) rfl id
      · intro request returned
        exact Or.inl ⟨request, by simpa [begin, Request.called] using returned⟩
      · intro request phase called changed
        cases called
        exact absurd rfl changed
  | @pushes caller task called =>
      refine standing.same (fun flagged => flagged.of_update ?_ rfl ?_) rfl id
      · intro request returned
        exact Or.inl ⟨request, by simpa [goOn, change] using returned⟩
      · intro request phase called
        cases called
  | @flags caller request called =>
      have past : loop.point ≠ .entered := by
        intro here
        have set := standing.entered here
        rw [timely here rfl] at set
        cases set
      exact ⟨fun _ => ⟨rfl, past⟩, fun here => absurd here past⟩
  | @wakes caller request called =>
      refine standing.same (fun flagged => flagged.of_update ?_ rfl ?_) rfl id
      · intro request returned
        exact Or.inl ⟨request, returned⟩
      · intro stop phase now _
        cases now
        exact Or.inr ⟨caller, stop, .changed, called, Phase.noConfusion⟩
  | @returns caller request called =>
      refine standing.same (fun flagged => flagged.of_update ?_ rfl ?_) rfl id
      · intro stop returned
        rcases List.mem_append.mp returned with before | now
        · exact Or.inl ⟨stop, before⟩
        · cases request with
          | post task => simp [Request.returned] at now
          | stop request => exact Or.inr ⟨caller, request, .woken, called, Phase.noConfusion⟩
      · intro stop phase now
        cases now
  | enters here =>
      constructor
      · intro flagged
        exact absurd here (standing.flagged (flagged.of_same (fun _ => id) rfl)).2
      · intro back
        cases back
  | exits here stopped =>
      refine standing.same (fun flagged => flagged.of_same ?_ rfl) rfl Point.noConfusion
      intro request returned
      simpa using returned
  | swaps here =>
      exact standing.same (fun flagged => flagged.of_same (fun _ => id) rfl) rfl Point.noConfusion
  | starts here =>
      refine standing.same (fun flagged => flagged.of_same ?_ rfl) rfl Point.noConfusion
      intro request returned
      simpa using returned
  | finishes here alone =>
      refine standing.same (fun flagged => flagged.of_same ?_ rfl) rfl Point.noConfusion
      intro request returned
      simpa using returned
  | @empties final here =>
      refine standing.same (fun flagged => flagged.of_same (fun _ => id) rfl) rfl ?_
      intro back
      cases final with
      | true => cases back
      | false => cases back
  | turns turn alone =>
      exact standing.same (fun flagged => flagged.of_same (fun _ => id) rfl) rfl
        fun back => absurd back turn.past.2

/-- Before the reset, only a `stop` that goes on sets the flag. -/
theorem stopped_of_step {loop next : EventLoop} {label : Label} (stepped : loop.step label = some next)
    (unset : loop.setsFlag label = false) (here : loop.point = .entered) (stopped : next.stopped = true) :
    loop.stopped = true := by
  unfold step at stepped
  cases label with
  | post caller | stop caller =>
      obtain ⟨_, same⟩ := Option.ite_none_right_eq_some.mp stepped
      cases same
      exact stopped
  | call caller =>
      obtain ⟨⟨request, phase⟩, called, rfl⟩ := Option.map_eq_some_iff.mp stepped
      cases phase with
      | begun =>
          cases request with
          | post task => exact stopped
          | stop request =>
              rw [setsFlag, called] at unset
              cases unset
      | changed => exact stopped
      | woken => exact stopped
  | loop =>
      obtain ⟨_, advanced⟩ := Option.ite_none_right_eq_some.mp stepped
      unfold advance at advanced
      rw [here] at advanced
      cases advanced
      cases stopped
  | ready ready | pollFailed interrupted =>
      obtain ⟨polling, same⟩ := Option.ite_none_right_eq_some.mp stepped
      cases same
      exact stopped

theorem standing_step {loop next : EventLoop} {label : Label} (standing : Standing loop)
    (stepped : timely.step loop label = some next) : Standing next := by
  obtain ⟨unset, moved⟩ := Machine.guarded_step.mp stepped
  refine (step_moves moved).standing standing fun here => ?_
  by_cases sets : loop.setsFlag label = true
  · exact absurd here (unset sets)
  · exact stopped_of_step moved (eq_false_of_ne_true sets) here


/-! ### The polls after a stop -/

/-- How many polls a run begins. -/
def pollsBegun : EventLoop → List Label → ℕ
  | _, [] => 0
  | loop, label :: labels =>
      match loop.step label with
      | none => 0
      | some next => (if loop.point ≠ .poll ∧ next.point = .poll then 1 else 0) + pollsBegun next labels

/-- A step that keeps the place of the loop thread begins no poll. -/
theorem polls_of_same {loop next : EventLoop} (same : next.point = loop.point) :
    (if loop.point ≠ .poll ∧ next.point = .poll then 1 else 0) + next.point.pollsOwed ≤
      loop.point.pollsOwed := by
  rw [same, if_neg fun both => both.1 both.2]
  omega

/-- A step of the loop thread to a place where no more polls are owed, and that is not `epoll_wait`. -/
theorem polls_of_elsewhere {loop next : EventLoop} (elsewhere : next.point ≠ .poll)
    (owed : next.point.pollsOwed ≤ loop.point.pollsOwed) :
    (if loop.point ≠ .poll ∧ next.point = .poll then 1 else 0) + next.point.pollsOwed ≤
      loop.point.pollsOwed := by
  rw [if_neg fun both => elsewhere both.2]
  omega

/-- With the flag set, the steps that concern no task lead to no further poll. -/
theorem Turn.polls {loop : EventLoop} {point : Point} {counter : ℕ} (turn : Turn loop point counter)
    (stopped : loop.stopped = true) : point ≠ .poll ∧ point.pollsOwed = 0 := by
  cases turn with
  | goesOn here running =>
      rw [stopped] at running
      cases running
  | ready | interrupted | threw | dispatched | wakeup | other | drains | drained | handled =>
      exact ⟨Point.noConfusion, rfl⟩

/-- **With the flag set, a poll is begun only where it was owed.** -/
theorem Moves.polls {loop next : EventLoop} (moves : Moves loop next) (stopped : loop.stopped = true) :
    (if loop.point ≠ .poll ∧ next.point = .poll then 1 else 0) + next.point.pollsOwed ≤
      loop.point.pollsOwed := by
  cases moves with
  | posts | stops | pushes | flags | wakes | returns => exact polls_of_same rfl
  | enters | exits => exact polls_of_elsewhere Point.noConfusion (Nat.zero_le _)
  | @swaps final here =>
      refine polls_of_elsewhere Point.noConfusion ?_
      rw [here]
      cases final <;> exact Nat.le_refl _
  | @starts task batch final here =>
      refine polls_of_elsewhere Point.noConfusion ?_
      rw [here]
      cases final <;> exact Nat.le_refl _
  | @finishes task batch final here =>
      refine polls_of_elsewhere Point.noConfusion ?_
      rw [here]
      cases final <;> exact Nat.le_refl _
  | @empties final here =>
      rw [here]
      cases final with
      | true => exact Nat.zero_le _
      | false => exact Nat.le_refl _
  | turns turn alone =>
      obtain ⟨elsewhere, owed⟩ := turn.polls stopped
      exact polls_of_elsewhere elsewhere (owed ▸ Nat.zero_le _)

/-- Past the reset, the flag stays and the reset does not come back. -/
theorem Moves.stays {loop next : EventLoop} (moves : Moves loop next) (stopped : loop.stopped = true)
    (past : loop.point ≠ .entered) : next.stopped = true ∧ next.point ≠ .entered := by
  cases moves with
  | posts | stops | wakes | returns => exact ⟨stopped, past⟩
  | pushes => exact ⟨stopped, past⟩
  | flags => exact ⟨rfl, past⟩
  | enters here => exact absurd here past
  | exits | swaps | starts | finishes => exact ⟨stopped, Point.noConfusion⟩
  | @empties final here =>
      refine ⟨stopped, ?_⟩
      cases final with
      | true => exact Point.noConfusion
      | false => exact Point.noConfusion
  | turns turn => exact ⟨stopped, turn.past.2⟩

/-- Once the flag is set and the reset is over, every further run keeps the flag and begins no more polls
than were owed. -/
theorem polls_of_stopped {loop final : EventLoop} {labels : List Label}
    (ran : machine.run loop labels = some final) (stopped : loop.stopped = true)
    (past : loop.point ≠ .entered) :
    final.stopped = true ∧ pollsBegun loop labels ≤ loop.point.pollsOwed := by
  induction labels generalizing loop with
  | nil =>
      cases ran
      exact ⟨stopped, Nat.zero_le _⟩
  | cons label labels ih =>
      obtain ⟨next, stepped, rest⟩ := (machine.run_cons_eq_some).mp ran
      have moves := step_moves stepped
      obtain ⟨still, beyond⟩ := moves.stays stopped past
      obtain ⟨atEnd, later⟩ := ih rest still beyond
      refine ⟨atEnd, ?_⟩
      have now := moves.polls stopped
      have unfolded : pollsBegun loop (label :: labels) =
          (if loop.point ≠ .poll ∧ next.point = .poll then 1 else 0) + pollsBegun next labels := by
        rw [pollsBegun, show loop.step label = some next from stepped]
      omega

/-! ### The calls of the loop thread -/

/-- The loop thread calls `post` and `stop` only from a task or a handler. -/
def InCallback (loop : EventLoop) : Prop :=
  loop.calls .loop ≠ none → loop.point.inCallback = true

/-- A caller moves; where it is the loop thread, it is in a callback. -/
theorem InCallback.of_update {loop next : EventLoop} (inside : InCallback loop) {caller : Caller}
    {state : Option (Request × Phase)} (point : next.point = loop.point)
    (calls : next.calls = Function.update loop.calls caller state)
    (here : caller = .loop → loop.point.inCallback = true) : InCallback next := by
  intro calling
  rw [point]
  rw [calls] at calling
  by_cases same : caller = .loop
  · exact here same
  · rw [Function.update_of_ne (Ne.symm same)] at calling
    exact inside calling

theorem InCallback.alone {loop : EventLoop} (inside : InCallback loop)
    (outside : loop.point.inCallback = false) : loop.calls .loop = none := by
  by_contra calling
  rw [inside calling] at outside
  cases outside

/-- The loop thread moves on, in no call. -/
theorem InCallback.of_alone {loop next : EventLoop} (alone : loop.calls .loop = none)
    (calls : next.calls = loop.calls) : InCallback next := by
  intro calling
  rw [calls] at calling
  exact absurd alone calling

theorem Moves.inCallback {loop next : EventLoop} (moves : Moves loop next) (inside : InCallback loop) :
    InCallback next := by
  have calling {caller : Caller} {state : Request × Phase} (called : loop.calls caller = some state) :
      caller = .loop → loop.point.inCallback = true := by
    rintro rfl
    refine inside ?_
    rw [called]
    exact Option.some_ne_none state
  have may_loop {caller : Caller} (may : loop.mayCall caller = true) :
      caller = .loop → loop.point.inCallback = true := by
    rintro rfl
    exact (Bool.and_eq_true_iff.mp may).2
  cases moves with
  | posts may => exact inside.of_update rfl rfl (may_loop may)
  | stops may => exact inside.of_update rfl rfl (may_loop may)
  | pushes called => exact inside.of_update rfl rfl (calling called)
  | flags called => exact inside.of_update rfl rfl (calling called)
  | wakes called => exact inside.of_update rfl rfl (calling called)
  | returns called => exact inside.of_update rfl rfl (calling called)
  | enters here => exact InCallback.of_alone (inside.alone (by rw [here]; rfl)) rfl
  | exits here stopped => exact InCallback.of_alone (inside.alone (by rw [here]; rfl)) rfl
  | swaps here => exact InCallback.of_alone (inside.alone (by rw [here]; rfl)) rfl
  | starts here => exact InCallback.of_alone (inside.alone (by rw [here]; rfl)) rfl
  | finishes here alone => exact InCallback.of_alone alone rfl
  | empties here => exact InCallback.of_alone (inside.alone (by rw [here]; rfl)) rfl
  | turns turn alone =>
      refine InCallback.of_alone ?_ rfl
      rcases alone with alone | polling
      · exact alone
      · exact inside.alone (by rw [polling]; rfl)

/-- A call that is under way goes on. -/
theorem step_call {loop : EventLoop} {caller : Caller} {state : Request × Phase}
    (called : loop.calls caller = some state) :
    machine.step loop (.call caller) = some (loop.goOn caller state) := by
  show (loop.calls caller).map (loop.goOn caller) = _
  rw [called]
  rfl

/-- A `stop` that sets the flag before the reset can return, and then the reset undoes it. -/
theorem undone_of_flags {loop : EventLoop} (inside : InCallback loop) {caller : Caller} {request : ℕ}
    (here : loop.point = .entered) (called : loop.calls caller = some (.stop request, .begun)) :
    ∃ final, machine.run loop [.call caller, .call caller, .call caller, .loop] = some final ∧
      .stopReturned request ∈ final.trace ∧ final.point = .test ∧ final.stopped = false := by
  have alone : loop.calls .loop = none := inside.alone (by rw [here]; rfl)
  have thread : Caller.loop ≠ caller := by
    rintro rfl
    rw [alone] at called
    cases called
  let flagged := loop.goOn caller (.stop request, .begun)
  let woken := flagged.goOn caller (.stop request, .changed)
  let returned := woken.goOn caller (.stop request, .woken)
  have first : machine.step loop (.call caller) = some flagged := step_call called
  have second : machine.step flagged (.call caller) = some woken :=
    step_call (Function.update_self caller _ loop.calls)
  have third : machine.step woken (.call caller) = some returned :=
    step_call (Function.update_self caller _ flagged.calls)
  have outside : returned.calls .loop = none := by
    show Function.update (Function.update (Function.update loop.calls caller _) caller _) caller _ .loop = none
    rw [Function.update_of_ne thread, Function.update_of_ne thread, Function.update_of_ne thread, alone]
  have last : machine.step returned .loop = some { returned with stopped := false, point := .test } := by
    show (if (returned.calls .loop).isNone then returned.advance else none) = _
    rw [if_pos (by rw [outside]; rfl), advance, show returned.point = .entered from here]
  refine ⟨{ returned with stopped := false, point := .test }, ?_, ?_, rfl, rfl⟩
  · rw [Machine.run_cons, first, Option.bind_some, Machine.run_cons, second, Option.bind_some,
      Machine.run_cons, third, Option.bind_some, Machine.run_singleton, last]
  · exact List.mem_append_right _ List.mem_cons_self

/-- **A stop stands if the reset came first, and only then.** In every run in which no `stop` sets the flag
before `run()` has reset it, a `stop` that has returned is not undone: from there on the flag is set, and no
poll is begun but the one whose test of `stopped_` is already behind. Whenever a `stop` is about to set the
flag before the reset, it can return and then be undone while `run()` goes on. -/
theorem stop_stands {labels : List Label} {loop : EventLoop} (ran : machine.run made labels = some loop) :
    (timely.run made labels = some loop →
      ∀ request, .stopReturned request ∈ loop.trace →
        loop.stopped = true ∧ ∀ (later : List Label) (final : EventLoop),
          machine.run loop later = some final →
          final.stopped = true ∧ pollsBegun loop later ≤ loop.point.pollsOwed) ∧
    ∀ caller request, loop.point = .entered → loop.calls caller = some (.stop request, .begun) →
      ∃ (later : List Label) (final : EventLoop), machine.run loop later = some final ∧
        .stopReturned request ∈ final.trace ∧ final.point ≠ .returned ∧ final.stopped = false := by
  constructor
  · intro inTime request returned
    have standing : Standing loop :=
      Machine.invariant_run Standing standing_step made_standing inTime
    obtain ⟨stopped, past⟩ := standing.flagged (Or.inl ⟨request, returned⟩)
    exact ⟨stopped, fun later final further => polls_of_stopped further stopped past⟩
  · intro caller request here called
    have inside : InCallback loop := by
      refine Machine.invariant_run InCallback (fun inside stepped => ?_) (fun calling => ?_) ran
      · exact (step_moves stepped).inCallback inside
      · exact absurd rfl calling
    obtain ⟨final, further, returned, test, undone⟩ := undone_of_flags inside here called
    refine ⟨_, final, further, returned, ?_, undone⟩
    rw [test]
    exact Point.noConfusion

/-- `run()` resets the flag, and then another thread calls `stop`. -/
def stopAfterReset : List Label :=
  [.loop, .loop, .stop (.thread 0), .call (.thread 0), .call (.thread 0), .call (.thread 0)]

theorem stopAfterReset_stands : ∃ loop, machine.run made stopAfterReset = some loop ∧
    timely.run made stopAfterReset = some loop ∧ .stopReturned 0 ∈ loop.trace ∧ loop.stopped = true := by
  have inTime : timely.run made stopAfterReset =
      some ((timely.run made stopAfterReset).get (by decide +kernel)) := (Option.some_get _).symm
  have ran := Machine.run_of_guarded inTime
  have returned : LoopEvent.stopReturned 0 ∈
      ((timely.run made stopAfterReset).get (by decide +kernel)).trace := by decide +kernel
  exact ⟨_, ran, inTime, returned, ((stop_stands ran).1 inTime 0 returned).1⟩

/-- Another thread calls `stop` before the thread that it has launched comes to the reset. -/
def stopBeforeReset : List Label :=
  [.stop (.thread 0), .call (.thread 0), .call (.thread 0), .call (.thread 0), .loop]

/-- Not every `stop` stands: one that returns before the reset is undone by it. -/
theorem stopBeforeReset_undone : ¬ ∀ (labels : List Label) (loop : EventLoop) (request : ℕ),
    machine.run made labels = some loop → .stopReturned request ∈ loop.trace → loop.point ≠ .returned →
    loop.stopped = true := by
  intro stands
  have stopped := stands stopBeforeReset ((machine.run made stopBeforeReset).get (by decide +kernel)) 0
    (Option.some_get _).symm (by decide +kernel) (by decide +kernel)
  revert stopped
  decide +kernel

end EventLoop

end Insist.MiniRpc
