/-
**The life of a session, to its destruction.**

A `Life` is a session with its callers, and whether `~Session` has run. `~Session` closes the socket of a
session that `close_from_loop` has not closed; an exception of `EventLoop::modify` leaves a session as it is
until `run()` is called again.

* `Moves.opened` — a step does not open a closed session, nor hand a message to its message handler;
* `Moves.sockets` — the socket is passed to `::close` when the session lets go of it, and at no other time;
* `Moves.told` — before the close handler runs, the write handlers of all queued frames have run;
* `lifecycle` — **the lifecycle of every started session**.
-/
import Insist.MiniRpc.SessionPool
import Insist.MiniRpc.WriteHandlers

namespace Insist.MiniRpc

open Lib

variable {H : Type}

/-- The descriptors passed to `::close`, in order. -/
def closedFds (trace : List (Effect H)) : List ℕ :=
  trace.flatMap fun
    | .socketClosed fd _ => fd.toList
    | _ => []

@[simp] theorem closedFds_append (first second : List (Effect H)) :
    closedFds (first ++ second) = closedFds first ++ closedFds second :=
  List.flatMap_append

theorem closedFds_eq_nil {effects : List (Effect H)}
    (silent : ∀ effect ∈ effects, effect.closesSocket = false) : closedFds effects = [] := by
  refine List.flatMap_eq_nil_iff.mpr fun effect member => ?_
  have := silent effect member
  cases effect with
  | socketClosed fd removed => cases this
  | _ => rfl

namespace Session

/-- `~Session`. -/
def destroy (session : Session H) : Session H × List (Effect H) :=
  match session.socketFd with
  | none => (session, [])
  | some fd => ({ session with socketFd := none }, [.socketClosed (some fd) false])

@[simp] theorem destroy_control (session : Session H) : session.destroy.1.control = session.control := by
  unfold destroy
  cases session.socketFd <;> rfl

@[simp] theorem destroy_readBuffer (session : Session H) :
    session.destroy.1.readBuffer = session.readBuffer := by
  unfold destroy
  cases session.socketFd <;> rfl

/-! ### What one step does to the session's life -/

/-- **The socket is passed to `::close` when the session lets go of it.** -/
theorem Moves.sockets {session session' : Session H} {action : Action H} {effects : List (Effect H)}
    (moves : Moves session action session' effects) (wf : session.Wf) :
    closedFds effects ++ session'.socketFd.toList = session.socketFd.toList := by
  rcases moves.socket wf with ⟨same, silent⟩ | ⟨_, gone, before, silent, rfl⟩
  · rw [same, closedFds_eq_nil silent, List.nil_append]
  · rw [gone, closedFds_append, closedFds_eq_nil silent]
    exact (List.append_nil _).trans (List.append_nil _)

/-- A session that stays open keeps its socket. -/
theorem Moves.socketFd_of_open {session session' : Session H} {action : Action H}
    {effects : List (Effect H)} (moves : Moves session action session' effects)
    (opened : session'.open_ = true) : session'.socketFd = session.socketFd := by
  cases moves with
  | closing | updatedClosing => cases opened
  | _ => rfl

/-- A session that closes removes its registration before its socket is closed. -/
theorem Moves.removes {session session' : Session H} {action : Action H} {effects : List (Effect H)}
    (moves : Moves session action session' effects) (sound : session.Sound)
    (opened : session.open_ = true) (closed : session'.open_ = false) :
    .socketClosed session.socketFd true ∈ effects := by
  have registered := sound.registered opened
  have stays : session.open_ ≠ false := by
    rw [opened]
    simp
  cases moves with
  | closing | updatedClosing =>
      rw [registered]
      simp
  | _ => exact absurd closed stays

theorem queue_invoke {frame : OutgoingFrame H} {queue rest : List (OutgoingFrame H)} {error : ErrorCode}
    (front : queue = frame :: rest) :
    ∃ popped, queueHandlers queue ++ queuedHandlers (invoke frame.handler error) =
        popped ++ queueHandlers rest ∧ popped.Sublist (invoked (invoke frame.handler error)) := by
  refine ⟨frame.handler.toList, ?_, ?_⟩
  · rw [front, queuedHandlers_invoke, List.append_nil]
    rfl
  · rw [invoked_invoke]

/-- **What leaves the write queue is told.** -/
theorem Moves.queue {session session' : Session H} {action : Action H} {effects : List (Effect H)}
    (moves : Moves session action session' effects) :
    ∃ popped, queueHandlers session.writeQueue ++ queuedHandlers effects =
        popped ++ queueHandlers session'.writeQueue ∧ popped.Sublist (invoked effects) := by
  have untouched (quiet : queuedHandlers effects = []) :
      queueHandlers session.writeQueue ++ queuedHandlers effects =
        [] ++ queueHandlers session.writeQueue := by
    rw [quiet, List.append_nil, List.nil_append]
  cases moves with
  | dropped idle closed => exact ⟨[], untouched (queuedHandlers_invoke _ _), List.nil_sublist _⟩
  | queued idle opened =>
      refine ⟨[], ?_, List.nil_sublist _⟩
      simp [queueHandlers, queuedHandlers]
  | jump opened jump =>
      refine ⟨[], untouched ?_, List.nil_sublist _⟩
      rcases jump.effects_eq with rfl | rfl <;> rfl
  | closing opened cause =>
      refine ⟨[], untouched ?_, List.nil_sublist _⟩
      cases cause <;> rfl
  | wrotePart inLoop front positive part =>
      refine ⟨[], ?_, List.nil_sublist _⟩
      rw [front]
      exact List.append_nil _
  | wroteAll inLoop front positive whole next => exact queue_invoke front
  | failedFrame inLoop front => exact queue_invoke front
  | closedFrame inLoop front => exact queue_invoke front
  | _ => exact ⟨[], untouched rfl, List.nil_sublist _⟩

end Session

/-! ### The close handler and the write handlers -/

/-- Until the close handler has run, the handlers queued are ones that have been told and the ones in the queue;
afterwards all of them were told before it ran, and it has run once. -/
structure Told (session : Session H) (trace : List (Effect H)) : Prop where
  unfinished : ¬ session.Finished → .close ∉ trace ∧
    ∃ popped, queuedHandlers trace = popped ++ queueHandlers session.writeQueue ∧
      popped.Sublist (invoked trace)
  finished : session.Finished → ∃ before after, trace = before ++ .close :: after ∧
    .close ∉ before ∧ .close ∉ after ∧ (queuedHandlers trace).Sublist (invoked before)

namespace Told

variable {session : Session H} {trace : List (Effect H)}

/-- Effects that neither queue a frame nor call the close handler. -/
theorem quiet (told : Told session trace) {effects : List (Effect H)} (silent : .close ∉ effects)
    (nothing : queuedHandlers effects = []) : Told session (trace ++ effects) := by
  constructor
  · intro unfinished
    obtain ⟨open_, popped, queued, before⟩ := told.unfinished unfinished
    refine ⟨fun member => (List.mem_append.mp member).elim open_ silent, popped, ?_, ?_⟩
    · rw [queuedHandlers_append, nothing, List.append_nil, queued]
    · rw [invoked_append]
      exact before.trans (List.sublist_append_left _ _)
  · intro finished
    obtain ⟨before, after, rfl, first, second, queued⟩ := told.finished finished
    refine ⟨before, after ++ effects, by simp, first, ?_, ?_⟩
    · exact fun member => (List.mem_append.mp member).elim second silent
    · rw [queuedHandlers_append, nothing, List.append_nil]
      exact queued

/-- **Every step keeps the order.** -/
theorem moves (told : Told session trace) {session' : Session H} {action : Action H}
    {effects : List (Effect H)} (wf : session.Wf)
    (moves : Session.Moves session action session' effects) : Told session' (trace ++ effects) := by
  by_cases finished : session.Finished
  · obtain ⟨rfl, rfl | ⟨_, handler, _, rfl⟩⟩ := moves.of_finished finished
    · rwa [List.append_nil]
    · exact told.quiet (Session.close_notMem_invoke _ _) (queuedHandlers_invoke _ _)
  obtain ⟨open_, popped, queued, before⟩ := told.unfinished finished
  by_cases closes : .close ∈ effects
  · obtain ⟨place, rfl, rfl, rfl⟩ := moves.of_close closes
    have done := moves.finished_of_close wf closes
    have empty : session.writeQueue = [] := (moves.wf wf).drained done.1 done.2
    refine ⟨fun unfinished => absurd done unfinished, fun _ => ⟨trace, [], rfl, open_, by simp, ?_⟩⟩
    rw [queuedHandlers_append, queued, empty]
    simpa [queueHandlers, queuedHandlers] using before
  · have unfinished' := moves.of_unfinished wf finished closes
    refine ⟨fun _ => ⟨fun member => (List.mem_append.mp member).elim open_ closes, ?_⟩,
      fun finished' => absurd finished' unfinished'⟩
    obtain ⟨popped', queued', before'⟩ := moves.queue
    refine ⟨popped ++ popped', ?_, ?_⟩
    · rw [queuedHandlers_append, queued, List.append_assoc, queued', List.append_assoc]
    · rw [invoked_append]
      exact before.append before'

end Told

/-! ### Lives -/

/-- A session with its callers, and whether `~Session` has run. -/
structure Life (H : Type) where
  endpoint : Endpoint H
  destroyed : Bool := false

namespace Life

/-- What can happen to a session. -/
inductive Label (H : Type)
  /-- A caller or the loop. -/
  | endpoint (label : Endpoint.Label H)
  /-- `run()` is called again after an exception has left it. -/
  | rerun
  /-- `~Session`. -/
  | destroy

/-- A session whose `start` has returned. -/
def started (fd : ℕ) : Life H := { endpoint := .started fd }

/-- The loop thread is in no callback of the session, or an exception has left it. -/
def Between (life : Life H) : Prop :=
  life.endpoint.session.control = .idle ∨ life.endpoint.session.control = .thrown

instance (life : Life H) : Decidable life.Between :=
  inferInstanceAs (Decidable (_ ∨ _))

/-- One step of a session's life; nothing happens after `~Session`. -/
def step (life : Life H) (label : Label H) : Option (Life H) :=
  if life.destroyed then none
  else
    match label with
    | .endpoint label =>
        (life.endpoint.step label).map fun answer => { life with endpoint := answer.1 }
    | .rerun => some { life with endpoint := life.endpoint.rerun }
    | .destroy =>
        if life.Between then
          let (session, effects) := life.endpoint.session.destroy
          some
            { endpoint := { life.endpoint with session := session, trace := life.endpoint.trace ++ effects }
              destroyed := true }
        else none

/-- Lives as a machine. -/
def machine : Machine (Life H) (Label H) := ⟨step⟩

end Life

/-- What every session keeps, and what its history says of it. -/
structure Kept (fd : ℕ) (session : Session H) (trace : List (Effect H)) : Prop where
  sound : session.Sound
  sockets : closedFds trace ++ session.socketFd.toList = [fd]
  removed : session.open_ = false → .socketClosed (some fd) true ∈ trace
  told : Told session trace

/-- What a session keeps until it is destroyed. -/
structure Alive (fd : ℕ) (session : Session H) (trace : List (Effect H)) : Prop extends
    Kept fd session trace where
  held : session.open_ = true → session.socketFd = some fd

namespace Alive

variable {fd : ℕ} {session : Session H} {trace : List (Effect H)}

theorem started (fd : ℕ) : Alive fd (Session.started fd : Session H) [] where
  sound := Session.started_sound fd
  sockets := rfl
  removed closed := by cases closed
  told := ⟨fun _ => ⟨by simp, [], rfl, List.nil_sublist _⟩, fun finished => by cases finished.1⟩
  held _ := rfl

theorem rejected (alive : Alive fd session trace) {handler : Option H} :
    Alive fd session (trace ++ Session.invoke handler .messageSize) where
  sound := alive.sound
  sockets := by
    rw [closedFds_append, closedFds_eq_nil fun effect => Session.closesSocket_invoke, List.append_nil]
    exact alive.sockets
  removed closed := List.mem_append_left _ (alive.removed closed)
  told := alive.told.quiet (Session.close_notMem_invoke _ _) (queuedHandlers_invoke _ _)
  held := alive.held

/-- **Every step of a session keeps it alive.** -/
theorem moves (alive : Alive fd session trace) {session' : Session H} {action : Action H}
    {effects : List (Effect H)} (moves : Session.Moves session action session' effects) :
    Alive fd session' (trace ++ effects) where
  sound := moves.sound alive.sound
  sockets := by
    rw [closedFds_append, List.append_assoc, moves.sockets alive.sound.wf]
    exact alive.sockets
  removed closed' := by
    by_cases closed : session.open_ = false
    · exact List.mem_append_left _ (alive.removed closed)
    · have opened : session.open_ = true := by simpa using closed
      have removed := moves.removes alive.sound opened closed'
      rw [alive.held opened] at removed
      exact List.mem_append_right _ removed
  told := alive.told.moves alive.sound.wf moves
  held opened := by
    rw [moves.socketFd_of_open opened]
    exact alive.held (moves.of_open alive.sound.wf opened).1

/-- `run()` is called again. -/
theorem rerun {endpoint : Endpoint H} (alive : Alive fd endpoint.session endpoint.trace) :
    Alive fd endpoint.rerun.session endpoint.rerun.trace := by
  have sound := Endpoint.rerun_sound alive.sound
  have finished := Endpoint.rerun_finished_iff alive.sound
  unfold Endpoint.rerun at sound finished ⊢
  split_ifs at sound finished ⊢ with thrown
  · exact {
      sound := sound
      sockets := alive.sockets
      removed := alive.removed
      told := ⟨fun unfinished => alive.told.unfinished (mt finished.mpr unfinished),
        fun done => alive.told.finished (finished.mp done)⟩
      held := alive.held }
  · exact alive

/-- **`~Session` closes the socket if the session still has it.** -/
theorem destroy (alive : Alive fd session trace) :
    Kept fd session.destroy.1 (trace ++ session.destroy.2) ∧ session.destroy.1.socketFd = none ∧
      session.destroy.1.open_ = session.open_ ∧ session.destroy.1.control = session.control := by
  unfold Session.destroy
  cases held : session.socketFd with
  | none =>
      refine ⟨?_, held, rfl, rfl⟩
      show Kept fd session (trace ++ [])
      rw [List.append_nil]
      exact alive.toKept
  | some fd' =>
      have sockets := alive.sockets
      rw [held] at sockets
      have opened : session.open_ = true := by
        by_contra closed
        rw [alive.sound.wf.socketFd_of_closed (by simpa using closed)] at held
        cases held
      refine ⟨⟨⟨?_, alive.sound.registered⟩, ?_, ?_, ?_⟩, rfl, rfl, rfl⟩
      · exact { alive.sound.wf with socketFd_of_closed := fun _ => rfl }
      · rw [closedFds_append]
        exact (List.append_nil _).trans sockets
      · intro closed
        exact absurd closed (by simp [opened])
      · have quiet : Told session (trace ++ [Effect.socketClosed (some fd') false]) :=
          alive.told.quiet (by simp) rfl
        exact ⟨quiet.unfinished, quiet.finished⟩

end Alive

namespace Life

/-- What every life keeps. -/
structure Lived (fd : ℕ) (life : Life H) : Prop extends
    Kept fd life.endpoint.session life.endpoint.trace where
  held : life.destroyed = false → life.endpoint.session.open_ = true →
    life.endpoint.session.socketFd = some fd
  gone : life.destroyed = true → life.endpoint.session.socketFd = none

theorem started_lived (fd : ℕ) : Lived fd (started fd : Life H) where
  toKept := (Alive.started fd).toKept
  held _ _ := rfl
  gone destroyed := by cases destroyed

theorem Lived.alive {fd : ℕ} {life : Life H} (lived : Lived fd life) (present : life.destroyed = false) :
    Alive fd life.endpoint.session life.endpoint.trace :=
  { lived.toKept with held := lived.held present }

theorem Lived.of_alive {fd : ℕ} {life : Life H} (present : life.destroyed = false)
    (alive : Alive fd life.endpoint.session life.endpoint.trace) : Lived fd life :=
  { alive.toKept with
    held := fun _ => alive.held
    gone := fun destroyed => absurd (present.symm.trans destroyed) Bool.false_ne_true }

/-- **The steps of a life**: nothing happens after `~Session`. -/
theorem step_cases {life next : Life H} {label : Label H} (stepped : life.step label = some next) :
    life.destroyed = false ∧
      ((∃ inner endpoint effects, label = .endpoint inner ∧
          life.endpoint.step inner = some (endpoint, effects) ∧ next = { endpoint := endpoint }) ∨
        label = .rerun ∧ next = { endpoint := life.endpoint.rerun } ∨
        label = .destroy ∧ next =
          { endpoint :=
              { life.endpoint with
                session := life.endpoint.session.destroy.1
                trace := life.endpoint.trace ++ life.endpoint.session.destroy.2 }
            destroyed := true }) := by
  unfold Life.step at stepped
  have present : life.destroyed = false := by
    by_contra destroyed
    rw [if_pos (by simpa using destroyed)] at stepped
    cases stepped
  refine ⟨present, ?_⟩
  rw [present, if_neg Bool.false_ne_true] at stepped
  cases label with
  | endpoint inner =>
      obtain ⟨⟨endpoint, effects⟩, moved, rfl⟩ := Option.map_eq_some_iff.mp stepped
      exact Or.inl ⟨inner, endpoint, effects, rfl, moved, rfl⟩
  | rerun =>
      cases stepped
      exact Or.inr (Or.inl ⟨rfl, rfl⟩)
  | destroy =>
      simp only at stepped
      split_ifs at stepped
      cases stepped
      exact Or.inr (Or.inr ⟨rfl, rfl⟩)

/-- **Every step of a life keeps it.** -/
theorem Lived.step {fd : ℕ} {life next : Life H} {label : Label H} (lived : Lived fd life)
    (stepped : life.step label = some next) : Lived fd next := by
  obtain ⟨present, ⟨label, endpoint, effects, _, moved, rfl⟩ | ⟨_, rfl⟩ | ⟨_, rfl⟩⟩ := step_cases stepped
  · have alive := lived.alive present
    refine .of_alive rfl ?_
    exact (Endpoint.step_moves alive.sound.wf moved).session_invariant (Alive fd)
      (fun alive => alive.rejected) (fun _ alive moves => alive.moves moves) alive.sound.wf alive
  · exact .of_alive rfl (lived.alive present).rerun
  · obtain ⟨kept, gone, _, _⟩ := (lived.alive present).destroy
    exact { kept with held := fun impossible => (nomatch impossible), gone := fun _ => gone }

theorem run_lived {fd : ℕ} {life : Life H} {labels : List (Label H)}
    (ran : machine.run (started fd) labels = some life) : Lived fd life :=
  Machine.invariant_run (Lived fd) (fun lived stepped => lived.step stepped) (started_lived fd) ran

/-! ### What a closed session does -/

/-- A later state of a life whose session stays closed and hands out no message meanwhile. -/
def Silent (life later : Life H) : Prop :=
  later.endpoint.session.open_ = false ∧ ∃ effects,
    later.endpoint.trace = life.endpoint.trace ++ effects ∧ ∀ message, .message message ∉ effects

theorem Silent.refl {life : Life H} (closed : life.endpoint.session.open_ = false) : Silent life life :=
  ⟨closed, [], (List.append_nil _).symm, fun _ => List.not_mem_nil⟩

theorem Silent.trans {life middle later : Life H} (first : Silent life middle)
    (second : Silent middle later) : Silent life later := by
  obtain ⟨_, effects, same, silent⟩ := first
  obtain ⟨closed, effects', same', silent'⟩ := second
  refine ⟨closed, effects ++ effects', ?_, fun message member => ?_⟩
  · rw [same', same, List.append_assoc]
  · exact (List.mem_append.mp member).elim (silent message) (silent' message)

theorem message_notMem_invoke (handler : Option H) (error : ErrorCode) (message : RpcMessage) :
    .message message ∉ Session.invoke handler error := by
  cases handler <;> simp [Session.invoke]

/-- **A closed session stays closed and hands out no message.** -/
theorem Lived.silent {fd : ℕ} {life next : Life H} {label : Label H} (lived : Lived fd life)
    (closed : life.endpoint.session.open_ = false) (stepped : life.step label = some next) :
    Silent life next := by
  have wf := lived.sound.wf
  obtain ⟨_, ⟨label, endpoint, effects, _, moved, rfl⟩ | ⟨_, rfl⟩ | ⟨_, rfl⟩⟩ := step_cases stepped
  · have moves := Endpoint.step_moves wf moved
    have session {action : Action H} (moves : Session.Moves life.endpoint.session action
      endpoint.session effects) :
        endpoint.session.open_ = false ∧ ∀ message, .message message ∉ effects := by
      obtain ⟨closed', only⟩ := moves.of_closed wf closed
      refine ⟨closed', fun message member => ?_⟩
      rcases only _ member with ⟨_, _, impossible⟩ | impossible <;> cases impossible
    have both : endpoint.session.open_ = false ∧ ∀ message, .message message ∉ effects := by
      cases moves with
      | rejected large => exact ⟨closed, message_notMem_invoke _ _⟩
      | posted small => exact ⟨closed, fun _ => List.not_mem_nil⟩
      | closePosted => exact ⟨closed, fun _ => List.not_mem_nil⟩
      | ran posted moves => exact session moves
      | inside notTask moves => exact session moves
    exact ⟨both.1, effects, moves.trace_eq, both.2⟩
  · have running : life.endpoint.session.control ≠ .thrown := by
      intro thrown
      rw [wf.open_of_running (by rw [thrown]; rfl)] at closed
      cases closed
    rw [Endpoint.rerun_eq running]
    exact .refl closed
  · have nothing : life.endpoint.session.destroy = (life.endpoint.session, []) := by
      unfold Session.destroy
      rw [wf.socketFd_of_closed closed]
    rw [nothing]
    exact ⟨closed, [], rfl, fun _ => List.not_mem_nil⟩

theorem Lived.run_silent {fd : ℕ} {life later : Life H} {labels : List (Label H)} (lived : Lived fd life)
    (closed : life.endpoint.session.open_ = false) (ran : machine.run life labels = some later) :
    Silent life later := by
  have holds : Lived fd later ∧ Silent life later :=
    Machine.invariant_run (fun later => Lived fd later ∧ Silent life later)
      (fun holds stepped => ⟨holds.1.step stepped, holds.2.trans (holds.1.silent holds.2.1 stepped)⟩)
      ⟨lived, .refl closed⟩ ran
  exact holds.2

/-! ### The lifecycle -/

/-- What holds between the callbacks of a closed session on descriptor `fd`: it has let go of everything, its
registration was removed, and its close handler has run once, after the write handlers of all queued frames. -/
structure Ended (fd : ℕ) (endpoint : Endpoint H) : Prop where
  socketFd : endpoint.session.socketFd = none
  registered : endpoint.session.registered = false
  interest : endpoint.session.interest = none
  removed : .socketClosed (some fd) true ∈ endpoint.trace
  writeQueue : endpoint.session.writeQueue = []
  closed : ∃ before after, endpoint.trace = before ++ .close :: after ∧ .close ∉ before ∧
    .close ∉ after ∧ (queuedHandlers endpoint.trace).Sublist (invoked before)

/-- A closed session that the loop thread is not in has finished. -/
theorem Lived.ended {fd : ℕ} {life : Life H} (lived : Lived fd life) (between : life.Between)
    (closed : life.endpoint.session.open_ = false) : Ended fd life.endpoint := by
  have wf := lived.sound.wf
  have idle : life.endpoint.session.control = .idle := by
    rcases between with idle | thrown
    · exact idle
    · rw [wf.open_of_running (by rw [thrown]; rfl)] at closed
      cases closed
  have registered := wf.registered_of_closed closed
  exact {
    socketFd := wf.socketFd_of_closed closed
    registered := registered
    interest := wf.interest_of_unregistered registered
    removed := lived.removed closed
    writeQueue := wf.drained closed idle
    closed := lived.told.finished ⟨closed, idle⟩ }

/-- **The lifecycle of a session.** Whatever its callers, the peer, the system calls and the order of the tasks
do: once closed it stays closed and hands out no message; between its callbacks it has then ended; and its
socket is passed to `::close` at most once while it lives, and exactly once when it has been destroyed. -/
theorem lifecycle {fd : ℕ} {labels : List (Label H)} {life : Life H}
    (ran : machine.run (started fd) labels = some life) :
    (life.endpoint.session.open_ = false → ∀ more later, machine.run life more = some later →
      Silent life later) ∧
    (life.Between → life.endpoint.session.open_ = false → Ended fd life.endpoint) ∧
    closedFds life.endpoint.trace ++ life.endpoint.session.socketFd.toList = [fd] ∧
    (life.destroyed = true → closedFds life.endpoint.trace = [fd]) := by
  have lived := run_lived ran
  refine ⟨fun closed more later ran' => lived.run_silent closed ran', lived.ended, lived.sockets, ?_⟩
  intro destroyed
  have sockets := lived.sockets
  rwa [lived.gone destroyed, Option.toList_none, List.append_nil] at sockets

/-- A call of `close` with a frame in the queue, and the destruction. -/
def closedAndDestroyed : List (Label ℕ) :=
  [.endpoint (.send { id := 7 } (some 0)), .endpoint (.run 0), .endpoint (.session (.modify .ok)),
    .endpoint (.session (.send (.error .eagain))), .endpoint (.session (.modify .ok)), .endpoint .close,
    .endpoint (.run 0), .endpoint (.session .drain), .endpoint (.session .drain), .destroy]

theorem lifecycle_closedAndDestroyed :
    ∃ life : Life ℕ, machine.run (started 5) closedAndDestroyed = some life ∧
      Ended 5 life.endpoint ∧ closedFds life.endpoint.trace = [5] := by
  have ran : machine.run (started 5) closedAndDestroyed =
      some ((machine.run (started 5) closedAndDestroyed).get (by decide +kernel)) :=
    (Option.some_get _).symm
  obtain ⟨_, ended, _, destroyed⟩ := lifecycle ran
  exact ⟨_, ran, ended (by decide +kernel) (by decide +kernel), destroyed (by decide +kernel)⟩

end Life

end Insist.MiniRpc
