/-
**The dispatch of `EventLoop::run` by file descriptor** (`src/event_loop.cpp`, with `accept_loop`,
`RpcClient::connect` and `Session::close_from_loop`).

`run` looks a handler up by its file descriptor when it comes to the event, while the handlers before it may
have closed file descriptors, and accepted or connected sockets that reuse their numbers. A `LoopWorld` is a
loop with all sessions that were started on it, its handler table and the open file descriptors. The sessions'
own code is that of a `SessionPool`; tasks run between two batches, and other threads start sessions and call
`send` and `close` at any time.

* `socket_of_moves` — a session's code closes no socket but its own;
* `Wired` — an event that is still to be dispatched is for a session that the loop thread has not entered since,
  so its registration stands;
* `registration_stands` — every event reaches the registration that its file descriptor had when `epoll_wait`
  returned.
-/
import Insist.MiniRpc.HandlerTable
import Insist.MiniRpc.ServerWorld
import Mathlib.Data.Finset.Basic

namespace Insist.MiniRpc

open Lib

variable {H : Type}

/-- Whose handler stands in the table. -/
inductive Registration
  /-- `drain_wakeup`. -/
  | wakeup
  /-- The listener of a `TcpServer`. -/
  | listener
  | session (index : ℕ)
deriving DecidableEq, Repr

/-- An event of a batch, and the registration of its file descriptor when `epoll_wait` returned. -/
structure Report where
  fd : ℕ
  events : Events
  registration : Option Registration
deriving DecidableEq, Repr

/-- Where the loop thread is. -/
inductive Stage
  /-- In `drain_tasks` or in `epoll_wait`. -/
  | tasks
  /-- At the loop over the events that are left of the batch. -/
  | batch (pending : List Report)
  /-- In `accept_loop`, called for an event of the batch. -/
  | accepting (pending : List Report)
deriving DecidableEq, Repr

/-- The events that are still to be dispatched. -/
def Stage.pending : Stage → List Report
  | .tasks => []
  | .batch pending | .accepting pending => pending

/-- A loop, the sessions started on it, and the open file descriptors of the process. -/
structure LoopWorld (H : Type) where
  pool : SessionPool H := {}
  table : HandlerTable Registration := {}
  /-- The open file descriptors. -/
  descriptors : Finset ℕ := ∅
  /-- Those that are not, or not yet, the loop's. -/
  loose : Finset ℕ := ∅
  stage : Stage := .tasks

/-- The loop enters `handle_events`. -/
def Action.isEvent : Action H → Bool
  | .handleEvents _ => true
  | _ => false

namespace LoopWorld

/-- The steps. -/
inductive Label (H : Type)
  /-- A socket or another file descriptor is made. -/
  | opened (fd : ℕ)
  /-- A file descriptor that is not the loop's is closed. -/
  | abandoned (fd : ℕ)
  /-- A `TcpServer` is started on its socket. -/
  | listen (fd : ℕ)
  /-- `RpcClient::connect` starts a session on its socket. -/
  | connect (fd : ℕ)
  /-- A call of `Session::send` or `Session::close`. -/
  | call (index : ℕ) (label : Endpoint.Label H)
  /-- `drain_tasks` runs a task of a session. -/
  | task (index place : ℕ)
  /-- The loop thread goes on in a session's code. -/
  | resume (index : ℕ) (action : Action H)
  /-- `epoll_wait` returns. -/
  | poll (ready : List (ℕ × Events))
  /-- The next event of the batch. -/
  | dispatch
  /-- The next turn of `accept_loop`. -/
  | accept (result : AcceptResult)
  /-- The batch is over. -/
  | finish
  /-- `run()` is called again after an exception has left it. -/
  | rerun

/-- The loop thread is in the code of some session. -/
def busy (world : LoopWorld H) : Bool := world.pool.sessions.any Endpoint.busy

/-- `EventLoop::add`, which succeeds. -/
def register (world : LoopWorld H) (fd : ℕ) (events : UInt32) (registration : Registration) : LoopWorld H :=
  { world with
    table := (world.table.add fd events registration none).1
    descriptors := insert fd world.descriptors
    loose := world.loose.erase fd }

/-- A session is made for the socket and started. -/
def startSession (world : LoopWorld H) (fd : ℕ) : LoopWorld H :=
  { world.register fd (epollin ||| epollrdhup) (.session world.pool.sessions.length) with
    pool := world.pool.add fd }

/-- `EventLoop::remove`, if the session was registered, and `::close`, which takes the file descriptor out of
the interest set. -/
def closeSocket (world : LoopWorld H) (fd : ℕ) (removed : Bool) : LoopWorld H :=
  let table := if removed then (world.table.remove fd).1 else world.table
  { world with
    table := { table with interest := Function.update table.interest fd none }
    descriptors := world.descriptors.erase fd }

/-- What an effect of a session does to the loop. -/
def absorb (world : LoopWorld H) : Effect H → LoopWorld H
  | .socketClosed (some fd) removed => world.closeSocket fd removed
  | _ => world

/-- The world after a step of a session. -/
def moved (world : LoopWorld H) (answer : SessionPool H × List (Effect H)) : LoopWorld H :=
  answer.2.foldl absorb { world with pool := answer.1 }

/-- The dispatch of an event, when `rest` is what is left of the batch: the handler is looked up, and called. -/
def dispatch (world : LoopWorld H) (report : Report) (rest : List Report) : Option (LoopWorld H) :=
  let world := { world with stage := .batch rest }
  match world.table.handlers report.fd with
  | none | some .wakeup => some world
  | some .listener => some (if report.events.in_ then { world with stage := .accepting rest } else world)
  | some (.session index) =>
      (world.pool.step index (.session (.handleEvents report.events))).map world.moved

/-- One turn of `accept_loop`. -/
def accept (world : LoopWorld H) (pending : List Report) : AcceptResult → Option (LoopWorld H)
  | .connection fd => if fd ∈ world.descriptors then none else some (world.startSession fd)
  | .interrupted => some world
  | .blocked => some { world with stage := .batch pending }
  | .failed => some { world with stage := .tasks }

/-- One step. -/
def step (world : LoopWorld H) : Label H → Option (LoopWorld H)
  | .opened fd =>
      if fd ∈ world.descriptors then none
      else some { world with descriptors := insert fd world.descriptors, loose := insert fd world.loose }
  | .abandoned fd =>
      if fd ∈ world.loose then
        some { world with descriptors := world.descriptors.erase fd, loose := world.loose.erase fd }
      else none
  | .listen fd => if fd ∈ world.loose then some (world.register fd epollin .listener) else none
  | .connect fd => if fd ∈ world.loose then some (world.startSession fd) else none
  | .call index label => if label.onLoop then none else (world.pool.step index label).map world.moved
  | .task index place =>
      if world.stage = .tasks then (world.pool.step index (.run place)).map world.moved else none
  | .resume index action =>
      if action.isEvent then none else (world.pool.step index (.session action)).map world.moved
  | .poll ready =>
      if world.stage = .tasks ∧ world.busy = false ∧ (ready.map Prod.fst).Nodup ∧
          ∀ event ∈ ready, (world.table.interest event.1).isSome then
        some { world with
          stage := .batch (ready.map fun event => ⟨event.1, event.2, world.table.handlers event.1⟩) }
      else none
  | .dispatch =>
      match world.stage with
      | .batch (report :: rest) => if world.busy then none else world.dispatch report rest
      | _ => none
  | .accept result =>
      match world.stage with
      | .accepting pending => world.accept pending result
      | _ => none
  | .finish =>
      if world.stage = .batch [] ∧ world.busy = false then some { world with stage := .tasks } else none
  | .rerun =>
      if world.pool.sessions.any fun endpoint => endpoint.session.control == .thrown then
        some { world with pool := world.pool.rerun, stage := .tasks }
      else none

/-- Loops as a machine. -/
def machine : Machine (LoopWorld H) (Label H) where
  step := step

/-- A loop that has just been constructed. -/
def made (eventFd : ℕ) : LoopWorld H where
  table := .made eventFd .wakeup
  descriptors := {eventFd}

/-! ### What a session's step does to the loop -/

/-- **A session's code closes no socket but its own**, and only on the loop thread. -/
theorem socket_of_moves {endpoint endpoint' : Endpoint H} {label : Endpoint.Label H} {effects : List (Effect H)}
    (moves : Endpoint.Moves endpoint label endpoint' effects) (sound : endpoint.session.Sound) :
    (endpoint'.session.socketFd = endpoint.session.socketFd ∧ ∀ effect ∈ effects, effect.closesSocket = false) ∨
      label.onLoop = true ∧ endpoint'.session.socketFd = none ∧
        ∃ before : List (Effect H), (∀ effect ∈ before, effect.closesSocket = false) ∧
          effects = before ++ [Effect.socketClosed endpoint.session.socketFd true] := by
  have inside {action : Action H} {session : Session H} {effects : List (Effect H)}
      (moves : Session.Moves endpoint.session action session effects) :
      (session.socketFd = endpoint.session.socketFd ∧ ∀ effect ∈ effects, effect.closesSocket = false) ∨
        session.socketFd = none ∧
          ∃ before : List (Effect H), (∀ effect ∈ before, effect.closesSocket = false) ∧
            effects = before ++ [Effect.socketClosed endpoint.session.socketFd true] := by
    refine (moves.socket sound.wf).imp id ?_
    rintro ⟨opened, closed, before, silent, same⟩
    rw [sound.registered opened] at same
    exact ⟨closed, before, silent, same⟩
  cases moves with
  | rejected large => exact Or.inl ⟨rfl, fun effect => Session.closesSocket_invoke⟩
  | posted small | closePosted => exact Or.inl ⟨rfl, by simp⟩
  | ran posted moves => exact (inside moves).imp id fun closing => ⟨rfl, closing⟩
  | inside notTask moves => exact (inside moves).imp id fun closing => ⟨rfl, closing⟩

theorem foldl_absorb_silent {effects : List (Effect H)}
    (silent : ∀ effect ∈ effects, effect.closesSocket = false)
    (world : LoopWorld H) : effects.foldl absorb world = world := by
  induction effects with
  | nil => rfl
  | cons effect effects ih =>
      have same : world.absorb effect = world := by
        have here := silent effect List.mem_cons_self
        cases effect with
        | socketClosed fd removed => cases here
        | _ => rfl
      rw [List.foldl_cons, same]
      exact ih fun other member => silent other (List.mem_cons_of_mem _ member)

theorem moved_of_silent {effects : List (Effect H)} (silent : ∀ effect ∈ effects, effect.closesSocket = false)
    (world : LoopWorld H) (pool : SessionPool H) : world.moved (pool, effects) = { world with pool := pool } :=
  foldl_absorb_silent silent _

theorem moved_of_closing {before : List (Effect H)} (silent : ∀ effect ∈ before, effect.closesSocket = false)
    (world : LoopWorld H) (pool : SessionPool H) (fd : Option ℕ) (removed : Bool) :
    world.moved (pool, before ++ [Effect.socketClosed fd removed]) =
      absorb { world with pool := pool } (.socketClosed fd removed) := by
  rw [moved, List.foldl_append, foldl_absorb_silent silent]
  rfl

theorem closeSocket_table (world : LoopWorld H) (fd : ℕ) :
    (world.closeSocket fd true).table =
      { handlers := Function.update world.table.handlers fd none
        interest := Function.update world.table.interest fd none } := by
  unfold closeSocket
  simp only [if_true, HandlerTable.remove_eq, Function.update_idem]

/-! ### What every run keeps -/

/-- The table knows the open sessions by their sockets, and what is left of a batch is for registrations that
stand, and for sessions that the loop thread is not in. -/
structure Wired (world : LoopWorld H) : Prop where
  sound : world.pool.Sound
  agrees : world.table.Agrees
  loose : ∀ fd ∈ world.loose, fd ∈ world.descriptors
  inUse : ∀ fd : ℕ, world.table.handlers fd ≠ none → fd ∈ world.descriptors ∧ fd ∉ world.loose
  owns : ∀ (index : ℕ) (endpoint : Endpoint H) (fd : ℕ), world.pool.sessions[index]? = some endpoint →
    endpoint.session.socketFd = some fd → world.table.handlers fd = some (.session index)
  owner : ∀ fd index : ℕ, world.table.handlers fd = some (.session index) →
    ∃ endpoint, world.pool.sessions[index]? = some endpoint ∧ endpoint.session.socketFd = some fd
  distinct : (world.stage.pending.map Report.fd).Nodup
  stands : ∀ report ∈ world.stage.pending, report.registration ≠ none ∧
    world.table.handlers report.fd = report.registration
  idle : ∀ report ∈ world.stage.pending, ∀ (index : ℕ) (endpoint : Endpoint H),
    report.registration = some (.session index) → world.pool.sessions[index]? = some endpoint →
    endpoint.busy = false

theorem made_wired (eventFd : ℕ) : Wired (made eventFd : LoopWorld H) where
  sound := SessionPool.empty_sound
  agrees := by
    have empty : HandlerTable.Agrees ({} : HandlerTable Registration) := fun _ => rfl
    exact empty.update eventFd rfl
  loose fd member := by simp [made] at member
  inUse fd known := by
    refine ⟨?_, by simp [made]⟩
    by_contra other
    have different : (fd : ℤ) ≠ eventFd := by simpa [made] using other
    exact known (Function.update_of_ne different _ _)
  owns index endpoint fd found := by simp [made] at found
  owner fd index found := by
    by_cases here : (fd : ℤ) = eventFd
    · rw [here, show (made eventFd : LoopWorld H).table.handlers eventFd = some .wakeup from
        Function.update_self _ _ _] at found
      cases found
    · rw [show (made eventFd : LoopWorld H).table.handlers fd = none from
        Function.update_of_ne here _ _] at found
      cases found
  distinct := List.nodup_nil
  stands report member := by cases member
  idle report member := by cases member

/-- An entry for another file descriptor. -/
theorem handlers_ne {handlers : ℤ → Option Registration} {fd other : ℕ} {entry : Option Registration}
    (different : other ≠ fd) : Function.update handlers (fd : ℤ) entry other = handlers other :=
  Function.update_of_ne (by exact_mod_cast different) _ _

/-- A session changes, but not its socket. -/
theorem Wired.set {world : LoopWorld H} (wired : Wired world) {index : ℕ} {endpoint endpoint' : Endpoint H}
    (found : world.pool.sessions[index]? = some endpoint)
    (sound : SessionPool.Sound { sessions := world.pool.sessions.set index endpoint' })
    (same : endpoint'.session.socketFd = endpoint.session.socketFd)
    (idle : ∀ report ∈ world.stage.pending, report.registration = some (.session index) →
      endpoint'.busy = false) :
    Wired { world with pool := { sessions := world.pool.sessions.set index endpoint' } } := by
  have there : (world.pool.sessions.set index endpoint')[index]? = some endpoint' := by
    rw [List.getElem?_set_self', found]
    rfl
  refine ⟨sound, wired.agrees, wired.loose, wired.inUse, ?_, ?_, wired.distinct, wired.stands, ?_⟩
  · intro other changed fd found' socket
    rcases SessionPool.getElem?_set_cases found' with ⟨rfl, rfl⟩ | ⟨_, old⟩
    · exact wired.owns other endpoint fd found (same ▸ socket)
    · exact wired.owns other changed fd old socket
  · intro fd other registered
    obtain ⟨before, old, socket⟩ := wired.owner fd other registered
    by_cases here : other = index
    · subst here
      cases found.symm.trans old
      exact ⟨endpoint', there, same.trans socket⟩
    · exact ⟨before, (List.getElem?_set_ne (Ne.symm here)).trans old, socket⟩
  · intro report member other changed registered found'
    rcases SessionPool.getElem?_set_cases found' with ⟨rfl, rfl⟩ | ⟨_, old⟩
    · exact idle report member registered
    · exact wired.idle report member other changed registered old

/-- A session changes and closes its socket. -/
theorem Wired.close {world : LoopWorld H} (wired : Wired world) {index fd : ℕ} {endpoint endpoint' : Endpoint H}
    (found : world.pool.sessions[index]? = some endpoint) (socket : endpoint.session.socketFd = some fd)
    (sound : SessionPool.Sound { sessions := world.pool.sessions.set index endpoint' })
    (closed : endpoint'.session.socketFd = none)
    (free : ∀ report ∈ world.stage.pending, report.registration ≠ some (.session index)) :
    Wired (closeSocket { world with pool := { sessions := world.pool.sessions.set index endpoint' } }
      fd true) := by
  have own : world.table.handlers fd = some (.session index) := wired.owns index endpoint fd found socket
  have table := closeSocket_table
    { world with pool := { sessions := world.pool.sessions.set index endpoint' } } fd
  have entry {other : ℕ} (different : other ≠ fd) :
      (closeSocket { world with pool := { sessions := world.pool.sessions.set index endpoint' } } fd
        true).table.handlers
        other = world.table.handlers other := by
    rw [table]
    exact handlers_ne different
  have gone : (closeSocket { world with pool := { sessions := world.pool.sessions.set index endpoint' } } fd
      true).table.handlers fd = none := by
    rw [table]
    exact Function.update_self _ _ _
  refine ⟨sound, ?_, ?_, ?_, ?_, ?_, wired.distinct, ?_, ?_⟩
  · rw [table]
    exact wired.agrees.update fd rfl
  · intro other member
    have different : other ≠ fd := by
      rintro rfl
      exact (wired.inUse other (by rw [own]; exact Option.some_ne_none _)).2 member
    exact Finset.mem_erase.mpr ⟨different, wired.loose other member⟩
  · intro other known
    by_cases here : other = fd
    · rw [here, gone] at known
      exact absurd rfl known
    · rw [entry here] at known
      obtain ⟨inUse, notLoose⟩ := wired.inUse other known
      exact ⟨Finset.mem_erase.mpr ⟨here, inUse⟩, notLoose⟩
  · intro other changed fd' found' socket'
    rcases SessionPool.getElem?_set_cases found' with ⟨rfl, rfl⟩ | ⟨apart, old⟩
    · rw [closed] at socket'
      cases socket'
    · have registered := wired.owns other changed fd' old socket'
      have different : fd' ≠ fd := by
        rintro rfl
        rw [own] at registered
        cases registered
        exact apart rfl
      rw [entry different]
      exact registered
  · intro fd' other registered
    by_cases here : fd' = fd
    · rw [here, gone] at registered
      cases registered
    · rw [entry here] at registered
      obtain ⟨before, old, socket'⟩ := wired.owner fd' other registered
      have apart : other ≠ index := by
        rintro rfl
        cases found.symm.trans old
        exact here (Option.some.inj (socket'.symm.trans socket))
      exact ⟨before, (List.getElem?_set_ne (Ne.symm apart)).trans old, socket'⟩
  · intro report member
    obtain ⟨known, standing⟩ := wired.stands report member
    have different : report.fd ≠ fd := by
      intro here
      rw [here, own] at standing
      exact free report member standing.symm
    exact ⟨known, (entry different).trans standing⟩
  · intro report member other changed registered found'
    rcases SessionPool.getElem?_set_cases found' with ⟨rfl, rfl⟩ | ⟨_, old⟩
    · exact absurd registered (free report member)
    · exact wired.idle report member other changed registered old

/-- **A step of a session keeps the loop wired**, if no event that is left of the batch is for the session that
the loop thread moves in. -/
theorem Wired.moved {world : LoopWorld H} (wired : Wired world) {index : ℕ} {label : Endpoint.Label H}
    {pool : SessionPool H} {effects : List (Effect H)}
    (stepped : world.pool.step index label = some (pool, effects))
    (free : label.onLoop = true → ∀ report ∈ world.stage.pending, report.registration ≠ some (.session index)) :
    Wired (world.moved (pool, effects)) := by
  have sound := wired.sound.step stepped
  obtain ⟨endpoint, endpoint', found, moved, rfl, _⟩ := SessionPool.step_cases stepped
  have sessionSound := wired.sound.each index endpoint found
  have moves := Endpoint.step_moves sessionSound.wf moved
  have idle : ∀ report ∈ world.stage.pending, report.registration = some (.session index) →
      endpoint'.busy = false := by
    intro report member registered
    rcases moves.session_cases with ⟨same, _⟩ | ⟨_, onLoop, _⟩
    · rw [Endpoint.busy, same]
      exact wired.idle report member index endpoint registered found
    · exact absurd registered (free onLoop report member)
  rcases socket_of_moves moves sessionSound with ⟨same, silent⟩ | ⟨onLoop, closed, before, silent, rfl⟩
  · rw [moved_of_silent silent]
    exact wired.set found sound same idle
  · rw [moved_of_closing silent]
    cases socket : endpoint.session.socketFd with
    | none => exact wired.set found sound (closed.trans socket.symm) idle
    | some fd => exact wired.close found socket sound closed (free onLoop)

/-- What the table has after a registration. -/
theorem register_table {world : LoopWorld H} (agrees : world.table.Agrees) {fd : ℕ} (events : UInt32)
    (registration : Registration) (unknown : world.table.handlers fd = none) :
    (world.register fd events registration).table =
      { handlers := Function.update world.table.handlers fd (some registration)
        interest := Function.update world.table.interest fd (some events) } := by
  have fresh : world.table.interest fd = none := (agrees.none_iff fd).mp unknown
  unfold register
  rw [HandlerTable.add_fresh events registration none unknown fresh]

/-- A registration whose session is made with it. -/
theorem Wired.register {world : LoopWorld H} (wired : Wired world) {fd : ℕ} (events : UInt32)
    {registration : Registration} {pool : SessionPool H} (unknown : world.table.handlers fd = none)
    (sound : pool.Sound)
    (old : ∀ (index : ℕ) (endpoint : Endpoint H), world.pool.sessions[index]? = some endpoint →
      pool.sessions[index]? = some endpoint)
    (new : ∀ (index : ℕ) (endpoint : Endpoint H), pool.sessions[index]? = some endpoint →
      world.pool.sessions[index]? = some endpoint ∨
        registration = .session index ∧ endpoint.session.socketFd = some fd ∧ endpoint.busy = false)
    (made : ∀ index : ℕ, registration = .session index →
      ∃ endpoint : Endpoint H, pool.sessions[index]? = some endpoint ∧ endpoint.session.socketFd = some fd) :
    Wired { world.register fd events registration with pool := pool } := by
  have table := register_table wired.agrees events registration unknown
  have here : (world.register fd events registration).table.handlers fd = some registration := by
    rw [table]
    exact Function.update_self _ _ _
  have entry {other : ℕ} (different : other ≠ fd) :
      (world.register fd events registration).table.handlers other = world.table.handlers other := by
    rw [table]
    exact handlers_ne different
  have known {other : ℕ} (registered : world.table.handlers other ≠ none) : other ≠ fd := by
    rintro rfl
    exact registered unknown
  refine ⟨sound, ?_, ?_, ?_, ?_, ?_, wired.distinct, ?_, ?_⟩
  · show (world.register fd events registration).table.Agrees
    rw [table]
    exact wired.agrees.update fd rfl
  · intro other member
    exact Finset.mem_insert_of_mem (wired.loose other (Finset.mem_of_mem_erase member))
  · intro other registered
    by_cases same : other = fd
    · rw [same]
      exact ⟨Finset.mem_insert_self _ _, Finset.notMem_erase _ _⟩
    · obtain ⟨inUse, notLoose⟩ := wired.inUse other (by rwa [← entry same])
      exact ⟨Finset.mem_insert_of_mem inUse, fun loose => notLoose (Finset.mem_of_mem_erase loose)⟩
  · intro index endpoint other found socket
    rcases new index endpoint found with before | ⟨same, socket', _⟩
    · have registered := wired.owns index endpoint other before socket
      show (world.register fd events registration).table.handlers other = _
      rw [entry (known (by rw [registered]; exact Option.some_ne_none _)), registered]
    · cases socket.symm.trans socket'
      rw [← same]
      exact here
  · intro other index registered
    by_cases same : other = fd
    · subst same
      exact made index (Option.some.inj (here.symm.trans registered))
    · obtain ⟨endpoint, found, socket⟩ := wired.owner other index ((entry same).symm.trans registered)
      exact ⟨endpoint, old index endpoint found, socket⟩
  · intro report member
    obtain ⟨some, standing⟩ := wired.stands report member
    exact ⟨some, (entry (known (standing ▸ some))).trans standing⟩
  · intro report member index endpoint registered found
    rcases new index endpoint found with before | ⟨_, _, idle⟩
    · exact wired.idle report member index endpoint registered before
    · exact idle

theorem Wired.startSession {world : LoopWorld H} (wired : Wired world) {fd : ℕ}
    (unknown : world.table.handlers fd = none) : Wired (world.startSession fd) := by
  refine wired.register _ unknown (wired.sound.add fd) ?_ ?_ ?_
  · intro index endpoint found
    rw [SessionPool.add, List.getElem?_append_left (List.getElem?_eq_some_iff.mp found).1]
    exact found
  · intro index endpoint found
    rcases SessionPool.getElem?_add_cases found with ⟨rfl, rfl⟩ | before
    · exact Or.inr ⟨rfl, rfl, rfl⟩
    · exact Or.inl before
  · intro index same
    cases same
    refine ⟨.started fd, ?_, rfl⟩
    rw [SessionPool.add, List.getElem?_append_right le_rfl, Nat.sub_self]
    rfl

/-- The loop thread goes on only in a session that it is in. -/
theorem busy_of_resume {endpoint : Endpoint H} {action : Action H} {answer : Endpoint H × List (Effect H)}
    (resumes : action.isEvent = false) (stepped : endpoint.step (.session action) = some answer) :
    endpoint.busy = true := by
  by_contra idle
  have here : endpoint.session.control = .idle := by simpa [Endpoint.busy] using idle
  unfold Endpoint.step at stepped
  cases action with
  | handleEvents events => cases resumes
  | sendTask frame handler | closeTask => cases stepped
  | recv result | parse | send result | modify result | drain =>
      simp [Action.fromTask, Session.step, here] at stepped

/-- A file descriptor that is new to the kernel, or not the loop's, is not in the table. -/
theorem Wired.unknown {world : LoopWorld H} (wired : Wired world) {fd : ℕ}
    (other : fd ∉ world.descriptors ∨ fd ∈ world.loose) : world.table.handlers fd = none := by
  by_contra known
  obtain ⟨inUse, notLoose⟩ := wired.inUse fd known
  exact other.elim (fun fresh => fresh inUse) notLoose

/-- The next event is taken from the batch. -/
theorem Wired.take {world : LoopWorld H} (wired : Wired world) {report : Report} {rest : List Report}
    (next : world.stage = .batch (report :: rest)) : Wired { world with stage := .batch rest } := by
  have kept : ∀ other ∈ rest, other ∈ world.stage.pending := by
    intro other member
    rw [next]
    exact List.mem_cons_of_mem _ member
  refine ⟨wired.sound, wired.agrees, wired.loose, wired.inUse, wired.owns, wired.owner, ?_, ?_, ?_⟩
  · have distinct := wired.distinct
    rw [next] at distinct
    exact (List.nodup_cons.mp distinct).2
  · exact fun other member => wired.stands other (kept other member)
  · exact fun other member => wired.idle other (kept other member)

/-- No other event of the batch is for the session of the next one. -/
theorem Wired.only {world : LoopWorld H} (wired : Wired world) {report : Report} {rest : List Report}
    (next : world.stage = .batch (report :: rest)) {index : ℕ}
    (found : world.table.handlers report.fd = some (.session index)) :
    ∀ other ∈ rest, other.registration ≠ some (.session index) := by
  intro other member registered
  have distinct := wired.distinct
  rw [next] at distinct
  have apart := (List.nodup_cons.mp distinct).1
  have standing := (wired.stands other (by rw [next]; exact List.mem_cons_of_mem _ member)).2
  obtain ⟨endpoint, here, socket⟩ := wired.owner report.fd index found
  obtain ⟨endpoint', here', socket'⟩ := wired.owner other.fd index (standing.trans registered)
  cases here.symm.trans here'
  have same : report.fd = other.fd := Option.some.inj (socket.symm.trans socket')
  exact apart (List.mem_map.mpr ⟨other, member, same.symm⟩)

/-- A change of the stage that leaves nothing pending, or what is. -/
theorem Wired.turn {world : LoopWorld H} (wired : Wired world) {stage : Stage}
    (pending : stage.pending = [] ∨ stage.pending = world.stage.pending) :
    Wired { world with stage := stage } := by
  have kept : ∀ report ∈ stage.pending, report ∈ world.stage.pending := by
    intro report member
    rcases pending with none | same
    · rw [none] at member
      cases member
    · rwa [← same]
  refine ⟨wired.sound, wired.agrees, wired.loose, wired.inUse, wired.owns, wired.owner, ?_, ?_, ?_⟩
  · show (stage.pending.map Report.fd).Nodup
    rcases pending with none | same
    · rw [none]
      exact List.nodup_nil
    · rw [same]
      exact wired.distinct
  · exact fun report member => wired.stands report (kept report member)
  · exact fun report member => wired.idle report (kept report member)

theorem Wired.dispatch {world world' : LoopWorld H} (wired : Wired world) {report : Report} {rest : List Report}
    (next : world.stage = .batch (report :: rest)) (stepped : world.dispatch report rest = some world') :
    Wired world' := by
  have taken := wired.take next
  unfold LoopWorld.dispatch at stepped
  cases found : world.table.handlers report.fd with
  | none =>
      simp only [found] at stepped
      cases stepped
      exact taken
  | some registration =>
      cases registration with
      | wakeup =>
          simp only [found] at stepped
          cases stepped
          exact taken
      | listener =>
          simp only [found] at stepped
          cases stepped
          split_ifs
          · exact taken.turn (Or.inr rfl)
          · exact taken
      | session index =>
          simp only [found] at stepped
          obtain ⟨⟨pool, effects⟩, moved, rfl⟩ := Option.map_eq_some_iff.mp stepped
          exact taken.moved moved fun _ => wired.only next found

theorem Wired.rerun {world : LoopWorld H} (wired : Wired world) :
    Wired { world with pool := world.pool.rerun, stage := .tasks } := by
  refine ⟨wired.sound.rerun, wired.agrees, wired.loose, wired.inUse, ?_, ?_, List.nodup_nil, ?_, ?_⟩
  · intro index endpoint fd found open_
    obtain ⟨before, old, rfl⟩ : ∃ before, world.pool.sessions[index]? = some before ∧
        before.rerun = endpoint := by
      simpa [SessionPool.rerun] using found
    exact wired.owns index before fd old (before.rerun_socketFd.symm.trans open_)
  · intro fd index registered
    obtain ⟨before, old, open_⟩ := wired.owner fd index registered
    refine ⟨before.rerun, ?_, before.rerun_socketFd.trans open_⟩
    simp [SessionPool.rerun, old]
  · intro report member
    cases member
  · intro report member
    cases member

/-- Another part of the process gets a file descriptor. -/
theorem Wired.opened {world : LoopWorld H} (wired : Wired world) {fd : ℕ} (fresh : fd ∉ world.descriptors) :
    Wired { world with descriptors := insert fd world.descriptors, loose := insert fd world.loose } := by
  refine ⟨wired.sound, wired.agrees, ?_, ?_, wired.owns, wired.owner, wired.distinct, wired.stands, wired.idle⟩
  · exact Finset.insert_subset_insert fd wired.loose
  · intro other known
    obtain ⟨inUse, notLoose⟩ := wired.inUse other known
    refine ⟨Finset.mem_insert_of_mem inUse, fun member => ?_⟩
    rcases Finset.mem_insert.mp member with rfl | old
    · exact known (wired.unknown (Or.inl fresh))
    · exact notLoose old

/-- It gives one back. -/
theorem Wired.abandoned {world : LoopWorld H} (wired : Wired world) {fd : ℕ} (member : fd ∈ world.loose) :
    Wired { world with descriptors := world.descriptors.erase fd, loose := world.loose.erase fd } := by
  refine ⟨wired.sound, wired.agrees, ?_, ?_, wired.owns, wired.owner, wired.distinct, wired.stands, wired.idle⟩
  · exact Finset.erase_subset_erase fd wired.loose
  · intro other known
    obtain ⟨inUse, notLoose⟩ := wired.inUse other known
    have different : other ≠ fd := by
      rintro rfl
      exact known (wired.unknown (Or.inr member))
    exact ⟨Finset.mem_erase.mpr ⟨different, inUse⟩, fun old => notLoose (Finset.mem_of_mem_erase old)⟩

/-- `epoll_wait` returns a batch, while no session is busy. -/
theorem Wired.polled {world : LoopWorld H} (wired : Wired world) {ready : List (ℕ × Events)}
    (quiet : world.busy = false) (distinct : (ready.map Prod.fst).Nodup)
    (registered : ∀ event ∈ ready, (world.table.interest event.1).isSome) :
    Wired { world with
      stage := .batch (ready.map fun event => ⟨event.1, event.2, world.table.handlers event.1⟩) } := by
  refine ⟨wired.sound, wired.agrees, wired.loose, wired.inUse, wired.owns, wired.owner, ?_, ?_, ?_⟩
  · show ((ready.map _).map Report.fd).Nodup
    rw [List.map_map]
    exact distinct
  · intro report member
    obtain ⟨event, returned, rfl⟩ := List.mem_map.mp member
    refine ⟨fun unknown => ?_, rfl⟩
    have known := registered event returned
    rw [(wired.agrees.none_iff event.1).mp unknown] at known
    cases known
  · intro report member index endpoint _ found
    have idle := List.any_eq_false.mp quiet endpoint (List.mem_of_getElem? found)
    simpa using idle

/-- **Every step keeps the loop wired.** -/
theorem Wired.step {world world' : LoopWorld H} (wired : Wired world) {label : Label H}
    (stepped : world.step label = some world') : Wired world' := by
  cases label with
  | opened fd =>
      obtain ⟨fresh, rfl⟩ : fd ∉ world.descriptors ∧ _ = world' := by
        simpa [LoopWorld.step] using stepped
      exact wired.opened fresh
  | abandoned fd =>
      obtain ⟨member, rfl⟩ : fd ∈ world.loose ∧ _ = world' := by
        simpa [LoopWorld.step] using stepped
      exact wired.abandoned member
  | listen fd =>
      obtain ⟨member, rfl⟩ : fd ∈ world.loose ∧ _ = world' := by
        simpa [LoopWorld.step] using stepped
      refine wired.register _ (wired.unknown (Or.inr member)) wired.sound (fun _ _ => id) (fun _ _ => Or.inl) ?_
      intro index impossible
      cases impossible
  | connect fd =>
      obtain ⟨member, rfl⟩ : fd ∈ world.loose ∧ _ = world' := by
        simpa [LoopWorld.step] using stepped
      exact wired.startSession (wired.unknown (Or.inr member))
  | call index label =>
      obtain ⟨notLoop, answered⟩ := Option.ite_none_left_eq_some.mp stepped
      obtain ⟨⟨pool, effects⟩, moved, rfl⟩ := Option.map_eq_some_iff.mp answered
      exact wired.moved moved fun onLoop => absurd onLoop notLoop
  | task index place =>
      obtain ⟨here, answered⟩ := Option.ite_none_right_eq_some.mp stepped
      obtain ⟨⟨pool, effects⟩, moved, rfl⟩ := Option.map_eq_some_iff.mp answered
      refine wired.moved moved fun _ report member => ?_
      rw [here] at member
      cases member
  | resume index action =>
      obtain ⟨notEvent, answered⟩ := Option.ite_none_left_eq_some.mp stepped
      obtain ⟨⟨pool, effects⟩, moved, rfl⟩ := Option.map_eq_some_iff.mp answered
      refine wired.moved moved fun _ report member registered => ?_
      obtain ⟨endpoint, endpoint', found, inside, _, _⟩ := SessionPool.step_cases moved
      have busy := busy_of_resume (eq_false_of_ne_true notEvent) inside
      rw [wired.idle report member index endpoint registered found] at busy
      cases busy
  | poll ready =>
      obtain ⟨⟨_, quiet, distinct, registered⟩, same⟩ := Option.ite_none_right_eq_some.mp stepped
      cases same
      exact wired.polled quiet distinct registered
  | dispatch =>
      simp only [LoopWorld.step] at stepped
      split at stepped
      case h_1 report rest next =>
        split_ifs at stepped
        exact wired.dispatch next stepped
      case h_2 => cases stepped
  | accept result =>
      simp only [LoopWorld.step] at stepped
      split at stepped
      case h_1 pending here =>
        cases result with
        | connection fd =>
            obtain ⟨fresh, same⟩ := Option.ite_none_left_eq_some.mp stepped
            cases same
            exact wired.startSession (wired.unknown (Or.inl fresh))
        | interrupted =>
            cases stepped
            exact wired
        | blocked =>
            cases stepped
            exact wired.turn (Or.inr (by rw [here]; rfl))
        | failed =>
            cases stepped
            exact wired.turn (Or.inl rfl)
      case h_2 => cases stepped
  | finish =>
      obtain ⟨_, same⟩ := Option.ite_none_right_eq_some.mp stepped
      cases same
      exact wired.turn (Or.inl rfl)
  | rerun =>
      obtain ⟨_, same⟩ := Option.ite_none_right_eq_some.mp stepped
      cases same
      exact wired.rerun

theorem run_wired {eventFd : ℕ} {labels : List (Label H)} {world : LoopWorld H}
    (ran : machine.run (made eventFd) labels = some world) : Wired world :=
  Machine.invariant_run Wired (fun wired stepped => wired.step stepped) (made_wired eventFd) ran

/-! ### A batch, from `epoll_wait` to its last event -/

/-- `epoll_wait` returns. -/
def Label.isPoll : Label H → Bool
  | .poll _ => true
  | _ => false

/-- What is left of the batch that `epoll_wait` has returned in this world. -/
def Returned (polled : LoopWorld H) (ready : List (ℕ × Events)) (world : LoopWorld H) : Prop :=
  ∀ report ∈ world.stage.pending, (report.fd, report.events) ∈ ready ∧
    report.registration = polled.table.handlers report.fd

theorem absorb_stage (world : LoopWorld H) (effect : Effect H) : (world.absorb effect).stage = world.stage := by
  cases effect with
  | socketClosed fd removed => cases fd <;> rfl
  | _ => rfl

theorem moved_stage (world : LoopWorld H) (answer : SessionPool H × List (Effect H)) :
    (world.moved answer).stage = world.stage := by
  have kept (effects : List (Effect H)) (world : LoopWorld H) :
      (effects.foldl absorb world).stage = world.stage := by
    induction effects generalizing world with
    | nil => rfl
    | cons effect effects ih => rw [List.foldl_cons, ih, absorb_stage]
  exact kept answer.2 _

/-- A handler is called for the event: what is left of the batch is left. -/
theorem pending_of_dispatch {world world' : LoopWorld H} {report : Report} {rest : List Report}
    (stepped : world.dispatch report rest = some world') : world'.stage.pending = rest := by
  unfold LoopWorld.dispatch at stepped
  simp only at stepped
  split at stepped
  case h_1 | h_2 =>
    cases stepped
    rfl
  case h_3 =>
    cases stepped
    split_ifs <;> rfl
  case h_4 index _ =>
    obtain ⟨answer, _, rfl⟩ := Option.map_eq_some_iff.mp stepped
    rw [moved_stage]
    rfl

/-- **Only `epoll_wait` adds to what is left of a batch.** -/
theorem pending_of_step {world world' : LoopWorld H} {label : Label H} (other : label.isPoll = false)
    (stepped : world.step label = some world') :
    ∀ report ∈ world'.stage.pending, report ∈ world.stage.pending := by
  intro report member
  have of_moved {answered : Option (SessionPool H × List (Effect H))}
      (stepped : answered.map world.moved = some world') : report ∈ world.stage.pending := by
    obtain ⟨answer, _, rfl⟩ := Option.map_eq_some_iff.mp stepped
    rwa [moved_stage] at member
  cases label with
  | poll ready => cases other
  | opened fd =>
      obtain ⟨_, same⟩ := Option.ite_none_left_eq_some.mp stepped
      cases same
      exact member
  | abandoned fd | listen fd | connect fd =>
      obtain ⟨_, same⟩ := Option.ite_none_right_eq_some.mp stepped
      cases same
      exact member
  | call index label => exact of_moved (Option.ite_none_left_eq_some.mp stepped).2
  | task index place => exact of_moved (Option.ite_none_right_eq_some.mp stepped).2
  | resume index action => exact of_moved (Option.ite_none_left_eq_some.mp stepped).2
  | dispatch =>
      simp only [LoopWorld.step] at stepped
      split at stepped
      case h_1 first rest next =>
        split_ifs at stepped
        rw [pending_of_dispatch stepped] at member
        rw [next]
        exact List.mem_cons_of_mem _ member
      case h_2 => cases stepped
  | accept result =>
      simp only [LoopWorld.step] at stepped
      split at stepped
      case h_1 pending here =>
        cases result with
        | connection fd =>
            obtain ⟨_, same⟩ := Option.ite_none_left_eq_some.mp stepped
            cases same
            exact member
        | interrupted | blocked | failed =>
            cases stepped
            first
              | exact member
              | (rw [here]; exact member)
              | cases member
      case h_2 => cases stepped
  | finish | rerun =>
      obtain ⟨_, same⟩ := Option.ite_none_right_eq_some.mp stepped
      cases same
      cases member

/-- What is left of a batch stays so until the next call of `epoll_wait`. -/
theorem run_returned {polled world now : LoopWorld H} {ready : List (ℕ × Events)} {labels : List (Label H)}
    (returned : polled.step (.poll ready) = some world) (within : ∀ label ∈ labels, label.isPoll = false)
    (ran : machine.run world labels = some now) : Returned polled ready now := by
  refine Machine.invariant_run_of (fun label => label.isPoll = false) (Returned polled ready) ?_ ?_ within ran
  · intro state label next kept other stepped report member
    exact kept report (pending_of_step other stepped report member)
  · obtain ⟨_, same⟩ := Option.ite_none_right_eq_some.mp returned
    cases same
    intro report member
    obtain ⟨event, there, rfl⟩ := List.mem_map.mp member
    exact ⟨there, rfl⟩

/-- The call of a handler enters no session but the one that is registered. -/
theorem entered_of_dispatch {world world' : LoopWorld H} {report : Report} {rest : List Report}
    (next : world.stage = .batch (report :: rest)) (stepped : world.step .dispatch = some world') {index : ℕ}
    (entered : world'.pool.sessions[index]? ≠ world.pool.sessions[index]?) :
    world.table.handlers report.fd = some (.session index) := by
  have pool (effects : List (Effect H)) (world : LoopWorld H) :
      (effects.foldl absorb world).pool = world.pool := by
    induction effects generalizing world with
    | nil => rfl
    | cons effect effects ih =>
        rw [List.foldl_cons, ih]
        cases effect with
        | socketClosed fd removed => cases fd <;> rfl
        | _ => rfl
  simp only [LoopWorld.step, next] at stepped
  split_ifs at stepped
  unfold LoopWorld.dispatch at stepped
  simp only at stepped
  split at stepped
  case h_1 | h_2 =>
    cases stepped
    exact absurd rfl entered
  case h_3 =>
    cases stepped
    refine absurd ?_ entered
    split_ifs <;> rfl
  case h_4 other found =>
    obtain ⟨⟨changed, effects⟩, moved, rfl⟩ := Option.map_eq_some_iff.mp stepped
    obtain ⟨endpoint, endpoint', _, _, rfl, _⟩ := SessionPool.step_cases moved
    by_cases here : index = other
    · rw [here]
      exact found
    · refine absurd ?_ entered
      rw [LoopWorld.moved, pool]
      exact List.getElem?_set_ne (Ne.symm here)

/-- **Events reach only the registration that they were reported for**: whatever the handlers and the other
threads have done since `epoll_wait` returned, the handler that is found for the next event of the batch is the
one that its file descriptor had then, and no other session is entered. -/
theorem registration_stands {eventFd : ℕ} {before labels : List (Label H)} {polled world now : LoopWorld H}
    {ready : List (ℕ × Events)} {report : Report} {rest : List Report}
    (reached : machine.run (made eventFd) before = some polled)
    (returned : polled.step (.poll ready) = some world) (within : ∀ label ∈ labels, label.isPoll = false)
    (ran : machine.run world labels = some now) (next : now.stage = .batch (report :: rest)) :
    (report.fd, report.events) ∈ ready ∧
      now.table.handlers report.fd = polled.table.handlers report.fd ∧
      ∀ later, now.step .dispatch = some later → ∀ index : ℕ,
        later.pool.sessions[index]? ≠ now.pool.sessions[index]? →
          polled.table.handlers report.fd = some (.session index) := by
  have here : report ∈ now.stage.pending := by
    rw [next]
    exact List.mem_cons_self
  have batch : machine.run polled (.poll ready :: labels) = some now :=
    (machine.run_cons_eq_some).mpr ⟨world, returned, ran⟩
  have wired : Wired now := run_wired ((machine.run_append_eq_some).mpr ⟨polled, reached, batch⟩)
  obtain ⟨reported, registered⟩ := run_returned returned within ran report here
  have standing : now.table.handlers report.fd = polled.table.handlers report.fd :=
    (wired.stands report here).2.trans registered
  exact ⟨reported, standing, fun later stepped index entered =>
    standing.symm.trans (entered_of_dispatch next stepped entered)⟩

/-- Two sessions are registered. -/
def connected : List (Label ℕ) := [.opened 5, .connect 5, .opened 6, .connect 6]

/-- The first of them is closed in the batch, and a new session gets its file descriptor. -/
def reusing : List (Label ℕ) := [.dispatch, .resume 0 .drain, .opened 5, .connect 5]

/-- The events that `epoll_wait` returns for the two. -/
def bothReady : List (ℕ × Events) := [(5, { hup := true }), (6, { in_ := true })]

/-- The second event is dispatched to the second session, although the first file descriptor has changed
hands. -/
theorem reused_stands :
    ∃ polled world now later : LoopWorld ℕ, machine.run (made 4) connected = some polled ∧
      polled.step (.poll bothReady) = some world ∧ machine.run world reusing = some now ∧
      now.step .dispatch = some later ∧ polled.table.handlers 5 = some (.session 0) ∧
      now.table.handlers 5 = some (.session 2) ∧ later.pool.sessions[1]? ≠ now.pool.sessions[1]? ∧
      now.table.handlers 6 = polled.table.handlers 6 ∧ polled.table.handlers 6 = some (.session 1) := by
  obtain ⟨polled, world, now, later, reached, returned, ran, stepped, first, changed, next, entered⟩ :
      ∃ polled world now later : LoopWorld ℕ, machine.run (made 4) connected = some polled ∧
        polled.step (.poll bothReady) = some world ∧ machine.run world reusing = some now ∧
        now.step .dispatch = some later ∧ polled.table.handlers 5 = some (.session 0) ∧
        now.table.handlers 5 = some (.session 2) ∧
        now.stage = .batch [⟨6, { in_ := true }, some (.session 1)⟩] ∧
        later.pool.sessions[1]? ≠ now.pool.sessions[1]? :=
    ⟨_, _, _, _, rfl, rfl, rfl, rfl, rfl, rfl, rfl, by decide⟩
  obtain ⟨_, same, only⟩ := registration_stands reached returned (by decide) ran next
  exact ⟨polled, world, now, later, reached, returned, ran, stepped, first, changed, entered, same,
    only later stepped 1 entered⟩

end LoopWorld

end Insist.MiniRpc
