/-
**`minirpc::TcpServer` with every session it accepts** (`include/minirpc/server.hpp`, `src/server.cpp`).

A `ServerWorld` is a server from its construction on. Its listener's handler is called by the loop, which
first copies it out of the table (`EventLoop::run`) and then calls the copy; `accept_loop` is cut at
`accept4`, after which the session handler has run. The sessions share the loop's thread with the listener.
The write handlers and the message handler are the application's own; the server's callbacks are the
listener's handler and the close handler of every session. The ids come from a counter that the server shares
with every other `Session` of the process.

* `step` — one step of the server, its callers, its listener, its sessions or their loop;
* `Formed` — what holds in every run;
* `run_of_solo` — the loop thread can go on with one session.
-/
import Insist.MiniRpc.SessionPool

namespace Insist.MiniRpc

open Lib

variable {H : Type}

/-- The members of `TcpServer` that its functions test and change. -/
structure TcpServer where
  /-- Whether `listen_fd_` is not -1. -/
  listening : Bool := false
  /-- `started_`. -/
  started : Bool := false
  /-- `sessions_`: the keys, with the places of their sessions in the pool. -/
  sessions : List (UInt64 × ℕ) := []
deriving DecidableEq, Repr

/-- Where the loop thread is with the listener. -/
inductive Listener
  | idle
  /-- The handler has been copied out of the table, and is about to be called. -/
  | found
  /-- In `accept_loop`, at `accept4`. -/
  | accepting
deriving DecidableEq, Repr

/-- How `start` ends. -/
inductive StartResult
  | ok
  /-- `bind_and_listen` throws, with no socket left. -/
  | bindFailed
  /-- `set_non_blocking` or `EventLoop::add` throws. -/
  | setupFailed
deriving DecidableEq, Repr

/-- What `accept4` answers. -/
inductive AcceptResult
  | connection (fd : ℕ)
  | blocked
  | interrupted
  | failed
deriving DecidableEq, Repr

/-- What a step runs: the listener's handler, or a part of a session. -/
inductive ServerEffect (H : Type)
  | listener
  | session (index : ℕ) (effect : Effect H)
deriving DecidableEq, Repr

/-- A server, the sessions it has accepted, and the loop's entry for its listener. -/
structure ServerWorld (H : Type) where
  server : TcpServer := {}
  pool : SessionPool H := {}
  /-- The listener's handler is in the loop's table. -/
  registered : Bool := false
  listener : Listener := .idle
  /-- The destructor has not been called. -/
  alive : Bool := true
  /-- `Session::next_id_`. -/
  nextId : UInt64 := 1
  /-- The `id_` of each session in the pool. -/
  ids : List UInt64 := []
  /-- The `id_`s of the other sessions of the process. -/
  otherIds : List UInt64 := []
  /-- The sessions accepted since `stop` was last called. -/
  sinceStop : List ℕ := []

namespace ServerWorld

/-- The steps. -/
inductive Label (H : Type)
  | start (result : StartResult)
  | stop
  /-- The loop copies the listener's handler. -/
  | dispatch
  /-- The loop calls the copy. -/
  | enter (readable : Bool)
  | accept (result : AcceptResult)
  /-- The loop thread moves in a session, or the application uses it. -/
  | session (index : ℕ) (label : Endpoint.Label H)
  /-- A session is made that is not the server's. -/
  | other
  /-- `run()` is called again after an exception has left it. -/
  | rerun
  /-- The destructor runs. -/
  | destroy
deriving DecidableEq, Repr

/-- `TcpServer::start`. -/
def start (world : ServerWorld H) (result : StartResult) : ServerWorld H :=
  if world.server.started then world
  else
    match result with
    | .ok => { world with
        server := { world.server with listening := true, started := true }, registered := true }
    | .bindFailed => { world with server := { world.server with listening := false } }
    | .setupFailed => { world with server := { world.server with listening := true } }

/-- `TcpServer::stop`. -/
def stop (world : ServerWorld H) : ServerWorld H :=
  if !world.server.started && !world.server.listening then { world with sinceStop := [] }
  else
    { world with
      server := {}
      registered := if world.server.listening then false else world.registered
      pool := world.pool.closeAll (world.server.sessions.map Prod.snd)
      sinceStop := [] }

/-- `sessions_[id] = session`. -/
def assign (sessions : List (UInt64 × ℕ)) (id : UInt64) (index : ℕ) : List (UInt64 × ℕ) :=
  sessions.filter (fun entry => entry.1 ≠ id) ++ [(id, index)]

/-- `sessions_.erase(closed->id())`. -/
def erase (world : ServerWorld H) (index : ℕ) : TcpServer :=
  { world.server with
    sessions := world.server.sessions.filter fun entry => world.ids[index]? ≠ some entry.1 }

/-- One turn of `accept_loop`; a new session gets the server's close handler and is started. -/
def accept (world : ServerWorld H) : AcceptResult → ServerWorld H
  | .connection fd => { world with
      server := { world.server with
        sessions := assign world.server.sessions world.nextId world.pool.sessions.length }
      pool := world.pool.add fd
      nextId := world.nextId + 1
      ids := world.ids ++ [world.nextId]
      sinceStop := world.sinceStop ++ [world.pool.sessions.length] }
  | .interrupted => world
  | .blocked | .failed => { world with listener := .idle }

/-- The server's part in a step of a session: its close handler erases the session. -/
def absorb (world : ServerWorld H) (index : ℕ) (answer : SessionPool H × List (Effect H)) :
    ServerWorld H × List (ServerEffect H) :=
  ({ world with
      pool := answer.1
      server := if answer.2.any Effect.isClose then world.erase index else world.server },
    answer.2.map (.session index))

/-- One step, and what it runs. -/
def step (world : ServerWorld H) : Label H → Option (ServerWorld H × List (ServerEffect H))
  | .start result => if world.alive then some (world.start result, []) else none
  | .stop => if world.alive then some (world.stop, []) else none
  | .dispatch =>
      if world.registered && world.listener == .idle && !world.pool.sessions.any Endpoint.busy then
        some ({ world with listener := .found }, [])
      else none
  | .enter readable =>
      if world.listener = .found then
        some ({ world with listener := if readable then .accepting else .idle }, [.listener])
      else none
  | .accept result =>
      -- without a listening socket `accept4` fails with `EBADF`
      if world.listener = .accepting ∧ (world.server.listening = true ∨ result = .failed) then
        some (world.accept result, [.listener])
      else none
  | .session index label =>
      if label.onLoop && world.listener != .idle then none
      else (world.pool.step index label).map (world.absorb index)
  | .other =>
      some ({ world with nextId := world.nextId + 1, otherIds := world.otherIds ++ [world.nextId] }, [])
  | .rerun => some ({ world with pool := world.pool.rerun }, [])
  | .destroy => if world.alive then some ({ world.stop with alive := false }, []) else none

/-- Servers as a machine. -/
def machine : Machine (ServerWorld H) (Label H) where
  step world label := (world.step label).map Prod.fst

theorem machine_step {world world' : ServerWorld H} {label : Label H} :
    machine.step world label = some world' ↔ ∃ effects, world.step label = some (world', effects) := by
  show (world.step label).map Prod.fst = some world' ↔ _
  rw [Option.map_eq_some_iff]
  constructor
  · rintro ⟨⟨next, effects⟩, stepped, rfl⟩
    exact ⟨effects, stepped⟩
  · rintro ⟨effects, stepped⟩
    exact ⟨(world', effects), stepped, rfl⟩

/-! ### Every run -/

/-- The pool is sound, and the listener's handler is in the table only while there is a listening socket. -/
structure Formed (world : ServerWorld H) : Prop where
  sound : world.pool.Sound
  listening : world.registered = true → world.server.started = true ∧ world.server.listening = true

theorem new_formed : Formed ({} : ServerWorld H) where
  sound := SessionPool.empty_sound
  listening registered := by cases registered

theorem Formed.start {world : ServerWorld H} (formed : Formed world) (result : StartResult) :
    Formed (world.start result) := by
  unfold ServerWorld.start
  split_ifs with started
  · exact formed
  · have unregistered : ¬ world.registered = true := fun registered =>
      started (formed.listening registered).1
    cases result with
    | ok => exact ⟨formed.sound, fun _ => ⟨rfl, rfl⟩⟩
    | bindFailed => exact ⟨formed.sound, fun registered => absurd registered unregistered⟩
    | setupFailed => exact ⟨formed.sound, fun registered => absurd registered unregistered⟩

/-- `stop` takes the listener's handler out of the table. -/
theorem Formed.stop {world : ServerWorld H} (formed : Formed world) :
    Formed world.stop ∧ world.stop.registered = false := by
  unfold ServerWorld.stop
  by_cases nothing : (!world.server.started && !world.server.listening) = true
  · rw [if_pos nothing]
    have unregistered : ¬ world.registered = true := fun registered => by
      simp [formed.listening registered] at nothing
    exact ⟨⟨formed.sound, formed.listening⟩, by simpa using unregistered⟩
  · rw [if_neg nothing]
    have unregistered : (if world.server.listening then false else world.registered) = false := by
      by_cases listening : world.server.listening = true
      · rw [if_pos listening]
      · rw [if_neg listening]
        by_contra registered
        exact listening (formed.listening (by simpa using registered)).2
    refine ⟨⟨formed.sound.closeAll _, fun registered => ?_⟩, unregistered⟩
    rw [show _ = false from unregistered] at registered
    cases registered

/-- **Every step keeps the world formed.** -/
theorem Formed.step {world world' : ServerWorld H} (formed : Formed world) {label : Label H}
    {effects : List (ServerEffect H)} (stepped : world.step label = some (world', effects)) :
    Formed world' := by
  cases label with
  | start result =>
      simp only [ServerWorld.step] at stepped
      split_ifs at stepped
      cases stepped
      exact formed.start result
  | stop =>
      simp only [ServerWorld.step] at stepped
      split_ifs at stepped
      cases stepped
      exact formed.stop.1
  | dispatch | enter readable =>
      simp only [ServerWorld.step] at stepped
      split_ifs at stepped <;> cases stepped <;> exact ⟨formed.sound, formed.listening⟩
  | accept result =>
      simp only [ServerWorld.step] at stepped
      split_ifs at stepped
      cases stepped
      cases result with
      | connection fd => exact ⟨formed.sound.add fd, formed.listening⟩
      | blocked | interrupted | failed => exact ⟨formed.sound, formed.listening⟩
  | session index label =>
      simp only [ServerWorld.step] at stepped
      split_ifs at stepped
      obtain ⟨⟨pool, effects'⟩, moved, same⟩ := Option.map_eq_some_iff.mp stepped
      cases same
      refine ⟨formed.sound.step moved, fun registered => ?_⟩
      have before := formed.listening registered
      show (if _ then _ else _ : TcpServer).started = true ∧ (if _ then _ else _ : TcpServer).listening = true
      split_ifs
      · exact before
      · exact before
  | other =>
      cases stepped
      exact ⟨formed.sound, formed.listening⟩
  | rerun =>
      cases stepped
      exact ⟨formed.sound.rerun, formed.listening⟩
  | destroy =>
      simp only [ServerWorld.step] at stepped
      split_ifs at stepped
      cases stepped
      exact ⟨formed.stop.1.sound, formed.stop.1.listening⟩

theorem run_formed {labels : List (Label H)} {world world' : ServerWorld H} (formed : Formed world)
    (ran : machine.run world labels = some world') : Formed world' := by
  refine Machine.invariant_run Formed (fun formed stepped => ?_) formed ran
  obtain ⟨effects, stepped⟩ := machine_step.mp stepped
  exact formed.step stepped

/-- A session moves when the loop thread is not with the listener. -/
theorem session_step {world : ServerWorld H} {index : ℕ} {label : Endpoint.Label H} {pool : SessionPool H}
    {effects : List (Effect H)} (idle : world.listener = .idle)
    (moved : world.pool.step index label = some (pool, effects)) :
    world.step (.session index label) = some (world.absorb index (pool, effects)) := by
  simp [step, idle, moved]

/-- **The loop thread can go on with one session**, short of its close handler. -/
theorem run_of_solo {world : ServerWorld H} {index : ℕ} {actions : List (Action H)} {pool : SessionPool H}
    (idle : world.listener = .idle) (ran : (SessionPool.solo index).run world.pool actions = some pool) :
    ∃ labels later, machine.run world labels = some later ∧ later.pool = pool ∧ later.listener = .idle := by
  have simulates {pool pool' : SessionPool H} {action : Action H} {later : ServerWorld H}
      (related : later.pool = pool ∧ later.listener = .idle)
      (stepped : (SessionPool.solo index).step pool action = some pool') :
      ∃ labels next, machine.run later labels = some next ∧ next.pool = pool' ∧ next.listener = .idle := by
    obtain ⟨rfl, idle⟩ := related
    obtain ⟨effects, moved, _⟩ := SessionPool.solo_step.mp stepped
    exact ⟨[.session index (.session action)], _, (Machine.run_singleton _ _ _).trans
      (machine_step.mpr ⟨_, session_step idle moved⟩), rfl, idle⟩
  exact Machine.simulation_run machine (fun pool later => later.pool = pool ∧ later.listener = .idle)
    simulates ⟨rfl, idle⟩ ran

end ServerWorld

end Insist.MiniRpc
