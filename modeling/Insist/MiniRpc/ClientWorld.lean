/-
**`minirpc::RpcClient` with every session it makes** (`src/client.cpp`).

A `ClientWorld` is a client from its construction on. `connect` may be called by any thread at any time,
and is cut between its test and the rest, so that a connection may be established long after the test; the
sessions made so far share the loop's thread. `session_` is the place of a session in the pool. What the
API functions and the callbacks do is taken from `ClientNode` and `RpcClient`. The application also has the
sessions themselves, which the message handler is given: it may send on them and close them, with write
handlers of its own that are no callbacks of the client, and so are left out. Any thread may use the client
between any two steps, so what such a handler asks of the client is a label after the step that runs it.

* `step` — one step of the client, its callers, its sessions or their loop;
* `Moves` — what a step does to the sessions and to `session_`;
* `Formed` — what holds in every run;
* `run_of_solo` — the loop thread can go on with one session.
-/
import Insist.MiniRpc.Client
import Insist.MiniRpc.SessionPool

namespace Insist.MiniRpc

open Lib

variable {R : Type}

/-- Whether the label is a call of the client's interface. -/
def ClientNode.Label.isCall : ClientNode.Label R → Bool
  | .run _ | .session _ => false
  | _ => true

/-- Whether the label brings no write handler: the client's own are made by `call_async` only. -/
def Endpoint.Label.unowned {H : Type} : Endpoint.Label H → Bool
  | .send _ handler => handler.isNone
  | _ => true

/-- A client, the sessions it has made, and the calls in progress. -/
structure ClientWorld (R : Type) where
  client : RpcClient R := {}
  pool : SessionPool UInt64 := {}
  /-- Calls of `connect` that are past their test. -/
  connecting : ℕ := 0
  /-- Calls whose id has been allotted. -/
  calling : List (RpcMessage × Option R) := []
  /-- Messages that are about to be sent. -/
  sending : List (RpcMessage × Option UInt64) := []
  trace : List (ClientEvent R) := []
  /-- The session on which a call was issued: `session_` when its entry was made, and when it was sent. -/
  issued : UInt64 → Option ℕ := fun _ => none
  /-- The destructor has not been called. -/
  alive : Bool := true

namespace ClientWorld

/-- The steps. -/
inductive Label (R : Type)
  /-- `connect` makes its test. -/
  | connect
  /-- `connect_tcp` throws. -/
  | refused
  /-- `connect_tcp` returns, and `connect` makes and starts the session. -/
  | established (fd : ℕ)
  /-- A step of another call of the interface. -/
  | call (label : ClientNode.Label R)
  /-- The loop thread moves in a session, or the application uses it. -/
  | session (index : ℕ) (label : Endpoint.Label UInt64)
  /-- `run()` is called again after an exception has left it. -/
  | rerun
  /-- The destructor runs. -/
  | destroy
deriving DecidableEq, Repr

/-- The client with its current session; without one, the interface does not look at the session. -/
def node (world : ClientWorld R) : ClientNode R where
  client := world.client
  endpoint := (world.client.session.bind fun index => world.pool.sessions[index]?).getD (.started 0)
  calling := world.calling
  sending := world.sending
  trace := world.trace

/-- The call's session, as the step of the interface sees it. -/
def issuedAfter (world : ClientWorld R) : ClientNode.Label R → UInt64 → Option ℕ
  | .register index =>
      match world.calling[index]? with
      | some (request, _) => Function.update world.issued request.id world.client.session
      | none => world.issued
  | .send index =>
      match world.sending[index]? with
      | some (_, some id) => Function.update world.issued id world.client.session
      | _ => world.issued
  | _ => world.issued

/-- The world after the interface's part of a step. -/
def take (world : ClientWorld R) (node : ClientNode R) (label : ClientNode.Label R) : ClientWorld R :=
  { world with
      client := node.client, calling := node.calling, sending := node.sending, trace := node.trace
      issued := world.issuedAfter label }

/-- The world after a session has answered, and the client's callbacks have run. -/
def absorb (world : ClientWorld R) (answer : SessionPool UInt64 × List (Effect UInt64)) :
    ClientWorld R × List (Effect UInt64) :=
  ({ world with
      client := (world.client.handleAll answer.2).1, pool := answer.1
      trace := world.trace ++ (world.client.handleAll answer.2).2 }, answer.2)

/-- A step of the interface, which may use `session_`. -/
def call (world : ClientWorld R) (label : ClientNode.Label R) :
    Option (ClientWorld R × List (Effect UInt64)) :=
  match world.node.enter label, world.client.session with
  | none, _ => none
  | some (node, none), _ => some (world.take node label, [])
  | some (_, some _), none => none
  | some (node, some label'), some index =>
      (world.pool.step index label').map (world.take node label).absorb

/-- One step, and the effects of the session that moved. -/
def step (world : ClientWorld R) : Label R → Option (ClientWorld R × List (Effect UInt64))
  | .connect =>
      if world.alive then
        if world.node.isConnected then some (world, [])
        else some ({ world with connecting := world.connecting + 1 }, [])
      else none
  | .refused =>
      if 0 < world.connecting then some ({ world with connecting := world.connecting - 1 }, []) else none
  | .established fd =>
      if 0 < world.connecting then
        some ({ world with
          client := { world.client with session := some world.pool.sessions.length }
          pool := world.pool.add fd, connecting := world.connecting - 1 }, [])
      else none
  | .call label => if world.alive && label.isCall then world.call label else none
  | .session index label =>
      if label.unowned then (world.pool.step index label).map world.absorb else none
  | .rerun => some ({ world with pool := world.pool.rerun }, [])
  | .destroy =>
      -- no call of the interface is in progress
      if world.alive && world.connecting == 0 && world.calling.isEmpty && world.sending.isEmpty then
        some ({ world with pool := world.pool.closeAll world.client.session.toList, alive := false }, [])
      else none

/-- Clients as a machine. -/
def machine : Machine (ClientWorld R) (Label R) where
  step world label := (world.step label).map Prod.fst

/-! ### What a step does to the sessions -/

/-- What a step does to the pool and to `session_`. -/
inductive Change (world : ClientWorld R) : Label R → SessionPool UInt64 → Option ℕ → Prop
  | none {label : Label R} : Change world label world.pool world.client.session
  /-- A session moves; its close handler resets `session_`. -/
  | moved {label : Label R} {index : ℕ} {label' : Endpoint.Label UInt64} {pool : SessionPool UInt64}
      {effects : List (Effect UInt64)} (stepped : world.pool.step index label' = some (pool, effects)) :
      Change world label pool (if effects.any Effect.isClose then Option.none else world.client.session)
  /-- `connect` makes a session. -/
  | made (fd : ℕ) :
      Change world (.established fd) (world.pool.add fd) (some world.pool.sessions.length)
  | again : Change world .rerun world.pool.rerun world.client.session
  | destroyed :
      Change world .destroy (world.pool.closeAll world.client.session.toList) world.client.session

/-- Every step. -/
structure Moves (world : ClientWorld R) (label : Label R) (world' : ClientWorld R) : Prop where
  change : Change world label world'.pool world'.client.session
  issued : ∀ id index, world'.issued id = some index →
    world.issued id = some index ∨ world.client.session = some index

/-- A call's session is the current one, or was noted before. -/
theorem issuedAfter_cases {world : ClientWorld R} {label : ClientNode.Label R} {id : UInt64} {index : ℕ}
    (noted : world.issuedAfter label id = some index) :
    world.issued id = some index ∨ world.client.session = some index := by
  have updated (other : UInt64)
      (noted : Function.update world.issued other world.client.session id = some index) :
      world.issued id = some index ∨ world.client.session = some index := by
    rw [Function.update_apply] at noted
    split_ifs at noted
    · exact Or.inr noted
    · exact Or.inl noted
  unfold issuedAfter at noted
  cases label with
  | register place =>
      cases found : world.calling[place]? with
      | none => exact Or.inl (by simpa only [found] using noted)
      | some call => exact updated call.1.id (by simpa only [found] using noted)
  | send place =>
      rcases found : world.sending[place]? with _ | ⟨message, _ | other⟩
      · exact Or.inl (by simpa only [found] using noted)
      · exact Or.inl (by simpa only [found] using noted)
      · exact updated other (by simpa only [found] using noted)
  | _ => exact Or.inl noted

/-- The interface's part of a step leaves `session_` alone. -/
theorem enter_session {node entered : ClientNode R} {label : ClientNode.Label R}
    {label' : Option (Endpoint.Label UInt64)} (same : node.enter label = some (entered, label')) :
    entered.client.session = node.client.session := by
  unfold ClientNode.enter at same
  cases label with
  | callAsync | notify =>
      simp only at same
      split_ifs at same <;> cases same <;> rfl
  | register =>
      simp only at same
      split at same <;> cases same
      rfl
  | send =>
      simp only at same
      split_ifs at same
      split at same <;> cases same
      rfl
  | close | run | session =>
      cases same
      rfl

/-- A step of the interface. -/
theorem call_moves {world world' : ClientWorld R} {label : ClientNode.Label R}
    {effects : List (Effect UInt64)} (called : world.call label = some (world', effects)) :
    Moves world (.call label) world' := by
  unfold call at called
  rcases entered : world.node.enter label with _ | ⟨node, _ | label'⟩
  · rw [entered] at called
    cases called
  · rw [entered] at called
    cases called
    have same : (world.take node label).client.session = world.client.session := enter_session entered
    exact ⟨same.symm ▸ .none, fun id index noted => issuedAfter_cases noted⟩
  · have same : (world.take node label).client.session = world.client.session := enter_session entered
    rw [entered] at called
    cases current : world.client.session with
    | none =>
        rw [current] at called
        cases called
    | some index =>
        rw [current] at called
        obtain ⟨⟨pool, effects'⟩, stepped, absorbed⟩ := Option.map_eq_some_iff.mp called
        cases absorbed
        refine ⟨?_, fun id index noted => issuedAfter_cases noted⟩
        show Change world (.call label) pool ((world.take node label).client.handleAll effects').1.session
        rw [RpcClient.handleAll_session, same]
        exact .moved stepped

/-- A step of a session. -/
theorem session_step {world world' : ClientWorld R} {index : ℕ} {label : Endpoint.Label UInt64}
    {effects : List (Effect UInt64)} :
    world.step (.session index label) = some (world', effects) ↔
      label.unowned = true ∧ ∃ pool, world.pool.step index label = some (pool, effects) ∧
        world' = (world.absorb (pool, effects)).1 := by
  show (if label.unowned then (world.pool.step index label).map world.absorb else none) = _ ↔ _
  by_cases unowned : label.unowned = true
  · rw [if_pos unowned, Option.map_eq_some_iff]
    constructor
    · rintro ⟨⟨pool, effects'⟩, stepped, same⟩
      cases same
      exact ⟨unowned, pool, stepped, rfl⟩
    · rintro ⟨_, pool, stepped, rfl⟩
      exact ⟨(pool, effects), stepped, rfl⟩
  · rw [if_neg unowned]
    simp [unowned]

/-- **Every step is one of the listed moves.** -/
theorem step_moves {world world' : ClientWorld R} {label : Label R} {effects : List (Effect UInt64)}
    (stepped : world.step label = some (world', effects)) : Moves world label world' := by
  have kept : ∀ id index, world.issued id = some index →
      world.issued id = some index ∨ world.client.session = some index := fun _ _ => Or.inl
  cases label with
  | connect =>
      simp only [step] at stepped
      split_ifs at stepped
      · cases stepped
        exact ⟨.none, kept⟩
      · cases stepped
        exact ⟨.none, kept⟩
  | refused =>
      simp only [step] at stepped
      split_ifs at stepped
      cases stepped
      exact ⟨.none, kept⟩
  | established fd =>
      simp only [step] at stepped
      split_ifs at stepped
      cases stepped
      exact ⟨.made fd, kept⟩
  | call label =>
      simp only [step] at stepped
      split_ifs at stepped
      exact call_moves stepped
  | session index label =>
      obtain ⟨_, pool, moved, rfl⟩ := session_step.mp stepped
      refine ⟨?_, kept⟩
      show Change world (.session index label) pool (world.client.handleAll effects).1.session
      rw [RpcClient.handleAll_session]
      exact .moved moved
  | rerun =>
      cases stepped
      exact ⟨.again, kept⟩
  | destroy =>
      simp only [step] at stepped
      split_ifs at stepped
      cases stepped
      exact ⟨.destroyed, kept⟩

/-! ### Every run -/

/-- The pool is sound, and `session_` and the calls' sessions have been made. -/
structure Formed (world : ClientWorld R) : Prop where
  sound : world.pool.Sound
  session : ∀ index, world.client.session = some index → index < world.pool.sessions.length
  issued : ∀ id index, world.issued id = some index → index < world.pool.sessions.length

theorem start_formed : Formed ({} : ClientWorld R) where
  sound := SessionPool.empty_sound
  session index same := by cases same
  issued id index same := by cases same

/-- No step removes a session. -/
theorem Change.length_le {world : ClientWorld R} {label : Label R} {pool : SessionPool UInt64}
    {session : Option ℕ} (change : Change world label pool session) :
    world.pool.sessions.length ≤ pool.sessions.length := by
  cases change with
  | none => exact le_rfl
  | moved stepped => exact (SessionPool.step_length stepped).ge
  | made fd => simp [SessionPool.add]
  | again => simp [SessionPool.rerun]
  | destroyed => simp [SessionPool.closeAll]

theorem Change.sound {world : ClientWorld R} {label : Label R} {pool : SessionPool UInt64}
    {session : Option ℕ} (change : Change world label pool session) (sound : world.pool.Sound) :
    pool.Sound := by
  cases change with
  | none => exact sound
  | moved stepped => exact sound.step stepped
  | made fd => exact sound.add fd
  | again => exact sound.rerun
  | destroyed => exact sound.closeAll _

/-- `session_` is what it was, or the session just made. -/
theorem Change.session_cases {world : ClientWorld R} {label : Label R} {pool : SessionPool UInt64}
    {session : Option ℕ} (change : Change world label pool session) {index : ℕ}
    (current : session = some index) :
    (world.client.session = some index ∧ pool.sessions.length = world.pool.sessions.length) ∨
      index + 1 = pool.sessions.length := by
  cases change with
  | none => exact Or.inl ⟨current, rfl⟩
  | moved stepped =>
      split_ifs at current
      exact Or.inl ⟨current, SessionPool.step_length stepped⟩
  | made fd =>
      cases current
      exact Or.inr (by simp [SessionPool.add])
  | again => exact Or.inl ⟨current, by simp [SessionPool.rerun]⟩
  | destroyed => exact Or.inl ⟨current, by simp [SessionPool.closeAll]⟩

/-- **Every step keeps the world formed.** -/
theorem Moves.formed {world world' : ClientWorld R} {label : Label R} (moves : Moves world label world')
    (formed : Formed world) : Formed world' := by
  have longer := moves.change.length_le
  refine ⟨moves.change.sound formed.sound, fun index current => ?_, fun id index noted => ?_⟩
  · rcases moves.change.session_cases current with ⟨before, same⟩ | newest
    · rw [same]
      exact formed.session index before
    · omega
  · refine lt_of_lt_of_le ?_ longer
    exact (moves.issued id index noted).elim (formed.issued id index) (formed.session index)

theorem machine_step {world world' : ClientWorld R} {label : Label R} :
    machine.step world label = some world' ↔ ∃ effects, world.step label = some (world', effects) := by
  show (world.step label).map Prod.fst = some world' ↔ _
  rw [Option.map_eq_some_iff]
  constructor
  · rintro ⟨⟨next, effects⟩, stepped, rfl⟩
    exact ⟨effects, stepped⟩
  · rintro ⟨effects, stepped⟩
    exact ⟨(world', effects), stepped, rfl⟩

theorem run_formed {labels : List (Label R)} {world world' : ClientWorld R} (formed : Formed world)
    (ran : machine.run world labels = some world') : Formed world' := by
  refine Machine.invariant_run Formed (fun formed stepped => ?_) formed ran
  obtain ⟨effects, stepped⟩ := machine_step.mp stepped
  exact (step_moves stepped).formed formed

/-- **The loop thread can go on with one session**, short of its close handler: nothing else changes. -/
theorem run_of_solo {world : ClientWorld R} {index : ℕ} {actions : List (Action UInt64)}
    {pool : SessionPool UInt64} (ran : (SessionPool.solo index).run world.pool actions = some pool) :
    ∃ labels later, machine.run world labels = some later ∧ later.pool = pool ∧
      later.client.session = world.client.session := by
  have simulates {pool pool' : SessionPool UInt64} {action : Action UInt64} {later : ClientWorld R}
      (related : later.pool = pool ∧ later.client.session = world.client.session)
      (stepped : (SessionPool.solo index).step pool action = some pool') :
      ∃ labels next, machine.run later labels = some next ∧
        next.pool = pool' ∧ next.client.session = world.client.session := by
    obtain ⟨rfl, session⟩ := related
    obtain ⟨effects, moved, silent⟩ := SessionPool.solo_step.mp stepped
    refine ⟨[.session index (.session action)], _,
      (Machine.run_singleton _ _ _).trans
        (machine_step.mpr ⟨effects, session_step.mpr ⟨rfl, pool', moved, rfl⟩⟩), rfl, ?_⟩
    show (later.client.handleAll effects).1.session = _
    rw [RpcClient.handleAll_session, if_neg (fun close => silent ((Effect.any_isClose effects).mp close)),
      session]
  exact Machine.simulation_run machine
    (fun pool later => later.pool = pool ∧ later.client.session = world.client.session)
    simulates ⟨rfl, rfl⟩ ran

end ClientWorld

end Insist.MiniRpc
