/-
**Callbacks and the destruction of their owner.**

The callbacks of `RpcClient` and `TcpServer` capture a plain `this`, and the destructors only post the
closes of the sessions they still know.

* `ClientWorld.Silent`, `ServerWorld.Silent` — nothing that can happen from here on runs a callback of the
  owner;
* `Quiet` — every session of the owner has finished, and nothing that is queued or under way can run one of
  its callbacks;
* `silent_iff_quiet` — after the destructor no callback of the owner can run exactly if the owner was quiet
  when it was destroyed.
-/
import Insist.MiniRpc.Reconnect
import Insist.MiniRpc.ServerWorld

namespace Insist.MiniRpc

open Lib

variable {H R : Type}

/-- A handler that belongs to the client that made the session. -/
def Effect.isCallback : Effect H → Bool
  | .message _ | .write _ _ | .close => true
  | _ => false

/-- A handler that belongs to the server. -/
def ServerEffect.isCallback : ServerEffect H → Bool
  | .listener => true
  | .session _ effect => effect.isClose

/-- A task of `send` with a write handler. -/
def Task.handled : Task H → Bool
  | .send _ handler => handler.isSome
  | .close => false

/-! ### Sessions that run no callback any more -/

namespace Endpoint

/-- The session has finished, and no write handler is queued. -/
def Quiet (endpoint : Endpoint H) : Prop :=
  endpoint.session.Finished ∧ ∀ task ∈ endpoint.tasks, task.handled = false

instance (endpoint : Endpoint H) : Decidable endpoint.Quiet :=
  inferInstanceAs (Decidable (_ ∧ ∀ task ∈ endpoint.tasks, task.handled = false))

theorem quiet_close {endpoint : Endpoint H} : endpoint.close.Quiet ↔ endpoint.Quiet := by
  refine and_congr Iff.rfl ⟨fun unhandled task member => ?_, fun unhandled task member => ?_⟩
  · exact unhandled task (List.mem_append_left _ member)
  · rcases List.mem_append.mp member with old | new
    · exact unhandled task old
    · rw [List.mem_singleton.mp new]
      rfl

/-- **A quiet session stays quiet and runs nothing.** -/
theorem Moves.quiet {endpoint endpoint' : Endpoint H} {label : Label H} {effects : List (Effect H)}
    (moves : Moves endpoint label endpoint' effects) (unowned : label.unowned = true)
    (quiet : endpoint.Quiet) : effects = [] ∧ endpoint'.Quiet := by
  have finished := (moves.of_finished quiet.1).1
  cases moves with
  | @rejected message handler large =>
      obtain rfl : handler = none := Option.isNone_iff_eq_none.mp unowned
      exact ⟨rfl, quiet⟩
  | @posted message handler small =>
      obtain rfl : handler = none := Option.isNone_iff_eq_none.mp unowned
      refine ⟨rfl, finished, fun task member => ?_⟩
      rcases List.mem_append.mp member with old | new
      · exact quiet.2 task old
      · rw [List.mem_singleton.mp new]
        rfl
  | closePosted => exact ⟨rfl, quiet_close.mpr quiet⟩
  | @ran index task session effects posted moves =>
      refine ⟨?_, finished, fun other member => quiet.2 other (List.mem_of_mem_eraseIdx member)⟩
      rcases (moves.of_finished quiet.1).2 with rfl | ⟨frame, handler, same, rfl⟩
      · rfl
      · have unhandled := quiet.2 task (List.mem_of_getElem? posted)
        cases task with
        | send message handler' =>
            cases same
            cases handler with
            | none => rfl
            | some handler => cases unhandled
        | close => cases same
  | @inside action session effects notTask moves =>
      refine ⟨?_, finished, quiet.2⟩
      rcases (moves.of_finished quiet.1).2 with rfl | ⟨frame, handler, rfl, _⟩
      · rfl
      · cases notTask

/-- A finished session tells the write handler of a late task that it is not connected. -/
theorem step_dropped {endpoint : Endpoint H} (finished : endpoint.session.Finished) {place : ℕ}
    {message : RpcMessage} {handler : Option H}
    (posted : endpoint.tasks[place]? = some (.send message handler)) :
    endpoint.step (.run place) = some (endpoint.advance (endpoint.tasks.eraseIdx place) [message]
      (endpoint.session, Session.invoke handler .notConnected)) := by
  simp [step, posted, Task.action, Task.message, Session.step, finished.2, Session.sendTask, finished.1]

end Endpoint

namespace SessionPool

/-- All sessions are quiet. -/
def Quiet (pool : SessionPool H) : Prop :=
  ∀ endpoint ∈ pool.sessions, endpoint.Quiet

instance (pool : SessionPool H) : Decidable pool.Quiet :=
  inferInstanceAs (Decidable (∀ endpoint ∈ pool.sessions, endpoint.Quiet))

/-- What `Session::close` does not change for one session, it does not change for the pool. -/
theorem forall_closeAll {property : Endpoint H → Prop}
    (same : ∀ endpoint, property endpoint.close ↔ property endpoint) (pool : SessionPool H)
    (indices : List ℕ) :
    (∀ endpoint ∈ (pool.closeAll indices).sessions, property endpoint) ↔
      ∀ endpoint ∈ pool.sessions, property endpoint := by
  constructor
  · intro holds endpoint member
    obtain ⟨index, found⟩ := List.mem_iff_getElem?.mp member
    have found' := getElem?_closeAll pool indices index
    rw [found] at found'
    have there := holds _ (List.mem_of_getElem? found')
    split_ifs at there
    · exact (same endpoint).mp there
    · exact there
  · intro holds endpoint' member
    obtain ⟨index, found'⟩ := List.mem_iff_getElem?.mp member
    rw [getElem?_closeAll] at found'
    obtain ⟨endpoint, found, rfl⟩ := Option.map_eq_some_iff.mp found'
    split_ifs
    · exact (same endpoint).mpr (holds endpoint (List.mem_of_getElem? found))
    · exact holds endpoint (List.mem_of_getElem? found)

/-- **A quiet pool stays quiet and runs nothing.** -/
theorem Quiet.step {pool pool' : SessionPool H} (quiet : pool.Quiet) (sound : Sound pool) {index : ℕ}
    {label : Endpoint.Label H} {effects : List (Effect H)} (unowned : label.unowned = true)
    (stepped : pool.step index label = some (pool', effects)) : effects = [] ∧ pool'.Quiet := by
  obtain ⟨endpoint, endpoint', found, moved, rfl, _⟩ := step_cases stepped
  have moves := Endpoint.step_moves (sound.each index endpoint found).wf moved
  obtain ⟨nothing, still⟩ := moves.quiet unowned (quiet endpoint (List.mem_of_getElem? found))
  refine ⟨nothing, fun other member => ?_⟩
  rcases List.mem_or_eq_of_mem_set member with old | rfl
  · exact quiet other old
  · exact still

/-- A finished pool that is not quiet has a task with a write handler. -/
theorem exists_handled {pool : SessionPool H} (finished : pool.Finished) (loud : ¬ pool.Quiet) :
    ∃ (index : ℕ) (endpoint : Endpoint H) (place : ℕ) (message : RpcMessage) (handler : H),
      pool.sessions[index]? = some endpoint ∧
        endpoint.tasks[place]? = some (.send message (some handler)) := by
  by_contra none
  refine loud fun endpoint member => ⟨finished endpoint member, fun task posted => ?_⟩
  obtain ⟨index, found⟩ := List.mem_iff_getElem?.mp member
  obtain ⟨place, found'⟩ := List.mem_iff_getElem?.mp posted
  rcases task with ⟨message, _ | handler⟩ | _
  · rfl
  · exact absurd ⟨index, endpoint, place, message, handler, found, found'⟩ none
  · rfl

theorem Quiet.rerun {pool : SessionPool H} (quiet : pool.Quiet) : pool.rerun.Quiet := by
  intro endpoint' member
  obtain ⟨endpoint, old, rfl⟩ := List.mem_map.mp member
  have still := quiet endpoint old
  rwa [Endpoint.rerun_eq (by rw [still.1.2]; simp)]

end SessionPool

/-! ### Clients -/

namespace ClientWorld

/-- Nothing that can happen from here on runs a callback of the client. -/
def Silent (world : ClientWorld R) : Prop :=
  ∀ labels later label last effects, machine.run world labels = some later →
    later.step label = some (last, effects) → ∀ effect ∈ effects, effect.isCallback = false

/-- Every session of the client has finished, and no write handler is queued. -/
def Quiet (world : ClientWorld R) : Prop := world.pool.Quiet

/-- A client that was quiet when it was destroyed. -/
structure Gone (world : ClientWorld R) : Prop where
  dead : world.alive = false
  unconnected : world.connecting = 0
  sound : world.pool.Sound
  quiet : world.pool.Quiet

/-- **Without the client, its sessions stay quiet and run none of its callbacks.** -/
theorem Gone.step {world world' : ClientWorld R} (gone : Gone world) {label : Label R}
    {effects : List (Effect UInt64)} (stepped : world.step label = some (world', effects)) :
    Gone world' ∧ effects = [] := by
  obtain ⟨dead, unconnected, sound, quiet⟩ := gone
  cases label with
  | connect | refused | established fd | call label | destroy =>
      simp [ClientWorld.step, dead, unconnected] at stepped
  | session index label =>
      obtain ⟨unowned, pool, moved, rfl⟩ := session_step.mp stepped
      obtain ⟨nothing, still⟩ := quiet.step sound unowned moved
      exact ⟨⟨dead, unconnected, sound.step moved, still⟩, nothing⟩
  | rerun =>
      cases stepped
      exact ⟨⟨dead, unconnected, sound.rerun, quiet.rerun⟩, rfl⟩

theorem Gone.silent {world : ClientWorld R} (gone : Gone world) : Silent world := by
  intro labels later label last effects ran stepped effect member
  have still : Gone later := by
    refine Machine.invariant_run Gone (fun gone stepped => ?_) gone ran
    obtain ⟨effects, stepped⟩ := machine_step.mp stepped
    exact (gone.step stepped).1
  rw [(still.step stepped).2] at member
  cases member

theorem destroy_step {world gone : ClientWorld R} {effects : List (Effect UInt64)}
    (destroyed : world.step .destroy = some (gone, effects)) :
    gone.pool = world.pool.closeAll world.client.session.toList ∧ gone.alive = false ∧
      gone.connecting = 0 := by
  simp only [step] at destroyed
  split_ifs at destroyed with free
  cases destroyed
  simp only [Bool.and_eq_true, beq_iff_eq] at free
  exact ⟨rfl, rfl, free.1.1.2⟩

/-- **A client that is not quiet leaves a callback to be run.** -/
theorem not_silent {world : ClientWorld R} (sound : world.pool.Sound) (loud : ¬ world.pool.Quiet) :
    ¬ Silent world := by
  intro silent
  by_cases finished : world.pool.Finished
  · -- a task of a call is queued, and tells its write handler that the session is not connected
    obtain ⟨index, endpoint, place, message, id, found, posted⟩ :=
      SessionPool.exists_handled finished loud
    have alone : world.pool.Alone index := fun other endpoint' _ there => by
      rw [Endpoint.busy, (SessionPool.finished_iff.mp finished other endpoint' there).2]
      rfl
    have moved := SessionPool.step_of_alone found alone
      (Endpoint.step_dropped (SessionPool.finished_iff.mp finished index endpoint found) posted)
    have called := silent [] world (.session index (.run place)) _ _ rfl
      (session_step.mpr ⟨rfl, _, moved, rfl⟩) (.write id .notConnected) (List.mem_singleton_self _)
    cases called
  · obtain ⟨index, endpoint, found, unfinished⟩ := SessionPool.exists_unfinished finished
    obtain ⟨other, actions, pool, action, pool', effects, _, ran, closing, closes⟩ :=
      SessionPool.exists_close sound found unfinished
    obtain ⟨labels, later, ranWorld, rfl, _⟩ :=
      @run_of_solo _ { world with pool := world.pool.rerun } _ _ _ ran
    have called := silent (.rerun :: labels) later _ _ effects
      ((Machine.run_cons_eq_some _).mpr ⟨_, rfl, ranWorld⟩)
      (session_step.mpr ⟨rfl, pool', closing, rfl⟩) .close closes
    cases called

end ClientWorld

/-! ### Servers -/

namespace ServerWorld

/-- Nothing that can happen from here on runs a callback of the server. -/
def Silent (world : ServerWorld H) : Prop :=
  ∀ labels later label last effects, machine.run world labels = some later →
    later.step label = some (last, effects) → ∀ effect ∈ effects, effect.isCallback = false

/-- Every session of the server has finished, and the loop is not with its listener. -/
structure Quiet (world : ServerWorld H) : Prop where
  finished : world.pool.Finished
  listener : world.listener = .idle

/-- A server that was quiet when it was destroyed. -/
structure Gone (world : ServerWorld H) : Prop where
  dead : world.alive = false
  unregistered : world.registered = false
  sound : world.pool.Sound
  quiet : Quiet world

/-- **Without the server, its sessions stay finished and its listener stays idle.** -/
theorem Gone.step {world world' : ServerWorld H} (gone : Gone world) {label : Label H}
    {effects : List (ServerEffect H)} (stepped : world.step label = some (world', effects)) :
    Gone world' ∧ ∀ effect ∈ effects, effect.isCallback = false := by
  obtain ⟨dead, unregistered, sound, finished, idle⟩ := gone
  cases label with
  | start result | stop | dispatch | enter readable | accept result | destroy =>
      simp [ServerWorld.step, dead, unregistered, idle] at stepped
  | session index label =>
      simp only [ServerWorld.step] at stepped
      split_ifs at stepped
      obtain ⟨⟨pool, effects'⟩, moved, same⟩ := Option.map_eq_some_iff.mp stepped
      cases same
      refine ⟨⟨dead, unregistered, sound.step moved, ?_, idle⟩, fun effect member => ?_⟩
      · exact SessionPool.finished_iff.mpr fun other =>
          (SessionPool.finished_iff.mp finished other).step sound moved
      · obtain ⟨effect, ran, rfl⟩ := List.mem_map.mp member
        -- the only callback in a session is the close handler, which a finished session has run
        by_contra close
        refine SessionPool.not_finishedAt_of_close sound moved ?_ (SessionPool.finished_iff.mp finished index)
        cases effect with
        | close => exact ran
        | _ => exact absurd rfl close
  | other =>
      cases stepped
      exact ⟨⟨dead, unregistered, sound, finished, idle⟩, by simp⟩
  | rerun =>
      cases stepped
      refine ⟨⟨dead, unregistered, sound.rerun, ?_, idle⟩, by simp⟩
      exact SessionPool.finished_iff.mpr fun other => (SessionPool.finished_iff.mp finished other).rerun sound

theorem Gone.silent {world : ServerWorld H} (gone : Gone world) : Silent world := by
  intro labels later label last effects ran stepped
  have still : Gone later := by
    refine Machine.invariant_run Gone (fun gone stepped => ?_) gone ran
    obtain ⟨effects, stepped⟩ := machine_step.mp stepped
    exact (gone.step stepped).1
  exact (still.step stepped).2

/-- **A server that is not quiet leaves a callback to be run.** -/
theorem not_silent {world : ServerWorld H} (sound : world.pool.Sound) (loud : ¬ Quiet world) :
    ¬ Silent world := by
  intro silent
  cases place : world.listener with
  | found =>
      have called := silent [] world (.enter false) _ [.listener] rfl (if_pos place) .listener
        (List.mem_singleton_self _)
      cases called
  | accepting =>
      have called := silent [] world (.accept .failed) _ [.listener] rfl (if_pos ⟨place, Or.inr rfl⟩) .listener
        (List.mem_singleton_self _)
      cases called
  | idle =>
      obtain ⟨index, endpoint, found, unfinished⟩ :=
        SessionPool.exists_unfinished fun finished => loud ⟨finished, place⟩
      obtain ⟨other, actions, pool, action, pool', effects, _, ran, closing, closes⟩ :=
        SessionPool.exists_close sound found unfinished
      obtain ⟨labels, later, ranWorld, rfl, idle⟩ :=
        @run_of_solo _ { world with pool := world.pool.rerun } _ _ _ place ran
      have called := silent (.rerun :: labels) later _ _ _
        ((Machine.run_cons_eq_some _).mpr ⟨_, rfl, ranWorld⟩) (session_step idle closing)
        (.session other .close) (List.mem_map_of_mem closes)
      cases called

theorem destroy_step {world gone : ServerWorld H} {effects : List (ServerEffect H)}
    (destroyed : world.step .destroy = some (gone, effects)) :
    gone = { world.stop with alive := false } := by
  simp only [step] at destroyed
  split_ifs at destroyed
  cases destroyed
  rfl

/-- `stop` leaves the sessions and the loop thread where they are. -/
theorem quiet_stop {world : ServerWorld H} :
    Quiet { world.stop with alive := false } ↔ Quiet world := by
  have kept : world.stop.pool.Finished ↔ world.pool.Finished := by
    unfold stop
    split_ifs
    · exact Iff.rfl
    · exact SessionPool.forall_closeAll (fun _ => Iff.rfl) world.pool _
    · exact SessionPool.forall_closeAll (fun _ => Iff.rfl) world.pool _
  have listener : world.stop.listener = world.listener := by
    unfold stop
    split_ifs <;> rfl
  constructor
  · exact fun quiet => ⟨kept.mp quiet.finished, listener ▸ quiet.listener⟩
  · exact fun quiet => ⟨kept.mpr quiet.finished, listener.trans quiet.listener⟩

end ServerWorld

/-! ### Every run -/

/-- **No callback outlives its owner exactly if the owner was quiet when it was destroyed.** After the
destructor of a client has run, no message, close or write handler of the client can be called exactly if
all its sessions had finished and no write handler was queued; after the destructor of a server, neither
the listener's handler nor the close handler of a session exactly if all sessions had finished and the
loop was not with the listener. -/
theorem silent_iff_quiet :
    (∀ (labels : List (ClientWorld.Label R)) world gone effects,
      ClientWorld.machine.run {} labels = some world →
      world.step .destroy = some (gone, effects) → (gone.Silent ↔ world.Quiet)) ∧
    ∀ (labels : List (ServerWorld.Label H)) world gone effects,
      ServerWorld.machine.run {} labels = some world →
      world.step .destroy = some (gone, effects) → (gone.Silent ↔ world.Quiet) := by
  constructor
  · intro labels world gone effects ran destroyed
    have sound := ((ClientWorld.step_moves destroyed).formed
      (ClientWorld.run_formed ClientWorld.start_formed ran)).sound
    obtain ⟨pool, dead, unconnected⟩ := ClientWorld.destroy_step destroyed
    have quiet : gone.pool.Quiet ↔ world.Quiet := by
      rw [pool]
      exact SessionPool.forall_closeAll (fun _ => Endpoint.quiet_close) world.pool _
    constructor
    · intro silent
      by_contra loud
      exact ClientWorld.not_silent sound (fun still => loud (quiet.mp still)) silent
    · exact fun still => ClientWorld.Gone.silent ⟨dead, unconnected, sound, quiet.mpr still⟩
  · intro labels world gone effects ran destroyed
    have formed := ServerWorld.run_formed ServerWorld.new_formed ran
    have sound := (formed.step destroyed).sound
    obtain rfl := ServerWorld.destroy_step destroyed
    constructor
    · intro silent
      by_contra loud
      exact ServerWorld.not_silent sound (fun still => loud (ServerWorld.quiet_stop.mp still)) silent
    · exact fun quiet =>
        ServerWorld.Gone.silent ⟨rfl, formed.stop.2, sound, ServerWorld.quiet_stop.mpr quiet⟩

/-- A client whose session has hung up and finished. -/
def clientAfterClose : List (ClientWorld.Label ℕ) :=
  [.connect, .established 5, .session 0 (.session (.handleEvents { hup := true })),
    .session 0 (.session .drain)]

/-- A server whose session has hung up and finished. -/
def serverAfterClose : List (ServerWorld.Label ℕ) :=
  [.start .ok, .dispatch, .enter true, .accept (.connection 5), .accept .blocked,
    .session 0 (.session (.handleEvents { hup := true })), .session 0 (.session .drain)]

theorem silent_afterClose :
    (∃ world gone effects, ClientWorld.machine.run {} clientAfterClose = some world ∧
      world.step .destroy = some (gone, effects) ∧ gone.Silent) ∧
    ∃ world gone effects, ServerWorld.machine.run {} serverAfterClose = some world ∧
      world.step .destroy = some (gone, effects) ∧ gone.Silent := by
  constructor
  · have ran : ClientWorld.machine.run {} clientAfterClose =
        some ((ClientWorld.machine.run {} clientAfterClose).get (by decide +kernel)) :=
      (Option.some_get _).symm
    have destroyed : ((ClientWorld.machine.run {} clientAfterClose).get (by decide +kernel)).step
        .destroy = some (_, _) := (Option.some_get (by decide +kernel)).symm
    exact ⟨_, _, _, ran, destroyed,
      ((@silent_iff_quiet ℕ ℕ).1 _ _ _ _ ran destroyed).mpr
        (show SessionPool.Quiet _ by decide +kernel)⟩
  · have ran : ServerWorld.machine.run {} serverAfterClose =
        some ((ServerWorld.machine.run {} serverAfterClose).get (by decide +kernel)) :=
      (Option.some_get _).symm
    have destroyed : ((ServerWorld.machine.run {} serverAfterClose).get (by decide +kernel)).step
        .destroy = some (_, _) := (Option.some_get (by decide +kernel)).symm
    exact ⟨_, _, _, ran, destroyed,
      ((@silent_iff_quiet ℕ ℕ).2 _ _ _ _ ran destroyed).mpr ⟨by decide +kernel, by decide +kernel⟩⟩

/-- A client and a server that are destroyed with an open session: the task that the destructor posted comes
to the close handler, which is theirs. -/
theorem destroyed_with_open_session :
    (∃ (world gone later last : ClientWorld ℕ) (effects : List (Effect UInt64)),
      ClientWorld.machine.run {} [.connect, .established 5] = some world ∧
      world.step .destroy = some (gone, []) ∧
      ClientWorld.machine.run gone [.session 0 (.run 0)] = some later ∧
      later.step (.session 0 (.session .drain)) = some (last, effects) ∧
      .close ∈ effects ∧ ¬ gone.Silent) ∧
    ∃ (world gone later last : ServerWorld ℕ) (effects : List (ServerEffect ℕ)),
      ServerWorld.machine.run {} [.start .ok, .dispatch, .enter true, .accept (.connection 5),
        .accept .blocked] = some world ∧
      world.step .destroy = some (gone, []) ∧
      ServerWorld.machine.run gone [.session 0 (.run 0)] = some later ∧
      later.step (.session 0 (.session .drain)) = some (last, effects) ∧
      .session 0 .close ∈ effects ∧ ¬ gone.Silent := by
  constructor
  · refine ⟨_, _, _, _, [.close], rfl, rfl, rfl, rfl, by decide, fun silent => ?_⟩
    have called := silent [.session 0 (.run 0)] _ (.session 0 (.session .drain)) _ [.close] rfl rfl .close
      (by decide)
    cases called
  · refine ⟨_, _, _, _, [.session 0 .close], rfl, rfl, rfl, rfl, by decide, fun silent => ?_⟩
    have called := silent [.session 0 (.run 0)] _ (.session 0 (.session .drain)) _ [.session 0 .close] rfl rfl
      (.session 0 .close) (by decide)
    cases called

end Insist.MiniRpc
