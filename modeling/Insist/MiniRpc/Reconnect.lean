/-
**Reconnecting: what the teardown of an old session does to the new one.**

`close_from_loop` sets `open_` to false, then runs the write handlers of the queue, and only then the close
handler; `connect` makes a new session as soon as `open_` is false, and the client's close handler resets
`session_` and clears `pending_` whichever session it is run for.

* `Isolated` — a close handler affects neither a different, open `session_` nor the calls issued on a later
  session;
* `Newest` — as long as connections are established only when every earlier session has finished,
  `session_` is the newest session and all older ones have finished;
* `reconnect_isolation` — under this condition every close handler is isolated, and after any step that
  breaks it the loop can go on to one that is not.
-/
import Insist.MiniRpc.ClientWorld

namespace Insist.MiniRpc

open Lib

variable {R : Type}

/-- Whether there is a session at this place, and it is open. -/
def SessionPool.isOpen {H : Type} (pool : SessionPool H) (index : ℕ) : Bool :=
  pool.sessions[index]?.any fun endpoint => endpoint.session.open_

namespace ClientWorld

/-- The close handler of one session leaves `session_` alone if that is a different, open session, and the
handlers of calls issued on a later session in the table. -/
structure Isolated (world world' : ClientWorld R) (closing : ℕ) : Prop where
  session : ∀ current, world.client.session = some current → current ≠ closing →
    world.pool.isOpen current = true → world'.client.session = some current
  pending : ∀ id handler later, world.client.pending id = some handler →
    world.issued id = some later → closing < later → world'.client.pending id = some handler

/-- Whether the label establishes a connection. -/
def Label.establishes : Label R → Bool
  | .established _ => true
  | _ => false

/-- A connection is established only when every earlier session has finished. -/
def Settled (world : ClientWorld R) (label : Label R) : Prop :=
  label.establishes = true → world.pool.Finished

instance (world : ClientWorld R) (label : Label R) : Decidable (world.Settled label) :=
  inferInstanceAs (Decidable (_ = true → _))

/-! ### Settled runs -/

/-- `session_` is the newest session, and all older ones have finished. -/
structure Newest (world : ClientWorld R) : Prop where
  older : ∀ index, index + 1 < world.pool.sessions.length → world.pool.FinishedAt index
  session : ∀ index, world.client.session = some index → index + 1 = world.pool.sessions.length

theorem start_newest : Newest ({} : ClientWorld R) where
  older index inside := by cases inside
  session index same := by cases same

/-- Finished sessions stay finished when the sessions change. -/
theorem Change.finishedAt {world : ClientWorld R} {label : Label R} {pool : SessionPool UInt64}
    {session : Option ℕ} (change : Change world label pool session) (sound : world.pool.Sound) {index : ℕ}
    (old : index < world.pool.sessions.length) (finished : world.pool.FinishedAt index) :
    pool.FinishedAt index := by
  cases change with
  | none => exact finished
  | moved stepped => exact finished.step sound stepped
  | made fd =>
      intro endpoint found
      rcases SessionPool.getElem?_add_cases found with ⟨new, _⟩ | before
      · omega
      · exact finished endpoint before
  | again => exact finished.rerun sound
  | destroyed => exact finished.closeAll _

/-- **Every settled step keeps the newest session alone unfinished.** -/
theorem Moves.newest {world world' : ClientWorld R} {label : Label R} (moves : Moves world label world')
    (settled : world.Settled label) (formed : Formed world) (newest : Newest world) :
    Newest world' := by
  have kept {index : ℕ} (old : index < world.pool.sessions.length)
      (finished : world.pool.FinishedAt index) : world'.pool.FinishedAt index :=
    moves.change.finishedAt formed.sound old finished
  constructor
  · intro index older
    by_cases old : index + 1 < world.pool.sessions.length
    · exact kept (by omega) (newest.older index old)
    · -- a session has been added, and the last one before it had finished
      obtain ⟨fd, rfl, same⟩ : ∃ fd, label = .established fd ∧ world'.pool = world.pool.add fd := by
        have change := moves.change
        generalize world'.pool = pool at change older
        generalize world'.client.session = session at change
        cases change with
        | none => exact absurd older old
        | moved stepped =>
            rw [SessionPool.step_length stepped] at older
            exact absurd older old
        | made fd => exact ⟨fd, rfl, rfl⟩
        | again => exact absurd (by simpa [SessionPool.rerun] using older) old
        | destroyed => exact absurd (by simpa [SessionPool.closeAll] using older) old
      rw [same] at older
      refine kept ?_ (SessionPool.finished_iff.mp (settled rfl) index)
      simpa [SessionPool.add] using older
  · intro index current
    rcases moves.change.session_cases current with ⟨before, same⟩ | last
    · rw [same]
      exact newest.session index before
    · exact last

theorem run_newest {labels : List (Label R)} {world : ClientWorld R}
    (ran : (machine.guarded Settled).run {} labels = some world) : Formed world ∧ Newest world := by
  refine Machine.invariant_run (fun world => Formed world ∧ Newest world) (fun holds stepped => ?_)
    ⟨start_formed, start_newest⟩ ran
  obtain ⟨settled, stepped⟩ := Machine.guarded_step.mp stepped
  obtain ⟨effects, stepped⟩ := machine_step.mp stepped
  have moves := step_moves stepped
  exact ⟨moves.formed holds.1, moves.newest settled holds.1 holds.2⟩

/-- **In a settled run, only the newest session runs its close handler.** -/
theorem Newest.closing {world world' : ClientWorld R} (newest : Newest world) (formed : Formed world)
    {index : ℕ} {label : Endpoint.Label UInt64} {effects : List (Effect UInt64)}
    (stepped : world.step (.session index label) = some (world', effects)) (closes : .close ∈ effects) :
    index + 1 = world.pool.sessions.length := by
  obtain ⟨_, pool, moved, _⟩ := session_step.mp stepped
  have unfinished := SessionPool.not_finishedAt_of_close formed.sound moved closes
  obtain ⟨endpoint, _, found, _⟩ := SessionPool.step_cases moved
  obtain ⟨inside, _⟩ := List.getElem?_eq_some_iff.mp found
  by_contra notLast
  exact unfinished (newest.older index (by omega))

/-! ### Unsettled steps -/

theorem established_step {world next : ClientWorld R} {fd : ℕ} {effects : List (Effect UInt64)}
    (stepped : world.step (.established fd) = some (next, effects)) :
    next.pool = world.pool.add fd ∧ next.client.session = some world.pool.sessions.length := by
  simp only [step] at stepped
  split_ifs at stepped
  cases stepped
  exact ⟨rfl, rfl⟩

/-- After a connection has been established while an earlier session had not finished, the loop can go on
with an earlier session up to a close handler that resets the new `session_`. -/
theorem breaks_of_unsettled {world next : ClientWorld R} {fd : ℕ} {effects : List (Effect UInt64)}
    (formed : Formed world) (stepped : world.step (.established fd) = some (next, effects))
    (unsettled : ¬ world.pool.Finished) :
    ∃ labels later index action last effects, machine.run next labels = some later ∧
      later.step (.session index (.session action)) = some (last, effects) ∧ .close ∈ effects ∧
      ¬ Isolated later last index := by
  have sound := ((step_moves stepped).formed formed).sound
  obtain ⟨made, current⟩ := established_step stepped
  -- an earlier session that has not finished
  obtain ⟨old, endpoint, found, unfinished⟩ := SessionPool.exists_unfinished unsettled
  obtain ⟨inside, _⟩ := List.getElem?_eq_some_iff.mp found
  have found' : next.pool.sessions[old]? = some endpoint := by
    rw [made, SessionPool.add, List.getElem?_append_left inside, found]
  have created : next.pool.sessions[world.pool.sessions.length]? = some (.started fd) := by
    rw [made, SessionPool.add, List.getElem?_append_right le_rfl, Nat.sub_self]
    rfl
  -- the loop comes to the close handler of an earlier session, while `session_` is the new one
  obtain ⟨other, actions, pool, action, pool', effects, which, ran, closing, closes⟩ :=
    SessionPool.exists_close sound found' unfinished
  have earlier : world.pool.sessions.length ≠ other := by
    rintro rfl
    rcases which with same | ⟨endpoint', there, busy⟩
    · omega
    · rw [created] at there
      cases there
      cases busy
  obtain ⟨labels, later, ranWorld, rfl, session⟩ :=
    @run_of_solo _ { next with pool := next.pool.rerun } _ _ _ ran
  refine ⟨.rerun :: labels, later, other, action, _, effects,
    (Machine.run_cons_eq_some _).mpr ⟨_, rfl, ranWorld⟩,
    session_step.mpr ⟨rfl, pool', closing, rfl⟩, closes, fun isolated => ?_⟩
  have opened : later.pool.isOpen world.pool.sessions.length = true := by
    rw [SessionPool.isOpen, SessionPool.solo_others ran earlier, SessionPool.rerun, List.getElem?_map,
      created]
    rfl
  have kept := isolated.session _ (session.trans current) earlier opened
  have reset : (later.absorb (pool', effects)).1.client.session = none := by
    show (later.client.handleAll effects).1.session = none
    rw [RpcClient.handleAll_session, if_pos ((Effect.any_isClose effects).mpr closes)]
  rw [reset] at kept
  cases kept

/-- **Reconnect isolation holds exactly as long as connections are established after the earlier sessions
have finished.** In every run whose steps meet this, a close handler neither resets a different, open
`session_` nor removes the handler of a call issued on a later session; and every step that does not meet it
leaves the loop free to run a close handler that is not isolated. -/
theorem reconnect_isolation :
    (∀ (labels : List (Label R)) world index label world' effects,
      (machine.guarded Settled).run {} labels = some world →
      world.step (.session index label) = some (world', effects) → .close ∈ effects →
      Isolated world world' index) ∧
    ∀ (labels : List (Label R)) world next fd effects, machine.run {} labels = some world →
      world.step (.established fd) = some (next, effects) → ¬ world.Settled (.established fd) →
      ∃ more later index action last effects', machine.run next more = some later ∧
        later.step (.session index (.session action)) = some (last, effects') ∧ .close ∈ effects' ∧
        ¬ Isolated later last index := by
  constructor
  · intro labels world index label world' effects ran stepped closes
    obtain ⟨formed, newest⟩ := run_newest ran
    have last := newest.closing formed stepped closes
    constructor
    · intro current same different
      have newer := newest.session current same
      omega
    · intro id handler later pending issued after
      have made := formed.issued id later issued
      omega
  · intro labels world next fd effects ran stepped unsettled
    exact breaks_of_unsettled (run_formed start_formed ran) stepped fun finished =>
      unsettled fun _ => finished

/-- The client calls `connect` again while the old session is about to run its close handler, and the connection
is established, and a call made, when it has finished. -/
def reconnectAfterClose : List (Label ℕ) :=
  [.connect, .established 5, .session 0 (.session (.handleEvents { hup := true })), .connect,
    .session 0 (.session .drain), .established 6,
    .call (.callAsync .nil .nil .nil (some 7)), .call (.register 0), .call (.send 0),
    .session 1 (.session (.handleEvents { hup := true }))]

theorem reconnectAfterClose_isolated : ∃ world world' effects,
    (machine.guarded Settled).run {} reconnectAfterClose = some world ∧
      world.step (.session 1 (.session .drain)) = some (world', effects) ∧ .close ∈ effects ∧
      Isolated world world' 1 := by
  have ran : (machine.guarded Settled).run {} reconnectAfterClose =
      some (((machine.guarded Settled).run {} reconnectAfterClose).get (by decide +kernel)) :=
    (Option.some_get _).symm
  have stepped : (((machine.guarded Settled).run {} reconnectAfterClose).get (by decide +kernel)).step
      (.session 1 (.session .drain)) = some (_, _) := (Option.some_get (by decide +kernel)).symm
  exact ⟨_, _, _, ran, stepped, by decide +kernel,
    reconnect_isolation.1 _ _ _ _ _ _ ran stepped (by decide +kernel)⟩

/-- The client connects again, and makes a call, while the old session is about to run its close handler. -/
def reconnectInWindow : List (Label ℕ) :=
  [.connect, .established 5, .session 0 (.session (.handleEvents { hup := true })),
    .connect, .established 6,
    .call (.callAsync .nil .nil .nil (some 7)), .call (.register 0), .call (.send 0)]

/-- The old session's close handler resets the new `session_` and drops the new call's handler. -/
theorem reconnectInWindow_breaks : ∃ world world' effects,
    machine.run {} reconnectInWindow = some world ∧
      world.step (.session 0 (.session .drain)) = some (world', effects) ∧ .close ∈ effects ∧
      (world.client.session = some 1 ∧ world.pool.isOpen 1 = true ∧ world'.client.session = none) ∧
      (world.client.pending 1 = some (some 7) ∧ world.issued 1 = some 1 ∧ world'.client.pending 1 = none) ∧
      ¬ Isolated world world' 0 := by
  have ran : machine.run {} reconnectInWindow =
      some ((machine.run {} reconnectInWindow).get (by decide +kernel)) := (Option.some_get _).symm
  have stepped : ((machine.run {} reconnectInWindow).get (by decide +kernel)).step
      (.session 0 (.session .drain)) = some (_, _) := (Option.some_get (by decide +kernel)).symm
  refine ⟨_, _, _, ran, stepped, by decide +kernel, by decide +kernel, by decide +kernel, fun isolated => ?_⟩
  have kept := isolated.session 1 (by decide +kernel) (by decide) (by decide +kernel)
  revert kept
  decide +kernel

end ClientWorld

end Insist.MiniRpc
