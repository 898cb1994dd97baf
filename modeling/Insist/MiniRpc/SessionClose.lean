/-
**How a session ends.**

A session is finished when it is closed and its close handler has run. A finished session stays finished,
and only tells `not_connected` to the write handlers of late tasks (`Moves.of_finished`); its close handler is
the last thing that `close_from_loop` does (`Moves.of_close`). Every session that has not finished can
still come to its close handler, whatever the loop thread is doing in it: `closes_of_unfinished` leads
there by a choice of answers of the system calls, with an induction on the write queue and on the read
buffer.
-/
import Insist.MiniRpc.Endpoint

namespace Insist.MiniRpc

variable {H : Type}

/-! ### Finished sessions -/

namespace Session

/-- The session is closed, and its close handler has run. -/
def Finished (session : Session H) : Prop :=
  session.open_ = false ∧ session.control = .idle

instance (session : Session H) : Decidable session.Finished :=
  inferInstanceAs (Decidable (_ ∧ _))

/-- What a session that has been started keeps: its members fit, and it is registered until it closes. -/
structure Sound (session : Session H) : Prop where
  wf : session.Wf
  registered : session.open_ = true → session.registered = true

theorem started_sound (fd : ℕ) : (started fd : Session H).Sound :=
  ⟨started_wf fd, fun _ => rfl⟩

/-- **Every step of a session keeps it sound.** -/
theorem Moves.sound {session session' : Session H} {action : Action H} {effects : List (Effect H)}
    (moves : Moves session action session' effects) (sound : session.Sound) : session'.Sound := by
  refine ⟨moves.wf sound.wf, fun opened => ?_⟩
  have before := sound.registered (moves.of_open sound.wf opened).1
  cases moves with
  | closing opened' cause => cases opened
  | updatedClosing inCode asked => cases opened
  | _ => exact before

/-- **A finished session only drops the frames of late tasks.** -/
theorem Moves.of_finished {session session' : Session H} {action : Action H}
    {effects : List (Effect H)} (moves : Moves session action session' effects)
    (finished : session.Finished) :
    session' = session ∧ (effects = [] ∨
      ∃ frame handler, action = .sendTask frame handler ∧ effects = invoke handler .notConnected) := by
  obtain ⟨closed, idle⟩ := finished
  have notOpen : ¬ session.open_ = true := by simp [closed]
  have notRunning : ¬ session.control.running = true := by
    rw [idle]
    exact Bool.false_ne_true
  cases moves with
  | dropped => exact ⟨rfl, Or.inr ⟨_, _, rfl, rfl⟩⟩
  | ignored => exact ⟨rfl, Or.inl rfl⟩
  | queued _ opened | jump opened | closing opened => exact absurd opened notOpen
  | received inLoop | delivered inLoop | undecodable inLoop | oversized inLoop | wrotePart inLoop
  | wroteAll inLoop | failedFrame inLoop | updatedClosing inLoop =>
      exact absurd (by rw [inLoop]; rfl) notRunning
  | updated inCode | threw inCode => exact absurd (running_of_update inCode) notRunning
  | socketError inLoop => exact absurd (running_of_socketError inLoop).1 notRunning
  | closedFrame inLoop | closedLast inLoop =>
      rw [idle] at inLoop
      cases inLoop

theorem close_notMem_invoke (handler : Option H) (error : ErrorCode) :
    Effect.close ∉ invoke handler error := by
  cases handler <;> simp [invoke]

/-- **The close handler is the last thing that `close_from_loop` does.** -/
theorem Moves.of_close {session session' : Session H} {action : Action H}
    {effects : List (Effect H)} (moves : Moves session action session' effects)
    (closes : .close ∈ effects) :
    session.control = .closeLoop ∧ action = .drain ∧ effects = [.close] ∧
      session' = { session with control := .idle } := by
  cases moves with
  | closedLast inLoop empty => exact ⟨inLoop, rfl, rfl, rfl⟩
  | dropped | failedFrame | closedFrame => exact absurd closes (close_notMem_invoke _ _)
  | wroteAll =>
      exact absurd ((List.mem_cons.mp closes).resolve_left (by simp)) (close_notMem_invoke _ _)
  | jump opened jump => rcases jump.effects_eq with rfl | rfl <;> simp at closes
  | closing opened cause => cases cause <;> simp at closes
  | _ => simp at closes

/-- **A session finishes only by its close handler.** -/
theorem Moves.of_unfinished {session session' : Session H} {action : Action H}
    {effects : List (Effect H)} (moves : Moves session action session' effects) (wf : session.Wf)
    (unfinished : ¬ session.Finished) (silent : .close ∉ effects) : ¬ session'.Finished := by
  rintro ⟨closed', idle'⟩
  by_cases closed : session.open_ = false
  · have place : session.control = .closeLoop := by
      have notRunning : ¬ session.control.running = true := by
        intro running
        rw [wf.open_of_running running] at closed
        cases closed
      cases here : session.control with
      | idle => exact absurd ⟨closed, here⟩ unfinished
      | closeLoop => rfl
      | recvLoop | parseLoop | updateThenWrite | writeLoop | updateAfterWrite | failLoop | thrown =>
          exact absurd (by rw [here]; rfl) notRunning
    cases moves with
    | dropped idle | ignored idle =>
        rw [idle] at place
        cases place
    | closedFrame inLoop front =>
        rw [show session.control = .idle from idle'] at place
        cases place
    | closedLast inLoop empty => exact silent (List.mem_singleton_self _)
    | queued idle opened | jump opened | closing opened =>
        rw [opened] at closed
        cases closed
    | received inLoop | delivered inLoop | undecodable inLoop | oversized inLoop | wrotePart inLoop
    | wroteAll inLoop | failedFrame inLoop | updatedClosing inLoop =>
        rw [place] at inLoop
        cases inLoop
    | updated inCode | threw inCode =>
        rw [place] at inCode
        rcases inCode with impossible | ⟨_, impossible⟩
        · cases impossible
        · cases impossible
    | socketError inLoop =>
        rw [place] at inLoop
        rcases inLoop with ⟨_, impossible, _⟩ | ⟨_, impossible, _⟩
        · cases impossible
        · cases impossible
  · have opened : session.open_ = true := by simpa using closed
    cases moves with
    | closing opened cause => cases idle'
    | updatedClosing inCode asked => cases idle'
    | closedFrame inLoop | closedLast inLoop => exact closed (wf.closed_of_closeLoop inLoop)
    | _ => exact closed closed'

/-- **A session whose close handler has run has finished.** -/
theorem Moves.finished_of_close {session session' : Session H} {action : Action H}
    {effects : List (Effect H)} (moves : Moves session action session' effects) (wf : session.Wf)
    (closes : .close ∈ effects) : session'.Finished := by
  obtain ⟨place, _, _, rfl⟩ := moves.of_close closes
  exact ⟨wf.closed_of_closeLoop place, rfl⟩

/-! ### Every other session can still come to its close handler -/

/-- The loop thread can go on with the session, without a task, until it calls the close handler. -/
inductive Closes : Session H → Prop
  | last {session session' : Session H} {action : Action H} {effects : List (Effect H)}
      (inside : action.fromTask = false) (stepped : session.step action = some (session', effects))
      (closes : .close ∈ effects) : Closes session
  | next {session session' : Session H} {action : Action H} {effects : List (Effect H)}
      (inside : action.fromTask = false) (stepped : session.step action = some (session', effects))
      (silent : .close ∉ effects) (later : Closes session') : Closes session

theorem closes_of_closeLoop {session : Session H} (inLoop : session.control = .closeLoop) :
    Closes session := by
  induction queued : session.writeQueue generalizing session with
  | nil =>
      have stepped : session.step .drain = some ({ session with control := .idle }, [.close]) := by
        unfold step
        simp only [inLoop, closeFromLoopDrain, queued]
      exact .last rfl stepped (List.mem_singleton_self _)
  | cons frame queue ih =>
      have stepped : session.step .drain =
          some ({ session with writeQueue := queue }, invoke frame.handler .notConnected) := by
        unfold step
        simp only [inLoop, closeFromLoopDrain, queued]
      exact .next rfl stepped (close_notMem_invoke _ _) (ih inLoop rfl)

theorem closes_of_failLoop {session : Session H} {error : ErrorCode} (wf : session.Wf)
    (inLoop : session.control = .failLoop error) : Closes session := by
  have opened : session.open_ = true := wf.open_of_running (by rw [inLoop]; rfl)
  induction queued : session.writeQueue generalizing session with
  | nil =>
      have stepped : session.step .drain =
          some (session.closing, [.socketClosed session.socketFd session.registered]) := by
        unfold step
        simp only [inLoop, failAndCloseDrain, queued, closeFromLoop_of_open wf opened]
      exact .next rfl stepped (by simp) (closes_of_closeLoop rfl)
  | cons frame queue ih =>
      have stepped : session.step .drain =
          some ({ session with writeQueue := queue }, invoke frame.handler error) := by
        unfold step
        simp only [inLoop, failAndCloseDrain, queued]
      exact .next rfl stepped (close_notMem_invoke _ _)
        (ih ((step_moves wf stepped).wf wf) inLoop opened rfl)

/-- `::send` can fail. -/
theorem closes_of_writeLoop {session : Session H} {rdhup : Bool} (wf : session.Wf)
    (inLoop : session.control = .writeLoop rdhup) : Closes session := by
  obtain ⟨frame, queue, queued⟩ := List.exists_cons_of_ne_nil (wf.writing rdhup inLoop)
  have stepped : session.step (.send (.error (.other 0))) =
      some (session.failAndClose (.system (.other 0))) := by
    unfold step
    simp only [inLoop, queued, asyncWriteSend]
  exact .next rfl stepped (by simp) (closes_of_failLoop ((step_moves wf stepped).wf wf) rfl)

/-- The peer can hang up. -/
theorem closes_of_idle {session : Session H} (sound : session.Sound) (opened : session.open_ = true)
    (idle : session.control = .idle) : Closes session := by
  have stepped : session.step (.handleEvents { err := true }) =
      some (session.closing, [.dispatched, .socketClosed session.socketFd session.registered]) := by
    unfold step
    simp [idle, sound.registered opened, handleEvents, opened,
      closeFromLoop_of_open sound.wf opened]
  exact .next rfl stepped (by simp) (closes_of_closeLoop rfl)

theorem closes_of_updateAfterWrite {session : Session H} {rdhup : Bool} (sound : session.Sound)
    (inCode : session.control = .updateAfterWrite rdhup) : Closes session := by
  have opened : session.open_ = true := sound.wf.open_of_running (by rw [inCode]; rfl)
  have stepped : session.step (.modify .enoent) = some (session.afterWrite rdhup) := by
    unfold step
    simp [inCode, updateEvents, opened, sound.registered opened, resumeAfter]
  rw [afterWrite_of_open sound.wf opened] at stepped
  by_cases asked : rdhup = true
  · rw [if_pos asked] at stepped
    exact .next rfl stepped (by simp) (closes_of_closeLoop rfl)
  · rw [if_neg asked] at stepped
    exact .next rfl stepped (by simp)
      (closes_of_idle ((step_moves sound.wf stepped).sound sound) opened rfl)

theorem closes_of_updateThenWrite {session : Session H} (sound : session.Sound)
    (inCode : session.control = .updateThenWrite) : Closes session := by
  have opened : session.open_ = true := sound.wf.open_of_running (by rw [inCode]; rfl)
  have stepped : session.step (.modify .enoent) = some (session.writeTest false) := by
    unfold step
    simp [inCode, updateEvents, opened, sound.registered opened, resumeAfter]
  rw [writeTest_of_open opened] at stepped
  by_cases queued : session.writeQueue ≠ []
  · rw [if_pos queued] at stepped
    exact .next rfl stepped (by simp) (closes_of_writeLoop ((step_moves sound.wf stepped).wf sound.wf) rfl)
  · rw [if_neg queued] at stepped
    exact .next rfl stepped (by simp)
      (closes_of_updateAfterWrite ((step_moves sound.wf stepped).sound sound) rfl)

/-- The parse loop ends: every frame shortens the buffer. -/
theorem closes_of_parseLoop {session : Session H} {events : Events} (sound : session.Sound)
    (inLoop : session.control = .parseLoop events) : Closes session := by
  induction size_eq : session.readBuffer.length using Nat.strong_induction_on generalizing session with
  | _ size ih =>
      have opened : session.open_ = true := sound.wf.open_of_running (by rw [inLoop]; rfl)
      have enabled : session.step .parse = some (session.asyncReadParse events) := by
        unfold step
        simp only [inLoop]
      rw [asyncReadParse, if_neg (not_not_intro opened)] at enabled
      cases popped : tryPopFrame session.readBuffer with
      | needMore =>
          rw [popped] at enabled
          rcases afterRead_cases sound.wf opened events with ⟨control, next, same⟩ | ⟨_, same⟩
          · have stepped := enabled.trans (congrArg some same)
            have sound' := (step_moves sound.wf stepped).sound sound
            refine .next rfl stepped (by simp) ?_
            cases next with
            | write queued => exact closes_of_writeLoop sound'.wf rfl
            | update => exact closes_of_updateAfterWrite sound' rfl
            | done none => exact closes_of_idle sound' opened rfl
          · have stepped := enabled.trans (congrArg some same)
            exact .next rfl stepped (by simp) (closes_of_closeLoop rfl)
      | tooLarge =>
          rw [popped] at enabled
          exact .next rfl enabled (by simp) (closes_of_failLoop ((step_moves sound.wf enabled).wf sound.wf) rfl)
      | ok payload rest =>
          rw [popped] at enabled
          have shorter : rest.length < size := by
            rw [← size_eq, (tryPopFrame_ok popped).1, List.length_append, length_makeFrame,
              kFrameHeaderSize]
            omega
          cases decoded : ProtobufWireCodec.decode payload with
          | none =>
              simp only [decoded] at enabled
              exact .next rfl enabled (by simp)
                (closes_of_failLoop ((step_moves sound.wf enabled).wf sound.wf) rfl)
          | some message =>
              simp only [decoded] at enabled
              exact .next rfl enabled (by simp)
                (ih rest.length shorter ((step_moves sound.wf enabled).sound sound) inLoop rfl)

/-- **A session that has not finished can come to its close handler**, unless the loop has been left by an
exception. -/
theorem closes_of_unfinished {session : Session H} (sound : session.Sound)
    (unfinished : ¬ session.Finished) (running : session.control ≠ .thrown) : Closes session := by
  cases place : session.control with
  | idle =>
      refine closes_of_idle sound ?_ place
      by_contra closed
      exact unfinished ⟨by simpa using closed, place⟩
  | recvLoop events =>
      have opened : session.open_ = true := sound.wf.open_of_running (by rw [place]; rfl)
      have stepped : session.step (.recv .eof) =
          some (session.closing, [.eof, .socketClosed session.socketFd session.registered]) := by
        unfold step
        simp [place, RecvResult.possible, asyncReadRecv, closeFromLoop_of_open sound.wf opened]
      exact .next rfl stepped (by simp) (closes_of_closeLoop rfl)
  | parseLoop events => exact closes_of_parseLoop sound place
  | updateThenWrite => exact closes_of_updateThenWrite sound place
  | writeLoop rdhup => exact closes_of_writeLoop sound.wf place
  | updateAfterWrite rdhup => exact closes_of_updateAfterWrite sound place
  | failLoop error => exact closes_of_failLoop sound.wf place
  | closeLoop => exact closes_of_closeLoop place
  | thrown => exact absurd place running

end Session

/-! ### The same with the session's callers -/

namespace Endpoint

/-- Whether the label is a step of the loop thread. -/
def Label.onLoop : Label H → Bool
  | .run _ | .session _ => true
  | .send _ _ | .close => false

/-- A step leaves the session alone, or is a move of the session. -/
theorem Moves.session_cases {endpoint endpoint' : Endpoint H} {label : Label H}
    {effects : List (Effect H)} (moves : Moves endpoint label endpoint' effects) :
    (endpoint'.session = endpoint.session ∧ .close ∉ effects) ∨
      ∃ action, label.onLoop = true ∧ Session.Moves endpoint.session action endpoint'.session effects := by
  cases moves with
  | rejected large => exact Or.inl ⟨rfl, Session.close_notMem_invoke _ _⟩
  | posted small => exact Or.inl ⟨rfl, by simp⟩
  | closePosted => exact Or.inl ⟨rfl, by simp⟩
  | ran posted moves => exact Or.inr ⟨_, rfl, moves⟩
  | inside notTask moves => exact Or.inr ⟨_, rfl, moves⟩

theorem Moves.sound {endpoint endpoint' : Endpoint H} {label : Label H} {effects : List (Effect H)}
    (moves : Moves endpoint label endpoint' effects) (sound : endpoint.session.Sound) :
    endpoint'.session.Sound := by
  rcases moves.session_cases with ⟨same, _⟩ | ⟨action, _, moves⟩
  · rwa [same]
  · exact moves.sound sound

end Endpoint

end Insist.MiniRpc
