/-
**The loop thread can always go on in a session's code, until it is out of it.**

Whatever a session is doing, nothing faulty has to happen for its code to come to an end: `recv` and `send`
block, `epoll_ctl` succeeds, and the loops over the buffer and the queue are bounded by what these hold.
`distance` bounds the steps that are left, from every place in the code and whether the session is open, failing
or closing.

* `Action.resumes` — the actions by which the code goes on;
* `distance` — a bound on how many of them are left;
* **`exists_resumed`** — one of them can be taken, and the distance shrinks; `exists_taskRun` bounds what a task
  adds.
-/
import Insist.MiniRpc.SessionClose

namespace Insist.MiniRpc

variable {H : Type}

/-- The code goes on by itself: nothing to read, no room to write, and `epoll_ctl` succeeds. -/
def Action.resumes : Action H → Bool
  | .recv (.error .eagain) | .parse | .send (.error .eagain) | .modify .ok | .drain => true
  | _ => false

theorem Action.of_resumes {action : Action H} (resumes : action.resumes = true) :
    action = .recv (.error .eagain) ∨ action = .parse ∨ action = .send (.error .eagain) ∨ action = .modify .ok ∨
      action = .drain := by
  unfold Action.resumes at resumes
  split at resumes <;> simp_all

/-- How far the end of the code is from this place, with so many bytes in the buffer. -/
def Control.distance (buffered : ℕ) : Control → ℕ
  | .idle | .thrown => 0
  | .closeLoop => 1
  | .failLoop _ | .updateAfterWrite _ => 2
  | .writeLoop _ => 3
  | .updateThenWrite => 4
  | .parseLoop _ => 4 + buffered
  | .recvLoop _ => 5 + buffered

namespace Session

/-- How many steps are left in the code, at most; the queue counts, since a closing session goes through it. -/
def distance (session : Session H) : ℕ :=
  session.writeQueue.length + session.control.distance session.readBuffer.length

/-- The session can go on, nearer to the end of its code. -/
def Resumes (session : Session H) : Prop :=
  ∃ action session' effects, action.resumes = true ∧ session.step action = some (session', effects) ∧
    session'.control ≠ .thrown ∧ session'.distance < session.distance

theorem resumes_of_closeLoop {session : Session H} (inLoop : session.control = .closeLoop) :
    session.Resumes := by
  cases queued : session.writeQueue with
  | nil =>
      have stepped : session.step .drain = some ({ session with control := .idle }, [.close]) := by
        unfold step
        simp only [inLoop, closeFromLoopDrain, queued]
      exact ⟨_, _, _, rfl, stepped, by simp, by simp [distance, inLoop, Control.distance]⟩
  | cons frame queue =>
      have stepped : session.step .drain =
          some ({ session with writeQueue := queue }, invoke frame.handler .notConnected) := by
        unfold step
        simp only [inLoop, closeFromLoopDrain, queued]
      exact ⟨_, _, _, rfl, stepped, by simp [inLoop], by simp [distance, queued]⟩

theorem resumes_of_failLoop {session : Session H} {error : ErrorCode} (wf : session.Wf)
    (inLoop : session.control = .failLoop error) : session.Resumes := by
  have opened : session.open_ = true := wf.open_of_running (by rw [inLoop]; rfl)
  cases queued : session.writeQueue with
  | nil =>
      have stepped : session.step .drain =
          some (session.closing, [.socketClosed session.socketFd session.registered]) := by
        unfold step
        simp only [inLoop, failAndCloseDrain, queued, closeFromLoop_of_open wf opened]
      exact ⟨_, _, _, rfl, stepped, by simp [closing], by simp [distance, closing, inLoop, Control.distance]⟩
  | cons frame queue =>
      have stepped : session.step .drain =
          some ({ session with writeQueue := queue }, invoke frame.handler error) := by
        unfold step
        simp only [inLoop, failAndCloseDrain, queued]
      exact ⟨_, _, _, rfl, stepped, by simp [inLoop], by simp [distance, queued]⟩

/-- The kernel has no room. -/
theorem resumes_of_writeLoop {session : Session H} {rdhup : Bool} (wf : session.Wf)
    (inLoop : session.control = .writeLoop rdhup) : session.Resumes := by
  obtain ⟨frame, queue, queued⟩ := List.exists_cons_of_ne_nil (wf.writing rdhup inLoop)
  have stepped : session.step (.send (.error .eagain)) =
      some ({ session with control := .updateAfterWrite rdhup }, []) := by
    unfold step
    simp only [inLoop, queued, asyncWriteSend]
  exact ⟨_, _, _, rfl, stepped, by simp, by simp [distance, inLoop, Control.distance]⟩

/-- `update_events` succeeds. -/
theorem exists_updated {session : Session H} (sound : session.Sound) (opened : session.open_ = true) :
    ∃ interest, session.updateEvents .ok = some { session with interest := interest } := by
  unfold updateEvents
  rw [if_neg (by simp [opened, sound.registered opened])]
  exact ⟨_, rfl⟩

theorem resumes_of_updateAfterWrite {session : Session H} {rdhup : Bool} (sound : session.Sound)
    (inCode : session.control = .updateAfterWrite rdhup) : session.Resumes := by
  have opened : session.open_ = true := sound.wf.open_of_running (by rw [inCode]; rfl)
  obtain ⟨interest, updated⟩ := exists_updated sound opened
  have stepped : session.step (.modify .ok) =
      some (({ session with interest := interest } : Session H).afterWrite rdhup) := by
    unfold step
    simp only [inCode, updated, resumeAfter]
  have ends : ∀ asks : Bool, ∃ session' effects,
      ({ session with interest := interest } : Session H).afterWrite asks = (session', effects) ∧
        session'.control ≠ .thrown ∧ session'.distance < session.distance := by
    intro asks
    unfold afterWrite closeFromLoop
    split_ifs <;> exact ⟨_, _, rfl, by simp, by simp [distance, inCode, Control.distance]⟩
  obtain ⟨session', effects, same, ended⟩ := ends rdhup
  exact ⟨_, session', effects, rfl, by rw [stepped, same], ended⟩

theorem resumes_of_updateThenWrite {session : Session H} (sound : session.Sound)
    (inCode : session.control = .updateThenWrite) : session.Resumes := by
  have opened : session.open_ = true := sound.wf.open_of_running (by rw [inCode]; rfl)
  obtain ⟨interest, updated⟩ := exists_updated sound opened
  have stepped : session.step (.modify .ok) =
      some (({ session with interest := interest } : Session H).writeTest false) := by
    unfold step
    simp only [inCode, updated, resumeAfter]
  have stillOpen : ({ session with interest := interest } : Session H).open_ = true := opened
  rw [writeTest_of_open stillOpen] at stepped
  split_ifs at stepped <;>
    exact ⟨_, _, _, rfl, stepped, by simp, by simp [distance, inCode, Control.distance]⟩

/-- Every frame shortens the buffer. -/
theorem resumes_of_parseLoop {session : Session H} {events : Events} (sound : session.Sound)
    (inLoop : session.control = .parseLoop events) : session.Resumes := by
  have opened : session.open_ = true := sound.wf.open_of_running (by rw [inLoop]; rfl)
  have stepped : session.step .parse = some (session.asyncReadParse events) := by
    unfold step
    simp only [inLoop]
  rw [asyncReadParse, if_neg (not_not_intro opened)] at stepped
  cases popped : tryPopFrame session.readBuffer with
  | needMore =>
      rw [popped] at stepped
      rcases afterRead_cases sound.wf opened events with ⟨control, next, same⟩ | ⟨_, same⟩
      · refine ⟨_, _, _, rfl, stepped.trans (congrArg some same), ?_, ?_⟩
        · cases next <;> simp
        · cases next <;> simp [distance, inLoop, Control.distance] <;> omega
      · exact ⟨_, _, _, rfl, stepped.trans (congrArg some same), by simp [closing], by
          simp [distance, closing, inLoop, Control.distance]; omega⟩
  | tooLarge =>
      rw [popped] at stepped
      exact ⟨_, _, _, rfl, stepped, by simp, by simp [distance, inLoop, Control.distance]; omega⟩
  | ok payload rest =>
      rw [popped] at stepped
      have shorter : rest.length < session.readBuffer.length := by
        rw [(tryPopFrame_ok popped).1, List.length_append, length_makeFrame, kFrameHeaderSize]
        omega
      cases decoded : ProtobufWireCodec.decode payload with
      | none =>
          simp only [decoded] at stepped
          exact ⟨_, _, _, rfl, stepped, by simp, by simp [distance, inLoop, Control.distance]; omega⟩
      | some message =>
          simp only [decoded] at stepped
          exact ⟨_, _, _, rfl, stepped, by simp [inLoop],
            by simpa [distance, inLoop, Control.distance] using shorter⟩

/-- **The loop thread can always go on in a session's code**, and comes nearer to its end. -/
theorem exists_resumed {session : Session H} (sound : session.Sound) (inside : session.control ≠ .idle)
    (running : session.control ≠ .thrown) : session.Resumes := by
  cases place : session.control with
  | idle => exact absurd place inside
  | recvLoop events =>
      -- there is nothing to read
      have stepped : session.step (.recv (.error .eagain)) =
          some ({ session with control := .parseLoop events }, []) := by
        unfold step
        simp only [place, RecvResult.possible, asyncReadRecv, if_true]
      exact ⟨_, _, _, rfl, stepped, by simp, by simp [distance, place, Control.distance]⟩
  | parseLoop events => exact resumes_of_parseLoop sound place
  | updateThenWrite => exact resumes_of_updateThenWrite sound place
  | writeLoop rdhup => exact resumes_of_writeLoop sound.wf place
  | updateAfterWrite rdhup => exact resumes_of_updateAfterWrite sound place
  | failLoop error => exact resumes_of_failLoop sound.wf place
  | closeLoop => exact resumes_of_closeLoop place
  | thrown => exact absurd place running

/-- **Between the callbacks, the loop thread can run a task**, which leads no further into the code than its
queue and five steps. -/
theorem exists_taskRun {session : Session H} (idle : session.control = .idle) (task : Task H) :
    ∃ session' effects, session.step task.action = some (session', effects) ∧ session'.control ≠ .thrown ∧
      session'.distance ≤ session.distance + 5 := by
  unfold step
  cases task with
  | send message handler =>
      simp only [Task.action, idle, Session.sendTask]
      by_cases opened : session.open_ = true
      · rw [if_neg (not_not_intro opened)]
        exact ⟨_, _, rfl, by simp, by simp [distance, idle, Control.distance]⟩
      · rw [if_pos opened]
        exact ⟨_, _, rfl, by simp [idle], by omega⟩
  | close =>
      simp only [Task.action, idle, closeFromLoop]
      by_cases opened : session.open_ = true
      · rw [if_neg (not_not_intro opened)]
        exact ⟨_, _, rfl, by simp, by simp [distance, idle, Control.distance]⟩
      · rw [if_pos opened]
        exact ⟨_, _, rfl, by simp, by simp [distance, idle, Control.distance]⟩

end Session

end Insist.MiniRpc
