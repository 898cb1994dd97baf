/-
**Sessions that no fault has met.**

A session is calm when it is open, is not on its way to a close, and its interest set is in line with its write
queue. Without a fault of the socket, of `epoll_ctl` or of the stream, and without a close, it stays so.

* `Session.Calm`, `Moves.calm` — the invariant, and its step lemma;
* `Endpoint.Calm`, `Endpoint.Moves.calm` — the same with the posted tasks, none of which is a close;
* `Direction.clean` — what is on the way holds no bad frame.
-/
import Insist.MiniRpc.WriteQueue
import Insist.MiniRpc.Delivery

namespace Insist.MiniRpc

open Lib

variable {H K : Type}

/-- Neither failing nor closing, nor about to close for `EPOLLRDHUP`. -/
def Control.calm : Control → Bool
  | .failLoop _ | .closeLoop | .thrown => false
  | control => !control.rdhup

theorem Control.rdhup_of_calm {control : Control} (calm : control.calm = true) : control.rdhup = false := by
  cases control with
  | failLoop | closeLoop | thrown => cases calm
  | _ => simpa [Control.calm] using calm

namespace Session

variable {session session' : Session H} {action : Action H} {effects : List (Effect H)}

/-- Open, not on the way to a close, and armed. -/
structure Calm (session : Session H) : Prop where
  wf : session.Wf
  opened : session.open_ = true
  place : session.control.calm = true
  armed : session.Armed

theorem started_calm (fd : ℕ) : (started fd : Session H).Calm :=
  ⟨started_wf fd, rfl, rfl, started_armed fd⟩

theorem Calm.serving (calm : session.Calm) : session.Serving := by
  refine ⟨calm.opened, fun error failing => ?_⟩
  have place := calm.place
  rw [failing] at place
  cases place

theorem Calm.registered (calm : session.Calm) : session.registered = true :=
  calm.armed.registered calm.opened

/-- A place after the reads is calm without `EPOLLRDHUP`. -/
theorem AfterRead.calm {control : Control} {rdhup : Bool} (next : AfterRead session rdhup control)
    (none : rdhup = false) : control.calm = true := by
  subst none
  cases next <;> rfl

/-- A jump of a calm session that has not been told of a hang-up. -/
theorem Jump.calm {control : Control} (jump : Jump session action control effects)
    (place : session.control.calm = true) (quiet : action.quiet = true) : control.calm = true := by
  cases jump with
  | @enterRead events idle readable =>
      have told : events.rdhup = false := by simp_all [Action.quiet]
      simp [Control.calm, Control.rdhup, told]
  | @skipRead events control idle unreadable next =>
      exact next.calm (by simp_all [Action.quiet])
  | recvInterrupted inLoop => rwa [inLoop] at place
  | recvBlocked inLoop => rwa [inLoop] at place
  | parsedAll inLoop popped next =>
      rw [inLoop] at place
      exact next.calm (Control.rdhup_of_calm place)
  | sendInterrupted inLoop queued => rwa [inLoop] at place
  | sendBlocked inLoop => rwa [inLoop] at place

/-- **A calm session stays calm** without a fault of the socket or of `epoll_ctl`, a close, or a bad frame. -/
theorem Moves.calm (moves : Moves session action session' effects) (calm : session.Calm)
    (quiet : action.quiet = true) (sound : action.Sound)
    (good : .failed .messageSize ∉ effects ∧ .failed .protocolError ∉ effects) : session'.Calm := by
  have place := calm.place
  refine ⟨moves.wf calm.wf, ?_, ?_, moves.armed sound calm.wf calm.armed⟩
  · -- it does not close
    by_contra closed
    rcases moves.closing_cause calm.opened (by simpa using closed) with rfl | ⟨events, rfl, why⟩ | rfl |
      ⟨asked, _⟩ | ⟨error, failing⟩
    · cases quiet
    · obtain ⟨noErr, noHup, noRdhup⟩ : events.err = false ∧ events.hup = false ∧ events.rdhup = false := by
        simpa [Action.quiet, and_assoc] using quiet
      simp [noErr, noHup, noRdhup] at why
    · cases quiet
    · rw [Control.rdhup_of_calm place] at asked
      cases asked
    · rw [failing] at place
      cases place
  · cases moves with
    | jump opened jump => exact jump.calm place quiet
    | queued | dropped | ignored | received | delivered | wrotePart => first | exact place | rfl
    | wroteAll inLoop front positive whole next =>
        rw [inLoop] at place
        rcases next with ⟨rfl, _⟩ | ⟨rfl, _⟩ <;> exact place
    | updated inCode told unregistered succeeded next => exact next.calm rfl
    | undecodable => exact absurd (List.mem_singleton_self _) good.2
    | oversized => exact absurd (List.mem_singleton_self _) good.1
    | socketError inLoop => rcases inLoop with ⟨_, _, rfl⟩ | ⟨_, _, rfl⟩ <;> cases quiet
    | closing opened cause =>
        cases cause with
        | asked => cases quiet
        | @event events idle why =>
            obtain ⟨noErr, noHup, noRdhup⟩ : events.err = false ∧ events.hup = false ∧
                events.rdhup = false := by
              simpa [Action.quiet, and_assoc] using quiet
            simp [noErr, noHup, noRdhup] at why
        | eof => cases quiet
        | @afterRead events inLoop rdhup popped =>
            rw [inLoop] at place
            have told : events.rdhup = false := Control.rdhup_of_calm place
            rw [told] at rdhup
            cases rdhup
        | failed inLoop empty =>
            rw [inLoop] at place
            cases place
    | @updatedClosing result rdhup inCode asked =>
        rw [inCode] at place
        have told : rdhup = false := Control.rdhup_of_calm place
        rw [told] at asked
        cases asked
    | threw inCode => cases sound
    | failedFrame inLoop front | closedFrame inLoop front | closedLast inLoop empty =>
        rw [inLoop] at place
        cases place

end Session

/-! ### Endpoints -/

/-- Nothing faulty: the sockets, the streams' ends and `epoll_ctl` are as they should be, and nobody closes. -/
def Endpoint.Label.faultless (label : Endpoint.Label H) : Bool := label.quiet && label.modifySucceeds

namespace Endpoint

/-- A calm session, and no posted close. -/
structure Calm (endpoint : Endpoint H) : Prop where
  session : endpoint.session.Calm
  noClose : .close ∉ endpoint.tasks

theorem started_calm (fd : ℕ) : (started fd : Endpoint H).Calm :=
  ⟨Session.started_calm fd, by simp [started]⟩

/-- **A calm endpoint stays calm** without a fault, if it does not reject a frame. -/
theorem Moves.calm {endpoint endpoint' : Endpoint H} {label : Label H} {effects : List (Effect H)}
    (moves : Moves endpoint label endpoint' effects) (calm : endpoint.Calm) (faultless : label.faultless = true)
    (clean : .failed .messageSize ∉ effects ∧ .failed .protocolError ∉ effects) : endpoint'.Calm := by
  obtain ⟨quiet, succeeds⟩ : label.quiet = true ∧ label.modifySucceeds = true := by
    simpa [Label.faultless] using faultless
  cases moves with
  | rejected large => exact ⟨calm.session, calm.noClose⟩
  | posted small => exact ⟨calm.session, by simpa using calm.noClose⟩
  | closePosted => cases quiet
  | @ran index task session effects found moves =>
      have notClose : task ≠ .close := by
        rintro rfl
        exact calm.noClose (List.mem_of_getElem? found)
      refine ⟨moves.calm calm.session ?_ (task_sound task) clean,
        fun member => calm.noClose (List.mem_of_mem_eraseIdx member)⟩
      cases task with
      | send message handler => rfl
      | close => exact absurd rfl notClose
  | inside notTask moves =>
      exact ⟨moves.calm calm.session quiet (inside_sound notTask succeeds) clean, calm.noClose⟩

/-- Sending leaves it calm. -/
theorem Calm.send {endpoint : Endpoint H} (calm : endpoint.Calm) (message : RpcMessage) (handler : Option H) :
    (endpoint.send message handler).1.Calm := by
  unfold Endpoint.send
  split_ifs with large
  · exact ⟨calm.session, calm.noClose⟩
  · exact ⟨calm.session, by simpa using calm.noClose⟩

/-- Sending does not touch the session. -/
theorem session_send (endpoint : Endpoint H) (message : RpcMessage) (handler : Option H) :
    (endpoint.send message handler).1.session = endpoint.session := by
  unfold Endpoint.send
  split_ifs <;> rfl

theorem session_sendAll (endpoint : Endpoint H) (entries : List (RpcMessage × Option H)) :
    (endpoint.sendAll entries).session = endpoint.session := by
  induction entries generalizing endpoint with
  | nil => rfl
  | cons entry entries ih => exact (ih _).trans (endpoint.session_send entry.1 entry.2)

theorem Calm.sendAll {endpoint : Endpoint H} (calm : endpoint.Calm) (entries : List (RpcMessage × Option H)) :
    (endpoint.sendAll entries).Calm := by
  induction entries generalizing endpoint with
  | nil => exact calm
  | cons entry entries ih => exact ih (calm.send entry.1 entry.2)

end Endpoint

/-- However far the stream is parsed, no bad frame is met. -/
def CleanStream (stream : List UInt8) : Prop :=
  ∀ items residue, messages.Parses stream items residue → ∀ reason, popMessage residue ≠ .bad reason

/-- No initial part of a clean stream is bad. -/
theorem CleanStream.pop_ne_bad {buffer more : List UInt8} (clean : CleanStream (buffer ++ more))
    (reason : ErrorCode) : popMessage buffer ≠ .bad reason := fun bad =>
  clean [] _ (.nil _) reason (popMessage_bad_append bad more)

/-- A clean stream stays clean when a message is taken off. -/
theorem CleanStream.tail {buffer rest more : List UInt8} {message : RpcMessage}
    (clean : CleanStream (buffer ++ more)) (popped : popMessage buffer = .item message rest) :
    CleanStream (rest ++ more) := by
  intro items residue parsed
  refine clean (message :: items) residue ?_
  exact .cons (popMessage_item_append popped more) parsed

/-- What a move does to the read buffer. -/
theorem Session.Moves.readBuffer_cases {session session' : Session H} {action : Action H}
    {effects : List (Effect H)} (moves : Session.Moves session action session' effects) :
    session'.readBuffer = session.readBuffer ++ action.chunk ∧
        .failed .messageSize ∉ effects ∧ .failed .protocolError ∉ effects ∨
      (∃ message, popMessage session.readBuffer = .item message session'.readBuffer ∧ action.chunk = [] ∧
        .failed .messageSize ∉ effects ∧ .failed .protocolError ∉ effects) ∨
      ∃ reason, popMessage session.readBuffer = .bad reason := by
  have kept (buffer : List UInt8) : buffer = buffer ++ [] := (List.append_nil _).symm
  have untold {handler : Option H} {error reason : ErrorCode} : .failed reason ∉ invoke handler error := by
    cases handler <;> simp [invoke]
  cases moves with
  | delivered inLoop popped decoded =>
      exact Or.inr (Or.inl ⟨_, popMessage_message popped decoded, rfl, by simp, by simp⟩)
  | undecodable inLoop popped rejected => exact Or.inr (Or.inr ⟨_, popMessage_undecodable popped rejected⟩)
  | oversized inLoop popped => exact Or.inr (Or.inr ⟨_, popMessage_tooLarge popped⟩)
  | received => exact Or.inl ⟨rfl, by simp, by simp⟩
  | jump opened jump =>
      refine Or.inl ⟨?_, ?_⟩
      · cases jump <;> exact kept _
      · rcases jump.effects_eq with rfl | rfl <;> simp
  | socketError inLoop =>
      refine Or.inl ⟨?_, by simp, by simp⟩
      rcases inLoop with ⟨_, _, rfl⟩ | ⟨_, _, rfl⟩ <;> exact kept _
  | closing opened cause =>
      refine Or.inl ⟨?_, ?_⟩
      · cases cause <;> exact kept _
      · cases cause <;> simp
  | wroteAll => exact Or.inl ⟨kept _, by simpa using untold, by simpa using untold⟩
  | dropped | failedFrame | closedFrame => exact Or.inl ⟨kept _, untold, untold⟩
  | _ => exact Or.inl ⟨kept _, by simp, by simp⟩

/-- **An endpoint that reads a clean stream rejects nothing**, and the rest of the stream is clean. -/
theorem Endpoint.Moves.clean {endpoint endpoint' : Endpoint H} {label : Endpoint.Label H}
    {effects : List (Effect H)} (moves : Endpoint.Moves endpoint label endpoint' effects)
    {wire wire' : List UInt8} (clean : CleanStream (endpoint.session.readBuffer ++ wire))
    (read : readFrom wire label.chunk = some wire') :
    (.failed .messageSize ∉ effects ∧ .failed .protocolError ∉ effects) ∧
      CleanStream (endpoint'.session.readBuffer ++ wire') := by
  have wire_eq := readFrom_eq_some read
  have inside {action : Action H} (chunk : label.chunk = action.chunk)
      (moves : Session.Moves endpoint.session action endpoint'.session effects) :
      (.failed .messageSize ∉ effects ∧ .failed .protocolError ∉ effects) ∧
        CleanStream (endpoint'.session.readBuffer ++ wire') := by
    rw [wire_eq, chunk] at clean
    rcases moves.readBuffer_cases with ⟨grown, good⟩ | ⟨message, popped, none, good⟩ | ⟨reason, bad⟩
    · refine ⟨good, ?_⟩
      rwa [grown, List.append_assoc]
    · rw [none, List.nil_append] at clean
      exact ⟨good, clean.tail popped⟩
    · exact absurd bad (clean.pop_ne_bad reason)
  cases moves with
  | @rejected message handler large =>
      obtain rfl : wire = wire' := wire_eq
      exact ⟨by cases handler <;> simp [Session.invoke], clean⟩
  | posted | closePosted =>
      obtain rfl : wire = wire' := wire_eq
      exact ⟨by simp, clean⟩
  | @ran index task session effects found moves => exact inside (by cases task <;> rfl) moves
  | inside notTask moves => exact inside rfl moves

/-- **What the receiver has not parsed yet, together with what is on the way, is clean.** -/
theorem Direction.clean {sender : Endpoint H} {wire : List UInt8} {receiver : Endpoint K}
    (holds : Direction sender wire receiver) (serving : receiver.session.Serving) :
    CleanStream (receiver.session.readBuffer ++ wire) := by
  intro items residue parsed reason
  obtain ⟨before, receives⟩ := holds.receives
  obtain ⟨later, same⟩ := holds.sent.accepted_initial
  have frames := parses_frames holds.carried.executed
  rw [← same, holds.carries] at frames
  rw [receives.buffered serving] at parsed
  have whole : messages.Parses (received receiver.trace ++ wire) (delivered receiver.trace ++ items) residue :=
    (receives.parsed.append wire).trans parsed
  exact frames.pop_ne_bad rfl whole reason

end Insist.MiniRpc
