/-
**What one step of a session can do.**

`Wf` is the part of the session's invariant that ties its members to the place in the code.
`Moves session action session' effects` lists every step of a well-formed session, with what is known
before it; `step_moves` says that the list is complete and `Moves.wf` that every entry keeps `Wf`. All
later invariants are read off `Moves`, none unfolds `Session.step` again.
-/
import Insist.MiniRpc.Session

namespace Insist.MiniRpc

/-- Inside `async_read`. -/
def Control.reading : Control → Bool
  | .recvLoop _ | .parseLoop _ => true
  | _ => false

/-- Inside code that runs only while the session is open. -/
def Control.running : Control → Bool
  | .recvLoop _ | .parseLoop _ | .updateThenWrite | .writeLoop _ | .updateAfterWrite _ | .failLoop _
  | .thrown => true
  | .idle | .closeLoop => false

/-- `EPOLLRDHUP` of the event that is being handled, as far as it is still to be looked at. -/
def Control.rdhup : Control → Bool
  | .recvLoop events | .parseLoop events => events.rdhup
  | .writeLoop rdhup | .updateAfterWrite rdhup => rdhup
  | _ => false

namespace Session

variable {H : Type}

/-- A session's members fit the place in the code. -/
structure Wf (session : Session H) : Prop where
  open_of_running : session.control.running = true → session.open_ = true
  closed_of_closeLoop : session.control = .closeLoop → session.open_ = false
  socketFd_of_closed : session.open_ = false → session.socketFd = none
  registered_of_closed : session.open_ = false → session.registered = false
  interest_of_unregistered : session.registered = false → session.interest = none
  drained : session.open_ = false → session.control = .idle → session.writeQueue = []
  writing : ∀ rdhup, session.control = .writeLoop rdhup → session.writeQueue ≠ []

theorem started_wf (fd : ℕ) : (started fd : Session H).Wf := by
  constructor <;> simp [started, Control.running]

/-- For an open session, what `Wf` says of a closed one holds of itself. -/
theorem wf_of_open {session : Session H} (opened : session.open_ = true)
    (notClosing : session.control ≠ .closeLoop)
    (interest : session.registered = false → session.interest = none)
    (writing : ∀ rdhup, session.control = .writeLoop rdhup → session.writeQueue ≠ []) :
    session.Wf where
  open_of_running _ := opened
  closed_of_closeLoop atClose := absurd atClose notClosing
  socketFd_of_closed closed := by rw [opened] at closed; cases closed
  registered_of_closed closed := by rw [opened] at closed; cases closed
  interest_of_unregistered := interest
  drained closed := by rw [opened] at closed; cases closed
  writing := writing

/-- The session after `close_from_loop` has reached its loop. -/
def closing (session : Session H) : Session H :=
  { session with
      open_ := false, socketFd := none, registered := false, interest := none
      control := .closeLoop }

/-- Where `handle_events` goes after the reads, short of closing. -/
inductive AfterRead (session : Session H) (rdhup : Bool) : Control → Prop
  | write (queued : session.writeQueue ≠ []) : AfterRead session rdhup (.writeLoop rdhup)
  | update : AfterRead session rdhup (.updateAfterWrite rdhup)
  | done (none : rdhup = false) : AfterRead session rdhup .idle

/-- The steps that change nothing but the place in the code. -/
inductive Jump (session : Session H) : Action H → Control → List (Effect H) → Prop
  | enterRead {events : Events} (idle : session.control = .idle) (readable : events.in_ = true) :
      Jump session (.handleEvents events) (.recvLoop events) [.dispatched]
  | skipRead {events : Events} {control : Control} (idle : session.control = .idle)
      (unreadable : events.in_ = false) (next : AfterRead session events.rdhup control) :
      Jump session (.handleEvents events) control [.dispatched]
  | recvInterrupted {events : Events} (inLoop : session.control = .recvLoop events) :
      Jump session (.recv (.error .eintr)) (.recvLoop events) []
  | recvBlocked {events : Events} (inLoop : session.control = .recvLoop events) :
      Jump session (.recv (.error .eagain)) (.parseLoop events) []
  | parsedAll {events : Events} {control : Control} (inLoop : session.control = .parseLoop events)
      (popped : tryPopFrame session.readBuffer = .needMore)
      (next : AfterRead session events.rdhup control) : Jump session .parse control []
  | sendInterrupted {rdhup : Bool} (inLoop : session.control = .writeLoop rdhup)
      (queued : session.writeQueue ≠ []) :
      Jump session (.send (.error .eintr)) (.writeLoop rdhup) []
  | sendBlocked {rdhup : Bool} (inLoop : session.control = .writeLoop rdhup) :
      Jump session (.send (.error .eagain)) (.updateAfterWrite rdhup) []

/-- The steps that call `close_from_loop` on an open session, short of the end of `async_write`, and
their effects before it. -/
inductive CloseCause (session : Session H) : Action H → List (Effect H) → Prop
  | asked (idle : session.control = .idle) : CloseCause session .closeTask []
  | event {events : Events} (idle : session.control = .idle)
      (why : events.err = true ∨ events.hup = true ∨ events.in_ = false ∧ events.rdhup = true) :
      CloseCause session (.handleEvents events) [.dispatched]
  | eof {events : Events} (inLoop : session.control = .recvLoop events) :
      CloseCause session (.recv .eof) [.eof]
  | afterRead {events : Events} (inLoop : session.control = .parseLoop events)
      (rdhup : events.rdhup = true) (popped : tryPopFrame session.readBuffer = .needMore) :
      CloseCause session .parse []
  | failed {error : ErrorCode} (inLoop : session.control = .failLoop error)
      (empty : session.writeQueue = []) : CloseCause session .drain []

/-- Every step of a well-formed session. -/
inductive Moves : Session H → Action H → Session H → List (Effect H) → Prop
  /-- The task of `send` finds the session closed. -/
  | dropped {session : Session H} {frame : List UInt8} {handler : Option H}
      (idle : session.control = .idle) (closed : session.open_ = false) :
      Moves session (.sendTask frame handler) session (invoke handler .notConnected)
  /-- The task of `send` queues its frame. -/
  | queued {session : Session H} {frame : List UInt8} {handler : Option H}
      (idle : session.control = .idle) (opened : session.open_ = true) :
      Moves session (.sendTask frame handler)
        { session with
            writeQueue := session.writeQueue ++ [{ bytes := frame, handler := handler }]
            control := .updateThenWrite }
        [.queued frame handler]
  /-- The task of `close` finds the session closed. -/
  | ignored {session : Session H} (idle : session.control = .idle) (closed : session.open_ = false) :
      Moves session .closeTask session []
  /-- Only the place in the code changes. -/
  | jump {session : Session H} {action : Action H} {control : Control} {effects : List (Effect H)}
      (opened : session.open_ = true) (jump : Jump session action control effects) :
      Moves session action { session with control := control } effects
  /-- `recv` returned bytes. -/
  | received {session : Session H} {events : Events} {chunk : List UInt8}
      (inLoop : session.control = .recvLoop events)
      (nonempty : 0 < chunk.length) (fits : chunk.length ≤ kChunkSize) :
      Moves session (.recv (.data chunk)) { session with readBuffer := session.readBuffer ++ chunk }
        [.received chunk]
  /-- A complete frame is parsed and its message handed out. -/
  | delivered {session : Session H} {events : Events} {payload rest : List UInt8}
      {message : RpcMessage} (inLoop : session.control = .parseLoop events)
      (popped : tryPopFrame session.readBuffer = .ok payload rest)
      (decoded : ProtobufWireCodec.decode payload = some message) :
      Moves session .parse { session with readBuffer := rest } [.message message]
  /-- A complete frame does not decode. -/
  | undecodable {session : Session H} {events : Events} {payload rest : List UInt8}
      (inLoop : session.control = .parseLoop events)
      (popped : tryPopFrame session.readBuffer = .ok payload rest)
      (rejected : ProtobufWireCodec.decode payload = none) :
      Moves session .parse
        { session with readBuffer := rest, control := .failLoop .protocolError }
        [.failed .protocolError]
  /-- A header announces too much. -/
  | oversized {session : Session H} {events : Events}
      (inLoop : session.control = .parseLoop events)
      (popped : tryPopFrame session.readBuffer = .tooLarge) :
      Moves session .parse { session with control := .failLoop .messageSize } [.failed .messageSize]
  /-- `recv` or `send` failed. -/
  | socketError {session : Session H} {action : Action H} {code : ℕ}
      (inLoop : (∃ events, session.control = .recvLoop events ∧ action = .recv (.error (.other code))) ∨
        ∃ rdhup, session.control = .writeLoop rdhup ∧ action = .send (.error (.other code))) :
      Moves session action { session with control := .failLoop (.system (.other code)) }
        [.failed (.system (.other code))]
  /-- `close_from_loop` on an open session. -/
  | closing {session : Session H} {action : Action H} {before : List (Effect H)}
      (opened : session.open_ = true)
      (cause : CloseCause session action before) :
      Moves session action session.closing
        (before ++ [.socketClosed session.socketFd session.registered])
  /-- The kernel took a part of what is left of the front frame. -/
  | wrotePart {session : Session H} {rdhup : Bool} {frame : OutgoingFrame H}
      {queue : List (OutgoingFrame H)} {count : ℕ} (inLoop : session.control = .writeLoop rdhup)
      (front : session.writeQueue = frame :: queue) (positive : 0 < count)
      (part : frame.written + count < frame.bytes.length) :
      Moves session (.send (.accepted count))
        { session with writeQueue := { frame with written := frame.written + count } :: queue }
        [.accepted ((frame.bytes.drop frame.written).take count) frame.handler]
  /-- The kernel took all that is left of the front frame. -/
  | wroteAll {session : Session H} {rdhup : Bool} {frame : OutgoingFrame H}
      {queue : List (OutgoingFrame H)} {count : ℕ} {control : Control}
      (inLoop : session.control = .writeLoop rdhup)
      (front : session.writeQueue = frame :: queue) (positive : 0 < count)
      (whole : frame.written + count = frame.bytes.length)
      (next : control = .writeLoop rdhup ∧ queue ≠ [] ∨
        control = .updateAfterWrite rdhup ∧ queue = []) :
      Moves session (.send (.accepted count))
        { session with writeQueue := queue, control := control }
        (.accepted ((frame.bytes.drop frame.written).take count) frame.handler ::
          invoke frame.handler .success)
  /-- `update_events`, and on to the next point. -/
  | updated {session : Session H} {result : ModifyResult} {interest : Option Events}
      {control : Control}
      (inCode : session.control = .updateThenWrite ∨ ∃ rdhup, session.control = .updateAfterWrite rdhup)
      (told : interest = session.interest ∨ interest = some session.wantedEvents)
      (unregistered : session.registered = false → interest = session.interest)
      (succeeded : session.registered = true → result = .ok → interest = some session.wantedEvents)
      (next : AfterRead session false control) :
      Moves session (.modify result) { session with interest := interest, control := control } []
  /-- `update_events` at the end of `async_write`, then the close that `EPOLLRDHUP` asks for. -/
  | updatedClosing {session : Session H} {result : ModifyResult} {rdhup : Bool}
      (inCode : session.control = .updateAfterWrite rdhup) (asked : rdhup = true) :
      Moves session (.modify result) session.closing
        [.socketClosed session.socketFd session.registered]
  /-- `EventLoop::modify` throws. -/
  | threw {session : Session H}
      (inCode : session.control = .updateThenWrite ∨ ∃ rdhup, session.control = .updateAfterWrite rdhup) :
      Moves session (.modify .failed) { session with control := .thrown } []
  /-- One turn of the loop of `fail_and_close`. -/
  | failedFrame {session : Session H} {error : ErrorCode} {frame : OutgoingFrame H}
      {queue : List (OutgoingFrame H)} (inLoop : session.control = .failLoop error)
      (front : session.writeQueue = frame :: queue) :
      Moves session .drain { session with writeQueue := queue } (invoke frame.handler error)
  /-- One turn of the loop of `close_from_loop`. -/
  | closedFrame {session : Session H} {frame : OutgoingFrame H} {queue : List (OutgoingFrame H)}
      (inLoop : session.control = .closeLoop) (front : session.writeQueue = frame :: queue) :
      Moves session .drain { session with writeQueue := queue } (invoke frame.handler .notConnected)
  /-- The close handler. -/
  | closedLast {session : Session H} (inLoop : session.control = .closeLoop)
      (empty : session.writeQueue = []) :
      Moves session .drain { session with control := .idle } [.close]

namespace AfterRead

variable {session : Session H} {rdhup : Bool} {control : Control}

theorem ne_closeLoop (next : AfterRead session rdhup control) : control ≠ .closeLoop := by
  cases next <;> simp

theorem ne_failLoop (next : AfterRead session rdhup control) (error : ErrorCode) :
    control ≠ .failLoop error := by
  cases next <;> simp

theorem writing (next : AfterRead session rdhup control) :
    ∀ rdhup, control = .writeLoop rdhup → session.writeQueue ≠ [] := by
  cases next with
  | write queued => exact fun _ _ => queued
  | update => simp
  | done none => simp

theorem rdhup_eq (next : AfterRead session rdhup control) (asked : control.rdhup = true) :
    rdhup = true := by
  cases next with
  | write queued => exact asked
  | update => exact asked
  | done none => cases asked

end AfterRead

section Places

variable {control : Control}

/-- `update_events` is called inside of a callback. -/
theorem running_of_update (inCode : control = .updateThenWrite ∨ ∃ rdhup, control = .updateAfterWrite rdhup) :
    control.running = true := by
  rcases inCode with rfl | ⟨rdhup, rfl⟩
  · rfl
  · rfl

theorem not_reading_of_update
    (inCode : control = .updateThenWrite ∨ ∃ rdhup, control = .updateAfterWrite rdhup) :
    control.reading = false := by
  rcases inCode with rfl | ⟨rdhup, rfl⟩
  · rfl
  · rfl

theorem ne_failLoop_of_update
    (inCode : control = .updateThenWrite ∨ ∃ rdhup, control = .updateAfterWrite rdhup) (error : ErrorCode) :
    control ≠ .failLoop error := by
  rcases inCode with rfl | ⟨rdhup, rfl⟩
  · exact fun impossible => nomatch impossible
  · exact fun impossible => nomatch impossible

/-- `recv` and `send` are called inside of a callback, and not while `fail_and_close` runs. -/
theorem running_of_socketError {action : Action H} {code : ℕ}
    (inLoop : (∃ events, control = .recvLoop events ∧ action = .recv (.error (.other code))) ∨
      ∃ rdhup, control = .writeLoop rdhup ∧ action = .send (.error (.other code))) :
    control.running = true ∧ ∀ error, control ≠ .failLoop error := by
  rcases inLoop with ⟨events, rfl, _⟩ | ⟨rdhup, rfl, _⟩
  · exact ⟨rfl, fun _ impossible => nomatch impossible⟩
  · exact ⟨rfl, fun _ impossible => nomatch impossible⟩

end Places

namespace Jump

variable {session : Session H} {action : Action H} {control : Control} {effects : List (Effect H)}

theorem effects_eq (jump : Jump session action control effects) :
    effects = [.dispatched] ∨ effects = [] := by
  cases jump <;> simp

theorem ne_closeLoop (jump : Jump session action control effects) : control ≠ .closeLoop := by
  cases jump with
  | skipRead idle unreadable next => exact next.ne_closeLoop
  | parsedAll inLoop popped next => exact next.ne_closeLoop
  | _ => simp

theorem ne_failLoop (jump : Jump session action control effects) (error : ErrorCode) :
    control ≠ .failLoop error := by
  cases jump with
  | skipRead idle unreadable next => exact next.ne_failLoop error
  | parsedAll inLoop popped next => exact next.ne_failLoop error
  | _ => simp

/-- No jump starts where the session is failing. -/
theorem from_ne_failLoop (jump : Jump session action control effects) (error : ErrorCode) :
    session.control ≠ .failLoop error := by
  cases jump <;> simp_all

theorem writing (jump : Jump session action control effects) :
    ∀ rdhup, control = .writeLoop rdhup → session.writeQueue ≠ [] := by
  cases jump with
  | skipRead idle unreadable next => exact next.writing
  | parsedAll inLoop popped next => exact next.writing
  | sendInterrupted inLoop queued => exact fun _ _ => queued
  | _ => simp

/-- `async_read` is left when its parse loop needs more. -/
theorem parsed (jump : Jump session action control effects) (left : control.reading = false) :
    session.control.reading = false ∨ tryPopFrame session.readBuffer = .needMore := by
  cases jump with
  | parsedAll inLoop popped next => exact Or.inr popped
  | skipRead idle unreadable next => exact Or.inl (by rw [idle]; rfl)
  | sendInterrupted inLoop queued => exact Or.inl (by rw [inLoop]; rfl)
  | sendBlocked inLoop => exact Or.inl (by rw [inLoop]; rfl)
  | _ => cases left

/-- `EPOLLRDHUP` comes from the event. -/
theorem rdhup_cause (jump : Jump session action control effects) (asked : control.rdhup = true) :
    session.control.rdhup = true ∨ ∃ events, action = .handleEvents events ∧ events.rdhup = true := by
  cases jump with
  | enterRead idle readable => exact Or.inr ⟨_, rfl, asked⟩
  | skipRead idle unreadable next => exact Or.inr ⟨_, rfl, next.rdhup_eq asked⟩
  | recvInterrupted inLoop => exact Or.inl (by rw [inLoop]; exact asked)
  | recvBlocked inLoop => exact Or.inl (by rw [inLoop]; exact asked)
  | parsedAll inLoop popped next => exact Or.inl (by rw [inLoop]; exact next.rdhup_eq asked)
  | sendInterrupted inLoop queued => exact Or.inl (by rw [inLoop]; exact asked)
  | sendBlocked inLoop => exact Or.inl (by rw [inLoop]; exact asked)

end Jump

/-! ### The list is complete -/

theorem closeFromLoop_of_closed {session : Session H} (closed : session.open_ = false) :
    session.closeFromLoop = ({ session with control := .idle }, []) :=
  if_pos (by simp [closed])

theorem closeFromLoop_of_open {session : Session H} (wf : session.Wf)
    (opened : session.open_ = true) :
    session.closeFromLoop =
      (session.closing, [.socketClosed session.socketFd session.registered]) := by
  have interest : (if session.registered then none else session.interest) = none := by
    by_cases registered : session.registered = true
    · rw [if_pos registered]
    · rw [if_neg registered]
      exact wf.interest_of_unregistered (by simpa using registered)
  rw [closeFromLoop, if_neg (by simp [opened]), interest]
  rfl

theorem control_eta {session : Session H} {control : Control} (place : session.control = control) :
    { session with control := control } = session := by
  subst place
  rfl

/-- The three ways on from `update_events`' callers and from the read, for an open session. -/
theorem writeTest_of_open {session : Session H} (opened : session.open_ = true) (rdhup : Bool) :
    session.writeTest rdhup =
      if session.writeQueue ≠ [] then ({ session with control := .writeLoop rdhup }, [])
      else ({ session with control := .updateAfterWrite rdhup }, []) := by
  unfold writeTest
  by_cases queued : session.writeQueue ≠ []
  · rw [if_pos ⟨opened, queued⟩, if_pos queued]
  · rw [if_neg (fun both => queued both.2), if_pos opened, if_neg queued]

theorem afterWrite_of_open {session : Session H} (wf : session.Wf) (opened : session.open_ = true)
    (rdhup : Bool) :
    session.afterWrite rdhup =
      if rdhup then (session.closing, [.socketClosed session.socketFd session.registered])
      else ({ session with control := .idle }, []) := by
  unfold afterWrite
  cases rdhup with
  | false => simp
  | true => simp [opened, closeFromLoop_of_open wf opened]

/-- After the reads, an open session goes to its writes or is done, unless it is to close. -/
theorem afterRead_cases {session : Session H} (wf : session.Wf) (opened : session.open_ = true)
    (events : Events) :
    (∃ control, AfterRead session events.rdhup control ∧
      session.afterRead events = ({ session with control := control }, [])) ∨
    events.rdhup = true ∧ session.afterRead events =
      (session.closing, [.socketClosed session.socketFd session.registered]) := by
  unfold afterRead
  by_cases out : events.out = true
  · rw [if_pos ⟨opened, out⟩, writeTest_of_open opened]
    split_ifs with queued
    · exact Or.inl ⟨_, .write queued, rfl⟩
    · exact Or.inl ⟨_, .update, rfl⟩
  · rw [if_neg (fun both => out both.2), afterWrite_of_open wf opened]
    split_ifs with rdhup
    · exact Or.inr ⟨rdhup, rfl⟩
    · exact Or.inl ⟨_, .done (by simpa using rdhup), rfl⟩

/-- A registered session is open: the loop does not call it after it has closed. -/
theorem Wf.open_of_registered {session : Session H} (wf : session.Wf)
    (registered : session.registered = true) : session.open_ = true := by
  by_contra closed
  rw [wf.registered_of_closed (by simpa using closed)] at registered
  cases registered

theorem handleEvents_moves {session : Session H} (wf : session.Wf)
    (idle : session.control = .idle) (registered : session.registered = true) (events : Events) :
    Moves session (.handleEvents events) (session.handleEvents events).1
      (.dispatched :: (session.handleEvents events).2) := by
  have opened : session.open_ = true := wf.open_of_registered registered
  have closes (why : events.err = true ∨ events.hup = true ∨
      events.in_ = false ∧ events.rdhup = true) :
      Moves session (.handleEvents events) session.closing
        ([Effect.dispatched] ++ [Effect.socketClosed session.socketFd session.registered]) :=
    .closing opened (.event idle why)
  unfold handleEvents
  rw [if_neg (by simp [opened])]
  split_ifs with broken readable
  · rw [closeFromLoop_of_open wf opened]
    exact closes (broken.elim Or.inl fun hup => Or.inr (Or.inl hup))
  · exact .jump opened (.enterRead idle readable)
  · have unreadable : events.in_ = false := by simpa using readable
    rcases afterRead_cases wf opened events with ⟨control, next, same⟩ | ⟨rdhup, same⟩
    · rw [same]
      exact .jump opened (.skipRead idle unreadable next)
    · rw [same]
      exact closes (Or.inr (Or.inr ⟨unreadable, rdhup⟩))

theorem asyncReadRecv_moves {session : Session H} (wf : session.Wf) {events : Events}
    (inLoop : session.control = .recvLoop events) {result : RecvResult}
    (possible : result.possible = true) :
    Moves session (.recv result) (session.asyncReadRecv events result).1
      (session.asyncReadRecv events result).2 := by
  have opened : session.open_ = true := wf.open_of_running (by rw [inLoop]; rfl)
  cases result with
  | data chunk =>
      simp only [RecvResult.possible, decide_eq_true_eq] at possible
      exact .received inLoop possible.1 possible.2
  | eof =>
      simp only [asyncReadRecv, closeFromLoop_of_open wf opened]
      have moves : Moves session (.recv .eof) session.closing
          ([Effect.eof] ++ [Effect.socketClosed session.socketFd session.registered]) :=
        .closing opened (.eof inLoop)
      exact moves
  | error errno =>
      cases errno with
      | eagain => exact .jump opened (.recvBlocked inLoop)
      | eintr =>
          have moves := Moves.jump opened (.recvInterrupted inLoop)
          rw [control_eta inLoop] at moves
          exact moves
      | other code => exact .socketError (Or.inl ⟨events, inLoop, rfl⟩)

theorem asyncReadParse_moves {session : Session H} (wf : session.Wf) {events : Events}
    (inLoop : session.control = .parseLoop events) :
    Moves session .parse (session.asyncReadParse events).1 (session.asyncReadParse events).2 := by
  have opened : session.open_ = true := wf.open_of_running (by rw [inLoop]; rfl)
  have closes (rdhup : events.rdhup = true) (popped : tryPopFrame session.readBuffer = .needMore) :
      Moves session .parse session.closing
        ([] ++ [Effect.socketClosed session.socketFd session.registered]) :=
    .closing opened (.afterRead inLoop rdhup popped)
  unfold asyncReadParse
  rw [if_neg (by simp [opened])]
  cases popped : tryPopFrame session.readBuffer with
  | needMore =>
      rcases afterRead_cases wf opened events with ⟨control, next, same⟩ | ⟨rdhup, same⟩
      · simp only [same]
        exact .jump opened (.parsedAll inLoop popped next)
      · simp only [same]
        exact closes rdhup popped
  | tooLarge => exact .oversized inLoop popped
  | ok payload rest =>
      simp only
      cases decoded : ProtobufWireCodec.decode payload with
      | none => exact .undecodable inLoop popped decoded
      | some message => exact .delivered inLoop popped decoded

theorem asyncWriteSend_moves {session : Session H} (wf : session.Wf) {rdhup : Bool}
    (inLoop : session.control = .writeLoop rdhup) {frame : OutgoingFrame H}
    {queue : List (OutgoingFrame H)} (front : session.writeQueue = frame :: queue)
    {result : SendResult}
    (possible : ∀ count, result = .accepted count →
      0 < count ∧ frame.written + count ≤ frame.bytes.length) :
    Moves session (.send result) (session.asyncWriteSend rdhup frame queue result).1
      (session.asyncWriteSend rdhup frame queue result).2 := by
  have opened : session.open_ = true := wf.open_of_running (by rw [inLoop]; rfl)
  cases result with
  | accepted count =>
      obtain ⟨positive, atMost⟩ := possible count rfl
      simp only [asyncWriteSend]
      split_ifs with whole
      · have stillOpen : ({ session with writeQueue := queue } : Session H).open_ = true := opened
        rw [writeTest_of_open stillOpen]
        split_ifs with more
        · simp only [List.append_nil]
          exact .wroteAll inLoop front positive whole (Or.inl ⟨rfl, more⟩)
        · simp only [List.append_nil]
          exact .wroteAll inLoop front positive whole (Or.inr ⟨rfl, not_not.mp more⟩)
      · exact .wrotePart inLoop front positive (by omega)
  | error errno =>
      cases errno with
      | eagain => exact .jump opened (.sendBlocked inLoop)
      | eintr =>
          have queued : session.writeQueue ≠ [] := by simp [front]
          have moves := Moves.jump opened (.sendInterrupted inLoop queued)
          rw [control_eta inLoop] at moves
          exact moves
      | other code => exact .socketError (Or.inr ⟨rdhup, inLoop, rfl⟩)

/-- `update_events` changes the interest set at most, and fails only when `epoll_ctl` does. -/
theorem updateEvents_cases (session : Session H) (result : ModifyResult) :
    (session.updateEvents result = none ∧ result = .failed) ∨
      ∃ interest, session.updateEvents result = some { session with interest := interest } ∧
        (interest = session.interest ∨ interest = some session.wantedEvents) ∧
        (session.registered = false → interest = session.interest) ∧
        (session.registered = true → session.open_ = true → result = .ok →
          interest = some session.wantedEvents) := by
  unfold updateEvents
  split_ifs with skipped
  · refine Or.inr ⟨session.interest, rfl, Or.inl rfl, fun _ => rfl, fun registered opened => ?_⟩
    simp [registered, opened] at skipped
  · have registered : session.registered = true := by
      by_contra unregistered
      exact skipped (Or.inl unregistered)
    cases result with
    | ok =>
        refine Or.inr ⟨_, rfl, Or.inr rfl, fun unregistered => ?_, fun _ _ _ => rfl⟩
        rw [registered] at unregistered
        cases unregistered
    | enoent => exact Or.inr ⟨session.interest, rfl, Or.inl rfl, fun _ => rfl, by simp⟩
    | ebadf => exact Or.inr ⟨session.interest, rfl, Or.inl rfl, fun _ => rfl, by simp⟩
    | failed => exact Or.inl ⟨rfl, rfl⟩

theorem updateThenWrite_moves {session : Session H} (wf : session.Wf)
    (inCode : session.control = .updateThenWrite) (result : ModifyResult) :
    Moves session (.modify result)
      (session.resumeAfter (session.updateEvents result) fun session => session.writeTest false).1
      (session.resumeAfter (session.updateEvents result) fun session => session.writeTest false).2 := by
  have opened : session.open_ = true := wf.open_of_running (by rw [inCode]; rfl)
  rcases session.updateEvents_cases result with
    ⟨failed, rfl⟩ | ⟨interest, updated, told, unregistered, succeeded⟩
  · rw [failed]
    exact .threw (Or.inl inCode)
  · have stillOpen : ({ session with interest := interest } : Session H).open_ = true := opened
    rw [updated, resumeAfter, writeTest_of_open stillOpen]
    split_ifs with queued
    · exact .updated (Or.inl inCode) told unregistered (fun registered => succeeded registered opened)
        (.write queued)
    · exact .updated (Or.inl inCode) told unregistered (fun registered => succeeded registered opened)
        .update

theorem updateAfterWrite_moves {session : Session H} (wf : session.Wf) {rdhup : Bool}
    (inCode : session.control = .updateAfterWrite rdhup) (result : ModifyResult) :
    Moves session (.modify result)
      (session.resumeAfter (session.updateEvents result) fun session => session.afterWrite rdhup).1
      (session.resumeAfter (session.updateEvents result) fun session => session.afterWrite rdhup).2 := by
  have opened : session.open_ = true := wf.open_of_running (by rw [inCode]; rfl)
  rcases session.updateEvents_cases result with
    ⟨failed, rfl⟩ | ⟨interest, updated, told, unregistered, succeeded⟩
  · rw [failed]
    exact .threw (Or.inr ⟨rdhup, inCode⟩)
  · rw [updated, resumeAfter, afterWrite]
    split_ifs with asked
    · have wf' : ({ session with interest := interest } : Session H).Wf :=
        wf_of_open opened (by simp [inCode])
          (fun absent => (unregistered absent).trans (wf.interest_of_unregistered absent))
          (by simp [inCode])
      rw [closeFromLoop_of_open wf' opened]
      exact .updatedClosing inCode asked.2
    · exact .updated (Or.inr ⟨rdhup, inCode⟩) told unregistered
        (fun registered => succeeded registered opened) (.done rfl)

theorem sendTask_moves {session : Session H} (idle : session.control = .idle) (frame : List UInt8)
    (handler : Option H) :
    Moves session (.sendTask frame handler) (session.sendTask frame handler).1
      (session.sendTask frame handler).2 := by
  unfold sendTask
  split_ifs with opened
  · exact .queued idle (by simpa using opened)
  · exact .dropped idle (by simpa using opened)

theorem closeTask_moves {session : Session H} (wf : session.Wf) (idle : session.control = .idle) :
    Moves session .closeTask session.closeFromLoop.1 session.closeFromLoop.2 := by
  by_cases opened : session.open_ = true
  · have moves : Moves session .closeTask session.closing
        ([] ++ [Effect.socketClosed session.socketFd session.registered]) :=
      .closing opened (.asked idle)
    rw [closeFromLoop_of_open wf opened]
    exact moves
  · have closed : session.open_ = false := by simpa using opened
    rw [closeFromLoop_of_closed closed, control_eta idle]
    exact .ignored idle closed

theorem failAndCloseDrain_moves {session : Session H} (wf : session.Wf) {error : ErrorCode}
    (inLoop : session.control = .failLoop error) :
    Moves session .drain (session.failAndCloseDrain error).1
      (session.failAndCloseDrain error).2 := by
  have opened : session.open_ = true := wf.open_of_running (by rw [inLoop]; rfl)
  unfold failAndCloseDrain
  split
  case h_1 empty =>
    have moves : Moves session .drain session.closing
        ([] ++ [Effect.socketClosed session.socketFd session.registered]) :=
      .closing opened (.failed inLoop empty)
    rw [closeFromLoop_of_open wf opened]
    exact moves
  case h_2 frame queue front => exact .failedFrame inLoop front

theorem closeFromLoopDrain_moves {session : Session H} (inLoop : session.control = .closeLoop) :
    Moves session .drain session.closeFromLoopDrain.1 session.closeFromLoopDrain.2 := by
  unfold closeFromLoopDrain
  split
  case h_1 empty => exact .closedLast inLoop empty
  case h_2 frame queue front => exact .closedFrame inLoop front

/-- A step's result, taken apart. -/
theorem moves_of_some {session session' : Session H} {action : Action H}
    {effects : List (Effect H)} {result : Session H × List (Effect H)}
    (moves : Moves session action result.1 result.2) (same : some result = some (session', effects)) :
    Moves session action session' effects := by
  obtain rfl := Option.some.inj same
  exact moves

/-- **Every step of a well-formed session is one of the listed moves.** -/
theorem step_moves {session session' : Session H} {action : Action H} {effects : List (Effect H)}
    (wf : session.Wf) (stepped : session.step action = some (session', effects)) :
    Moves session action session' effects := by
  unfold step at stepped
  split at stepped
  case h_1 frame handler idle => exact moves_of_some (sendTask_moves idle frame handler) stepped
  case h_2 idle => exact moves_of_some (closeTask_moves wf idle) stepped
  case h_3 events idle =>
    split_ifs at stepped with registered
    exact moves_of_some (handleEvents_moves wf idle registered events) stepped
  case h_4 events result inLoop =>
    split_ifs at stepped with possible
    exact moves_of_some (asyncReadRecv_moves wf inLoop possible) stepped
  case h_5 events inLoop => exact moves_of_some (asyncReadParse_moves wf inLoop) stepped
  case h_6 result inCode => exact moves_of_some (updateThenWrite_moves wf inCode result) stepped
  case h_7 rdhup result inLoop =>
    split at stepped
    case h_1 => cases stepped
    case h_2 frame queue count front =>
      split_ifs at stepped with possible
      refine moves_of_some (asyncWriteSend_moves wf inLoop front fun other same => ?_) stepped
      cases same
      exact possible
    case h_3 frame queue errno front =>
      exact moves_of_some (asyncWriteSend_moves wf inLoop front fun other same => by cases same)
        stepped
  case h_8 rdhup result inCode => exact moves_of_some (updateAfterWrite_moves wf inCode result) stepped
  case h_9 error inLoop => exact moves_of_some (failAndCloseDrain_moves wf inLoop) stepped
  case h_10 inLoop => exact moves_of_some (closeFromLoopDrain_moves inLoop) stepped
  case h_11 => cases stepped

theorem closing_wf (session : Session H) : session.closing.Wf where
  open_of_running running := by cases running
  closed_of_closeLoop _ := rfl
  socketFd_of_closed _ := rfl
  registered_of_closed _ := rfl
  interest_of_unregistered _ := rfl
  drained _ idle := by cases idle
  writing _ atWrite := by cases atWrite

/-- **Every move keeps a session well-formed.** -/
theorem Moves.wf {session session' : Session H} {action : Action H} {effects : List (Effect H)}
    (moves : Moves session action session' effects) (wf : session.Wf) : session'.Wf := by
  cases moves with
  | dropped idle closed => exact wf
  | queued idle opened => exact wf_of_open opened (by simp) wf.interest_of_unregistered (by simp)
  | ignored idle closed => exact wf
  | jump opened jump => exact wf_of_open opened jump.ne_closeLoop wf.interest_of_unregistered jump.writing
  | received inLoop nonempty fits =>
      exact wf_of_open (wf.open_of_running (by rw [inLoop]; rfl)) (by simp [inLoop])
        wf.interest_of_unregistered (by simp [inLoop])
  | delivered inLoop popped decoded =>
      exact wf_of_open (wf.open_of_running (by rw [inLoop]; rfl)) (by simp [inLoop])
        wf.interest_of_unregistered (by simp [inLoop])
  | undecodable inLoop popped rejected =>
      exact wf_of_open (wf.open_of_running (by rw [inLoop]; rfl)) (by simp)
        wf.interest_of_unregistered (by simp)
  | oversized inLoop popped =>
      exact wf_of_open (wf.open_of_running (by rw [inLoop]; rfl)) (by simp)
        wf.interest_of_unregistered (by simp)
  | socketError inLoop =>
      have opened := wf.open_of_running (running_of_socketError inLoop).1
      exact wf_of_open opened (by simp) wf.interest_of_unregistered (by simp)
  | closing opened cause => exact closing_wf session
  | wrotePart inLoop front positive part =>
      exact wf_of_open (wf.open_of_running (by rw [inLoop]; rfl)) (by simp [inLoop])
        wf.interest_of_unregistered (by simp)
  | wroteAll inLoop front positive whole next =>
      refine wf_of_open (wf.open_of_running (by rw [inLoop]; rfl)) ?_
        wf.interest_of_unregistered ?_
      · rcases next with ⟨rfl, _⟩ | ⟨rfl, _⟩ <;> simp
      · rcases next with ⟨rfl, more⟩ | ⟨rfl, _⟩
        · exact fun _ _ => more
        · simp
  | updated inCode told unregistered succeeded next =>
      have opened := wf.open_of_running (running_of_update inCode)
      exact wf_of_open opened next.ne_closeLoop
        (fun absent => (unregistered absent).trans (wf.interest_of_unregistered absent)) next.writing
  | updatedClosing inCode asked => exact closing_wf session
  | threw inCode =>
      have opened := wf.open_of_running (running_of_update inCode)
      exact wf_of_open opened (by simp) wf.interest_of_unregistered (by simp)
  | failedFrame inLoop front =>
      exact wf_of_open (wf.open_of_running (by rw [inLoop]; rfl)) (by simp [inLoop])
        wf.interest_of_unregistered (by simp [inLoop])
  | closedFrame inLoop front =>
      have closed := wf.closed_of_closeLoop inLoop
      exact {
        open_of_running := by simp [inLoop, Control.running]
        closed_of_closeLoop := fun _ => closed
        socketFd_of_closed := wf.socketFd_of_closed
        registered_of_closed := wf.registered_of_closed
        interest_of_unregistered := wf.interest_of_unregistered
        drained := by simp [inLoop]
        writing := by simp [inLoop] }
  | closedLast inLoop empty =>
      have closed := wf.closed_of_closeLoop inLoop
      exact {
        open_of_running := by simp [Control.running]
        closed_of_closeLoop := by simp
        socketFd_of_closed := wf.socketFd_of_closed
        registered_of_closed := wf.registered_of_closed
        interest_of_unregistered := wf.interest_of_unregistered
        drained := fun _ _ => empty
        writing := by simp }

/-! ### What closes a session, and what makes it fail -/

/-- **A session closes for one of these reasons.** -/
theorem Moves.closing_cause {session session' : Session H} {action : Action H}
    {effects : List (Effect H)} (moves : Moves session action session' effects)
    (opened : session.open_ = true) (closed : session'.open_ = false) :
    action = .closeTask ∨
      (∃ events, action = .handleEvents events ∧
        (events.err = true ∨ events.hup = true ∨ events.in_ = false ∧ events.rdhup = true)) ∨
      action = .recv .eof ∨
      (session.control.rdhup = true ∧ ∀ events, session.control ≠ .recvLoop events) ∨
      ∃ error, session.control = .failLoop error := by
  have stays : session.open_ ≠ false := by rw [opened]; simp
  cases moves with
  | closing opened cause =>
      cases cause with
      | asked idle => exact Or.inl rfl
      | event idle why => exact Or.inr (Or.inl ⟨_, rfl, why⟩)
      | eof inLoop => exact Or.inr (Or.inr (Or.inl rfl))
      | afterRead inLoop rdhup popped =>
          exact Or.inr (Or.inr (Or.inr (Or.inl ⟨by rw [inLoop]; exact rdhup, by simp [inLoop]⟩)))
      | failed inLoop empty => exact Or.inr (Or.inr (Or.inr (Or.inr ⟨_, inLoop⟩)))
  | updatedClosing inCode asked =>
      exact Or.inr (Or.inr (Or.inr (Or.inl ⟨by rw [inCode]; exact asked, by simp [inCode]⟩)))
  | _ => exact absurd closed stays

/-- `EPOLLRDHUP` of a later place was that of an earlier one, or comes with the event. -/
theorem Moves.rdhup_cause {session session' : Session H} {action : Action H}
    {effects : List (Effect H)} (moves : Moves session action session' effects)
    (asked : session'.control.rdhup = true) :
    session.control.rdhup = true ∨ ∃ events, action = .handleEvents events ∧ events.rdhup = true := by
  cases moves with
  | jump opened jump => exact jump.rdhup_cause asked
  | wroteAll inLoop front positive whole next =>
      rw [inLoop]
      rcases next with ⟨rfl, _⟩ | ⟨rfl, _⟩
      · exact Or.inl asked
      · exact Or.inl asked
  | updated inCode told unregistered succeeded next => cases next.rdhup_eq asked
  | queued | undecodable | oversized | socketError | closing | updatedClosing | threw | closedLast =>
      cases asked
  | _ => exact Or.inl asked

/-- Where `EPOLLRDHUP` is still to be looked at, and how the session got there. -/
theorem Moves.rdhup_place {session session' : Session H} {action : Action H}
    {effects : List (Effect H)} (moves : Moves session action session' effects)
    (asked : session'.control.rdhup = true) :
    (∃ events, session'.control = .recvLoop events) ∨
      action = .recv (.error .eagain) ∨
      (∃ events, action = .handleEvents events ∧ events.in_ = false ∧ events.rdhup = true) ∨
      session.control.rdhup = true ∧ ∀ events, session.control ≠ .recvLoop events := by
  cases moves with
  | jump opened jump =>
      cases jump with
      | enterRead | recvInterrupted => exact Or.inl ⟨_, rfl⟩
      | recvBlocked inLoop => exact Or.inr (Or.inl rfl)
      | skipRead idle unreadable next =>
          exact Or.inr (Or.inr (Or.inl ⟨_, rfl, unreadable, next.rdhup_eq asked⟩))
      | parsedAll inLoop popped next =>
          exact Or.inr (Or.inr (Or.inr ⟨by rw [inLoop]; exact next.rdhup_eq asked, by simp [inLoop]⟩))
      | sendInterrupted inLoop | sendBlocked inLoop =>
          exact Or.inr (Or.inr (Or.inr ⟨by rw [inLoop]; exact asked, by simp [inLoop]⟩))
  | received inLoop => exact Or.inl ⟨_, inLoop⟩
  | dropped inLoop | ignored inLoop | delivered inLoop | wrotePart inLoop | failedFrame inLoop
  | closedFrame inLoop =>
      exact Or.inr (Or.inr (Or.inr ⟨asked, by simp [inLoop]⟩))
  | wroteAll inLoop front positive whole next =>
      refine Or.inr (Or.inr (Or.inr ⟨?_, by simp [inLoop]⟩))
      rw [inLoop]
      rcases next with ⟨rfl, _⟩ | ⟨rfl, _⟩ <;> exact asked
  | updated inCode told unregistered succeeded next => cases next.rdhup_eq asked
  | _ => cases asked

/-- **`fail_and_close` is entered for an error of the socket or a bad frame.** -/
theorem Moves.failed_cause {session session' : Session H} {action : Action H}
    {effects : List (Effect H)} (moves : Moves session action session' effects) {reason : ErrorCode}
    (member : .failed reason ∈ effects) :
    (∃ code, reason = .system (.other code) ∧
      (action = .recv (.error (.other code)) ∨ action = .send (.error (.other code)))) ∨
      reason = .messageSize ∨ reason = .protocolError := by
  have notInvoked {handler : Option H} {error : ErrorCode} : .failed reason ∉ invoke handler error := by
    cases handler <;> simp [invoke]
  cases moves with
  | undecodable inLoop popped rejected => exact Or.inr (Or.inr (by simpa using member))
  | oversized inLoop popped => exact Or.inr (Or.inl (by simpa using member))
  | socketError inLoop =>
      refine Or.inl ⟨_, by simpa using member, ?_⟩
      rcases inLoop with ⟨_, _, rfl⟩ | ⟨_, _, rfl⟩
      · exact Or.inl rfl
      · exact Or.inr rfl
  | dropped | failedFrame | closedFrame => exact absurd member notInvoked
  | wroteAll =>
      exact absurd ((List.mem_cons.mp member).resolve_left (by simp)) notInvoked
  | jump opened jump => rcases jump.effects_eq with rfl | rfl <;> simp at member
  | closing opened cause =>
      cases cause <;> simp at member
  | _ => simp at member

/-- A session gets into `fail_and_close` by entering it. -/
theorem Moves.to_failLoop {session session' : Session H} {action : Action H}
    {effects : List (Effect H)} (moves : Moves session action session' effects) {error : ErrorCode}
    (failing : session'.control = .failLoop error) :
    session.control = .failLoop error ∨ .failed error ∈ effects := by
  cases moves with
  | jump opened jump => exact absurd failing (jump.ne_failLoop error)
  | undecodable | oversized | socketError =>
      cases failing
      exact Or.inr (by simp)
  | wroteAll inLoop front positive whole next =>
      rcases next with ⟨rfl, _⟩ | ⟨rfl, _⟩ <;> cases failing
  | updated inCode told unregistered succeeded next => exact absurd failing (next.ne_failLoop error)
  | queued | closing | updatedClosing | threw | closedLast => cases failing
  | _ => exact Or.inl failing

/-- **The end of the stream closes the session on the spot.** -/
theorem Moves.eof {session session' : Session H} {effects : List (Effect H)}
    (moves : Moves session (.recv .eof) session' effects) :
    (∃ events, session.control = .recvLoop events) ∧ session' = session.closing ∧
      effects = [.eof, .socketClosed session.socketFd session.registered] := by
  cases moves with
  | jump opened jump => cases jump
  | socketError inLoop => rcases inLoop with ⟨_, _, same⟩ | ⟨_, _, same⟩ <;> cases same
  | closing opened cause =>
      cases cause with
      | eof inLoop => exact ⟨⟨_, inLoop⟩, rfl, rfl⟩

/-- The ways into and around the loop of reads. -/
theorem Moves.to_recvLoop {session session' : Session H} {action : Action H}
    {effects : List (Effect H)} (moves : Moves session action session' effects) {events : Events}
    (inLoop : session'.control = .recvLoop events) :
    session.control = .idle ∧ effects = [.dispatched] ∨
      session.control = .recvLoop events ∧
        (effects = [] ∨ ∃ chunk, effects = [.received chunk]) := by
  cases moves with
  | jump opened jump =>
      cases jump with
      | enterRead idle readable => exact Or.inl ⟨idle, rfl⟩
      | skipRead idle unreadable next => exact Or.inl ⟨idle, rfl⟩
      | recvInterrupted before => exact Or.inr ⟨before.trans inLoop, Or.inl rfl⟩
      | parsedAll before popped next => cases next <;> cases inLoop
      | _ => cases inLoop
  | received before => exact Or.inr ⟨inLoop, Or.inr ⟨_, rfl⟩⟩
  | dropped idle | ignored idle =>
      rw [idle] at inLoop
      cases inLoop
  | delivered before | wrotePart before | failedFrame before | closedFrame before =>
      rw [before] at inLoop
      cases inLoop
  | wroteAll before front positive whole next =>
      rcases next with ⟨rfl, _⟩ | ⟨rfl, _⟩ <;> cases inLoop
  | updated inCode told unregistered succeeded next => cases next <;> cases inLoop
  | _ => cases inLoop

theorem closesSocket_invoke {handler : Option H} {error : ErrorCode} {effect : Effect H}
    (member : effect ∈ invoke handler error) : effect.closesSocket = false := by
  cases handler with
  | none => cases member
  | some handler =>
      rw [List.mem_singleton.mp member]
      rfl

/-- **A step closes the socket, as its last effect, when it closes the session, and otherwise leaves it
alone.** -/
theorem Moves.socket {session session' : Session H} {action : Action H} {effects : List (Effect H)}
    (moves : Moves session action session' effects) (wf : session.Wf) :
    (session'.socketFd = session.socketFd ∧ ∀ effect ∈ effects, effect.closesSocket = false) ∨
      session.open_ = true ∧ session'.socketFd = none ∧
        ∃ before : List (Effect H), (∀ effect ∈ before, effect.closesSocket = false) ∧
          effects = before ++ [Effect.socketClosed session.socketFd session.registered] := by
  cases moves with
  | dropped | failedFrame | closedFrame => exact Or.inl ⟨rfl, fun effect => closesSocket_invoke⟩
  | closing opened cause =>
      refine Or.inr ⟨opened, rfl, _, ?_, rfl⟩
      cases cause <;> simp [Effect.closesSocket]
  | updatedClosing inCode asked =>
      have opened : session.open_ = true := wf.open_of_running (by rw [inCode]; rfl)
      exact Or.inr ⟨opened, rfl, [], by simp, rfl⟩
  | jump opened jump =>
      refine Or.inl ⟨rfl, ?_⟩
      cases jump <;> simp [Effect.closesSocket]
  | wroteAll =>
      refine Or.inl ⟨rfl, fun effect member => ?_⟩
      rcases List.mem_cons.mp member with rfl | called
      · rfl
      · exact closesSocket_invoke called
  | queued | ignored | received | delivered | undecodable | oversized | socketError | wrotePart | updated
  | threw | closedLast =>
      refine Or.inl ⟨rfl, ?_⟩
      simp [Effect.closesSocket]

/-- A closed session only runs write handlers and its close handler. -/
theorem Moves.of_closed {session session' : Session H} {action : Action H}
    {effects : List (Effect H)} (moves : Moves session action session' effects) (wf : session.Wf)
    (closed : session.open_ = false) :
    session'.open_ = false ∧
      ∀ effect ∈ effects, (∃ handler error, effect = .write handler error) ∨ effect = .close := by
  have notRunning : ¬ session.control.running = true := by
    intro running
    rw [wf.open_of_running running] at closed
    cases closed
  have invoked {handler : Option H} {error : ErrorCode} :
      ∀ effect ∈ invoke handler error,
        (∃ handler error, effect = Effect.write handler error) ∨ effect = .close := by
    cases handler <;> simp [invoke]
  cases moves with
  | dropped idle closed => exact ⟨closed, invoked⟩
  | ignored idle closed => exact ⟨closed, by simp⟩
  | closedFrame inLoop front => exact ⟨closed, invoked⟩
  | closedLast inLoop empty => exact ⟨closed, by simp⟩
  | queued idle opened | jump opened | closing opened =>
      rw [opened] at closed
      cases closed
  | received inLoop | delivered inLoop | undecodable inLoop | oversized inLoop | wrotePart inLoop
  | wroteAll inLoop | failedFrame inLoop =>
      exact absurd (by rw [inLoop]; rfl) notRunning
  | updatedClosing inCode => exact absurd (by rw [inCode]; rfl) notRunning
  | updated inCode | threw inCode => exact absurd (running_of_update inCode) notRunning
  | socketError inLoop => exact absurd (running_of_socketError inLoop).1 notRunning

/-- A session that stays open neither sees the end of the stream nor calls its close handler. -/
theorem Moves.of_open {session session' : Session H} {action : Action H}
    {effects : List (Effect H)} (moves : Moves session action session' effects) (wf : session.Wf)
    (opened : session'.open_ = true) :
    session.open_ = true ∧ ∀ effect ∈ effects, effect ≠ .eof ∧ effect ≠ .close := by
  have before : session.open_ = true := by
    by_contra closed
    rw [(moves.of_closed wf (by simpa using closed)).1] at opened
    cases opened
  have invoked {handler : Option H} {error : ErrorCode} :
      ∀ effect ∈ invoke handler error, effect ≠ Effect.eof ∧ effect ≠ .close := by
    cases handler <;> simp [invoke]
  refine ⟨before, ?_⟩
  cases moves with
  | dropped | failedFrame | closedFrame => exact invoked
  | wroteAll => exact List.forall_mem_cons.mpr ⟨by simp, invoked⟩
  | jump opened jump => rcases jump.effects_eq with rfl | rfl <;> simp
  | closing | updatedClosing => cases opened
  | closedLast inLoop empty =>
      rw [wf.closed_of_closeLoop inLoop] at before
      cases before
  | _ => simp

end Session

end Insist.MiniRpc
