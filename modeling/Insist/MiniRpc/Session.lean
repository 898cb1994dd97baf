/-
**`minirpc::Session`** (`include/minirpc/session.hpp`, `src/session.cpp`), one socket on the loop
thread.

The loop thread runs the session's code from a task or an event to the end, but that code makes
system calls and calls handlers on its way, and other threads (and the handlers themselves) can use
the session's interface in between. So the code is cut at its system calls and handler calls:
`Control` says where the loop thread is, `step` runs to the next such point. Every choice of the
environment — which event, what `recv`, `send` and `epoll_ctl` answer — is in the `Action`; every
handler call and every fact about the socket that a caller can observe is an `Effect`.

A message or close handler that is not set is one that ignores its arguments. A write handler is
optional, as in the source, since `send` passes an empty one by default.
-/
import Insist.MiniRpc.Framing
import Insist.MiniRpc.ProtobufWire

namespace Insist.MiniRpc

/-- The `errno` values a socket call can leave; `EWOULDBLOCK` is `EAGAIN`. -/
inductive Errno
  | eagain
  | eintr
  | other (code : ℕ)
deriving DecidableEq, Repr

/-- The `std::error_code`s a write handler can be given. -/
inductive ErrorCode
  | success
  | messageSize
  | notConnected
  | protocolError
  | system (errno : Errno)
deriving DecidableEq, Repr

/-- The size of `async_read`'s local buffer. -/
def kChunkSize : ℕ := 8192

/-- What `::recv` answers: bytes, the end of the stream, or `-1`. -/
inductive RecvResult
  | data (chunk : List UInt8)
  | eof
  | error (errno : Errno)
deriving DecidableEq, Repr

/-- What `::recv` into a buffer of `kChunkSize` bytes can answer. -/
def RecvResult.possible : RecvResult → Bool
  | .data chunk => 0 < chunk.length ∧ chunk.length ≤ kChunkSize
  | .eof | .error _ => true

/-- What `::send` answers: how many bytes the kernel took, or `-1`. -/
inductive SendResult
  | accepted (count : ℕ)
  | error (errno : Errno)
deriving DecidableEq, Repr

/-- What `epoll_ctl(MOD)` answers, as far as `EventLoop::modify` looks at it. -/
inductive ModifyResult
  | ok
  | enoent
  | ebadf
  | failed
deriving DecidableEq, Repr

/-- The epoll flags the session uses. -/
structure Events where
  err : Bool := false
  hup : Bool := false
  in_ : Bool := false
  out : Bool := false
  rdhup : Bool := false
deriving DecidableEq, Repr

/-- `Session::OutgoingFrame`. -/
structure OutgoingFrame (H : Type) where
  bytes : List UInt8
  written : ℕ := 0
  handler : Option H
deriving DecidableEq, Repr

/-- Where the loop thread is in the session's code. -/
inductive Control
  /-- Not in it. -/
  | idle
  /-- At `::recv` in `async_read`, called by `handle_events(events)`. -/
  | recvLoop (events : Events)
  /-- At the test of the second loop of that `async_read`. -/
  | parseLoop (events : Events)
  /-- In the task of `send`, at `update_events`. -/
  | updateThenWrite
  /-- At `::send` in `async_write`; `rdhup` is what `handle_events` will still look at. -/
  | writeLoop (rdhup : Bool)
  /-- At `update_events` at the end of `async_write`. -/
  | updateAfterWrite (rdhup : Bool)
  /-- At the loop test of `fail_and_close(error)`. -/
  | failLoop (error : ErrorCode)
  /-- At the loop test of `close_from_loop`. -/
  | closeLoop
  /-- `EventLoop::modify` has thrown out of the session's code and out of `EventLoop::run`. -/
  | thrown
deriving DecidableEq, Repr

/-- The members of `Session`, the interest set's entry for its socket (`none` when the socket is not
in it), and where the loop thread is. -/
structure Session (H : Type) where
  socketFd : Option ℕ
  open_ : Bool := true
  registered : Bool := false
  readBuffer : List UInt8 := []
  writeQueue : List (OutgoingFrame H) := []
  interest : Option Events := none
  control : Control := .idle
deriving DecidableEq, Repr

/-- The points at which the session's code is entered or resumed. -/
inductive Action (H : Type)
  /-- The loop runs a task posted by `Session::send`. -/
  | sendTask (frame : List UInt8) (handler : Option H)
  /-- The loop runs a task posted by `Session::close`. -/
  | closeTask
  /-- The loop calls the registered handler. -/
  | handleEvents (events : Events)
  | recv (result : RecvResult)
  /-- One turn of the parse loop. -/
  | parse
  | send (result : SendResult)
  | modify (result : ModifyResult)
  /-- One turn of the loop of `fail_and_close` or `close_from_loop`. -/
  | drain
deriving DecidableEq, Repr

/-- What the session's code does to its surroundings. -/
inductive Effect (H : Type)
  /-- The message handler is called. -/
  | message (message : RpcMessage)
  /-- A write handler is called. -/
  | write (handler : H) (error : ErrorCode)
  /-- The close handler is called. -/
  | close
  /-- A frame enters `write_queue_`. -/
  | queued (frame : List UInt8) (handler : Option H)
  /-- The loop enters `handle_events`. -/
  | dispatched
  /-- `::recv` returned these bytes. -/
  | received (bytes : List UInt8)
  /-- `::recv` returned 0. -/
  | eof
  /-- The kernel took these bytes of the front frame. -/
  | accepted (bytes : List UInt8) (handler : Option H)
  /-- `fail_and_close` is entered. -/
  | failed (error : ErrorCode)
  /-- `EventLoop::remove` and `::close` of the socket. -/
  | socketClosed (fd : Option ℕ) (removed : Bool)
deriving DecidableEq, Repr

def Effect.isClose {H : Type} : Effect H → Bool
  | .close => true
  | _ => false

theorem Effect.any_isClose {H : Type} (effects : List (Effect H)) :
    effects.any Effect.isClose = true ↔ .close ∈ effects := by
  rw [List.any_eq_true]
  constructor
  · rintro ⟨effect, member, close⟩
    cases effect <;> cases close
    exact member
  · exact fun member => ⟨.close, member, rfl⟩

def Effect.closesSocket {H : Type} : Effect H → Bool
  | .socketClosed _ _ => true
  | _ => false

namespace Session

variable {H : Type}

/-- A session whose `start` has returned: open, registered for `EPOLLIN | EPOLLRDHUP`. -/
def started (fd : ℕ) : Session H :=
  { socketFd := some fd, registered := true, interest := some { in_ := true, rdhup := true } }

/-- `if (handler) handler(error)`. -/
def invoke (handler : Option H) (error : ErrorCode) : List (Effect H) :=
  match handler with
  | none => []
  | some handler => [.write handler error]

/-- `close_from_loop` up to its loop. -/
def closeFromLoop (session : Session H) : Session H × List (Effect H) :=
  if ¬ session.open_ then ({ session with control := .idle }, [])
  else
    ({ session with
        open_ := false, socketFd := none, registered := false, control := .closeLoop
        interest := if session.registered then none else session.interest },
      [.socketClosed session.socketFd session.registered])

/-- The end of `handle_events`, after `async_write`. -/
def afterWrite (session : Session H) (rdhup : Bool) : Session H × List (Effect H) :=
  if session.open_ ∧ rdhup then closeFromLoop session else ({ session with control := .idle }, [])

/-- The loop test of `async_write`: into the body, or on to `update_events`. -/
def writeTest (session : Session H) (rdhup : Bool) : Session H × List (Effect H) :=
  if session.open_ ∧ session.writeQueue ≠ [] then ({ session with control := .writeLoop rdhup }, [])
  else if session.open_ then ({ session with control := .updateAfterWrite rdhup }, [])
  else afterWrite session rdhup

/-- `handle_events` after `async_read`. -/
def afterRead (session : Session H) (events : Events) : Session H × List (Effect H) :=
  if session.open_ ∧ events.out then writeTest session events.rdhup
  else afterWrite session events.rdhup

/-- `handle_events` up to the first system call. -/
def handleEvents (session : Session H) (events : Events) : Session H × List (Effect H) :=
  if ¬ session.open_ then (session, [])
  else if events.err ∨ events.hup then closeFromLoop session
  else if events.in_ then ({ session with control := .recvLoop events }, [])
  else afterRead session events

/-- `fail_and_close` up to its loop. -/
def failAndClose (session : Session H) (error : ErrorCode) : Session H × List (Effect H) :=
  ({ session with control := .failLoop error }, [.failed error])

/-- One `::recv` of `async_read`. -/
def asyncReadRecv (session : Session H) (events : Events) (result : RecvResult) :
    Session H × List (Effect H) :=
  match result with
  | .data chunk =>
      ({ session with readBuffer := session.readBuffer ++ chunk }, [.received chunk])
  | .eof =>
      let (session, effects) := closeFromLoop session
      (session, .eof :: effects)
  | .error .eagain => ({ session with control := .parseLoop events }, [])
  | .error .eintr => (session, [])
  | .error errno => failAndClose session (.system errno)

/-- One turn of the parse loop of `async_read`. -/
def asyncReadParse (session : Session H) (events : Events) : Session H × List (Effect H) :=
  if ¬ session.open_ then afterRead session events
  else
    match tryPopFrame session.readBuffer with
    | .needMore => afterRead session events
    | .tooLarge => failAndClose session .messageSize
    | .ok payload rest =>
        let session := { session with readBuffer := rest }
        match ProtobufWireCodec.decode payload with
        | none => failAndClose session .protocolError
        | some message => (session, [.message message])

/-- One `::send` of `async_write`, for the front frame. -/
def asyncWriteSend (session : Session H) (rdhup : Bool) (frame : OutgoingFrame H)
    (queue : List (OutgoingFrame H)) (result : SendResult) : Session H × List (Effect H) :=
  match result with
  | .accepted count =>
      let taken := (frame.bytes.drop frame.written).take count
      let frame := { frame with written := frame.written + count }
      if frame.written = frame.bytes.length then
        let (session, effects) := writeTest { session with writeQueue := queue } rdhup
        (session, .accepted taken frame.handler :: invoke frame.handler .success ++ effects)
      else
        ({ session with writeQueue := frame :: queue }, [.accepted taken frame.handler])
  | .error .eagain => ({ session with control := .updateAfterWrite rdhup }, [])
  | .error .eintr => (session, [])
  | .error errno => failAndClose session (.system errno)

/-- The interest `update_events` asks for. -/
def wantedEvents (session : Session H) : Events :=
  { in_ := true, rdhup := true, out := !session.writeQueue.isEmpty }

/-- `update_events`: the session afterwards, or `none` when `EventLoop::modify` throws. -/
def updateEvents (session : Session H) (result : ModifyResult) : Option (Session H) :=
  if ¬ session.registered ∨ ¬ session.open_ then some session
  else
    match result with
    | .ok => some { session with interest := some session.wantedEvents }
    | .enoent | .ebadf => some session
    | .failed => none

/-- What follows an `update_events`, or the exception leaving the session. -/
def resumeAfter (session : Session H) (updated : Option (Session H))
    (next : Session H → Session H × List (Effect H)) : Session H × List (Effect H) :=
  match updated with
  | none => ({ session with control := .thrown }, [])
  | some session => next session

/-- One turn of the loop of `fail_and_close`. -/
def failAndCloseDrain (session : Session H) (error : ErrorCode) : Session H × List (Effect H) :=
  match session.writeQueue with
  | [] => closeFromLoop session
  | frame :: queue => ({ session with writeQueue := queue }, invoke frame.handler error)

/-- One turn of the loop of `close_from_loop`, and the close handler after the last. -/
def closeFromLoopDrain (session : Session H) : Session H × List (Effect H) :=
  match session.writeQueue with
  | [] => ({ session with control := .idle }, [.close])
  | frame :: queue => ({ session with writeQueue := queue }, invoke frame.handler .notConnected)

/-- The task that `Session::send` posts. -/
def sendTask (session : Session H) (frame : List UInt8) (handler : Option H) :
    Session H × List (Effect H) :=
  if ¬ session.open_ then (session, invoke handler .notConnected)
  else
    ({ session with
        writeQueue := session.writeQueue ++ [{ bytes := frame, handler := handler }]
        control := .updateThenWrite },
      [.queued frame handler])

/-- Run the session's code from one point to the next; `none` when the action does not fit where the
loop thread is, or answers what the system call cannot: `recv` returns between one byte and what the
local buffer holds, or 0, and `send` of a non-empty rest takes between one byte and all of them. -/
def step (session : Session H) (action : Action H) : Option (Session H × List (Effect H)) :=
  match session.control, action with
  | .idle, .sendTask frame handler => some (session.sendTask frame handler)
  | .idle, .closeTask => some session.closeFromLoop
  | .idle, .handleEvents events =>
      if session.registered then
        let (session, effects) := session.handleEvents events
        some (session, .dispatched :: effects)
      else none
  | .recvLoop events, .recv result =>
      if result.possible then some (session.asyncReadRecv events result) else none
  | .parseLoop events, .parse => some (session.asyncReadParse events)
  | .updateThenWrite, .modify result =>
      some (session.resumeAfter (session.updateEvents result) fun session => session.writeTest false)
  | .writeLoop rdhup, .send result =>
      match session.writeQueue, result with
      | [], _ => none
      | frame :: queue, .accepted count =>
          if 0 < count ∧ frame.written + count ≤ frame.bytes.length then
            some (session.asyncWriteSend rdhup frame queue result)
          else none
      | frame :: queue, .error _ => some (session.asyncWriteSend rdhup frame queue result)
  | .updateAfterWrite rdhup, .modify result =>
      some (session.resumeAfter (session.updateEvents result) fun session => session.afterWrite rdhup)
  | .failLoop error, .drain => some (session.failAndCloseDrain error)
  | .closeLoop, .drain => some session.closeFromLoopDrain
  | _, _ => none

end Session

end Insist.MiniRpc
