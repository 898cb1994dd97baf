/-
**One side of a connection can always come to rest.**

`Side` is an endpoint with the bytes on the way to it and from it, whose message handler answers a message with
a list of sends. Only the loop thread moves it, and only as it, the kernel and `epoll` can when nothing is
faulty: it runs its tasks in order, and handles an event when all have been run; an event is reported that the
interest set asks for, `EPOLLIN` when there is something to read, `recv` blocks when there is nothing, and
`epoll_ctl` succeeds. From every calm state some run leads to rest, with everything on the way read, every task
run and every frame written. There is one lemma for each place in the session's code, by induction on the write
queue, on the read buffer or on what is on the way.

* `Endpoint.Label.settling` — what the loop thread may do;
* `Side.Calm`, `calm_of_reaches` — the invariant, and that every run keeps it;
* **`exists_rest`** — the run to rest.
-/
import Insist.MiniRpc.Calm
import Insist.MiniRpc.Settled

namespace Insist.MiniRpc

open Lib

variable {H : Type}

/-- What the loop thread may do in the session's code when nothing is faulty. -/
def Action.settling (session : Session H) (incoming : List UInt8) : Action H → Bool
  | .handleEvents events =>
      !events.err && !events.hup && !events.rdhup &&
        (!events.in_ || !incoming.isEmpty && session.interest.any (·.in_)) &&
        (!events.out || session.interest.any (·.out))
  | .recv (.data _) | .parse | .send (.accepted _) => true
  | .recv (.error .eagain) => incoming.isEmpty
  | .modify result => result = .ok
  | _ => false

/-- The loop enters the session's code for an event. -/
def Action.entry : Action H → Bool
  | .handleEvents _ => true
  | _ => false

/-- The same for an endpoint: the loop thread runs the first of its tasks, or goes on in the session's code,
which it enters for an event when all tasks have been run. -/
def Endpoint.Label.settling (endpoint : Endpoint H) (incoming : List UInt8) : Endpoint.Label H → Bool
  | .run index => index = 0
  | .session action =>
      action.settling endpoint.session incoming && (!action.entry || endpoint.tasks.isEmpty)
  | _ => false

theorem Endpoint.Label.faultless_of_settling {endpoint : Endpoint H} {incoming : List UInt8}
    {label : Endpoint.Label H} (settling : label.settling endpoint incoming = true) :
    label.faultless = true := by
  cases label with
  | run index => rfl
  | session action =>
      replace settling := (Bool.and_eq_true_iff.mp settling).1
      cases action with
      | handleEvents events =>
          have plain : (events.err = false ∧ events.hup = false) ∧ events.rdhup = false := by
            simp only [Action.settling, Bool.and_eq_true, Bool.not_eq_true'] at settling
            exact settling.1.1
          simp [faultless, quiet, Action.quiet, modifySucceeds, plain]
      | recv result =>
          cases result with
          | data chunk => rfl
          | eof => cases settling
          | error errno => cases errno <;> first | rfl | cases settling
      | send result =>
          cases result with
          | accepted count => rfl
          | error errno => cases settling
      | modify result => exact settling
      | parse => rfl
      | _ => cases settling
  | _ => cases settling

/-! ### The steps that are taken -/

namespace Session

variable {session : Session H}

/-- The kernel takes all that is left of the front frame. -/
theorem step_sendAll (opened : session.open_ = true) {rdhup : Bool}
    (inLoop : session.control = .writeLoop rdhup)
    {frame : OutgoingFrame H} {queue : List (OutgoingFrame H)} (front : session.writeQueue = frame :: queue)
    (unfinished : frame.written < frame.bytes.length) :
    ∃ effects, session.step (.send (.accepted (frame.bytes.length - frame.written))) =
        some ({ session with
          writeQueue := queue
          control := if queue ≠ [] then .writeLoop rdhup else .updateAfterWrite rdhup }, effects) ∧
      delivered effects = [] := by
  have whole : frame.written + (frame.bytes.length - frame.written) = frame.bytes.length := by omega
  have possible : 0 < frame.bytes.length - frame.written ∧
      frame.written + (frame.bytes.length - frame.written) ≤ frame.bytes.length := ⟨by omega, whole.le⟩
  have stillOpen : ({ session with writeQueue := queue, control := .writeLoop rdhup } : Session H).open_ =
      true :=
    opened
  have silent (taken : List UInt8) :
      delivered (.accepted taken frame.handler :: invoke frame.handler .success) = [] :=
    delivered_of_silent (List.forall_mem_cons.mpr ⟨rfl, silent_invoke _ _⟩)
  unfold step
  simp only [inLoop, front, if_pos possible, asyncWriteSend, if_pos whole, writeTest_of_open stillOpen]
  by_cases more : queue ≠ []
  · rw [if_pos more, if_pos more, List.append_nil]
    exact ⟨_, rfl, silent _⟩
  · rw [if_neg more, if_neg more, List.append_nil]
    exact ⟨_, rfl, silent _⟩

/-- `update_events` succeeds. -/
theorem updateEvents_ok (calm : session.Calm) :
    session.updateEvents .ok = some { session with interest := some session.wantedEvents } := by
  unfold updateEvents
  rw [if_neg (by simp [calm.registered, calm.opened])]

/-- `update_events` at the end of the writes. -/
theorem step_updateAfterWrite (calm : session.Calm) (inCode : session.control = .updateAfterWrite false) :
    session.step (.modify .ok) =
      some ({ session with interest := some session.wantedEvents, control := .idle }, []) := by
  unfold step
  simp only [inCode, updateEvents_ok calm, resumeAfter]
  rw [afterWrite, if_neg (by simp)]

/-- `update_events` before the writes. -/
theorem step_updateThenWrite (calm : session.Calm) (inCode : session.control = .updateThenWrite) :
    session.step (.modify .ok) =
      some ({ session with
        interest := some session.wantedEvents
        control := if session.writeQueue ≠ [] then .writeLoop false else .updateAfterWrite false }, []) := by
  have enabled : session.step (.modify .ok) =
      some (session.resumeAfter (session.updateEvents .ok) fun session => session.writeTest false) := by
    unfold step
    simp only [inCode]
  have stillOpen : ({ session with interest := some session.wantedEvents } : Session H).open_ = true :=
    calm.opened
  rw [enabled, updateEvents_ok calm, resumeAfter, writeTest_of_open stillOpen]
  by_cases more : session.writeQueue ≠ []
  · rw [if_pos more, if_pos more]
  · rw [if_neg more, if_neg more]

/-- The task of `send` queues its frame. -/
theorem step_sendTask (opened : session.open_ = true) (idle : session.control = .idle) (frame : List UInt8)
    (handler : Option H) :
    session.step (.sendTask frame handler) =
      some ({ session with
        writeQueue := session.writeQueue ++ [{ bytes := frame, handler := handler }]
        control := .updateThenWrite }, [.queued frame handler]) := by
  unfold step
  simp [idle, Session.sendTask, opened]

/-- The end of the parse loop leads on. -/
theorem step_parsedAll (calm : session.Calm) {events : Events} (inLoop : session.control = .parseLoop events)
    (popped : popMessage session.readBuffer = .needMore) :
    ∃ control, AfterRead session false control ∧
      session.step .parse = some ({ session with control := control }, []) := by
  have place := calm.place
  rw [inLoop] at place
  have calmEvents : events.rdhup = false := Control.rdhup_of_calm place
  have enabled : session.step .parse = some (session.asyncReadParse events) := by
    unfold step
    simp only [inLoop]
  rw [asyncReadParse, if_neg (not_not_intro calm.opened), popMessage_eq_needMore popped] at enabled
  rcases afterRead_cases calm.wf calm.opened events with ⟨control, next, same⟩ | ⟨asked, _⟩
  · rw [calmEvents] at next
    exact ⟨control, next, by rw [enabled, same]⟩
  · rw [calmEvents] at asked
    cases asked

/-- A message is taken off the buffer. -/
theorem step_parseItem (calm : session.Calm) {events : Events} (inLoop : session.control = .parseLoop events)
    {message : RpcMessage} {rest : List UInt8} (popped : popMessage session.readBuffer = .item message rest) :
    session.step .parse = some ({ session with readBuffer := rest }, [.message message]) := by
  obtain ⟨payload, frame, decoded⟩ := popMessage_eq_item popped
  have enabled : session.step .parse = some (session.asyncReadParse events) := by
    unfold step
    simp only [inLoop]
  rw [enabled, asyncReadParse, if_neg (not_not_intro calm.opened), frame]
  simp only [decoded]

/-- `epoll` reports that there is something to read. -/
theorem step_readable (calm : session.Calm) (idle : session.control = .idle) :
    session.step (.handleEvents { in_ := true }) =
      some ({ session with control := .recvLoop { in_ := true } }, [.dispatched]) := by
  unfold step
  simp [idle, calm.registered, Session.handleEvents, calm.opened]

/-- `epoll` reports that there is room to write. -/
theorem step_writable (calm : session.Calm) (idle : session.control = .idle)
    (queued : session.writeQueue ≠ []) :
    session.step (.handleEvents { out := true }) =
      some ({ session with control := .writeLoop false }, [.dispatched]) := by
  unfold step
  simp [idle, calm.registered, Session.handleEvents, calm.opened, afterRead,
    writeTest_of_open calm.opened, queued]

end Session

/-- What is at the front can be read. -/
theorem readFrom_append (chunk rest : List UInt8) : readFrom (chunk ++ rest) chunk = some rest := by
  unfold readFrom
  rw [if_pos (List.isPrefixOf_iff_prefix.mpr (List.prefix_append _ _)), List.drop_left]

theorem readFrom_nil (wire : List UInt8) : readFrom wire [] = some wire := readFrom_append [] wire

/-! ### One side -/

/-- An endpoint, the bytes on the way to it, and the bytes it has written. -/
structure Side (H : Type) where
  endpoint : Endpoint H
  incoming : List UInt8
  outgoing : List UInt8

namespace Side

/-- One step of the loop thread; the message handler answers with these sends. -/
def step (answer : RpcMessage → List (RpcMessage × Option H)) (side : Side H) (label : Endpoint.Label H) :
    Option (Side H) :=
  if label.settling side.endpoint side.incoming then
    match readFrom side.incoming label.chunk with
    | none => none
    | some incoming =>
        (side.endpoint.step label).map fun result =>
          { endpoint :=
              (delivered result.2).foldl (fun endpoint message => endpoint.sendAll (answer message)) result.1
            incoming := incoming
            outgoing := side.outgoing ++ accepted result.2 }
  else none

def machine (answer : RpcMessage → List (RpcMessage × Option H)) : Machine (Side H) (Endpoint.Label H) where
  step := step answer

/-- A calm endpoint, which is going to read no bad frame. -/
structure Calm (side : Side H) : Prop where
  endpoint : side.endpoint.Calm
  clean : CleanStream (side.endpoint.session.readBuffer ++ side.incoming)

variable {answer : RpcMessage → List (RpcMessage × Option H)} {side side' : Side H}

theorem session_foldl (endpoint : Endpoint H) (delivered : List RpcMessage) :
    (delivered.foldl (fun endpoint message => endpoint.sendAll (answer message)) endpoint).session =
      endpoint.session := by
  induction delivered generalizing endpoint with
  | nil => rfl
  | cons message delivered ih => exact (ih _).trans (endpoint.session_sendAll _)

theorem calm_foldl {endpoint : Endpoint H} (calm : endpoint.Calm) (delivered : List RpcMessage) :
    (delivered.foldl (fun endpoint message => endpoint.sendAll (answer message)) endpoint).Calm := by
  induction delivered generalizing endpoint with
  | nil => exact calm
  | cons message delivered ih => exact ih (calm.sendAll _)

/-- **Every step of a calm side leaves it calm.** -/
theorem Calm.step {label : Endpoint.Label H} (calm : side.Calm)
    (stepped : (machine answer).step side label = some side') : side'.Calm := by
  simp only [machine, Side.step] at stepped
  split_ifs at stepped with settling
  split at stepped
  case h_1 => cases stepped
  case h_2 incoming read =>
    obtain ⟨⟨endpoint, effects⟩, moved, rfl⟩ := Option.map_eq_some_iff.mp stepped
    have faultless := Endpoint.Label.faultless_of_settling settling
    have moves := Endpoint.step_moves calm.endpoint.session.wf moved
    have kept := moves.clean calm.clean read
    refine ⟨calm_foldl (moves.calm calm.endpoint faultless kept.1) _, ?_⟩
    rw [show (_ : Endpoint H).session = endpoint.session from session_foldl endpoint _]
    exact kept.2

/-- **Every run of a calm side leaves it calm.** -/
theorem calm_of_reaches (calm : side.Calm) (reaches : (machine answer).Reaches side side') : side'.Calm := by
  obtain ⟨labels, ran⟩ := reaches
  exact Machine.invariant_run Calm (fun holds stepped => holds.step stepped) calm ran

/-! ### The runs -/

variable (answer)

/-- The loop goes on in the session's code. -/
theorem reaches_inside (side : Side H) (action : Action H)
    (settling : action.settling side.endpoint.session side.incoming = true) (notTask : action.fromTask = false)
    (ready : action.entry = true → side.endpoint.tasks = []) {incoming : List UInt8}
    (read : readFrom side.incoming action.chunk = some incoming) {session : Session H}
    {effects : List (Effect H)} (stepped : side.endpoint.session.step action = some (session, effects)) :
    ∃ side', (machine answer).Reaches side side' ∧ side'.endpoint.session = session ∧
      side'.incoming = incoming ∧ (delivered effects = [] → side'.endpoint.tasks = side.endpoint.tasks) := by
  have moved : side.endpoint.step (.session action) =
      some (side.endpoint.advance side.endpoint.tasks [] (session, effects)) := by
    simp only [Endpoint.step, notTask, stepped, Option.map_some, if_neg Bool.false_ne_true]
  have allowed : (!action.entry || side.endpoint.tasks.isEmpty) = true := by
    cases entry : action.entry with
    | false => rfl
    | true => rw [ready entry]; rfl
  have taken : (machine answer).step side (.session action) = some
      { endpoint := (delivered effects).foldl (fun endpoint message => endpoint.sendAll (answer message))
          (side.endpoint.advance side.endpoint.tasks [] (session, effects)).1
        incoming := incoming, outgoing := side.outgoing ++ accepted effects } := by
    unfold machine Side.step
    simp only [Endpoint.Label.settling, settling, allowed, Bool.and_self, Endpoint.Label.chunk, read, moved,
      Option.map_some, if_true]
    rfl
  refine ⟨_, Machine.Reaches.of_step taken, session_foldl _ _, rfl, fun none => ?_⟩
  simp only [none, List.foldl_nil]
  rfl

/-- The same for an action that reads nothing and hands out nothing. -/
theorem reaches_silent (side : Side H) (action : Action H)
    (settling : action.settling side.endpoint.session side.incoming = true) (notTask : action.fromTask = false)
    (ready : action.entry = true → side.endpoint.tasks = []) (unread : action.chunk = []) {session : Session H}
    {effects : List (Effect H)}
    (stepped : side.endpoint.session.step action = some (session, effects)) (none : delivered effects = []) :
    ∃ side', (machine answer).Reaches side side' ∧ side'.endpoint.session = session ∧
      side'.incoming = side.incoming ∧ side'.endpoint.tasks = side.endpoint.tasks := by
  have read : readFrom side.incoming action.chunk = some side.incoming := by
    rw [unread]
    exact readFrom_nil _
  obtain ⟨side', reaches, session, incoming, tasks⟩ :=
    reaches_inside answer side action settling notTask ready read stepped
  exact ⟨side', reaches, session, incoming, tasks none⟩

/-- After the writes. -/
theorem idle_of_updateAfterWrite (calm : side.Calm)
    (inCode : side.endpoint.session.control = .updateAfterWrite false) :
    ∃ side', (machine answer).Reaches side side' ∧ side'.endpoint.session.control = .idle ∧
      side'.endpoint.session.writeQueue = side.endpoint.session.writeQueue ∧
      side'.incoming = side.incoming ∧ side'.endpoint.tasks = side.endpoint.tasks := by
  have stepped := Session.step_updateAfterWrite calm.endpoint.session inCode
  obtain ⟨side', reaches, session, incoming, tasks⟩ :=
    reaches_silent answer side (.modify .ok) rfl rfl (by rintro ⟨⟩) rfl stepped rfl
  exact ⟨side', reaches, by rw [session], by rw [session], incoming, tasks⟩

/-- At the writes: frame by frame, the queue is emptied. -/
theorem idle_of_writeLoop (calm : side.Calm)
    (inLoop : side.endpoint.session.control = .writeLoop false) :
    ∃ side', (machine answer).Reaches side side' ∧ side'.endpoint.session.control = .idle ∧
      side'.endpoint.session.writeQueue = [] ∧ side'.incoming = side.incoming ∧
      side'.endpoint.tasks = side.endpoint.tasks := by
  induction queued : side.endpoint.session.writeQueue generalizing side with
  | nil => exact absurd queued (calm.endpoint.session.wf.writing false inLoop)
  | cons frame queue ih =>
      have session := calm.endpoint.session
      have unfinished := session.armed.queue.unfinished frame (by rw [queued]; exact List.mem_cons_self)
      obtain ⟨effects, stepped, none⟩ := Session.step_sendAll session.opened inLoop queued unfinished
      obtain ⟨middle, first, after, incoming, tasks⟩ :=
        reaches_silent answer side (.send (.accepted _)) rfl rfl (by rintro ⟨⟩) rfl stepped none
      have calm' := calm_of_reaches calm first
      by_cases more : queue ≠ []
      · rw [if_pos more] at after
        obtain ⟨side', second, idle, empty, incoming', tasks'⟩ :=
          ih calm' (by rw [after]) (by rw [after])
        exact ⟨side', first.trans second, idle, empty, incoming'.trans incoming, tasks'.trans tasks⟩
      · rw [if_neg more] at after
        obtain ⟨side', second, idle, queue', incoming', tasks'⟩ :=
          idle_of_updateAfterWrite answer calm' (by rw [after])
        refine ⟨side', first.trans second, idle, ?_, incoming'.trans incoming, tasks'.trans tasks⟩
        rw [queue', after]
        exact not_not.mp more

/-- In the task of `send`. -/
theorem idle_of_updateThenWrite (calm : side.Calm)
    (inCode : side.endpoint.session.control = .updateThenWrite) :
    ∃ side', (machine answer).Reaches side side' ∧ side'.endpoint.session.control = .idle ∧
      side'.endpoint.session.writeQueue = [] ∧ side'.incoming = side.incoming ∧
      side'.endpoint.tasks = side.endpoint.tasks := by
  have stepped := Session.step_updateThenWrite calm.endpoint.session inCode
  obtain ⟨middle, first, after, incoming, tasks⟩ :=
    reaches_silent answer side (.modify .ok) rfl rfl (by rintro ⟨⟩) rfl stepped rfl
  have calm' := calm_of_reaches calm first
  by_cases more : side.endpoint.session.writeQueue ≠ []
  · rw [if_pos more] at after
    obtain ⟨side', second, idle, empty, incoming', tasks'⟩ := idle_of_writeLoop answer calm' (by rw [after])
    exact ⟨side', first.trans second, idle, empty, incoming'.trans incoming, tasks'.trans tasks⟩
  · rw [if_neg more] at after
    obtain ⟨side', second, idle, queue', incoming', tasks'⟩ :=
      idle_of_updateAfterWrite answer calm' (by rw [after])
    refine ⟨side', first.trans second, idle, ?_, incoming'.trans incoming, tasks'.trans tasks⟩
    rw [queue', after]
    exact not_not.mp more

/-- After the reads. -/
theorem idle_of_afterRead (calm : side.Calm)
    {session : Session H} (next : Session.AfterRead session false side.endpoint.session.control) :
    ∃ side', (machine answer).Reaches side side' ∧ side'.endpoint.session.control = .idle ∧
      side'.incoming = side.incoming := by
  generalize place : side.endpoint.session.control = control at next
  cases next with
  | write queued =>
      obtain ⟨side', reaches, idle, _, incoming, _⟩ := idle_of_writeLoop answer calm place
      exact ⟨side', reaches, idle, incoming⟩
  | update =>
      obtain ⟨side', reaches, idle, _, incoming, _⟩ := idle_of_updateAfterWrite answer calm place
      exact ⟨side', reaches, idle, incoming⟩
  | done none => exact ⟨side, Machine.Reaches.refl side, place, rfl⟩

/-- In the parse loop: message by message, the buffer is used up. -/
theorem idle_of_parseLoop (calm : side.Calm)
    {events : Events} (inLoop : side.endpoint.session.control = .parseLoop events) :
    ∃ side', (machine answer).Reaches side side' ∧ side'.endpoint.session.control = .idle ∧
      side'.incoming = side.incoming := by
  induction size_eq : side.endpoint.session.readBuffer.length using Nat.strong_induction_on
    generalizing side with
  | _ size ih =>
      have read : readFrom side.incoming (Action.parse : Action H).chunk = some side.incoming :=
        readFrom_nil _
      cases popped : popMessage side.endpoint.session.readBuffer with
      | bad reason => exact absurd popped (calm.clean.pop_ne_bad reason)
      | needMore =>
          obtain ⟨control, next, stepped⟩ := Session.step_parsedAll calm.endpoint.session inLoop popped
          obtain ⟨middle, first, after, incoming, _⟩ :=
            reaches_inside answer side .parse rfl rfl (by rintro ⟨⟩) read stepped
          obtain ⟨side', second, idle, incoming'⟩ :=
            idle_of_afterRead answer (calm_of_reaches calm first) (by rw [after]; exact next)
          exact ⟨side', first.trans second, idle, incoming'.trans incoming⟩
      | item message rest =>
          have stepped := Session.step_parseItem calm.endpoint.session inLoop popped
          obtain ⟨middle, first, after, incoming, _⟩ :=
            reaches_inside answer side .parse rfl rfl (by rintro ⟨⟩) read stepped
          have shorter := popMessage_shrinks popped
          obtain ⟨side', second, idle, incoming'⟩ := ih rest.length (by rw [← size_eq]; exact shorter)
            (calm_of_reaches calm first) (by rw [after]; exact inLoop) (by rw [after])
          exact ⟨side', first.trans second, idle, incoming'.trans incoming⟩

/-- In the read loop: chunk by chunk, everything on the way is read. -/
theorem idle_of_recvLoop (calm : side.Calm)
    {events : Events} (inLoop : side.endpoint.session.control = .recvLoop events) :
    ∃ side', (machine answer).Reaches side side' ∧ side'.endpoint.session.control = .idle ∧
      side'.incoming = [] := by
  induction size_eq : side.incoming.length using Nat.strong_induction_on generalizing side with
  | _ size ih =>
      by_cases nothing : side.incoming = []
      · have stepped : side.endpoint.session.step (.recv (.error .eagain)) =
            some ({ side.endpoint.session with control := .parseLoop events }, []) := by
          unfold Session.step
          simp only [inLoop, RecvResult.possible, Session.asyncReadRecv, if_true]
        obtain ⟨middle, first, after, incoming, _⟩ := reaches_silent answer side (.recv (.error .eagain))
          (by rw [Action.settling, nothing]; rfl) rfl (by rintro ⟨⟩) rfl stepped rfl
        obtain ⟨side', second, idle, incoming'⟩ :=
          idle_of_parseLoop answer (calm_of_reaches calm first) (by rw [after])
        exact ⟨side', first.trans second, idle, by rw [incoming', incoming, nothing]⟩
      · -- as much as the local buffer holds
        have positive := List.length_pos_of_ne_nil nothing
        have held : side.incoming.take kChunkSize ++ side.incoming.drop kChunkSize = side.incoming :=
          List.take_append_drop _ _
        have possible : (RecvResult.data (side.incoming.take kChunkSize)).possible = true := by
          rw [RecvResult.possible, decide_eq_true_iff, List.length_take, kChunkSize]
          omega
        have stepped : side.endpoint.session.step (.recv (.data (side.incoming.take kChunkSize))) =
            some ({ side.endpoint.session with
              readBuffer := side.endpoint.session.readBuffer ++ side.incoming.take kChunkSize },
              [.received (side.incoming.take kChunkSize)]) := by
          unfold Session.step
          simp only [inLoop, possible, Session.asyncReadRecv, if_true]
        have read : readFrom side.incoming
          (Action.recv (.data (side.incoming.take kChunkSize)) : Action H).chunk =
            some (side.incoming.drop kChunkSize) := by
          have read := readFrom_append (side.incoming.take kChunkSize) (side.incoming.drop kChunkSize)
          rwa [held] at read
        obtain ⟨middle, first, after, incoming, _⟩ :=
          reaches_inside answer side (.recv (.data _)) rfl rfl (by rintro ⟨⟩) read stepped
        have shorter : (side.incoming.drop kChunkSize).length < size := by
          rw [← size_eq, List.length_drop, kChunkSize]
          omega
        obtain ⟨side', second, idle, done⟩ := ih _ shorter (calm_of_reaches calm first)
          (by rw [after]; exact inLoop) (by rw [incoming])
        exact ⟨side', first.trans second, idle, done⟩

/-- **Wherever the loop thread is, it can come back between callbacks.** -/
theorem exists_idle (calm : side.Calm) :
    ∃ side', (machine answer).Reaches side side' ∧ side'.endpoint.session.control = .idle := by
  have quiet := calm.endpoint.session.place
  cases place : side.endpoint.session.control with
  | idle => exact ⟨side, Machine.Reaches.refl side, place⟩
  | recvLoop events =>
      obtain ⟨side', reaches, idle, _⟩ := idle_of_recvLoop answer calm place
      exact ⟨side', reaches, idle⟩
  | parseLoop events =>
      obtain ⟨side', reaches, idle, _⟩ := idle_of_parseLoop answer calm place
      exact ⟨side', reaches, idle⟩
  | updateThenWrite =>
      obtain ⟨side', reaches, idle, _⟩ := idle_of_updateThenWrite answer calm place
      exact ⟨side', reaches, idle⟩
  | writeLoop rdhup =>
      rw [place] at quiet
      obtain rfl : rdhup = false := Control.rdhup_of_calm quiet
      obtain ⟨side', reaches, idle, _⟩ := idle_of_writeLoop answer calm place
      exact ⟨side', reaches, idle⟩
  | updateAfterWrite rdhup =>
      rw [place] at quiet
      obtain rfl : rdhup = false := Control.rdhup_of_calm quiet
      obtain ⟨side', reaches, idle, _⟩ := idle_of_updateAfterWrite answer calm place
      exact ⟨side', reaches, idle⟩
  | failLoop error | closeLoop | thrown =>
      rw [place] at quiet
      cases quiet

/-- Everything on the way is read, once all tasks have been run. -/
theorem exists_read (calm : side.Calm)
    (idle : side.endpoint.session.control = .idle) (noTasks : side.endpoint.tasks = []) :
    ∃ side', (machine answer).Reaches side side' ∧ side'.endpoint.session.control = .idle ∧
      side'.incoming = [] := by
  by_cases nothing : side.incoming = []
  · exact ⟨side, Machine.Reaches.refl side, idle, nothing⟩
  · have session := calm.endpoint.session
    have asked : side.endpoint.session.interest = some side.endpoint.session.wantedEvents :=
      session.armed.interest session.opened (by rw [idle]; rfl)
    have settling : (Action.handleEvents { in_ := true } : Action H).settling side.endpoint.session
        side.incoming = true := by
      simp [Action.settling, nothing, asked, Session.wantedEvents]
    obtain ⟨entered, first, after, _⟩ := reaches_silent answer side _ settling rfl (fun _ => noTasks) rfl
      (Session.step_readable session idle) rfl
    obtain ⟨side', second, idle', read⟩ :=
      idle_of_recvLoop answer (calm_of_reaches calm first) (by rw [after])
    exact ⟨side', first.trans second, idle', read⟩

/-- A posted task is run. -/
theorem exists_ran (calm : side.Calm)
    (idle : side.endpoint.session.control = .idle) {task : Task H} {tasks : List (Task H)}
    (posted : side.endpoint.tasks = task :: tasks) :
    ∃ side', (machine answer).Reaches side side' ∧ side'.endpoint.session.control = .idle ∧
      side'.endpoint.session.writeQueue = [] ∧ side'.incoming = side.incoming ∧
      side'.endpoint.tasks = tasks := by
  cases task with
  | close => exact absurd (by rw [posted]; exact List.mem_cons_self) calm.endpoint.noClose
  | send message handler =>
      have stepped := Session.step_sendTask calm.endpoint.session.opened idle (frameOf message) handler
      have taken : (machine answer).step side (.run 0) = some
          { endpoint := (side.endpoint.advance tasks [message] ({ side.endpoint.session with
              writeQueue :=
                side.endpoint.session.writeQueue ++ [{ bytes := frameOf message, handler := handler }]
              control := .updateThenWrite }, [.queued (frameOf message) handler])).1
            incoming := side.incoming, outgoing := side.outgoing } := by
        have silent : delivered [Effect.queued (frameOf message) handler] = [] := rfl
        unfold machine Side.step
        simp only [Endpoint.Label.settling, Endpoint.Label.chunk, readFrom_nil, Endpoint.step, posted,
          decide_true, List.getElem?_cons_zero, Task.action, stepped, Option.map_some,
          List.eraseIdx_cons_zero, if_true,
          Endpoint.advance, silent, List.foldl_nil, accepted_queued, List.append_nil, Task.message]
      have first := Machine.Reaches.of_step taken
      obtain ⟨side', second, idle', empty, incoming, same⟩ :=
        idle_of_updateThenWrite answer (calm_of_reaches calm first) rfl
      exact ⟨side', first.trans second, idle', empty, incoming, same⟩

/-- Task by task, all are run. -/
theorem exists_ran_all (calm : side.Calm)
    (idle : side.endpoint.session.control = .idle) :
    ∃ side', (machine answer).Reaches side side' ∧ side'.endpoint.session.control = .idle ∧
      side'.incoming = side.incoming ∧ side'.endpoint.tasks = [] := by
  induction posted : side.endpoint.tasks generalizing side with
  | nil => exact ⟨side, Machine.Reaches.refl side, idle, rfl, posted⟩
  | cons task tasks ih =>
      obtain ⟨middle, first, idle', _, incoming, rest⟩ := exists_ran answer calm idle posted
      obtain ⟨side', second, idle'', incoming', none⟩ := ih (calm_of_reaches calm first) idle' rest
      exact ⟨side', first.trans second, idle'', incoming'.trans incoming, none⟩

/-- What is queued is written, once all tasks have been run. -/
theorem exists_written (calm : side.Calm)
    (idle : side.endpoint.session.control = .idle) (noTasks : side.endpoint.tasks = []) :
    ∃ side', (machine answer).Reaches side side' ∧ side'.endpoint.session.control = .idle ∧
      side'.endpoint.session.writeQueue = [] ∧ side'.incoming = side.incoming ∧
      side'.endpoint.tasks = [] := by
  by_cases queued : side.endpoint.session.writeQueue = []
  · exact ⟨side, Machine.Reaches.refl side, idle, queued, rfl, noTasks⟩
  · have session := calm.endpoint.session
    have asked : side.endpoint.session.interest = some side.endpoint.session.wantedEvents :=
      session.armed.interest session.opened (by rw [idle]; rfl)
    have settling : (Action.handleEvents { out := true } : Action H).settling side.endpoint.session
        side.incoming = true := by
      simp [Action.settling, asked, Session.wantedEvents, queued]
    obtain ⟨middle, first, after, incoming, tasks⟩ := reaches_silent answer side _ settling rfl
      (fun _ => noTasks) rfl (Session.step_writable session idle queued) rfl
    obtain ⟨side', second, idle', empty, incoming', tasks'⟩ :=
      idle_of_writeLoop answer (calm_of_reaches calm first) (by rw [after])
    exact ⟨side', first.trans second, idle', empty, incoming'.trans incoming,
      (tasks'.trans tasks).trans noTasks⟩

/-- **A calm side can always come to rest**, with everything read that was on the way to it. The tasks come
before the bytes, and those that the bytes bring after them. -/
theorem exists_rest (calm : side.Calm) :
    ∃ side', (machine answer).Reaches side side' ∧ side'.endpoint.AtRest ∧ side'.incoming = [] := by
  obtain ⟨between, toIdle, idle⟩ := exists_idle answer calm
  have calm₁ := calm_of_reaches calm toIdle
  obtain ⟨ran, toRan, idle₁, _, noTasks₁⟩ := exists_ran_all answer calm₁ idle
  have calm₂ := calm_of_reaches calm₁ toRan
  obtain ⟨read, toRead, idle₂, nothing⟩ := exists_read answer calm₂ idle₁ noTasks₁
  have calm₃ := calm_of_reaches calm₂ toRead
  obtain ⟨ran', toRan', idle₃, same, noTasks₂⟩ := exists_ran_all answer calm₃ idle₂
  have calm₄ := calm_of_reaches calm₃ toRan'
  obtain ⟨side', toWritten, idle₄, empty, same', noTasks₃⟩ := exists_written answer calm₄ idle₃ noTasks₂
  have calm₅ := calm_of_reaches calm₄ toWritten
  refine ⟨side', toIdle.trans (toRan.trans (toRead.trans (toRan'.trans toWritten))), ?_, by
    rw [same', same, nothing]⟩
  exact ⟨calm₅.endpoint.session.opened, idle₄, noTasks₃, empty⟩

end Side

end Insist.MiniRpc
