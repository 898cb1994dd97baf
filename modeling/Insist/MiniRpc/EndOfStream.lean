/-
**The end of the stream.**

`Incoming` is the receiving half of the kernel's socket: bytes the peer has written arrive in order, then
perhaps the end of the stream; `recv` answers from what has arrived. `async_read` closes the session as
soon as `recv` returns 0, before it looks at the bytes read earlier in the same pass, while the
documentation has the message handler run after every complete message.

* `delivers_all_iff` — when the close handler runs, every message of the stream has been handed out
  exactly if the pass that met the end of the stream had read no bytes before it;
* `loses_message_with_eof` — a run that loses the only message of its stream.
-/
import Insist.MiniRpc.Receive
import Mathlib.Data.List.TakeWhile

namespace Insist.MiniRpc

open Lib

variable {H : Type}

/-! ### The socket -/

/-- The receiving half of the kernel's socket, of a peer that shuts down its side after writing. -/
structure Incoming where
  /-- Written by the peer, not yet here. -/
  inFlight : List UInt8
  /-- Here, not yet read. -/
  arrived : List UInt8 := []
  /-- The end of the stream has arrived. -/
  finished : Bool := false
deriving DecidableEq, Repr

namespace Incoming

/-- What the socket and `epoll_wait` can answer: reads return what has arrived, in order; `EAGAIN` is
for an empty socket that may still get more; `EPOLLRDHUP` comes after the end of the stream has arrived,
and together with `EPOLLIN`. There is no fault of the socket and no call of `close`. -/
def allows (incoming : Incoming) : Endpoint.Label H → Bool
  | .session (.handleEvents events) =>
      !events.err && !events.hup && (!events.rdhup || incoming.finished && events.in_)
  | .session (.recv (.data chunk)) => chunk.isPrefixOf incoming.arrived
  | .session (.recv .eof) => incoming.arrived.isEmpty && incoming.finished
  | .session (.recv (.error .eagain)) => incoming.arrived.isEmpty && !incoming.finished
  | .session (.recv (.error errno)) | .session (.send (.error errno)) => errno.transient
  | .close => false
  | _ => true

/-- What is left after a read. -/
def after (incoming : Incoming) : Endpoint.Label H → Incoming
  | .session (.recv (.data chunk)) => { incoming with arrived := incoming.arrived.drop chunk.length }
  | _ => incoming

@[simp]
theorem after_finished (incoming : Incoming) (label : Endpoint.Label H) :
    (incoming.after label).finished = incoming.finished := by
  unfold after
  split <;> rfl

@[simp]
theorem after_inFlight (incoming : Incoming) (label : Endpoint.Label H) :
    (incoming.after label).inFlight = incoming.inFlight := by
  unfold after
  split <;> rfl

end Incoming

/-- A session and the stream that comes to it. -/
structure Inbound (H : Type) where
  endpoint : Endpoint H
  incoming : Incoming
deriving DecidableEq, Repr

namespace Inbound

/-- What can happen. -/
inductive Label (H : Type)
  /-- Some of the bytes in flight arrive. -/
  | arrive (count : ℕ)
  /-- The end of the stream arrives, after the last byte. -/
  | finish
  | endpoint (label : Endpoint.Label H)
deriving DecidableEq, Repr

/-- A session that has just been started, and a peer that writes `stream` and shuts down its side. -/
def start (fd : ℕ) (stream : List UInt8) : Inbound H :=
  { endpoint := .started fd, incoming := { inFlight := stream } }

/-- One step. -/
def step (inbound : Inbound H) : Label H → Option (Inbound H)
  | .arrive count =>
      let incoming := inbound.incoming
      some { inbound with incoming := { incoming with
        arrived := incoming.arrived ++ incoming.inFlight.take count
        inFlight := incoming.inFlight.drop count } }
  | .finish =>
      if inbound.incoming.inFlight = [] then
        some { inbound with incoming := { inbound.incoming with finished := true } }
      else none
  | .endpoint label =>
      if inbound.incoming.allows label then
        (Endpoint.machine.step inbound.endpoint label).map fun endpoint =>
          { endpoint := endpoint, incoming := inbound.incoming.after label }
      else none

def machine : Machine (Inbound H) (Label H) where
  step := step

end Inbound

/-! ### Reading the trace -/

def Effect.isEof : Effect H → Bool
  | .eof => true
  | _ => false

/-- What happened before `recv` returned 0. -/
def beforeEof (trace : List (Effect H)) : List (Effect H) :=
  trace.takeWhile fun effect => !effect.isEof

/-- What happened before the close handler ran. -/
def beforeClose (trace : List (Effect H)) : List (Effect H) :=
  trace.takeWhile fun effect => !effect.isClose

/-- The bytes read so far in the current pass, after some that were read before. -/
def passBytesFrom (bytes : List UInt8) (trace : List (Effect H)) : List UInt8 :=
  trace.foldl (fun bytes effect =>
    match effect with
    | .dispatched => []
    | .received chunk => bytes ++ chunk
    | _ => bytes) bytes

/-- The bytes read since the loop last entered `handle_events`. -/
def passBytes (trace : List (Effect H)) : List UInt8 :=
  passBytesFrom [] trace

theorem passBytes_append (first second : List (Effect H)) :
    passBytes (first ++ second) = passBytesFrom (passBytes first) second :=
  List.foldl_append

theorem takeWhile_append_of_mem {α : Type*} {test : α → Bool} {first second : List α}
    {element : α} (member : element ∈ first) (stops : test element = false) :
    (first ++ second).takeWhile test = first.takeWhile test := by
  induction first with
  | nil => cases member
  | cons head rest ih =>
      rw [List.cons_append]
      cases tested : test head with
      | false => simp [tested]
      | true =>
          have later : element ∈ rest := by
            rcases List.mem_cons.mp member with rfl | later
            · rw [tested] at stops
              cases stops
            · exact later
          rw [List.takeWhile_cons_of_pos tested, List.takeWhile_cons_of_pos tested, ih later]

theorem beforeEof_append {trace : List (Effect H)} (seen : .eof ∈ trace)
    (effects : List (Effect H)) : beforeEof (trace ++ effects) = beforeEof trace :=
  takeWhile_append_of_mem seen rfl

/-- Effects that hand out nothing do not change what was handed out before the close handler. -/
theorem delivered_beforeClose_append {trace effects : List (Effect H)}
    (nothing : delivered effects = []) (same : delivered (beforeClose trace) = delivered trace) :
    delivered (beforeClose (trace ++ effects)) = delivered (trace ++ effects) := by
  rw [delivered_append, nothing, List.append_nil, ← same, beforeClose, beforeClose,
    List.takeWhile_append]
  split_ifs with whole
  · have all : trace.takeWhile (fun effect => !effect.isClose) = trace :=
      (List.takeWhile_prefix _).eq_of_length whole
    have later : delivered (effects.takeWhile fun effect => !effect.isClose) = [] :=
      List.flatMap_eq_nil_iff.mpr fun effect member =>
        List.flatMap_eq_nil_iff.mp nothing effect ((List.takeWhile_sublist _).subset member)
    rw [delivered_append, later, List.append_nil, all]
  · rfl

/-- Effects that are not reads leave the pass as it is. -/
theorem passBytesFrom_of_silent {effects : List (Effect H)} (bytes : List UInt8)
    (silent : ∀ effect ∈ effects, ∃ handler error, effect = .write handler error) :
    passBytesFrom bytes effects = bytes := by
  induction effects with
  | nil => rfl
  | cons effect rest ih =>
      obtain ⟨⟨handler, error, rfl⟩, later⟩ := List.forall_mem_cons.mp silent
      exact ih later

/-! ### The invariant -/

/-- How a session stands to a stream of good frames, all of which `sent` decodes. -/
structure Drains (stream : List UInt8) (sent : List RpcMessage) (session : Session H)
    (trace : List (Effect H)) (incoming : Incoming) : Prop where
  receives : ∃ residue, Receives session trace residue
  conserved : received trace ++ (incoming.arrived ++ incoming.inFlight) = stream
  complete : incoming.finished = true → incoming.inFlight = []
  unfailed : ∀ reason, .failed reason ∉ trace
  rdhup : session.control.rdhup = true →
    incoming.finished = true ∧ ∃ events, session.control = .recvLoop events
  /-- At the start of a pass, everything before it had been parsed. -/
  pass : ∀ events, session.control = .recvLoop events →
    ∃ earlier residue, received trace = earlier ++ passBytes trace ∧
      messages.Parses earlier (delivered trace) residue ∧ popMessage residue = .needMore
  opened : session.open_ = true → ∀ effect ∈ trace, effect ≠ .eof ∧ effect ≠ .close
  closed : session.open_ = false →
    .eof ∈ trace ∧ (delivered trace = sent ↔ passBytes (beforeEof trace) = [])
  beforeClose : delivered (beforeClose trace) = delivered trace

theorem start_drains (fd : ℕ) (stream : List UInt8) (sent : List RpcMessage) :
    Drains stream sent (Session.started fd : Session H) [] { inFlight := stream } where
  receives := ⟨[], started_receives fd⟩
  conserved := rfl
  complete := by simp
  unfailed := by simp
  rdhup := by simp [Session.started, Control.rdhup]
  pass := by simp [Session.started]
  opened := by simp
  closed := by simp [Session.started]
  beforeClose := rfl

namespace Drains

variable {stream : List UInt8} {sent : List RpcMessage} {session session' : Session H}
  {trace effects : List (Effect H)} {incoming : Incoming}

/-- A session that has met the end of the stream only runs write handlers and its close handler. -/
theorem step_closed (holds : Drains stream sent session trace incoming)
    (closed : session.open_ = false) (closed' : session'.open_ = false)
    (notReading : session'.control.rdhup = false ∧ ∀ events, session'.control ≠ .recvLoop events)
    (receives : ∃ residue, Receives session' (trace ++ effects) residue)
    (quiet : ∀ effect ∈ effects, (∃ handler error, effect = .write handler error) ∨ effect = .close) :
    Drains stream sent session' (trace ++ effects) incoming := by
  have silent : ∀ effect ∈ effects, effect.silent = true := by
    intro effect member
    rcases quiet effect member with ⟨handler, error, rfl⟩ | rfl <;> rfl
  obtain ⟨seen, same⟩ := holds.closed closed
  constructor
  case receives => exact receives
  case conserved => simpa [received_of_silent silent] using holds.conserved
  case complete => exact holds.complete
  case unfailed =>
    intro reason member
    rcases List.mem_append.mp member with old | new
    · exact holds.unfailed reason old
    · cases silent _ new
  case rdhup => simp [notReading.1]
  case pass => exact fun events place => absurd place (notReading.2 events)
  case opened => simp [closed']
  case closed =>
    intro _
    rw [beforeEof_append seen, delivered_append, delivered_of_silent silent, List.append_nil]
    exact ⟨List.mem_append_left _ seen, same⟩
  case beforeClose =>
    exact delivered_beforeClose_append (delivered_of_silent silent) holds.beforeClose

/-- **`recv` returns 0**: what the pass has read is never parsed. -/
theorem step_eof (frames : messages.Parses stream sent []) (holds : Drains stream sent session trace incoming)
    (opened : session.open_ = true) {events : Events} (inLoop : session.control = .recvLoop events)
    (drained : incoming.arrived = []) (finished : incoming.finished = true)
    (receives : ∃ residue, Receives session.closing
      (trace ++ [Effect.eof, .socketClosed session.socketFd session.registered]) residue) :
    Drains stream sent session.closing
      (trace ++ [Effect.eof, .socketClosed session.socketFd session.registered]) incoming := by
  have nothing : delivered [.eof, (.socketClosed session.socketFd session.registered : Effect H)] = [] :=
    rfl
  have noReads : received [.eof, (.socketClosed session.socketFd session.registered : Effect H)] = [] :=
    rfl
  have whole : received trace = stream := by
    have := holds.conserved
    rwa [drained, holds.complete finished, List.append_nil, List.append_nil] at this
  have before : beforeEof (trace ++ [Effect.eof, .socketClosed session.socketFd session.registered]) =
      trace := by
    have all : ∀ effect ∈ trace, (!effect.isEof) = true := by
      intro effect member
      have := (holds.opened opened effect member).1
      cases effect <;> first | rfl | exact absurd rfl this
    rw [beforeEof, List.takeWhile_append_of_pos all]
    simp [Effect.isEof]
  obtain ⟨earlier, residue, split, parsed, needMore⟩ := holds.pass events inLoop
  have all : delivered trace = sent ↔ passBytes trace = [] := by
    have partly : messages.Parses stream (delivered trace) (residue ++ passBytes trace) := by
      rw [← whole, split]
      exact parsed.append _
    constructor
    · intro same
      rw [same] at partly
      obtain ⟨later, same', rests⟩ :=
        frames.prefix_of_stuck (StreamParser.stuck_of_needMore rfl) partly
      obtain rfl : later = [] := by simpa using same'
      exact (List.append_eq_nil_iff.mp rests.eq_rest).2
    · intro nothingRead
      rw [nothingRead, List.append_nil] at partly
      exact (partly.eq_of_stuck (StreamParser.stuck_of_needMore needMore) frames
        (StreamParser.stuck_of_needMore rfl)).1
  constructor
  case receives => exact receives
  case conserved => simpa [noReads] using holds.conserved
  case complete => exact holds.complete
  case unfailed => simpa using holds.unfailed
  case rdhup => simp [Session.closing, Control.rdhup]
  case pass => simp [Session.closing]
  case opened => simp [Session.closing]
  case closed =>
    intro _
    rw [before, delivered_append, nothing, List.append_nil]
    exact ⟨by simp, all⟩
  case beforeClose => exact delivered_beforeClose_append nothing holds.beforeClose

/-- What is read is taken from what has arrived. -/
theorem conserved_step (holds : Drains stream sent session trace incoming) {action : Action H}
    (allowed : incoming.allows (.session action) = true)
    (moves : Session.Moves session action session' effects) :
    received (trace ++ effects) ++ ((incoming.after (.session action)).arrived ++ incoming.inFlight) =
      stream := by
  rw [received_append, moves.received_eq]
  cases action with
  | recv result =>
      cases result with
      | data chunk =>
          obtain ⟨later, same⟩ : chunk <+: incoming.arrived := List.isPrefixOf_iff_prefix.mp allowed
          have := holds.conserved
          rw [← same] at this
          simpa [Incoming.after, Action.chunk, ← same] using this
      | _ => simpa [Incoming.after, Action.chunk] using holds.conserved
  | _ => simpa [Incoming.after, Action.chunk] using holds.conserved

/-- Neither the socket nor the stream is a reason to fail. -/
theorem unfailed_step (frames : messages.Parses stream sent [])
    (holds : Drains stream sent session trace incoming) {action : Action H}
    (allowed : incoming.allows (.session action) = true)
    (moves : Session.Moves session action session' effects) {residue : List UInt8}
    (receives : Receives session' (trace ++ effects) residue) :
    ∀ reason, .failed reason ∉ trace ++ effects := by
  intro reason member
  rcases List.mem_append.mp member with old | new
  · exact holds.unfailed reason old
  · have notBad : popMessage residue ≠ .bad reason := by
      rw [← holds.conserved_step allowed moves] at frames
      exact frames.pop_ne_bad rfl receives.parsed reason
    rcases moves.failed_cause new with ⟨code, _, rfl | rfl⟩ | bad
    · simp [Incoming.allows, Errno.transient] at allowed
    · simp [Incoming.allows, Errno.transient] at allowed
    · rcases receives.rejected reason member with ⟨errno, rfl⟩ | rejected
      · rcases bad with bad | bad <;> cases bad
      · exact notBad rejected

/-- `EPOLLRDHUP` comes after the end of the stream, and is left for the end of a pass. -/
theorem rdhup_step (holds : Drains stream sent session trace incoming) {action : Action H}
    (allowed : incoming.allows (.session action) = true)
    (moves : Session.Moves session action session' effects) (asked : session'.control.rdhup = true) :
    incoming.finished = true ∧ ∃ events, session'.control = .recvLoop events := by
  have fin : incoming.finished = true := by
    rcases moves.rdhup_cause asked with earlier | ⟨events, rfl, now⟩
    · exact (holds.rdhup earlier).1
    · simp only [Incoming.allows, now, Bool.and_eq_true, Bool.not_true, Bool.false_or] at allowed
      exact allowed.2.1
  refine ⟨fin, ?_⟩
  rcases moves.rdhup_place asked with there | rfl | ⟨events, rfl, unreadable, now⟩ |
    ⟨earlier, elsewhere⟩
  · exact there
  · simp [Incoming.allows, fin] at allowed
  · simp [Incoming.allows, now, unreadable] at allowed
  · obtain ⟨_, events, inLoop⟩ := holds.rdhup earlier
    exact absurd inLoop (elsewhere events)

/-- A pass begins with nothing left to parse. -/
theorem pass_step (holds : Drains stream sent session trace incoming) (before : session.open_ = true)
    {action : Action H} (moves : Session.Moves session action session' effects) {events : Events}
    (inLoop : session'.control = .recvLoop events) :
    ∃ earlier residue, received (trace ++ effects) = earlier ++ passBytes (trace ++ effects) ∧
      messages.Parses earlier (delivered (trace ++ effects)) residue ∧ popMessage residue = .needMore := by
  rcases moves.to_recvLoop inLoop with ⟨idle, rfl⟩ | ⟨inLoop, rfl | ⟨chunk, rfl⟩⟩
  · obtain ⟨residue, receives⟩ := holds.receives
    have serving : session.Serving := ⟨before, by simp [idle]⟩
    refine ⟨received trace, residue, ?_, ?_, receives.settled serving (by rw [idle]; rfl)⟩
    · simp [passBytes_append, passBytesFrom, received]
    · simpa [delivered] using receives.parsed
  · simpa using holds.pass events inLoop
  · obtain ⟨earlier, residue, split, parsed, needMore⟩ := holds.pass events inLoop
    refine ⟨earlier, residue, ?_, by simpa [delivered] using parsed, needMore⟩
    rw [received_append, split, passBytes_append, List.append_assoc]
    simp [passBytesFrom, received]

/-- **A session that stays open.** -/
theorem step_open (frames : messages.Parses stream sent [])
    (holds : Drains stream sent session trace incoming) (wf : session.Wf) {action : Action H}
    (allowed : incoming.allows (.session action) = true)
    (moves : Session.Moves session action session' effects) (opened : session'.open_ = true)
    (receives : ∃ residue, Receives session' (trace ++ effects) residue) :
    Drains stream sent session' (trace ++ effects) (incoming.after (.session action)) := by
  obtain ⟨before, clean⟩ := moves.of_open wf opened
  have noEnd : ∀ effect ∈ trace ++ effects, effect ≠ .eof ∧ effect ≠ .close := by
    intro effect member
    rcases List.mem_append.mp member with old | new
    · exact holds.opened before effect old
    · exact clean effect new
  obtain ⟨residue, received⟩ := receives
  constructor
  case receives => exact ⟨residue, received⟩
  case conserved =>
    rw [Incoming.after_inFlight]
    exact holds.conserved_step allowed moves
  case complete =>
    rw [Incoming.after_finished, Incoming.after_inFlight]
    exact holds.complete
  case unfailed => exact holds.unfailed_step frames allowed moves received
  case rdhup =>
    intro asked
    rw [Incoming.after_finished]
    exact holds.rdhup_step allowed moves asked
  case pass => exact fun events inLoop => holds.pass_step before moves inLoop
  case opened => exact fun _ => noEnd
  case closed => simp [opened]
  case beforeClose =>
    have all : ∀ effect ∈ trace ++ effects, (!effect.isClose) = true := by
      intro effect member
      have := (noEnd effect member).2
      cases effect <;> first | rfl | exact absurd rfl this
    rw [MiniRpc.beforeClose, List.takeWhile_eq_self_iff.mpr all]

/-- **Every move that the socket allows keeps the invariant.** -/
theorem step (frames : messages.Parses stream sent [])
    (holds : Drains stream sent session trace incoming) (wf : session.Wf) {action : Action H}
    (allowed : incoming.allows (.session action) = true) (notClose : action ≠ .closeTask)
    (moves : Session.Moves session action session' effects) :
    Drains stream sent session' (trace ++ effects) (incoming.after (.session action)) := by
  obtain ⟨residue, receives⟩ := holds.receives
  have receives' := receives.step wf moves
  cases before : session.open_ with
  | false =>
      obtain ⟨closed', quiet⟩ := moves.of_closed wf before
      have wf' := moves.wf wf
      have notRunning : ¬ session'.control.running = true := by
        intro running
        rw [wf'.open_of_running running] at closed'
        cases closed'
      have same : incoming.after (.session action) = incoming := by
        have nothing : action.chunk = [] := by
          rw [← moves.received_eq]
          refine received_of_silent fun effect member => ?_
          rcases quiet effect member with ⟨handler, error, rfl⟩ | rfl <;> rfl
        unfold Incoming.after
        split
        case h_1 chunk same =>
          cases same
          obtain rfl : chunk = [] := nothing
          rfl
        case h_2 => rfl
      rw [same]
      refine holds.step_closed before closed' ⟨?_, fun events place => ?_⟩ receives' quiet
      · cases place : session'.control <;> first | rfl | exact absurd (by rw [place]; rfl) notRunning
      · exact notRunning (by rw [place]; rfl)
  | true =>
      cases after : session'.open_ with
      | true => exact holds.step_open frames wf allowed moves after receives'
      | false =>
          rcases moves.closing_cause before after with rfl | ⟨events, rfl, why⟩ | rfl |
            ⟨asked, elsewhere⟩ | ⟨error, failing⟩
          · exact absurd rfl notClose
          · simp only [Incoming.allows, Bool.and_eq_true, Bool.not_eq_true', Bool.or_eq_true] at allowed
            rcases why with err | hup | ⟨unreadable, rdhup⟩
            · simp [err] at allowed
            · simp [hup] at allowed
            · simp [unreadable, rdhup] at allowed
          · obtain ⟨⟨events, inLoop⟩, rfl, rfl⟩ := moves.eof
            simp only [Incoming.allows, Bool.and_eq_true, List.isEmpty_iff] at allowed
            exact holds.step_eof frames before inLoop allowed.1 allowed.2 receives'
          · obtain ⟨finished, events, inLoop⟩ := holds.rdhup asked
            exact absurd inLoop (elsewhere events)
          · exact absurd (receives.failing error failing) (holds.unfailed error)

end Drains

/-- The invariant of an inbound stream. -/
structure Inbound.Draining (stream : List UInt8) (sent : List RpcMessage) (inbound : Inbound H) :
    Prop where
  wf : inbound.endpoint.session.Wf
  drains : Drains stream sent inbound.endpoint.session inbound.endpoint.trace inbound.incoming
  noClose : .close ∉ inbound.endpoint.tasks

/-- A write handler that `send` itself runs does not matter. -/
theorem Drains.rejected {stream : List UInt8} {sent : List RpcMessage} {session : Session H}
    {trace : List (Effect H)} {incoming : Incoming} (holds : Drains stream sent session trace incoming)
    (handler : Option H) :
    Drains stream sent session (trace ++ Session.invoke handler .messageSize) incoming := by
  have written : ∀ effect ∈ Session.invoke handler .messageSize,
      ∃ handler error, effect = Effect.write handler error := by
    cases handler <;> simp [Session.invoke]
  have silent := silent_invoke handler .messageSize
  have nothing := delivered_of_silent silent
  obtain ⟨residue, receives⟩ := holds.receives
  constructor
  case receives =>
    exact ⟨residue, receives.silent silent (fun serving => ⟨serving, rfl, Or.inl⟩) fun _ place => place⟩
  case conserved => simpa [received_of_silent silent] using holds.conserved
  case complete => exact holds.complete
  case unfailed =>
    intro reason member
    rcases List.mem_append.mp member with old | new
    · exact holds.unfailed reason old
    · cases silent _ new
  case rdhup => exact holds.rdhup
  case pass =>
    intro events inLoop
    rw [received_append, received_of_silent silent, List.append_nil, delivered_append, nothing,
      List.append_nil, passBytes_append, passBytesFrom_of_silent _ written]
    exact holds.pass events inLoop
  case opened =>
    intro opened effect member
    rcases List.mem_append.mp member with old | new
    · exact holds.opened opened effect old
    · obtain ⟨handler, error, rfl⟩ := written effect new
      simp
  case closed =>
    intro closed
    obtain ⟨seen, same⟩ := holds.closed closed
    rw [beforeEof_append seen, delivered_append, nothing, List.append_nil]
    exact ⟨List.mem_append_left _ seen, same⟩
  case beforeClose => exact delivered_beforeClose_append nothing holds.beforeClose

theorem Inbound.Draining.step {stream : List UInt8} {sent : List RpcMessage}
    {inbound inbound' : Inbound H} {label : Inbound.Label H}
    (frames : messages.Parses stream sent []) (holds : inbound.Draining stream sent)
    (stepped : Inbound.machine.step inbound label = some inbound') :
    inbound'.Draining stream sent := by
  cases label with
  | arrive count =>
      cases stepped
      refine ⟨holds.wf, ⟨holds.drains.receives, ?_, ?_, holds.drains.unfailed, holds.drains.rdhup,
        holds.drains.pass, holds.drains.opened, holds.drains.closed, holds.drains.beforeClose⟩,
        holds.noClose⟩
      · simpa using holds.drains.conserved
      · intro finished
        simp [holds.drains.complete finished]
  | finish =>
      simp only [machine, Inbound.step] at stepped
      split_ifs at stepped with empty
      cases stepped
      exact ⟨holds.wf, ⟨holds.drains.receives, holds.drains.conserved, fun _ => empty,
        holds.drains.unfailed, fun asked => ⟨rfl, (holds.drains.rdhup asked).2⟩, holds.drains.pass,
        holds.drains.opened, holds.drains.closed, holds.drains.beforeClose⟩, holds.noClose⟩
  | endpoint label =>
      simp only [machine, Inbound.step] at stepped
      split_ifs at stepped with allowed
      obtain ⟨endpoint, moved, rfl⟩ := Option.map_eq_some_iff.mp stepped
      obtain ⟨effects, moves⟩ := Endpoint.machine_step moved holds.wf
      refine ⟨moves.wf holds.wf, ?_, ?_⟩
      · cases moves with
        | @rejected message handler large => exact holds.drains.rejected handler
        | posted small => exact holds.drains
        | closePosted => cases allowed
        | @ran index task session effects posted moves =>
            cases task with
            | send message handler => exact holds.drains.step frames holds.wf rfl (by simp [Task.action]) moves
            | close => exact absurd (List.mem_of_getElem? posted) holds.noClose
        | inside notTask moves =>
            refine holds.drains.step frames holds.wf allowed ?_ moves
            rintro rfl
            cases notTask
      · cases moves with
        | rejected large => exact holds.noClose
        | posted small => simpa using holds.noClose
        | closePosted => cases allowed
        | ran posted moves => exact fun member => holds.noClose (List.mem_of_mem_eraseIdx member)
        | inside notTask moves => exact holds.noClose

theorem Inbound.run_draining {fd : ℕ} {stream : List UInt8} {sent : List RpcMessage}
    {labels : List (Inbound.Label H)} {final : Inbound H} (frames : messages.Parses stream sent [])
    (ran : Inbound.machine.run (.start fd stream) labels = some final) : final.Draining stream sent :=
  Machine.invariant_run (Inbound.Draining stream sent)
    (fun holds stepped => holds.step frames stepped)
    ⟨Session.started_wf fd, start_drains fd stream sent, by simp [Inbound.start, Endpoint.started]⟩ ran

/-- **Every message is handed out before the close handler runs exactly when the pass that meets the end
of the stream has read no bytes before it**: for every stream of complete frames of decodable messages
and every way its bytes and its end reach the session. -/
theorem delivers_all_iff {fd : ℕ} {stream : List UInt8} {sent : List RpcMessage}
    {labels : List (Inbound.Label H)} {final : Inbound H} (frames : FramesOf stream sent [])
    (ran : Inbound.machine.run (.start fd stream) labels = some final)
    (closed : .close ∈ final.endpoint.trace) :
    delivered (beforeClose final.endpoint.trace) = sent ↔
      passBytes (beforeEof final.endpoint.trace) = [] := by
  have drains := (Inbound.run_draining (parses_iff_framesOf.mpr frames) ran).drains
  rw [drains.beforeClose]
  cases opened : final.endpoint.session.open_ with
  | true => exact absurd rfl (drains.opened opened _ closed).2
  | false => exact (drains.closed opened).2

/-- A reply, and the stream of a peer that sends it and shuts down its side. -/
def lastReply : RpcMessage := { id := 1, kind := .response }

theorem lastReply_frames : FramesOf (frameOf lastReply) [lastReply] [] := by
  refine ⟨[ProtobufWireCodec.encode lastReply], by simp [frameOf], ?_, ?_⟩
  · rw [List.map_singleton, ProtobufWireCodec.decode_encode_of_nonneg (by decide)]
    rfl
  · decide +kernel

/-- The reply is read and parsed in one pass, the end of the stream is met in the next. -/
def replyThenEof : List (Inbound.Label ℕ) :=
  [.arrive 100, .endpoint (.session (.handleEvents { in_ := true })),
    .endpoint (.session (.recv (.data (frameOf lastReply)))),
    .endpoint (.session (.recv (.error .eagain))), .endpoint (.session .parse),
    .endpoint (.session .parse), .finish,
    .endpoint (.session (.handleEvents { in_ := true, rdhup := true })),
    .endpoint (.session (.recv .eof)), .endpoint (.session .drain)]

theorem replyThenEof_delivered :
    ∃ final, Inbound.machine.run (.start 5 (frameOf lastReply)) replyThenEof = some final ∧
      delivered (beforeClose final.endpoint.trace) = [lastReply] := by
  obtain ⟨final, ran, closed, empty⟩ :
      ∃ final, Inbound.machine.run (.start 5 (frameOf lastReply)) replyThenEof = some final ∧
        .close ∈ final.endpoint.trace ∧ passBytes (beforeEof final.endpoint.trace) = [] := by
    refine ⟨(Inbound.machine.run (.start 5 (frameOf lastReply)) replyThenEof).get (by decide +kernel),
      (Option.some_get _).symm, ?_⟩
    decide +kernel
  exact ⟨final, ran, (delivers_all_iff lastReply_frames ran closed).mpr empty⟩

/-- The reply and the end of the stream are met in one pass. -/
def replyWithEof : List (Inbound.Label ℕ) :=
  [.arrive 100, .finish, .endpoint (.session (.handleEvents { in_ := true, rdhup := true })),
    .endpoint (.session (.recv (.data (frameOf lastReply)))),
    .endpoint (.session (.recv .eof)), .endpoint (.session .drain)]

/-- **A reply that comes together with the end of the stream is lost.** -/
theorem loses_message_with_eof :
    ¬ ∀ (stream : List UInt8) (sent : List RpcMessage) (labels : List (Inbound.Label ℕ))
        (final : Inbound ℕ), FramesOf stream sent [] →
      Inbound.machine.run (.start 5 stream) labels = some final → .close ∈ final.endpoint.trace →
      delivered (beforeClose final.endpoint.trace) = sent := by
  intro always
  obtain ⟨final, ran, closed, lost⟩ :
      ∃ final, Inbound.machine.run (.start 5 (frameOf lastReply)) replyWithEof = some final ∧
        .close ∈ final.endpoint.trace ∧ delivered (beforeClose final.endpoint.trace) = [] := by
    refine ⟨(Inbound.machine.run (.start 5 (frameOf lastReply)) replyWithEof).get (by decide +kernel),
      (Option.some_get _).symm, ?_⟩
    decide +kernel
  have kept := always _ _ _ _ lastReply_frames ran closed
  rw [lost] at kept
  cases kept

end Insist.MiniRpc
