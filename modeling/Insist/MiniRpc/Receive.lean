/-
**The receiving side of a session.**

`Receives session trace residue` ties the session to the stream it has read so far: parsing everything
`recv` returned yields exactly the messages handed out and leaves `residue`, which is the read buffer
while the session serves its socket, and which the parse loop has found incomplete whenever the session
is not in `async_read`. `Receives.step` is the step lemma, and `Endpoint.Moves.receives` that of an endpoint.

`outcome_eq_maximalRun` compares the passes with the one-shot reading of the whole stream, whatever the
chunks.
-/
import Insist.MiniRpc.Endpoint

namespace Insist.MiniRpc

open Lib

variable {H : Type}

/-! ### What the trace says about the reads -/

/-- The bytes `recv` returned. -/
def received (trace : List (Effect H)) : List UInt8 :=
  trace.flatMap fun
    | .received bytes => bytes
    | _ => []

/-- The messages handed to the message handler. -/
def delivered (trace : List (Effect H)) : List RpcMessage :=
  trace.flatMap fun
    | .message message => [message]
    | _ => []

@[simp] theorem received_nil : received ([] : List (Effect H)) = [] := rfl

@[simp] theorem received_append (first second : List (Effect H)) :
    received (first ++ second) = received first ++ received second :=
  List.flatMap_append

@[simp] theorem delivered_nil : delivered ([] : List (Effect H)) = [] := rfl

@[simp] theorem delivered_append (first second : List (Effect H)) :
    delivered (first ++ second) = delivered first ++ delivered second :=
  List.flatMap_append

/-- Effects that tell nothing about the reads. -/
def Effect.silent : Effect H → Bool
  | .received _ | .message _ | .failed _ => false
  | _ => true

theorem received_of_silent {effects : List (Effect H)}
    (silent : ∀ effect ∈ effects, effect.silent = true) : received effects = [] := by
  refine List.flatMap_eq_nil_iff.mpr fun effect member => ?_
  have := silent effect member
  cases effect <;> first | rfl | cases this

theorem delivered_of_silent {effects : List (Effect H)}
    (silent : ∀ effect ∈ effects, effect.silent = true) : delivered effects = [] := by
  refine List.flatMap_eq_nil_iff.mpr fun effect member => ?_
  have := silent effect member
  cases effect <;> first | rfl | cases this

theorem silent_invoke (handler : Option H) (error : ErrorCode) :
    ∀ effect ∈ Session.invoke handler error, effect.silent = true := by
  cases handler with
  | none => simp [Session.invoke]
  | some handler => simp [Session.invoke, Effect.silent]

namespace Session

/-- Open, and not on the way to closing. -/
def Serving (session : Session H) : Prop :=
  session.open_ = true ∧ ∀ error, session.control ≠ .failLoop error

theorem Wf.serving {session : Session H} (wf : session.Wf) (running : session.control.running = true)
    (notFail : ∀ error, session.control ≠ .failLoop error) : session.Serving :=
  ⟨wf.open_of_running running, notFail⟩

theorem Wf.serving_of_reading {session : Session H} (wf : session.Wf)
    (reading : session.control.reading = true) : session.Serving := by
  refine wf.serving ?_ ?_
  · cases place : session.control <;> rw [place] at reading <;> first | rfl | cases reading
  · intro error place
    rw [place] at reading
    cases reading

theorem Wf.serving_of_update {session : Session H} (wf : session.Wf)
    (inCode : session.control = .updateThenWrite ∨ ∃ rdhup, session.control = .updateAfterWrite rdhup) :
    session.Serving :=
  wf.serving (running_of_update inCode) (ne_failLoop_of_update inCode)

theorem not_serving_of_failLoop {session : Session H} {error : ErrorCode}
    (failing : session.control = .failLoop error) : ¬ session.Serving :=
  fun serving => serving.2 error failing

theorem not_serving_of_closed {session : Session H} (closed : session.open_ = false) :
    ¬ session.Serving := by
  rintro ⟨opened, _⟩
  rw [closed] at opened
  cases opened

end Session

/-- The bytes an action brings. -/
def Action.chunk : Action H → List UInt8
  | .recv (.data chunk) => chunk
  | _ => []

theorem received_invoke (handler : Option H) (error : ErrorCode) :
    received (Session.invoke handler error) = [] :=
  received_of_silent (silent_invoke handler error)

/-- **What a move reads is what its action brings.** -/
theorem Session.Moves.received_eq {session session' : Session H} {action : Action H}
    {effects : List (Effect H)} (moves : Session.Moves session action session' effects) :
    MiniRpc.received effects = action.chunk := by
  cases moves with
  | dropped | failedFrame | closedFrame => exact received_invoke _ _
  | wroteAll => exact received_invoke _ _
  | jump opened jump => cases jump <;> rfl
  | received inLoop => exact List.append_nil _
  | socketError inLoop => rcases inLoop with ⟨_, _, rfl⟩ | ⟨_, _, rfl⟩ <;> rfl
  | closing opened cause => cases cause <;> rfl
  | _ => rfl

/-! ### The invariant -/

/-- How a session stands to the stream it has read so far. -/
structure Receives (session : Session H) (trace : List (Effect H)) (residue : List UInt8) : Prop where
  parsed : messages.Parses (received trace) (delivered trace) residue
  buffered : session.Serving → session.readBuffer = residue
  settled : session.Serving → session.control.reading = false → popMessage residue = .needMore
  rejected : ∀ reason, .failed reason ∈ trace →
    (∃ errno, reason = .system errno) ∨ popMessage residue = .bad reason
  failing : ∀ error, session.control = .failLoop error → .failed error ∈ trace
  stopped : session.Serving → ∀ reason, .failed reason ∉ trace

theorem started_receives (fd : ℕ) : Receives (Session.started fd : Session H) [] [] where
  parsed := .nil []
  buffered _ := rfl
  settled _ _ := rfl
  rejected := by simp
  failing := by simp [Session.started]
  stopped := by simp

namespace Receives

variable {session session' : Session H} {trace effects : List (Effect H)} {residue : List UInt8}

/-- A move that reads nothing, hands out nothing and does not fail. -/
theorem silent (holds : Receives session trace residue)
    (silent : ∀ effect ∈ effects, effect.silent = true)
    (kept : session'.Serving → session.Serving ∧ session'.readBuffer = session.readBuffer ∧
      (session'.control.reading = false → session.control.reading = false ∨
        tryPopFrame session.readBuffer = .needMore))
    (failing : ∀ error, session'.control = .failLoop error → session.control = .failLoop error) :
    Receives session' (trace ++ effects) residue := by
  have noFailure : ∀ reason, .failed reason ∈ trace ++ effects → .failed reason ∈ trace := by
    intro reason member
    rcases List.mem_append.mp member with old | new
    · exact old
    · cases silent _ new
  constructor
  case parsed =>
    rw [received_append, delivered_append, received_of_silent silent, delivered_of_silent silent,
      List.append_nil, List.append_nil]
    exact holds.parsed
  case buffered =>
    intro serving
    obtain ⟨serving, same, _⟩ := kept serving
    rw [same]
    exact holds.buffered serving
  case settled =>
    intro serving notReading
    obtain ⟨serving, _, before⟩ := kept serving
    rcases before notReading with notReading | needMore
    · exact holds.settled serving notReading
    · rw [← holds.buffered serving]
      exact popMessage_needMore needMore
  case rejected => exact fun reason member => holds.rejected reason (noFailure reason member)
  case failing =>
    exact fun error place => List.mem_append_left _ (holds.failing error (failing error place))
  case stopped =>
    exact fun serving reason member => holds.stopped (kept serving).1 reason (noFailure reason member)

/-- `fail_and_close` is entered from a serving session, for an error of the socket or one that the
parse loop has found. -/
theorem fail (holds : Receives session trace residue) (serving : session.Serving) {error : ErrorCode}
    (cause : (∃ errno, error = .system errno) ∨ popMessage residue = .bad error)
    (now : session'.control = .failLoop error) :
    Receives session' (trace ++ [Effect.failed error]) residue := by
  have notServing : ¬ session'.Serving := Session.not_serving_of_failLoop now
  constructor
  case parsed => simpa [received, delivered] using holds.parsed
  case buffered => exact fun serving => absurd serving notServing
  case settled => exact fun serving => absurd serving notServing
  case rejected =>
    intro reason member
    rcases List.mem_append.mp member with old | new
    · exact absurd old (holds.stopped serving reason)
    · obtain rfl := Effect.failed.inj (List.mem_singleton.mp new)
      exact cause
  case failing =>
    intro error' place
    rw [now] at place
    cases place
    simp
  case stopped => exact fun serving => absurd serving notServing

/-- A session that stops serving without a failure keeps its residue. -/
theorem close (holds : Receives session trace residue)
    (silent : ∀ effect ∈ effects, effect.silent = true) :
    Receives session.closing (trace ++ effects) residue :=
  holds.silent silent (fun serving => absurd serving (Session.not_serving_of_closed rfl))
    (fun _ place => by cases place)

/-- A session that goes on reading has not failed. -/
theorem read (holds : Receives session trace residue) (serving : session.Serving)
    (reading : session'.control.reading = true) (sound : ∀ reason, .failed reason ∉ effects)
    (parsed : messages.Parses (received (trace ++ effects))
      (delivered (trace ++ effects)) session'.readBuffer) :
    Receives session' (trace ++ effects) session'.readBuffer := by
  have noFailure : ∀ reason, .failed reason ∉ trace ++ effects := by
    intro reason member
    rcases List.mem_append.mp member with old | new
    · exact holds.stopped serving reason old
    · exact sound reason new
  constructor
  case parsed => exact parsed
  case buffered => exact fun _ => rfl
  case settled =>
    intro _ notReading
    rw [reading] at notReading
    cases notReading
  case rejected => exact fun reason member => absurd member (noFailure reason)
  case failing =>
    intro error place
    rw [place] at reading
    cases reading
  case stopped => exact fun _ => noFailure

/-- **Every move keeps the invariant.** -/
theorem step (wf : session.Wf) (holds : Receives session trace residue) {action : Action H}
    (moves : Session.Moves session action session' effects) :
    ∃ residue', Receives session' (trace ++ effects) residue' := by
  cases moves with
  | dropped idle closed =>
      exact ⟨residue, holds.silent (silent_invoke _ _) (fun serving => ⟨serving, rfl, Or.inl⟩)
        fun _ place => place⟩
  | queued idle opened =>
      exact ⟨residue, holds.silent (by simp [Effect.silent])
        (fun _ => ⟨⟨opened, by simp [idle]⟩, rfl, fun _ => Or.inl (by rw [idle]; rfl)⟩)
        (by simp)⟩
  | ignored idle closed =>
      exact ⟨residue, holds.silent (by simp) (fun serving => ⟨serving, rfl, Or.inl⟩)
        fun _ place => place⟩
  | jump opened jump =>
      refine ⟨residue, holds.silent ?_ (fun _ => ⟨⟨opened, jump.from_ne_failLoop⟩, rfl, jump.parsed⟩)
        fun error place => absurd place (jump.ne_failLoop error)⟩
      rcases jump.effects_eq with rfl | rfl <;> simp [Effect.silent]
  | @received events chunk inLoop nonempty fits =>
      have serving : session.Serving := wf.serving_of_reading (by rw [inLoop]; rfl)
      refine ⟨_, holds.read serving (by rw [inLoop]; rfl) (by simp) ?_⟩
      rw [holds.buffered serving]
      simpa [MiniRpc.received, delivered] using holds.parsed.append chunk
  | @delivered events payload rest message inLoop popped decoded =>
      have serving : session.Serving := wf.serving_of_reading (by rw [inLoop]; rfl)
      have item : messages.pop residue = .item message rest := by
        rw [← holds.buffered serving]
        exact popMessage_message popped decoded
      refine ⟨_, holds.read serving (by rw [inLoop]; rfl) (by simp) ?_⟩
      simpa [MiniRpc.received, MiniRpc.delivered] using holds.parsed.snoc item
  | undecodable inLoop popped rejected =>
      have serving : session.Serving := wf.serving_of_reading (by rw [inLoop]; rfl)
      refine ⟨residue, holds.fail serving (Or.inr ?_) rfl⟩
      rw [← holds.buffered serving]
      exact popMessage_undecodable popped rejected
  | oversized inLoop popped =>
      have serving : session.Serving := wf.serving_of_reading (by rw [inLoop]; rfl)
      refine ⟨residue, holds.fail serving (Or.inr ?_) rfl⟩
      rw [← holds.buffered serving]
      exact popMessage_tooLarge popped
  | socketError inLoop =>
      have place := Session.running_of_socketError inLoop
      have serving : session.Serving := wf.serving place.1 place.2
      exact ⟨residue, holds.fail serving (Or.inl ⟨_, rfl⟩) rfl⟩
  | closing opened cause =>
      refine ⟨residue, holds.close ?_⟩
      cases cause <;> simp [Effect.silent]
  | wrotePart inLoop front positive part =>
      exact ⟨residue, holds.silent (by simp [Effect.silent])
        (fun _ => ⟨wf.serving (by rw [inLoop]; rfl) (by simp [inLoop]), rfl, Or.inl⟩) (by simp [inLoop])⟩
  | wroteAll inLoop front positive whole next =>
      refine ⟨residue, holds.silent ?_
        (fun _ => ⟨wf.serving (by rw [inLoop]; rfl) (by simp [inLoop]), rfl,
          fun _ => Or.inl (by rw [inLoop]; rfl)⟩) ?_⟩
      · exact List.forall_mem_cons.mpr ⟨rfl, silent_invoke _ _⟩
      · rcases next with ⟨rfl, _⟩ | ⟨rfl, _⟩ <;> simp
  | updated inCode told unregistered succeeded next =>
      have before := Session.not_reading_of_update inCode
      exact ⟨residue, holds.silent (by simp)
        (fun _ => ⟨wf.serving_of_update inCode, rfl, fun _ => Or.inl before⟩)
        fun error place => absurd place (next.ne_failLoop error)⟩
  | updatedClosing inCode asked => exact ⟨residue, holds.close (by simp [Effect.silent])⟩
  | threw inCode =>
      have before := Session.not_reading_of_update inCode
      exact ⟨residue, holds.silent (by simp)
        (fun _ => ⟨wf.serving_of_update inCode, rfl, fun _ => Or.inl before⟩) (by simp)⟩
  | failedFrame inLoop front =>
      exact ⟨residue, holds.silent (silent_invoke _ _)
        (fun serving => absurd serving (Session.not_serving_of_failLoop inLoop)) fun _ place => place⟩
  | closedFrame inLoop front =>
      exact ⟨residue, holds.silent (silent_invoke _ _)
        (fun serving => absurd serving
          (Session.not_serving_of_closed (wf.closed_of_closeLoop inLoop))) fun _ place => place⟩
  | closedLast inLoop empty =>
      exact ⟨residue, holds.silent (by simp [Effect.silent])
        (fun serving => absurd serving
          (Session.not_serving_of_closed (wf.closed_of_closeLoop inLoop))) (by simp)⟩

end Receives

theorem Endpoint.Moves.receives {endpoint endpoint' : Endpoint H} {label : Endpoint.Label H}
    {effects : List (Effect H)} (moves : Endpoint.Moves endpoint label endpoint' effects)
    (wf : endpoint.session.Wf) {residue : List UInt8}
    (holds : Receives endpoint.session endpoint.trace residue) :
    ∃ residue', Receives endpoint'.session endpoint'.trace residue' := by
  refine moves.session_invariant (fun session trace => ∃ residue, Receives session trace residue)
    ?_ ?_ wf ⟨residue, holds⟩
  · rintro session trace handler ⟨residue, holds⟩
    exact ⟨residue, holds.silent (silent_invoke _ _) (fun serving => ⟨serving, rfl, Or.inl⟩)
      fun _ place => place⟩
  · rintro session session' action effects trace wf ⟨residue, holds⟩ moves
    exact holds.step wf moves

/-! ### Passes that end in `EAGAIN` -/

/-- The errors after which the socket calls are tried again. -/
def Errno.transient : Errno → Bool
  | .eagain | .eintr => true
  | .other _ => false

/-- No fault of the socket and no end of the stream. -/
def Action.quiet : Action H → Bool
  | .handleEvents events => !events.err && !events.hup && !events.rdhup
  | .recv .eof | .closeTask => false
  | .recv (.error errno) | .send (.error errno) => errno.transient
  | _ => true

/-- No fault of the socket, no end of the stream and no call of `close`. -/
def Endpoint.Label.quiet : Endpoint.Label H → Bool
  | .close => false
  | .session action => action.quiet
  | _ => true

/-- A session that has met no fault: only the parse loop has made it fail or close. -/
structure Undisturbed (session : Session H) (trace : List (Effect H)) : Prop where
  noRdhup : session.control.rdhup = false
  noError : ∀ reason, .failed reason ∈ trace → reason = .messageSize ∨ reason = .protocolError
  closed : session.open_ = false → ∃ reason, .failed reason ∈ trace

theorem Undisturbed.step {session session' : Session H} {trace effects : List (Effect H)}
    {residue : List UInt8} {action : Action H} (quiet : action.quiet = true)
    (receives : Receives session trace residue) (holds : Undisturbed session trace)
    (moves : Session.Moves session action session' effects) :
    Undisturbed session' (trace ++ effects) := by
  have calm : ∀ events, action = .handleEvents events →
      events.err = false ∧ events.hup = false ∧ events.rdhup = false := by
    rintro events rfl
    simpa [Action.quiet, and_assoc] using quiet
  constructor
  case noRdhup =>
    by_contra asked
    rcases moves.rdhup_cause (by simpa using asked) with before | ⟨events, same, asked⟩
    · rw [holds.noRdhup] at before
      cases before
    · rw [(calm events same).2.2] at asked
      cases asked
  case noError =>
    intro reason member
    rcases List.mem_append.mp member with old | new
    · exact holds.noError reason old
    · rcases moves.failed_cause new with ⟨code, _, rfl | rfl⟩ | bad
      · cases quiet
      · cases quiet
      · exact bad
  case closed =>
    intro closed
    cases opened : session.open_ with
    | false =>
        obtain ⟨reason, member⟩ := holds.closed opened
        exact ⟨reason, List.mem_append_left _ member⟩
    | true =>
        rcases moves.closing_cause opened closed with rfl | ⟨events, same, why⟩ | rfl | ⟨asked, _⟩ |
          ⟨error, failing⟩
        · cases quiet
        · obtain ⟨noErr, noHup, noRdhup⟩ := calm events same
          simp [noErr, noHup, noRdhup] at why
        · cases quiet
        · rw [holds.noRdhup] at asked
          cases asked
        · exact ⟨error, List.mem_append_left _ (receives.failing error failing)⟩

/-- The endpoint invariant of runs that meet no fault. -/
structure Endpoint.Undisturbed (endpoint : Endpoint H) : Prop where
  receives : ∃ residue, Receives endpoint.session endpoint.trace residue
  session : MiniRpc.Undisturbed endpoint.session endpoint.trace
  noClose : .close ∉ endpoint.tasks

theorem Endpoint.Undisturbed.step {endpoint endpoint' : Endpoint H} {label : Endpoint.Label H}
    {effects : List (Effect H)} (wf : endpoint.session.Wf) (holds : endpoint.Undisturbed)
    (quiet : label.quiet = true) (moves : Endpoint.Moves endpoint label endpoint' effects) :
    endpoint'.Undisturbed := by
  obtain ⟨residue, receives⟩ := holds.receives
  refine ⟨moves.receives wf receives, ?_, ?_⟩
  · cases moves with
    | @rejected message handler large =>
        refine ⟨holds.session.noRdhup, fun reason member => ?_, fun closed => ?_⟩
        · rcases List.mem_append.mp member with old | new
          · exact holds.session.noError reason old
          · cases silent_invoke handler .messageSize _ new
        · obtain ⟨reason, member⟩ := holds.session.closed closed
          exact ⟨reason, List.mem_append_left _ member⟩
    | posted small => exact holds.session
    | closePosted => exact holds.session
    | @ran index task session effects posted moves =>
        refine holds.session.step ?_ receives moves
        cases task with
        | send message handler => rfl
        | close => exact absurd (List.mem_of_getElem? posted) holds.noClose
    | inside notTask moves => exact holds.session.step quiet receives moves
  · cases moves with
    | rejected large => exact holds.noClose
    | posted small => simpa using holds.noClose
    | closePosted => cases quiet
    | ran posted moves => exact fun member => holds.noClose (List.mem_of_mem_eraseIdx member)
    | inside notTask moves => exact holds.noClose

theorem run_undisturbed {fd : ℕ} {labels : List (Endpoint.Label H)} {final : Endpoint H}
    (quiet : ∀ label ∈ labels, label.quiet = true)
    (ran : Endpoint.machine.run (.started fd) labels = some final) : final.Undisturbed := by
  refine (Endpoint.run_invariant (fun label => label.quiet = true) Endpoint.Undisturbed
    (fun wf holds permitted moves => Endpoint.Undisturbed.step wf holds permitted moves)
    (Session.started_wf fd) ?_ quiet ran).2
  exact ⟨⟨[], started_receives fd⟩, ⟨rfl, by simp [Endpoint.started], by
    simp [Endpoint.started, Session.started]⟩, by simp [Endpoint.started]⟩

/-- Between passes, an undisturbed session either waits for more or has met a bad frame. -/
theorem Endpoint.Undisturbed.residue {endpoint : Endpoint H}
    (holds : endpoint.Undisturbed) (between : endpoint.session.control = .idle) :
    ∃ residue, messages.Parses (received endpoint.trace) (delivered endpoint.trace) residue ∧
      (endpoint.session.open_ = true ∧ endpoint.session.readBuffer = residue ∧
          popMessage residue = .needMore ∨
        endpoint.session.open_ = false ∧ ∃ reason, popMessage residue = .bad reason) := by
  obtain ⟨residue, receives⟩ := holds.receives
  refine ⟨residue, receives.parsed, ?_⟩
  cases opened : endpoint.session.open_ with
  | true =>
      have serving : endpoint.session.Serving := ⟨opened, by simp [between]⟩
      exact Or.inl ⟨rfl, receives.buffered serving, receives.settled serving (by rw [between]; rfl)⟩
  | false =>
      obtain ⟨reason, member⟩ := holds.session.closed opened
      rcases receives.rejected reason member with ⟨errno, rfl⟩ | bad
      · rcases holds.session.noError _ member with same | same <;> cases same
      · exact Or.inr ⟨rfl, reason, bad⟩

/-- **A run of read passes has the outcome of the whole stream, for every chunking.** Between passes,
once all of `stream` has been read (or the session has closed itself and reads no more), the messages
handed out are the decodings of the maximal run of good frames, the session has closed itself exactly
when a bad frame follows, and otherwise the read buffer is what is left, less than one largest frame. -/
theorem outcome_eq_maximalRun {fd : ℕ} {labels : List (Endpoint.Label H)} {final : Endpoint H}
    {stream : List UInt8} (ran : Endpoint.machine.run (.started fd) labels = some final)
    (quiet : ∀ label ∈ labels, label.quiet = true)
    (between : final.session.control = .idle)
    (fed : received final.trace = stream ∨
      final.session.open_ = false ∧ received final.trace <+: stream) :
    ∃ decoded rest, MaximalRun stream decoded rest ∧
      (∀ decoded' rest', MaximalRun stream decoded' rest' → decoded' = decoded ∧ rest' = rest) ∧
      delivered final.trace = decoded ∧
      (final.session.open_ = false ↔ BadFrame rest) ∧
      (final.session.open_ = true →
        final.session.readBuffer = rest ∧ rest.length < kFrameHeaderSize + kMaxFrameSize.toNat) := by
  obtain ⟨residue, parsed, ⟨opened, buffered, needMore⟩ | ⟨closed, reason, bad⟩⟩ :=
    (run_undisturbed quiet ran).residue between
  · -- still open: everything was read, and the buffer is an incomplete frame
    have whole : received final.trace = stream := by
      rcases fed with whole | ⟨closed, _⟩
      · exact whole
      · rw [opened] at closed
        cases closed
    rw [whole] at parsed
    have run : MaximalRun stream (delivered final.trace) residue :=
      maximalRun_iff.mpr ⟨parsed, StreamParser.stuck_of_needMore needMore⟩
    refine ⟨_, residue, run, fun _ _ run' => run.unique run', rfl, ?_, fun _ => ⟨buffered, ?_⟩⟩
    · rw [opened]
      exact ⟨nofun, fun badFrame => absurd badFrame (not_badFrame_of_needMore needMore)⟩
    · exact length_lt_of_needMore (popMessage_eq_needMore needMore)
  · -- closed: the bad frame stays bad, whatever was not read any more
    obtain ⟨unread, rfl⟩ : received final.trace <+: stream := by
      rcases fed with rfl | ⟨_, part⟩
      · exact List.prefix_refl _
      · exact part
    have later : popMessage (residue ++ unread) = .bad reason := messages.bad_append bad unread
    have run : MaximalRun (received final.trace ++ unread) (delivered final.trace)
        (residue ++ unread) :=
      maximalRun_iff.mpr ⟨parsed.append unread, StreamParser.stuck_of_bad later⟩
    refine ⟨_, residue ++ unread, run, fun _ _ run' => run.unique run', rfl, ?_, fun opened => ?_⟩
    · exact ⟨fun _ => badFrame_iff.mpr ⟨reason, later⟩, fun _ => closed⟩
    · rw [closed] at opened
      cases opened

/-- Two passes, the first of which ends inside the header. -/
def headerInTwoPasses : List (Endpoint.Label ℕ) :=
  [.session (.handleEvents { in_ := true }), .session (.recv (.data [0, 0])),
    .session (.recv (.error .eagain)), .session .parse,
    .session (.handleEvents { in_ := true }), .session (.recv (.data [0])),
    .session (.recv (.error .eintr)), .session (.recv (.data [0, 0])),
    .session (.recv (.error .eagain)), .session .parse, .session .parse]

/-- The five bytes of these passes hold one message, and one byte is left over. -/
theorem headerInTwoPasses_outcome :
    ∃ final decoded rest, Endpoint.machine.run (.started 5) headerInTwoPasses = some final ∧
      MaximalRun [0, 0, 0, 0, 0] decoded rest ∧ delivered final.trace = decoded ∧
      final.session.readBuffer = rest := by
  obtain ⟨final, ran, between, read, opened⟩ :
      ∃ final, Endpoint.machine.run (.started 5) headerInTwoPasses = some final ∧
        final.session.control = .idle ∧ received final.trace = [0, 0, 0, 0, 0] ∧
        final.session.open_ = true := by
    refine ⟨(Endpoint.machine.run (.started 5) headerInTwoPasses).get (by decide +kernel),
      (Option.some_get _).symm, ?_⟩
    decide +kernel
  obtain ⟨decoded, rest, run, _, same, _, buffered⟩ :=
    outcome_eq_maximalRun ran (by decide) between (Or.inl read)
  exact ⟨_, decoded, rest, ran, run, same, (buffered opened).1⟩

end Insist.MiniRpc
