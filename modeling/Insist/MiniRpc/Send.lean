/-
**The sending side of a session.**

`Sends session trace` ties the write queue to the bytes the kernel has taken: while the session serves its
socket, the bytes taken and the unsent rest of the queue are exactly the queued frames; once it fails or
closes, the bytes taken stay an initial part of them. `Sent` adds, for an endpoint, that the queued frames
are the frames of the messages whose tasks have run; `Endpoint.Moves.sent` is the step lemma, and
`Sent.accepted_initial` says that the bytes taken are an initial part of these frames.
-/
import Insist.MiniRpc.Receive

namespace Insist.MiniRpc

open Lib

variable {H : Type}

/-! ### What the trace says about the writes -/

/-- The bytes the kernel has taken. -/
def accepted (trace : List (Effect H)) : List UInt8 :=
  trace.flatMap fun
    | .accepted bytes _ => bytes
    | _ => []

/-- The frames that have entered the write queue. -/
def queuedBytes (trace : List (Effect H)) : List UInt8 :=
  trace.flatMap fun
    | .queued frame _ => frame
    | _ => []

@[simp] theorem accepted_append (first second : List (Effect H)) :
    accepted (first ++ second) = accepted first ++ accepted second :=
  List.flatMap_append

@[simp] theorem queuedBytes_append (first second : List (Effect H)) :
    queuedBytes (first ++ second) = queuedBytes first ++ queuedBytes second :=
  List.flatMap_append

@[simp] theorem accepted_invoke (handler : Option H) (error : ErrorCode) :
    accepted (Session.invoke handler error) = [] := by
  cases handler <;> rfl

@[simp] theorem queuedBytes_invoke (handler : Option H) (error : ErrorCode) :
    queuedBytes (Session.invoke handler error) = [] := by
  cases handler <;> rfl

@[simp] theorem accepted_accepted (bytes : List UInt8) (handler : Option H) :
    accepted [.accepted bytes handler] = bytes :=
  List.append_nil _

@[simp] theorem queuedBytes_accepted (bytes : List UInt8) (handler : Option H) :
    queuedBytes [.accepted bytes handler] = [] := rfl

@[simp] theorem accepted_queued (frame : List UInt8) (handler : Option H) :
    accepted [.queued frame handler] = [] := rfl

@[simp] theorem queuedBytes_queued (frame : List UInt8) (handler : Option H) :
    queuedBytes [.queued frame handler] = frame :=
  List.append_nil _

/-- What the kernel has not taken yet. -/
def OutgoingFrame.unsent (frame : OutgoingFrame H) : List UInt8 :=
  frame.bytes.drop frame.written

/-! ### The invariant -/

/-- How the write queue stands to the bytes the kernel has taken. -/
structure Sends (session : Session H) (trace : List (Effect H)) : Prop where
  whole : session.Serving →
    accepted trace ++ session.writeQueue.flatMap OutgoingFrame.unsent = queuedBytes trace
  part : accepted trace <+: queuedBytes trace

theorem started_sends (fd : ℕ) : Sends (Session.started fd : Session H) [] :=
  ⟨fun _ => rfl, List.prefix_refl _⟩

namespace Sends

variable {session session' : Session H} {trace effects : List (Effect H)}

/-- A move that neither queues nor writes. -/
theorem neutral (holds : Sends session trace) (nothing : accepted effects = [])
    (noFrame : queuedBytes effects = [])
    (kept : session'.Serving → session.Serving ∧ session'.writeQueue = session.writeQueue) :
    Sends session' (trace ++ effects) := by
  refine ⟨fun serving => ?_, ?_⟩
  · obtain ⟨serving, same⟩ := kept serving
    simpa [nothing, noFrame, same] using holds.whole serving
  · simpa [nothing, noFrame] using holds.part

/-- While a session serves its socket, the rest of the queue says how the bytes go on. -/
theorem of_whole (rest : List UInt8) (whole : accepted trace ++ rest = queuedBytes trace)
    (same : session.writeQueue.flatMap OutgoingFrame.unsent = rest) : Sends session trace :=
  ⟨fun _ => by rw [same, whole], ⟨rest, whole⟩⟩

/-- **Every move keeps the invariant.** -/
theorem step (wf : session.Wf) (holds : Sends session trace) {action : Action H}
    (moves : Session.Moves session action session' effects) : Sends session' (trace ++ effects) := by
  cases moves with
  | dropped idle closed => exact holds.neutral (by simp) (by simp) fun serving => ⟨serving, rfl⟩
  | @queued frame handler idle opened =>
      have serving : session.Serving := ⟨opened, by simp [idle]⟩
      have whole := holds.whole serving
      refine of_whole (session.writeQueue.flatMap OutgoingFrame.unsent ++ frame) ?_ ?_
      · rw [accepted_append, accepted_queued, List.append_nil, queuedBytes_append, queuedBytes_queued,
          ← whole, List.append_assoc]
      · simp [OutgoingFrame.unsent]
  | ignored idle closed => exact holds.neutral rfl rfl fun serving => ⟨serving, rfl⟩
  | jump opened jump =>
      refine holds.neutral ?_ ?_ fun _ => ⟨⟨opened, jump.from_ne_failLoop⟩, rfl⟩
      · rcases jump.effects_eq with rfl | rfl <;> rfl
      · rcases jump.effects_eq with rfl | rfl <;> rfl
  | received inLoop nonempty fits =>
      exact holds.neutral rfl rfl fun _ => ⟨wf.serving_of_reading (by rw [inLoop]; rfl), rfl⟩
  | delivered inLoop popped decoded =>
      exact holds.neutral rfl rfl fun _ => ⟨wf.serving_of_reading (by rw [inLoop]; rfl), rfl⟩
  | undecodable | oversized | socketError =>
      exact holds.neutral rfl rfl fun serving => absurd rfl (serving.2 _)
  | closing opened cause =>
      refine holds.neutral ?_ ?_ fun serving => absurd serving (Session.not_serving_of_closed rfl)
      · cases cause <;> rfl
      · cases cause <;> rfl
  | @wrotePart rdhup frame queue count inLoop front positive part =>
      have serving : session.Serving := wf.serving (by rw [inLoop]; rfl) (by simp [inLoop])
      have whole := holds.whole serving
      rw [front, List.flatMap_cons] at whole
      refine of_whole (frame.bytes.drop (frame.written + count) ++
        queue.flatMap OutgoingFrame.unsent) ?_ ?_
      · have split : frame.unsent =
            (frame.bytes.drop frame.written).take count ++ frame.bytes.drop (frame.written + count) := by
          rw [← List.drop_drop, List.take_append_drop]
          rfl
        rw [split, List.append_assoc] at whole
        rw [accepted_append, accepted_accepted, queuedBytes_append, queuedBytes_accepted,
          List.append_nil, List.append_assoc]
        exact whole
      · simp [OutgoingFrame.unsent]
  | @wroteAll rdhup frame queue count control inLoop front positive all next =>
      have serving : session.Serving := wf.serving (by rw [inLoop]; rfl) (by simp [inLoop])
      have whole := holds.whole serving
      rw [front, List.flatMap_cons] at whole
      refine of_whole (queue.flatMap OutgoingFrame.unsent) ?_ rfl
      have taken : (frame.bytes.drop frame.written).take count = frame.unsent := by
        refine List.take_of_length_le ?_
        rw [List.length_drop]
        omega
      rw [List.append_cons, accepted_append, accepted_append, accepted_invoke, accepted_accepted,
        queuedBytes_append, queuedBytes_append, queuedBytes_invoke, queuedBytes_accepted, taken,
        List.append_nil, List.append_nil, List.append_nil, List.append_assoc]
      exact whole
  | updated inCode told unregistered succeeded next =>
      exact holds.neutral rfl rfl fun _ => ⟨wf.serving_of_update inCode, rfl⟩
  | updatedClosing inCode asked =>
      exact holds.neutral rfl rfl fun serving => absurd serving (Session.not_serving_of_closed rfl)
  | threw inCode =>
      exact holds.neutral rfl rfl fun _ => ⟨wf.serving_of_update inCode, rfl⟩
  | failedFrame inLoop front =>
      exact holds.neutral (by simp) (by simp)
        fun serving => absurd serving (Session.not_serving_of_failLoop inLoop)
  | closedFrame inLoop front =>
      exact holds.neutral (by simp) (by simp) fun serving =>
        absurd serving (Session.not_serving_of_closed (wf.closed_of_closeLoop inLoop))
  | closedLast inLoop empty =>
      exact holds.neutral rfl rfl fun serving =>
        absurd serving (Session.not_serving_of_closed (wf.closed_of_closeLoop inLoop))

end Sends

/-! ### The executed messages -/

/-- A move queues the frame of its task, if the session is open. -/
theorem Session.Moves.queuedBytes_eq {session session' : Session H} {action : Action H}
    {effects : List (Effect H)} (moves : Session.Moves session action session' effects) :
    queuedBytes effects =
      match action with
      | .sendTask frame _ => if session.open_ then frame else []
      | _ => [] := by
  cases moves with
  | dropped idle closed => simp [closed]
  | queued idle opened => simp [opened, queuedBytes]
  | jump opened jump => cases jump <;> rfl
  | socketError inLoop => rcases inLoop with ⟨_, _, rfl⟩ | ⟨_, _, rfl⟩ <;> rfl
  | closing opened cause => cases cause <;> rfl
  | wroteAll => exact queuedBytes_invoke _ _
  | failedFrame | closedFrame => exact queuedBytes_invoke _ _
  | _ => rfl

/-- The queued frames are those of the executed messages. -/
structure Sent (endpoint : Endpoint H) : Prop where
  sends : Sends endpoint.session endpoint.trace
  frames : endpoint.session.open_ = true →
    queuedBytes endpoint.trace = endpoint.executed.flatMap frameOf
  part : queuedBytes endpoint.trace <+: endpoint.executed.flatMap frameOf

theorem started_sent (fd : ℕ) : Sent (Endpoint.started fd : Endpoint H) :=
  ⟨started_sends fd, fun _ => rfl, List.prefix_refl _⟩

theorem Sent.accepted_initial {endpoint : Endpoint H} (sent : Sent endpoint) :
    accepted endpoint.trace <+: endpoint.executed.flatMap frameOf :=
  sent.sends.part.trans sent.part

/-- **Every step of an endpoint keeps the invariant.** -/
theorem Endpoint.Moves.sent {endpoint endpoint' : Endpoint H} {label : Endpoint.Label H}
    {effects : List (Effect H)} (moves : Endpoint.Moves endpoint label endpoint' effects)
    (wf : endpoint.session.Wf) (holds : Sent endpoint) : Sent endpoint' := by
  have sends : Sends endpoint'.session endpoint'.trace := by
    refine moves.session_invariant Sends (fun holds => ?_) (fun wf holds moves => holds.step wf moves)
      wf holds.sends
    exact holds.neutral (by simp) (by simp) fun serving => ⟨serving, rfl⟩
  refine ⟨sends, ?_, ?_⟩
  · intro opened
    cases moves with
    | rejected large => simpa using holds.frames opened
    | posted small => exact holds.frames opened
    | closePosted => exact holds.frames opened
    | @ran index task session effects posted moves =>
        have before := (moves.of_open wf opened).1
        have same := holds.frames before
        simp only [advance, queuedBytes_append, moves.queuedBytes_eq, List.flatMap_append, same]
        cases task <;> simp [Task.action, Task.message, before]
    | @inside action session effects notTask moves =>
        have before := (moves.of_open wf opened).1
        have nothing : queuedBytes effects = [] := by
          rw [moves.queuedBytes_eq]
          cases action <;> first | rfl | cases notTask
        simpa [advance, nothing] using holds.frames before
  · cases moves with
    | rejected large => simpa using holds.part
    | posted small => exact holds.part
    | closePosted => exact holds.part
    | @ran index task session effects posted moves =>
        simp only [advance, queuedBytes_append, moves.queuedBytes_eq, List.flatMap_append]
        cases before : endpoint.session.open_ with
        | true =>
            rw [holds.frames before]
            cases task <;> simp [Task.action, Task.message]
        | false =>
            refine List.IsPrefix.trans ?_ (holds.part.trans (List.prefix_append _ _))
            cases task <;> simp [Task.action]
    | @inside action session effects notTask moves =>
        have nothing : queuedBytes effects = [] := by
          rw [moves.queuedBytes_eq]
          cases action <;> first | rfl | cases notTask
        simpa [advance, nothing] using holds.part

end Insist.MiniRpc
