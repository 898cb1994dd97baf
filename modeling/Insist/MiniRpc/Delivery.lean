/-
**No message is lost, and none is doubled.**

The accounts of `ClientRequests` bound what a client sends and runs from above; here the same quantities are
counted exactly. Every request that fits into a frame is, as often as it was called, about to be sent, posted
or executed, and every response that fits is posted or executed as often as the server has given it. What a
client is told besides (a write error, the close handler) it is told for a reason: while its session serves
the socket, a write error only comes from a request that does not fit.

* `Moves.write_of_serving`, `Moves.serving` — what a session that still serves its socket has told so far;
* `ClientNode.Conserves` — the counts of a client, and the reasons of its write errors;
* `ClientServer.Conserves` — the same for a client and its server, and that a response comes after its call.
-/
import Insist.Lib.History
import Insist.MiniRpc.Rpc

namespace Insist.MiniRpc

open Lib

variable {R K H : Type}

/-- The message fits into a frame: `Session::send` does not reject it. -/
def FitsFrame (message : RpcMessage) : Prop :=
  (ProtobufWireCodec.encode message).length ≤ kMaxFrameSize.toNat

instance (message : RpcMessage) : Decidable (FitsFrame message) :=
  inferInstanceAs (Decidable (_ ≤ _))

/-! ### What a serving session has told -/

namespace Session

variable {session session' : Session H} {action : Action H} {effects : List (Effect H)}

/-- A session that serves its socket has done so before. -/
theorem Moves.serving (moves : Moves session action session' effects) (wf : session.Wf)
    (serving : session'.Serving) : session.Serving := by
  refine ⟨(moves.of_open wf serving.1).1, fun error failing => ?_⟩
  cases moves with
  | jump opened jump => exact jump.from_ne_failLoop error failing
  | failedFrame inLoop front => exact serving.2 _ inLoop
  | closing opened cause => cases serving.1
  | updatedClosing inCode asked => cases serving.1
  | dropped idle | queued idle | ignored idle =>
      rw [idle] at failing
      cases failing
  | received inLoop | delivered inLoop | undecodable inLoop | oversized inLoop | wrotePart inLoop
  | wroteAll inLoop | closedFrame inLoop | closedLast inLoop =>
      rw [inLoop] at failing
      cases failing
  | updated inCode | threw inCode => exact ne_failLoop_of_update inCode error failing
  | socketError inLoop => exact (running_of_socketError inLoop).2 error failing

theorem write_mem_invoke {handler : Option H} {error error' : ErrorCode} {told : H}
    (member : Effect.write told error' ∈ invoke handler error) : error' = error := by
  cases handler with
  | none => cases member
  | some handler =>
      cases List.mem_singleton.mp member
      rfl

/-- **A session that serves its socket tells its write handlers nothing but success.** -/
theorem Moves.write_of_serving (moves : Moves session action session' effects) (wf : session.Wf)
    (serving : session'.Serving) {handler : H} {error : ErrorCode}
    (told : .write handler error ∈ effects) : error = .success := by
  have before := moves.serving wf serving
  cases moves with
  | dropped idle closed => exact absurd before (not_serving_of_closed closed)
  | closedFrame inLoop front => exact absurd before (not_serving_of_closed (wf.closed_of_closeLoop inLoop))
  | failedFrame inLoop front => exact absurd before (not_serving_of_failLoop inLoop)
  | wroteAll inLoop front positive whole next =>
      exact write_mem_invoke ((List.mem_cons.mp told).resolve_left (by simp))
  | jump opened jump => rcases jump.effects_eq with rfl | rfl <;> simp at told
  | closing opened cause => cases cause <;> simp at told
  | _ => simp at told

end Session

/-! ### What the client is told -/

/-- The requests of the calls made. -/
def calledRequests (trace : List (ClientEvent R)) : List RpcMessage :=
  trace.flatMap fun
    | .called _ request _ => [request]
    | _ => []

@[simp] theorem calledRequests_append (first second : List (ClientEvent R)) :
    calledRequests (first ++ second) = calledRequests first ++ calledRequests second :=
  List.flatMap_append

theorem mem_calledRequests {trace : List (ClientEvent R)} {request : RpcMessage} :
    request ∈ calledRequests trace ↔ ∃ id handler, .called id request handler ∈ trace := by
  unfold calledRequests
  rw [List.mem_flatMap]
  constructor
  · rintro ⟨event, member, found⟩
    cases event with
    | called id other handler => exact ⟨id, handler, by rwa [List.mem_singleton.mp found]⟩
    | _ => cases found
  · rintro ⟨id, handler, member⟩
    exact ⟨_, member, List.mem_singleton_self _⟩

namespace RpcClient

/-- **The callbacks make no calls**, and every other event has its effect. -/
theorem handle_mem (client : RpcClient R) {effect : Effect UInt64} {event : ClientEvent R}
    (member : event ∈ (client.handle effect).2) :
    (∃ message outcome, event = .received message outcome ∧ effect = .message message) ∨
      (∃ id error, event = .writeFailed id ∧ effect = .write id error ∧ error ≠ .success) ∨
      event = .closed ∧ effect = .close := by
  cases effect with
  | message message =>
      left
      have dispatched : ∃ outcome, (client.dispatchMessage message).2 = [.received message outcome] := by
        unfold dispatchMessage
        split_ifs
        · cases client.pending message.id with
          | none => exact ⟨none, rfl⟩
          | some handler => exact ⟨handler, rfl⟩
        · exact ⟨none, rfl⟩
      obtain ⟨outcome, same⟩ := dispatched
      rw [handle, same] at member
      exact ⟨message, outcome, List.mem_singleton.mp member, rfl⟩
  | write id error =>
      right
      left
      rw [handle, writeHandler] at member
      split_ifs at member with told
      · cases member
      · exact ⟨id, error, List.mem_singleton.mp member, rfl, told⟩
  | close => exact Or.inr (Or.inr ⟨List.mem_singleton.mp member, rfl⟩)
  | _ => cases member

theorem handleAll_mem (client : RpcClient R) {effects : List (Effect UInt64)} {event : ClientEvent R}
    (member : event ∈ (client.handleAll effects).2) :
    (∃ message outcome, event = .received message outcome ∧ .message message ∈ effects) ∨
      (∃ id error, event = .writeFailed id ∧ .write id error ∈ effects ∧ error ≠ .success) ∨
      event = .closed ∧ .close ∈ effects := by
  induction effects generalizing client with
  | nil => cases member
  | cons effect effects ih =>
      rcases List.mem_append.mp member with now | later
      · rcases client.handle_mem now with ⟨message, outcome, rfl, rfl⟩ | ⟨id, error, rfl, rfl, bad⟩ |
          ⟨rfl, rfl⟩
        · exact Or.inl ⟨message, outcome, rfl, List.mem_cons_self⟩
        · exact Or.inr (Or.inl ⟨id, error, rfl, List.mem_cons_self, bad⟩)
        · exact Or.inr (Or.inr ⟨rfl, List.mem_cons_self⟩)
      · rcases ih _ later with ⟨message, outcome, rfl, told⟩ | ⟨id, error, rfl, told, bad⟩ | ⟨rfl, told⟩
        · exact Or.inl ⟨message, outcome, rfl, List.mem_cons_of_mem _ told⟩
        · exact Or.inr (Or.inl ⟨id, error, rfl, List.mem_cons_of_mem _ told, bad⟩)
        · exact Or.inr (Or.inr ⟨rfl, List.mem_cons_of_mem _ told⟩)

theorem handleAll_calledRequests (client : RpcClient R) (effects : List (Effect UInt64)) :
    calledRequests (client.handleAll effects).2 = [] := by
  refine List.flatMap_eq_nil_iff.mpr fun event member => ?_
  rcases client.handleAll_mem member with ⟨_, _, rfl, _⟩ | ⟨_, _, rfl, _⟩ | ⟨rfl, _⟩ <;> rfl

/-- A write error is told. -/
theorem writeFailed_mem_handleAll (client : RpcClient R) {effects : List (Effect UInt64)} {id : UInt64}
    {error : ErrorCode} (wrote : .write id error ∈ effects) (bad : error ≠ .success) :
    .writeFailed id ∈ (client.handleAll effects).2 := by
  induction effects generalizing client with
  | nil => cases wrote
  | cons effect effects ih =>
      rcases List.mem_cons.mp wrote with rfl | later
      · have now : .writeFailed id ∈ (client.writeHandler id error).2 := by
          rw [writeHandler, if_neg bad]
          exact List.mem_singleton_self _
        exact List.mem_append_left _ now
      · exact List.mem_append_right _ (ih _ later)

end RpcClient

/-! ### The steps of an endpoint -/

namespace Endpoint

/-- The messages that a label hands to `Session::send`, with their write handlers. -/
def Label.entries : Label H → List (RpcMessage × Option H)
  | .send message handler => [(message, handler)]
  | _ => []

/-- The endpoint after these messages have been handed to `Session::send`, one after the other. -/
def sendAll (endpoint : Endpoint H) (entries : List (RpcMessage × Option H)) : Endpoint H :=
  entries.foldl (fun endpoint entry => (endpoint.send entry.1 entry.2).1) endpoint

theorem Label.map_fst_entries (label : Label H) : label.entries.map Prod.fst = label.messages := by
  cases label <;> rfl

namespace Moves

variable {endpoint endpoint' : Endpoint H} {label : Label H} {effects : List (Effect H)}

/-- **A message that fits is posted when it is sent, and then executed once.** -/
theorem count_message (moves : Moves endpoint label endpoint' effects) {message : RpcMessage}
    (fits : FitsFrame message) :
    (taskMessages endpoint'.tasks).count message + endpoint'.executed.count message =
      label.messages.count message + (taskMessages endpoint.tasks).count message +
        endpoint.executed.count message := by
  cases moves with
  | @rejected sent handler large =>
      have other : sent ≠ message := by
        rintro rfl
        exact absurd fits (not_le.mpr large)
      have none : (Label.send sent handler).messages.count message = 0 := by
        rw [Label.messages, List.count_singleton, if_neg (by simpa using other)]
      rw [none, Nat.zero_add]
  | @posted sent handler small =>
      have more : taskMessages (endpoint.tasks ++ [Task.send sent handler]) =
          taskMessages endpoint.tasks ++ [sent] := by
        simp [taskMessages, Task.message]
      have one : (Label.send sent handler : Label H).messages = [sent] := rfl
      rw [more, one, List.count_append, Nat.add_comm ([sent].count message)]
  | closePosted =>
      have more : taskMessages (endpoint.tasks ++ [Task.close]) = taskMessages endpoint.tasks := by
        simp [taskMessages, Task.message]
      have none : (Label.close : Label H).messages.count message = 0 := rfl
      rw [more, none, Nat.zero_add]
  | @ran index task session effects found moves =>
      have picked := (taskMessages_eraseIdx found).count_eq message
      have none : (Label.run index : Label H).messages.count message = 0 := rfl
      rw [List.count_append] at picked
      show (taskMessages (endpoint.tasks.eraseIdx index)).count message +
        (endpoint.executed ++ task.message).count message = _
      rw [List.count_append, none]
      omega
  | @inside action session effects notTask moves =>
      have none : (Label.session action).messages.count message = 0 := rfl
      show (taskMessages endpoint.tasks).count message + (endpoint.executed ++ []).count message = _
      rw [List.append_nil, none, Nat.zero_add]

/-- A message that does not fit is rejected, and its write handler is told. -/
theorem rejects (moves : Moves endpoint label endpoint' effects) {message : RpcMessage} {handler : H}
    (leaving : (message, some handler) ∈ label.entries) (large : ¬ FitsFrame message) :
    .write handler .messageSize ∈ effects := by
  cases moves with
  | rejected =>
      obtain ⟨rfl, rfl⟩ := Prod.mk.inj (List.mem_singleton.mp leaving)
      exact List.mem_singleton_self _
  | posted small =>
      obtain ⟨rfl, rfl⟩ := Prod.mk.inj (List.mem_singleton.mp leaving)
      exact absurd small large
  | closePosted | ran | inside => cases leaving

/-- A session that serves its socket has done so before. -/
theorem serving (moves : Moves endpoint label endpoint' effects) (wf : endpoint.session.Wf)
    (serving : endpoint'.session.Serving) : endpoint.session.Serving := by
  cases moves with
  | rejected | posted | closePosted => exact serving
  | ran found moves => exact moves.serving wf serving
  | inside notTask moves => exact moves.serving wf serving

/-- **As long as the session serves its socket, only a message that does not fit fails.** -/
theorem write_of_serving (moves : Moves endpoint label endpoint' effects) (wf : endpoint.session.Wf)
    (serving : endpoint'.session.Serving) {handler : H} {error : ErrorCode}
    (wrote : .write handler error ∈ effects) (bad : error ≠ .success) :
    ∃ message, (message, some handler) ∈ label.entries ∧ ¬ FitsFrame message := by
  cases moves with
  | @rejected message given large =>
      cases given with
      | none => cases wrote
      | some other =>
          cases List.mem_singleton.mp wrote
          exact ⟨message, List.mem_singleton_self _, not_le.mpr large⟩
  | posted | closePosted => cases wrote
  | ran found moves => exact absurd (moves.write_of_serving wf serving wrote) bad
  | inside notTask moves => exact absurd (moves.write_of_serving wf serving wrote) bad

/-- The close handler does not run as long as the session serves its socket. -/
theorem close_of_serving (moves : Moves endpoint label endpoint' effects) (wf : endpoint.session.Wf)
    (serving : endpoint'.session.Serving) : .close ∉ effects := by
  cases moves with
  | @rejected message handler large =>
      intro closes
      cases handler with
      | none => cases closes
      | some other => cases List.mem_singleton.mp closes
  | posted | closePosted => exact List.not_mem_nil
  | ran found moves => exact fun closes => ((moves.of_open wf serving.1).2 _ closes).2 rfl
  | inside notTask moves => exact fun closes => ((moves.of_open wf serving.1).2 _ closes).2 rfl

end Moves

end Endpoint

/-! ### A client's counts -/

/-- Where a client's calls are; `outgoing` is what it is handing to `Session::send` in the current step. -/
structure ClientNode.Conserves (node : ClientNode R) (outgoing : List (RpcMessage × Option UInt64)) : Prop where
  /-- What was called is a request of the call's id. -/
  called : ∀ id request handler, .called id request handler ∈ node.trace →
    request.id = id ∧ request.kind = .request ∧ request.status = 0
  /-- A request that fits is somewhere as often as it was called. -/
  requests : ∀ message, message.kind = .request → FitsFrame message →
    (sendingMessages outgoing).count message + (sendingMessages node.sending).count message +
      (taskMessages node.endpoint.tasks).count message + node.endpoint.executed.count message =
        (calledRequests node.trace).count message
  /-- A write handler belongs to its call. -/
  tagged : ∀ message id, (message, some id) ∈ outgoing ++ node.sending →
    ∃ handler, .called id message handler ∈ node.trace
  /-- A request that does not fit is about to be rejected, or has been. -/
  refused : ∀ id request handler, .called id request handler ∈ node.trace → ¬ FitsFrame request →
    (request, some id) ∈ outgoing ++ node.sending ∨ .writeFailed id ∈ node.trace
  /-- While the session serves its socket, only such a request has failed, after its call. -/
  told : node.endpoint.session.Serving → History.Always (fun before event => ∀ id, event = .writeFailed id →
    ∃ request handler, .called id request handler ∈ before ∧ ¬ FitsFrame request) node.trace
  /-- The close handler has not run. -/
  unclosed : node.endpoint.session.Serving → .closed ∉ node.trace

namespace ClientNode.Conserves

theorem connected (fd : ℕ) : (ClientNode.connected fd : ClientNode R).Conserves [] where
  called := by simp [ClientNode.connected]
  requests message _ _ := rfl
  tagged := by simp [ClientNode.connected]
  refused := by simp [ClientNode.connected]
  told _ := History.always_nil
  unclosed := by simp [ClientNode.connected]

variable {node : ClientNode R}

/-- A call in progress makes its entry. -/
theorem register (holds : node.Conserves []) {index : ℕ} {request : RpcMessage} {handler : Option R}
    (plain : request.kind = .request ∧ request.status = 0) :
    ClientNode.Conserves { node with
      client := node.client.register request.id handler
      calling := node.calling.eraseIdx index
      sending := node.sending ++ [(request, some request.id)]
      trace := node.trace ++ [ClientEvent.called request.id request handler] } [] where
  called id request' handler' member := by
    rcases List.mem_append.mp member with old | new
    · exact holds.called id request' handler' old
    · cases List.mem_singleton.mp new
      exact ⟨rfl, plain⟩
  requests message kind small := by
    have before := holds.requests message kind small
    have called : calledRequests [(.called request.id request handler : ClientEvent R)] = [request] := rfl
    have sending : sendingMessages (node.sending ++ [(request, some request.id)]) =
        sendingMessages node.sending ++ [request] := by
      rw [sendingMessages, List.map_append]
      rfl
    rw [calledRequests_append, called, sending, List.count_append, List.count_append]
    show _ + _ + (taskMessages node.endpoint.tasks).count message + node.endpoint.executed.count message = _
    omega
  tagged message id member := by
    rcases List.mem_append.mp member with impossible | member
    · cases impossible
    rcases List.mem_append.mp member with old | new
    · obtain ⟨handler', called⟩ := holds.tagged message id (List.mem_append_right _ old)
      exact ⟨handler', List.mem_append_left _ called⟩
    · obtain ⟨rfl, same⟩ := Prod.mk.inj (List.mem_singleton.mp new)
      cases same
      exact ⟨handler, by simp⟩
  refused id request' handler' called large := by
    rcases List.mem_append.mp called with old | new
    · rcases holds.refused id request' handler' old large with waiting | failed
      · exact Or.inl (by simpa using Or.inl waiting)
      · exact Or.inr (List.mem_append_left _ failed)
    · cases List.mem_singleton.mp new
      exact Or.inl (by simp)
  told serving := by
    refine History.always_append (holds.told serving) fun event new before _ id same => ?_
    rw [List.mem_singleton.mp new] at same
    cases same
  unclosed serving closed := by
    rcases List.mem_append.mp closed with old | new
    · exact holds.unclosed serving old
    · cases List.mem_singleton.mp new

/-- `notify` begins. -/
theorem notify (holds : node.Conserves []) (service method payload : ByteString) :
    ClientNode.Conserves { node with
      sending := node.sending ++ [(RpcClient.notifyMessage service method payload, none)] } [] where
  called := holds.called
  requests message kind small := by
    have other : message ≠ RpcClient.notifyMessage service method payload := by
      rintro rfl
      cases kind
    have sending : sendingMessages
        (node.sending ++ [(RpcClient.notifyMessage service method payload, none)]) =
        sendingMessages node.sending ++ [RpcClient.notifyMessage service method payload] := by
      rw [sendingMessages, List.map_append]
      rfl
    rw [sending, List.count_append, List.count_singleton, if_neg (by simpa using Ne.symm other)]
    exact holds.requests message kind small
  tagged message id member := by
    refine holds.tagged message id ?_
    simpa using member
  refused id request handler called large := by
    rcases holds.refused id request handler called large with waiting | failed
    · exact Or.inl (by simpa using waiting)
    · exact Or.inr failed
  told := holds.told
  unclosed := holds.unclosed

/-- A message goes to `Session::send`. -/
theorem send (holds : node.Conserves []) {index : ℕ} {message : RpcMessage} {handler : Option UInt64}
    (found : node.sending[index]? = some (message, handler)) :
    ClientNode.Conserves { node with sending := node.sending.eraseIdx index } [(message, handler)] := by
  obtain ⟨inside, same⟩ := List.getElem?_eq_some_iff.mp found
  have picked := List.getElem_cons_eraseIdx_perm inside
  rw [same] at picked
  constructor
  case called => exact holds.called
  case requests =>
    intro message' kind small
    have counted := ((sendingMessages_eraseIdx found).count_eq message')
    rw [List.count_cons] at counted
    have before := holds.requests message' kind small
    have nothing : (sendingMessages []).count message' = 0 := rfl
    rw [nothing, counted] at before
    have one : (sendingMessages [(message, handler)]).count message' =
        if message == message' then 1 else 0 := by
      rw [sendingMessages, List.map_singleton, List.count_singleton]
    rw [one]
    show _ + (sendingMessages (node.sending.eraseIdx index)).count message' +
      (taskMessages node.endpoint.tasks).count message' + node.endpoint.executed.count message' =
        (calledRequests node.trace).count message'
    omega
  case tagged => exact fun message' id member => holds.tagged message' id (picked.subset member)
  case refused =>
    intro id request handler' called large
    rcases holds.refused id request handler' called large with waiting | failed
    · exact Or.inl (picked.symm.subset waiting)
    · exact Or.inr failed
  case told => exact holds.told
  case unclosed => exact holds.unclosed

/-- **What a label does to the client keeps the counts.** -/
theorem enter (holds : node.Conserves []) (accounts : Accounts node []) {entered : ClientNode R}
    {label : ClientNode.Label R}
    {endpointLabel : Option (Endpoint.Label UInt64)}
    (same : node.enter label = some (entered, endpointLabel)) :
    entered.Conserves (endpointLabel.elim [] Endpoint.Label.entries) := by
  unfold ClientNode.enter at same
  cases label with
  | callAsync service method payload handler =>
      simp only at same
      split_ifs at same
      · cases same
        exact ⟨holds.called, holds.requests, holds.tagged, holds.refused, holds.told, holds.unclosed⟩
      · cases same
        exact holds
  | register index =>
      simp only at same
      split at same
      case h_1 => cases same
      case h_2 request handler found =>
        cases same
        exact holds.register (accounts.calling request handler (List.mem_of_getElem? found))
  | notify service method payload =>
      simp only at same
      split_ifs at same
      · cases same
        exact holds.notify service method payload
      · cases same
        exact holds
  | send index =>
      simp only at same
      split_ifs at same
      split at same
      case h_1 => cases same
      case h_2 message handler found =>
        cases same
        exact holds.send found
  | close =>
      simp only at same
      split_ifs at same <;> cases same <;> exact holds
  | run | session =>
      cases same
      exact holds

/-- **The session's answer keeps the counts.** -/
theorem absorb {label : Endpoint.Label UInt64} (holds : node.Conserves label.entries)
    (wf : node.endpoint.session.Wf) {endpoint' : Endpoint UInt64} {effects : List (Effect UInt64)}
    (moves : Endpoint.Moves node.endpoint label endpoint' effects) :
    (node.absorb (endpoint', effects)).1.Conserves [] := by
  have noCall {id : UInt64} {request : RpcMessage} {handler : Option R}
      (called : .called id request handler ∈ node.trace ++ (node.client.handleAll effects).2) :
      .called id request handler ∈ node.trace := by
    rcases List.mem_append.mp called with old | new
    · exact old
    · rcases node.client.handleAll_mem new with ⟨_, _, same, _⟩ | ⟨_, _, same, _⟩ | ⟨same, _⟩ <;> cases same
  constructor
  case called => exact fun id request handler called => holds.called id request handler (noCall called)
  case requests =>
    intro message kind fits
    have before := holds.requests message kind fits
    have after := moves.count_message fits
    have nothing : (sendingMessages []).count message = 0 := rfl
    show _ + (sendingMessages node.sending).count message + (taskMessages endpoint'.tasks).count message +
      endpoint'.executed.count message =
        (calledRequests (node.trace ++ (node.client.handleAll effects).2)).count message
    rw [calledRequests_append, RpcClient.handleAll_calledRequests, List.append_nil, nothing]
    rw [sendingMessages, Endpoint.Label.map_fst_entries] at before
    omega
  case tagged =>
    intro message id member
    obtain ⟨handler, called⟩ := holds.tagged message id (List.mem_append_right _ member)
    exact ⟨handler, List.mem_append_left _ called⟩
  case refused =>
    intro id request handler called large
    rcases holds.refused id request handler (noCall called) large with waiting | failed
    · rcases List.mem_append.mp waiting with leaving | waiting
      · -- the session rejects it now, and tells its write handler
        have told := moves.rejects leaving large
        exact Or.inr (List.mem_append_right _ (node.client.writeFailed_mem_handleAll told (by simp)))
      · exact Or.inl waiting
    · exact Or.inr (List.mem_append_left _ failed)
  case told =>
    intro serving
    refine History.always_append (holds.told (moves.serving wf serving)) ?_
    rintro event new before initial id rfl
    rcases node.client.handleAll_mem new with ⟨_, _, same, _⟩ | ⟨id', error, same, wrote, bad⟩ | ⟨same, _⟩
    · cases same
    · cases same
      obtain ⟨message, leaving, large⟩ := moves.write_of_serving wf serving wrote bad
      obtain ⟨handler, called⟩ := holds.tagged message id (List.mem_append_left _ leaving)
      exact ⟨message, handler, initial.subset called, large⟩
    · cases same
  case unclosed =>
    intro serving closed
    rcases List.mem_append.mp closed with old | new
    · exact holds.unclosed (moves.serving wf serving) old
    · rcases node.client.handleAll_mem new with ⟨_, _, same, _⟩ | ⟨_, _, same, _⟩ | ⟨_, closes⟩
      · cases same
      · cases same
      · exact moves.close_of_serving wf serving closes

/-- **Every step keeps the counts.** -/
theorem step {node' : ClientNode R} (holds : node.Conserves []) (accounts : Accounts node [])
    (wf : node.endpoint.session.Wf) {label : ClientNode.Label R} {effects : List (Effect UInt64)}
    (stepped : node.step label = some (node', effects)) : node'.Conserves [] := by
  rcases ClientNode.step_cases stepped with ⟨same, _⟩ | ⟨entered, endpointLabel, endpoint', same, moved, rfl⟩
  · exact holds.enter accounts same
  · have wf' : entered.endpoint.session.Wf := by
      rw [ClientNode.enter_endpoint same]
      exact wf
    exact (holds.enter accounts same).absorb wf' (Endpoint.step_moves wf' moved)

end ClientNode.Conserves

/-- What one step adds to a client's history is one call, or what the callbacks were told. -/
theorem ClientNode.step_trace {node node' : ClientNode R} {label : ClientNode.Label R}
    {effects : List (Effect UInt64)} (stepped : node.step label = some (node', effects)) :
    ∃ events, node'.trace = node.trace ++ events ∧
      ((∃ id request handler, events = [.called id request handler]) ∨ calledRequests events = []) := by
  have entered_trace {entered : ClientNode R} {endpointLabel : Option (Endpoint.Label UInt64)}
      (same : node.enter label = some (entered, endpointLabel)) :
      entered.trace = node.trace ∨
        ∃ id request handler, entered.trace = node.trace ++ [.called id request handler] ∧
          endpointLabel = none := by
    unfold ClientNode.enter at same
    cases label with
    | callAsync | notify =>
        simp only at same
        split_ifs at same <;> cases same <;> exact Or.inl rfl
    | register =>
        simp only at same
        split at same <;> cases same
        exact Or.inr ⟨_, _, _, rfl, rfl⟩
    | send =>
        simp only at same
        split_ifs at same
        split at same <;> cases same
        exact Or.inl rfl
    | close | run | session =>
        cases same
        exact Or.inl rfl
  rcases ClientNode.step_cases stepped with ⟨same, _⟩ | ⟨entered, endpointLabel, endpoint', same, moved, rfl⟩
  · rcases entered_trace same with kept | ⟨id, request, handler, more, _⟩
    · exact ⟨[], by rw [kept, List.append_nil], Or.inr rfl⟩
    · exact ⟨_, more, Or.inl ⟨id, request, handler, rfl⟩⟩
  · rcases entered_trace same with kept | ⟨_, _, _, _, impossible⟩
    · refine ⟨(entered.client.handleAll effects).2, ?_, Or.inr (RpcClient.handleAll_calledRequests _ _)⟩
      rw [← kept]
      rfl
    · cases impossible

/-! ### A client and its server -/

namespace ClientServer

/-- The counts of a client and its server. -/
structure Conserves (pair : ClientServer R K) : Prop where
  client : pair.node.Conserves []
  given : ∀ request response, (request, response) ∈ pair.answers → response.kind = .response
  /-- A response that fits is posted or executed as often as the server has given it. -/
  responses : ∀ message, message.kind = .response → FitsFrame message →
    (taskMessages pair.server.tasks).count message + pair.server.executed.count message =
      (pair.answers.map Prod.snd).count message
  /-- A response comes after its call, and the server has given it. -/
  preceded : History.Always (fun before event => ∀ response outcome, event = .received response outcome →
    response.kind = .response → ∃ request handler, .called response.id request handler ∈ before ∧
      (request, response) ∈ pair.answers) pair.node.trace

namespace Conserves

theorem started (fd fd' : ℕ) : (ClientServer.started fd fd' : ClientServer R K).Conserves where
  client := ClientNode.Conserves.connected fd
  given := by simp [ClientServer.started]
  responses message _ _ := rfl
  preceded := History.always_nil

variable {pair pair' : ClientServer R K}

/-- A dispatched response is one that the server has given to a call made. -/
theorem answered_of_dispatched (correlates : Correlates pair) {response : RpcMessage}
    {outcome : Option R} (received : .received response outcome ∈ pair.node.trace)
    (kind : response.kind = .response) :
    ∃ request handler, .called response.id request handler ∈ pair.node.trace ∧
      (request, response) ∈ pair.answers := by
  have dispatched : response ∈ dispatched pair.node.trace :=
    List.mem_flatMap.mpr ⟨_, received, List.mem_singleton.mpr rfl⟩
  rw [correlates.accounts.dispatched] at dispatched
  have sent := correlates.back.delivered_initial.1.subset dispatched
  obtain ⟨request, answered⟩ := correlates.replies.executed response sent kind
  have asked : request ∈ (delivered pair.server.trace).filter (·.kind = .request) :=
    correlates.asked.subset (List.mem_append_left _ (List.mem_map.mpr ⟨_, answered, rfl⟩))
  obtain ⟨delivered, isRequest⟩ := List.mem_filter.mp asked
  have executed := correlates.forward.delivered_initial.1.subset delivered
  obtain ⟨handler, made⟩ := correlates.accounts.posted.executed request executed (by simpa using isRequest)
  rw [← correlates.matched request response answered] at made
  exact ⟨request, handler, made, answered⟩

/-- **A step of the client keeps the counts.** -/
theorem step_client (holds : Conserves pair) (before : Correlates pair) {label : ClientNode.Label R}
    {toClient toServer : List UInt8} {node : ClientNode R} {effects : List (Effect UInt64)}
    (stepped : pair.node.step label = some (node, effects))
    (after : Correlates { pair with node := node, toClient := toClient, toServer := toServer }) :
    Conserves { pair with node := node, toClient := toClient, toServer := toServer } where
  client := holds.client.step before.accounts before.good.wf stepped
  given := holds.given
  responses := holds.responses
  preceded := by
    obtain ⟨events, extended, calls⟩ := ClientNode.step_trace stepped
    show History.Always _ node.trace
    rw [extended]
    refine History.always_append holds.preceded ?_
    rintro event new earlier initial response outcome rfl kind
    obtain ⟨request, handler, called, answered⟩ := answered_of_dispatched after
      (by rw [show node.trace = _ from extended]; exact List.mem_append_right _ new) kind
    refine ⟨request, handler, initial.subset ?_, answered⟩
    -- a step that dispatches makes no call
    rw [show node.trace = _ from extended] at called
    rcases List.mem_append.mp called with old | recent
    · exact old
    · rcases calls with ⟨id, request', handler', rfl⟩ | none
      · cases List.mem_singleton.mp new
      · have member : request ∈ calledRequests events := mem_calledRequests.mpr ⟨_, _, recent⟩
        rw [none] at member
        cases member

/-- **A step of the server's session keeps the counts**, if its responses are given as answers. -/
theorem step_server (holds : Conserves pair) (wf : pair.server.session.Wf) {label : Endpoint.Label K}
    {toServer : List UInt8} {server : Endpoint K} {effects : List (Effect K)}
    (stepped : pair.server.step label = some (server, effects)) {owed : List RpcMessage}
    {answers : List (RpcMessage × RpcMessage)} (kept : ∀ entry ∈ pair.answers, entry ∈ answers)
    (given : ∀ request response, (request, response) ∈ answers → response.kind = .response)
    (counted : ∀ message, message.kind = .response →
      (answers.map Prod.snd).count message =
        label.messages.count message + (pair.answers.map Prod.snd).count message) :
    Conserves ({ pair with toServer := toServer, owed := owed, answers := answers }.serve
      (server, effects)) where
  client := holds.client
  given := given
  responses message kind fits := by
    have moved := (Endpoint.step_moves wf stepped).count_message fits
    have before := holds.responses message kind fits
    have more := counted message kind
    show (taskMessages server.tasks).count message + server.executed.count message =
      (answers.map Prod.snd).count message
    omega
  preceded before event after same response outcome dispatched kind := by
    obtain ⟨request, handler, called, answered⟩ :=
      holds.preceded before event after same response outcome dispatched kind
    exact ⟨request, handler, called, kept _ answered⟩

/-- **Every step keeps the counts.** -/
theorem step {label : Label R K} (holds : Conserves pair) (correlates : Correlates pair)
    (stepped : machine.step pair label = some pair') : Conserves pair' := by
  have after := correlates.step stepped
  cases label with
  | client label =>
      simp only [machine, ClientServer.step] at stepped
      split at stepped
      case h_1 => cases stepped
      case h_2 toClient read =>
        obtain ⟨⟨node, effects⟩, moved, rfl⟩ := Option.map_eq_some_iff.mp stepped
        exact holds.step_client correlates moved after
  | reply index response handler =>
      simp only [machine, ClientServer.step] at stepped
      split at stepped
      case h_1 => cases stepped
      case h_2 request found =>
        split_ifs at stepped with answer
        obtain ⟨⟨server, effects⟩, moved, rfl⟩ := Option.map_eq_some_iff.mp stepped
        refine holds.step_server correlates.wf moved (fun entry member => List.mem_append_left _ member)
          (fun request' response' member => ?_) fun message kind => ?_
        · rcases List.mem_append.mp member with old | new
          · exact holds.given request' response' old
          · cases List.mem_singleton.mp new
            exact answer.2.1
        rw [List.map_append, List.count_append, Nat.add_comm]
        rfl
  | push message handler =>
      simp only [machine, ClientServer.step] at stepped
      split_ifs at stepped with plain
      obtain ⟨⟨server, effects⟩, moved, rfl⟩ := Option.map_eq_some_iff.mp stepped
      refine holds.step_server correlates.wf moved (fun entry member => member) holds.given ?_
      intro other kind
      have apart : message ≠ other := by
        rintro rfl
        exact plain.1 kind
      have none : (Endpoint.Label.send message handler).messages.count other = 0 := by
        rw [Endpoint.Label.messages, List.count_singleton, if_neg (by simpa using apart)]
      rw [none, Nat.zero_add]
  | server label =>
      simp only [machine, ClientServer.step] at stepped
      split_ifs at stepped with silent
      split at stepped
      case h_1 => cases stepped
      case h_2 toServer read =>
        obtain ⟨⟨server, effects⟩, moved, rfl⟩ := Option.map_eq_some_iff.mp stepped
        refine holds.step_server correlates.wf moved (fun entry member => member) holds.given
          fun message kind => ?_
        rw [silent, List.count_nil, Nat.zero_add]

end Conserves

theorem run_conserves {fd fd' : ℕ} {labels : List (Label R K)} {final : ClientServer R K}
    (ran : machine.run (ClientServer.started fd fd') labels = some final) :
    Correlates final ∧ Conserves final := by
  refine Machine.invariant_run (fun pair : ClientServer R K => Correlates pair ∧ Conserves pair) ?_
    ⟨started_correlates fd fd', Conserves.started fd fd'⟩ ran
  rintro pair label next ⟨correlates, conserves⟩ stepped
  exact ⟨correlates.step stepped, conserves.step correlates stepped⟩

end ClientServer

end Insist.MiniRpc
