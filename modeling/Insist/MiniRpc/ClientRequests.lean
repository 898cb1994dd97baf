/-
**What a client sends and runs.**

`Accounts` follows a client's calls outwards and back: every request that is about to be sent, posted or
executed belongs to a call made, no call has more than one, and no call's response handler runs twice. It
also ties the dispatched messages to those the session delivered. `Accounts.step` is the step lemma that
the system of clients and server uses.
-/
import Insist.MiniRpc.Client

namespace Insist.MiniRpc

open Lib

variable {R : Type}

/-! ### What is counted -/

/-- The ids of the requests in a list of messages. -/
def requestIds (messages : List RpcMessage) : List UInt64 :=
  messages.flatMap fun message => if message.kind = .request then [message.id] else []

/-- The messages that were dispatched. -/
def dispatched (trace : List (ClientEvent R)) : List RpcMessage :=
  trace.flatMap fun
    | .received message _ => [message]
    | _ => []

/-- The ids of the calls whose response handlers ran. -/
def ranIds (trace : List (ClientEvent R)) : List UInt64 :=
  trace.flatMap fun
    | .received message (some _) => [message.id]
    | _ => []

/-- The messages of posted tasks. -/
def taskMessages {H : Type} (tasks : List (Task H)) : List RpcMessage :=
  tasks.flatMap Task.message

/-- The messages about to be sent. -/
def sendingMessages (sending : List (RpcMessage × Option UInt64)) : List RpcMessage :=
  sending.map Prod.fst

@[simp] theorem requestIds_append (first second : List RpcMessage) :
    requestIds (first ++ second) = requestIds first ++ requestIds second :=
  List.flatMap_append

@[simp] theorem dispatched_append (first second : List (ClientEvent R)) :
    dispatched (first ++ second) = dispatched first ++ dispatched second :=
  List.flatMap_append

@[simp] theorem ranIds_append (first second : List (ClientEvent R)) :
    ranIds (first ++ second) = ranIds first ++ ranIds second :=
  List.flatMap_append

theorem requestIds_perm {first second : List RpcMessage} (perm : first.Perm second) :
    (requestIds first).Perm (requestIds second) :=
  perm.flatMap_right _

theorem taskMessages_eraseIdx {H : Type} {tasks : List (Task H)} {index : ℕ} {task : Task H}
    (posted : tasks[index]? = some task) :
    (taskMessages tasks).Perm (task.message ++ taskMessages (tasks.eraseIdx index)) := by
  obtain ⟨inside, rfl⟩ := List.getElem?_eq_some_iff.mp posted
  exact (List.getElem_cons_eraseIdx_perm inside).symm.flatMap_right _

theorem sendingMessages_eraseIdx {sending : List (RpcMessage × Option UInt64)} {index : ℕ}
    {message : RpcMessage} {handler : Option UInt64}
    (found : sending[index]? = some (message, handler)) :
    (sendingMessages sending).Perm (message :: sendingMessages (sending.eraseIdx index)) := by
  obtain ⟨inside, same⟩ := List.getElem?_eq_some_iff.mp found
  have picked := (List.getElem_cons_eraseIdx_perm inside).symm.map Prod.fst
  rw [same] at picked
  exact picked

/-! ### The callbacks -/

/-- How many response handlers of a call have run, and whether it may still run one. -/
def handlerUses (client : RpcClient R) (trace : List (ClientEvent R)) (id : UInt64) : ℕ :=
  (ranIds trace).count id + if (client.pending id).isSome then 1 else 0

namespace RpcClient

/-- A callback runs a response handler only by taking the entry out of the table. -/
theorem handle_uses (client : RpcClient R) (effect : Effect UInt64) (trace : List (ClientEvent R))
    (id : UInt64) :
    handlerUses (client.handle effect).1 (trace ++ (client.handle effect).2) id ≤
      handlerUses client trace id := by
  have erased (other : UInt64) : ((client.erase other).pending id).isSome → (client.pending id).isSome := by
    unfold erase
    by_cases same : id = other
    · subst same
      simp
    · simp [Function.update_of_ne same]
  unfold handlerUses
  rw [ranIds_append, List.count_append]
  cases effect with
  | message message =>
      show _ + (ranIds (client.dispatchMessage message).2).count id +
        (if ((client.dispatchMessage message).1.pending id).isSome then 1 else 0) ≤ _
      unfold dispatchMessage
      by_cases response : message.kind = .response
      · rw [if_pos response]
        cases found : client.pending message.id with
        | none => simp [ranIds]
        | some handler =>
            by_cases same : id = message.id
            · subst same
              cases handler <;> simp [ranIds, erase, found]
            · have kept : (client.erase message.id).pending id = client.pending id :=
                Function.update_of_ne same _ _
              cases handler <;> simp [ranIds, kept, Ne.symm same]
      · rw [if_neg response]
        simp [ranIds]
  | write other error =>
      show _ + (ranIds (client.writeHandler other error).2).count id +
        (if ((client.writeHandler other error).1.pending id).isSome then 1 else 0) ≤ _
      unfold writeHandler
      by_cases told : error = .success
      · rw [if_pos told]
        simp [ranIds]
      · rw [if_neg told]
        have none : ranIds [(.writeFailed other : ClientEvent R)] = [] := rfl
        rw [none, List.count_nil]
        split_ifs with left before before
        · omega
        · exact absurd (erased other left) before
        · omega
        · omega
  | close =>
      show _ + (ranIds client.closeHandler.2).count id +
        (if (none : Option (Option R)).isSome then 1 else 0) ≤ _
      simp [ranIds, closeHandler]
  | _ => exact le_rfl

theorem handleAll_uses (client : RpcClient R) (effects : List (Effect UInt64))
    (trace : List (ClientEvent R)) (id : UInt64) :
    handlerUses (client.handleAll effects).1 (trace ++ (client.handleAll effects).2) id ≤
      handlerUses client trace id := by
  induction effects generalizing client trace with
  | nil =>
      show handlerUses client (trace ++ []) id ≤ _
      rw [List.append_nil]
  | cons effect effects ih =>
      have later := ih (client.handle effect).1 (trace ++ (client.handle effect).2)
      rw [List.append_assoc] at later
      exact later.trans (client.handle_uses effect trace id)

/-- **The messages dispatched are those the session hands out.** -/
theorem handleAll_dispatched (client : RpcClient R) (effects : List (Effect UInt64)) :
    dispatched (client.handleAll effects).2 = delivered effects := by
  induction effects generalizing client with
  | nil => rfl
  | cons effect effects ih =>
      show dispatched ((client.handle effect).2 ++ ((client.handle effect).1.handleAll effects).2) = _
      rw [dispatched_append, ih]
      have here : dispatched (client.handle effect).2 = delivered [effect] := by
        cases effect with
        | message message =>
            show dispatched (client.dispatchMessage message).2 = _
            unfold dispatchMessage
            by_cases response : message.kind = .response
            · rw [if_pos response]
              cases client.pending message.id <;> rfl
            · rw [if_neg response]
              rfl
        | write other error =>
            show dispatched (client.writeHandler other error).2 = _
            unfold writeHandler
            by_cases told : error = .success
            · rw [if_pos told]
              rfl
            · rw [if_neg told]
              rfl
        | _ => rfl
      rw [here, ← delivered_append]
      rfl

end RpcClient

/-! ### The accounts -/

/-- The request belongs to a call made. -/
def Made (trace : List (ClientEvent R)) (message : RpcMessage) : Prop :=
  message.kind = .request → ∃ handler, .called message.id message handler ∈ trace

theorem Made.mono {trace : List (ClientEvent R)} {message : RpcMessage} (made : Made trace message)
    (more : List (ClientEvent R)) : Made (trace ++ more) message := by
  intro request
  obtain ⟨handler, member⟩ := made request
  exact ⟨handler, List.mem_append_left _ member⟩

/-- The messages that a label hands to `Session::send`. -/
def Endpoint.Label.messages {H : Type} : Endpoint.Label H → List RpcMessage
  | .send message _ => [message]
  | _ => []

/-- How a client's calls stand to what it sends and runs; `outgoing` are the messages that it is handing to
`Session::send` in the current step. -/
structure Accounts (node : ClientNode R) (outgoing : List RpcMessage) : Prop where
  calling : ∀ request handler, (request, handler) ∈ node.calling →
    request.kind = .request ∧ request.status = 0
  sending : ∀ message handler, (message, handler) ∈ node.sending →
    message.status = 0 ∧ Made node.trace message
  leaving : ∀ message ∈ outgoing, message.status = 0 ∧ Made node.trace message
  posted : node.endpoint.Posted (Made node.trace)
  once : ∀ id, (requestIds outgoing).count id +
      (requestIds (sendingMessages node.sending)).count id +
      (requestIds (taskMessages node.endpoint.tasks)).count id +
      (requestIds node.endpoint.executed).count id ≤ (calledIds node.trace).count id
  uses : ∀ id, handlerUses node.client node.trace id ≤ (calledIds node.trace).count id
  dispatched : MiniRpc.dispatched node.trace = delivered node.endpoint.trace

namespace Accounts

theorem connected (fd : ℕ) : Accounts (ClientNode.connected fd : ClientNode R) [] where
  calling := by simp [ClientNode.connected]
  sending := by simp [ClientNode.connected]
  leaving := by simp
  posted := Endpoint.started_posted _ fd
  once id := by simp [ClientNode.connected, Endpoint.started, sendingMessages, taskMessages, requestIds]
  uses id := by simp [ClientNode.connected, handlerUses, ranIds]
  dispatched := rfl

variable {node : ClientNode R}

/-- The id of a call is allotted. -/
theorem allot (holds : Accounts node []) (service method payload : ByteString) (handler : Option R) :
    Accounts { node with
      client := node.client.allot
      calling := node.calling ++
        [(RpcClient.callMessage node.client.nextRequestId service method payload, handler)] } [] where
  calling request handler' member := by
    rcases List.mem_append.mp member with old | new
    · exact holds.calling request handler' old
    · obtain ⟨rfl, _⟩ := Prod.mk.inj (List.mem_singleton.mp new)
      exact ⟨rfl, rfl⟩
  sending := holds.sending
  leaving := holds.leaving
  posted := holds.posted
  once := holds.once
  uses := holds.uses
  dispatched := holds.dispatched

/-- A call in progress makes its entry. -/
theorem register (holds : Accounts node []) {index : ℕ} {request : RpcMessage} {handler : Option R}
    (found : node.calling[index]? = some (request, handler)) :
    Accounts { node with
      client := node.client.register request.id handler
      calling := node.calling.eraseIdx index
      sending := node.sending ++ [(request, some request.id)]
      trace := node.trace ++ [ClientEvent.called request.id request handler] } [] := by
  obtain ⟨kind, status⟩ := holds.calling request handler (List.mem_of_getElem? found)
  have ids : calledIds (node.trace ++ [ClientEvent.called request.id request handler]) =
      calledIds node.trace ++ [request.id] := by
    rw [calledIds_append]
    rfl
  constructor
  case calling =>
    exact fun other handler' member => holds.calling other handler' (List.mem_of_mem_eraseIdx member)
  case sending =>
    intro message handler' member
    rcases List.mem_append.mp member with old | new
    · obtain ⟨zero, made⟩ := holds.sending message handler' old
      exact ⟨zero, made.mono _⟩
    · obtain ⟨rfl, _⟩ := Prod.mk.inj (List.mem_singleton.mp new)
      exact ⟨status, fun _ => ⟨handler, by simp⟩⟩
  case leaving => simp
  case posted =>
    exact ⟨fun message handler' member => (holds.posted.tasks message handler' member).mono _,
      fun message member => (holds.posted.executed message member).mono _⟩
  case once =>
    intro id
    have more : requestIds (sendingMessages (node.sending ++ [(request, some request.id)])) =
        requestIds (sendingMessages node.sending) ++ [request.id] := by
      simp [sendingMessages, requestIds, kind]
    have before := holds.once id
    rw [ids, more, List.count_append, List.count_append]
    show _ + (_ + _) + (requestIds (taskMessages node.endpoint.tasks)).count id +
      (requestIds node.endpoint.executed).count id ≤ _
    omega
  case uses =>
    intro id
    have before := holds.uses id
    rw [ids, List.count_append]
    unfold handlerUses at before ⊢
    have none : ranIds [(.called request.id request handler : ClientEvent R)] = [] := rfl
    rw [ranIds_append, none, List.append_nil]
    by_cases same : id = request.id
    · subst same
      rw [List.count_singleton_self]
      split_ifs <;> omega
    · have kept : (node.client.register request.id handler).pending id = node.client.pending id :=
        Function.update_of_ne same _ _
      rw [kept]
      omega
  case dispatched =>
    rw [dispatched_append]
    simpa [MiniRpc.dispatched] using holds.dispatched

/-- `notify` begins. -/
theorem notify (holds : Accounts node []) (service method payload : ByteString) :
    Accounts { node with
      sending := node.sending ++ [(RpcClient.notifyMessage service method payload, none)] } [] where
  calling := holds.calling
  sending message handler member := by
    rcases List.mem_append.mp member with old | new
    · exact holds.sending message handler old
    · obtain ⟨rfl, _⟩ := Prod.mk.inj (List.mem_singleton.mp new)
      exact ⟨rfl, fun request => by cases request⟩
  leaving := holds.leaving
  posted := holds.posted
  once id := by
    have notRequest : (RpcClient.notifyMessage service method payload).kind ≠ .request := by
      show Kind.notify ≠ .request
      decide
    have more : requestIds (sendingMessages
        (node.sending ++ [(RpcClient.notifyMessage service method payload, none)])) =
        requestIds (sendingMessages node.sending) := by
      simp [sendingMessages, requestIds, notRequest]
    rw [more]
    exact holds.once id
  uses := holds.uses
  dispatched := holds.dispatched

/-- A message goes to `Session::send`. -/
theorem send (holds : Accounts node []) {index : ℕ} {message : RpcMessage} {handler : Option UInt64}
    (found : node.sending[index]? = some (message, handler)) :
    Accounts { node with sending := node.sending.eraseIdx index } [message] where
  calling := holds.calling
  sending other handler' member := holds.sending other handler' (List.mem_of_mem_eraseIdx member)
  leaving other member := by
    rw [List.mem_singleton.mp member]
    exact holds.sending message handler (List.mem_of_getElem? found)
  posted := holds.posted
  once id := by
    have picked := (requestIds_perm (sendingMessages_eraseIdx found)).count_eq id
    rw [← List.singleton_append, requestIds_append, List.count_append] at picked
    have before := holds.once id
    have none : requestIds [] = [] := rfl
    rw [picked, none, List.count_nil] at before
    show (requestIds [message]).count id +
      (requestIds (sendingMessages (node.sending.eraseIdx index))).count id +
      (requestIds (taskMessages node.endpoint.tasks)).count id +
      (requestIds node.endpoint.executed).count id ≤ (calledIds node.trace).count id
    omega
  uses := holds.uses
  dispatched := holds.dispatched

/-- **What a label does to the client keeps the accounts.** -/
theorem enter (holds : Accounts node []) {entered : ClientNode R} {label : ClientNode.Label R}
    {endpointLabel : Option (Endpoint.Label UInt64)}
    (same : node.enter label = some (entered, endpointLabel)) :
    Accounts entered (endpointLabel.elim [] Endpoint.Label.messages) := by
  unfold ClientNode.enter at same
  cases label with
  | callAsync service method payload handler =>
      simp only at same
      split_ifs at same
      · cases same
        exact holds.allot service method payload handler
      · cases same
        exact holds
  | register index =>
      simp only at same
      split at same
      case h_1 => cases same
      case h_2 request handler found =>
        cases same
        exact holds.register found
  | notify service method payload =>
      simp only at same
      split_ifs at same
      · cases same
        exact holds.notify service method payload
      · cases same
        exact holds
  | send index =>
      simp only at same
      split_ifs at same
      split at same
      case h_1 => cases same
      case h_2 message handler found =>
        cases same
        exact holds.send found
  | close =>
      simp only at same
      split_ifs at same <;> cases same <;> exact holds
  | run | session =>
      cases same
      exact holds

/-- **The session's answer keeps the accounts.** -/
theorem absorb {label : Endpoint.Label UInt64} (holds : Accounts node label.messages)
    {endpoint' : Endpoint UInt64} {effects : List (Effect UInt64)}
    (moves : Endpoint.Moves node.endpoint label endpoint' effects) :
    Accounts (node.absorb (endpoint', effects)).1 [] := by
  obtain ⟨_, noCalls⟩ := node.client.handleAll_numbers effects
  have ids : calledIds (node.trace ++ (node.client.handleAll effects).2) = calledIds node.trace := by
    rw [calledIds_append, noCalls, List.append_nil]
  have made : endpoint'.Posted (Made node.trace) := by
    refine moves.posted_good (fun message handler same _ => ?_) holds.posted
    exact (holds.leaving message (by rw [same]; exact List.mem_singleton.mpr rfl)).2
  constructor
  case calling => exact holds.calling
  case sending =>
    intro message handler member
    obtain ⟨zero, made⟩ := holds.sending message handler member
    exact ⟨zero, made.mono _⟩
  case leaving => simp
  case posted =>
    exact ⟨fun message handler member => (made.tasks message handler member).mono _,
      fun message member => (made.executed message member).mono _⟩
  case once =>
    intro id
    have before := holds.once id
    show (requestIds []).count id + (requestIds (sendingMessages node.sending)).count id +
      (requestIds (taskMessages endpoint'.tasks)).count id +
      (requestIds endpoint'.executed).count id ≤
        (calledIds (node.trace ++ (node.client.handleAll effects).2)).count id
    rw [ids]
    have none : requestIds [] = [] := rfl
    rw [none, List.count_nil]
    cases moves with
    | rejected large => exact le_trans (by simp) before
    | @posted message handler small =>
        have more : taskMessages (node.endpoint.tasks ++ [Task.send message handler]) =
            taskMessages node.endpoint.tasks ++ [message] := by
          simp [taskMessages, Task.message]
        rw [more, requestIds_append, List.count_append]
        have same : (Endpoint.Label.send message handler : Endpoint.Label UInt64).messages = [message] := rfl
        rw [same] at before
        show _ + _ + (_ + _) + (requestIds node.endpoint.executed).count id ≤ _
        omega
    | closePosted =>
        have more : taskMessages (node.endpoint.tasks ++ [Task.close]) = taskMessages node.endpoint.tasks := by
          simp [taskMessages, Task.message]
        rw [more]
        exact le_trans (by simp) before
    | @ran index task session effects posted moves =>
        have picked := (requestIds_perm (taskMessages_eraseIdx posted)).count_eq id
        rw [requestIds_append, List.count_append] at picked
        show 0 + _ + (requestIds (taskMessages (node.endpoint.tasks.eraseIdx index))).count id +
          (requestIds (node.endpoint.executed ++ task.message)).count id ≤ _
        rw [requestIds_append, List.count_append]
        omega
    | inside notTask moves =>
        show 0 + _ + (requestIds (taskMessages node.endpoint.tasks)).count id +
          (requestIds (node.endpoint.executed ++ [])).count id ≤ _
        rw [List.append_nil]
        omega
  case uses =>
    intro id
    show handlerUses (node.client.handleAll effects).1
      (node.trace ++ (node.client.handleAll effects).2) id ≤
        (calledIds (node.trace ++ (node.client.handleAll effects).2)).count id
    rw [ids]
    exact (node.client.handleAll_uses effects node.trace id).trans (holds.uses id)
  case dispatched =>
    show MiniRpc.dispatched (node.trace ++ (node.client.handleAll effects).2) = delivered endpoint'.trace
    rw [dispatched_append, node.client.handleAll_dispatched, moves.trace_eq, delivered_append,
      holds.dispatched]

end Accounts

end Insist.MiniRpc
