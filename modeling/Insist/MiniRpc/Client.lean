/-
**`minirpc::RpcClient`** (`include/minirpc/client.hpp`, `src/client.cpp`): the table of pending calls.

`RpcClient` has the members that the calls and the callbacks use, and the functions that change them;
`handle` is what the three callbacks that capture `this` do with an effect of the session. A
`ResponseHandler` may be empty, as a `std::function` may be. `ClientNode` is a client that has connected
once, with its session, and the history of what the client was asked and told. API calls may come between
any two steps of the loop thread, and `call_async` is cut where another thread can come in: after its id is
allotted, and after its entry is in the table.

* `toldBy`, `ClientEvent.told` — what the session's effects tell the client, and what its history says it
  was told;
* `Live` — a call has been made and nothing that ends it has happened since;
* `Table` — the pending table holds exactly the live calls, and every message was dispatched accordingly;
* `pending_iff_live` — the history and the table along every run.
-/
import Insist.MiniRpc.Send
import Mathlib.Data.List.Perm.Basic
import Mathlib.Data.List.Nodup

namespace Insist.MiniRpc

open Lib

variable {R : Type}

/-! ### The client's code -/

/-- The members of `RpcClient`. A session is known by its `Session::id_`; a `ResponseHandler` may be
empty. -/
structure RpcClient (R : Type) where
  /-- `session_`. -/
  session : Option ℕ := none
  /-- `next_request_id_`. -/
  nextRequestId : UInt64 := 1
  /-- `pending_`. -/
  pending : UInt64 → Option (Option R) := fun _ => none

/-- What a client is asked and told. -/
inductive ClientEvent (R : Type)
  /-- `call_async` has put this id into the table, and is about to send this request. -/
  | called (id : UInt64) (request : RpcMessage) (handler : Option R)
  /-- A message was dispatched: to this response handler, or to the client's message handler. -/
  | received (message : RpcMessage) (handler : Option R)
  /-- The write handler of a call was told an error. -/
  | writeFailed (id : UInt64)
  /-- The session's close handler ran. -/
  | closed
deriving DecidableEq, Repr

namespace RpcClient

/-- `pending_.erase(id)`. -/
def erase (client : RpcClient R) (id : UInt64) : RpcClient R :=
  { client with pending := Function.update client.pending id none }

/-- The message of `call_async`. -/
def callMessage (id : UInt64) (service method payload : ByteString) : RpcMessage :=
  { id := id, kind := .request, service := service, method := method, payload := payload }

/-- The message of `notify`. -/
def notifyMessage (service method payload : ByteString) : RpcMessage :=
  { kind := .notify, service := service, method := method, payload := payload }

/-- `next_request_id_.fetch_add(1)`. -/
def allot (client : RpcClient R) : RpcClient R :=
  { client with nextRequestId := client.nextRequestId + 1 }

/-- `pending_[id] = std::move(handler)`. -/
def register (client : RpcClient R) (id : UInt64) (handler : Option R) : RpcClient R :=
  { client with pending := Function.update client.pending id (some handler) }

/-- The write handler of the call with this id. -/
def writeHandler (client : RpcClient R) (id : UInt64) (error : ErrorCode) :
    RpcClient R × List (ClientEvent R) :=
  if error = .success then (client, []) else (client.erase id, [.writeFailed id])

/-- The close handler that `connect` sets. -/
def closeHandler (client : RpcClient R) : RpcClient R × List (ClientEvent R) :=
  ({ client with pending := fun _ => none, session := none }, [.closed])

/-- `dispatch_message`. -/
def dispatchMessage (client : RpcClient R) (message : RpcMessage) :
    RpcClient R × List (ClientEvent R) :=
  if message.kind = .response then
    match client.pending message.id with
    | some handler => (client.erase message.id, [.received message handler])
    | none => (client, [.received message none])
  else (client, [.received message none])

/-- What the client's callbacks do with an effect of its session. -/
def handle (client : RpcClient R) : Effect UInt64 → RpcClient R × List (ClientEvent R)
  | .message message => client.dispatchMessage message
  | .write id error => client.writeHandler id error
  | .close => client.closeHandler
  | _ => (client, [])

/-- The same for several effects, in order. -/
def handleAll (client : RpcClient R) : List (Effect UInt64) → RpcClient R × List (ClientEvent R)
  | [] => (client, [])
  | effect :: effects =>
      let (client, events) := client.handle effect
      let (client, later) := client.handleAll effects
      (client, events ++ later)

/-- The callbacks reset `session_` exactly if the close handler is among them. -/
theorem handleAll_session (client : RpcClient R) (effects : List (Effect UInt64)) :
    (client.handleAll effects).1.session =
      if effects.any Effect.isClose then none else client.session := by
  induction effects generalizing client with
  | nil => rfl
  | cons effect effects ih =>
      show ((client.handle effect).1.handleAll effects).1.session = _
      rw [ih, List.any_cons]
      have one : (client.handle effect).1.session =
          if effect.isClose then none else client.session := by
        cases effect with
        | message message =>
            show (client.dispatchMessage message).1.session = client.session
            unfold dispatchMessage
            split_ifs
            · cases client.pending message.id <;> rfl
            · rfl
        | write id error =>
            show (client.writeHandler id error).1.session = client.session
            unfold writeHandler
            split_ifs <;> rfl
        | _ => rfl
      rw [one]
      cases effect.isClose <;> simp

end RpcClient

/-! ### What the session tells the client -/

/-- What the session's callbacks can tell a client. -/
inductive Heard
  | message (message : RpcMessage)
  /-- A write handler is given an error. -/
  | writeFailed (id : UInt64)
  | closed
deriving DecidableEq, Repr

/-- What an effect of the session tells the client. -/
def toldBy : Effect UInt64 → List Heard
  | .message message => [.message message]
  | .write id error => if error = .success then [] else [.writeFailed id]
  | .close => [.closed]
  | _ => []

/-- What the client notes of it. -/
def ClientEvent.told : ClientEvent R → List Heard
  | .called _ _ _ => []
  | .received message _ => [.message message]
  | .writeFailed id => [.writeFailed id]
  | .closed => [.closed]

namespace RpcClient

/-- **A callback notes what the session tells it.** -/
theorem handle_told (client : RpcClient R) (effect : Effect UInt64) :
    (client.handle effect).2.flatMap ClientEvent.told = toldBy effect := by
  cases effect with
  | message message =>
      show (client.dispatchMessage message).2.flatMap ClientEvent.told = [.message message]
      unfold dispatchMessage
      by_cases response : message.kind = .response
      · rw [if_pos response]
        cases client.pending message.id <;> rfl
      · rw [if_neg response]
        rfl
  | write id error =>
      show (client.writeHandler id error).2.flatMap ClientEvent.told = toldBy (.write id error)
      unfold writeHandler
      by_cases told : error = .success
      · rw [if_pos told, toldBy, if_pos told]
        rfl
      · rw [if_neg told, toldBy, if_neg told]
        rfl
  | _ => rfl

theorem handleAll_told (client : RpcClient R) (effects : List (Effect UInt64)) :
    (client.handleAll effects).2.flatMap ClientEvent.told = effects.flatMap toldBy := by
  induction effects generalizing client with
  | nil => rfl
  | cons effect effects ih =>
      show ((client.handle effect).2 ++ ((client.handle effect).1.handleAll effects).2).flatMap _ = _
      rw [List.flatMap_append, handle_told, ih, List.flatMap_cons]

end RpcClient

/-! ### Live calls -/

/-- What ends a call: a response with its id, a write error, the close handler. -/
def ClientEvent.ends (id : UInt64) : ClientEvent R → Prop
  | .received message _ => message.kind = .response ∧ message.id = id
  | .writeFailed other => other = id
  | .closed => True
  | .called _ _ _ => False

/-- The call with this id and handler has been made, and nothing has ended it since. -/
def Live (trace : List (ClientEvent R)) (id : UInt64) (handler : Option R) : Prop :=
  ∃ before request after, trace = before ++ .called id request handler :: after ∧
    ∀ event ∈ after, ¬ event.ends id

/-- The ids that `call_async` has allotted. -/
def calledIds (trace : List (ClientEvent R)) : List UInt64 :=
  trace.flatMap fun
    | .called id _ _ => [id]
    | _ => []

@[simp] theorem calledIds_append (first second : List (ClientEvent R)) :
    calledIds (first ++ second) = calledIds first ++ calledIds second :=
  List.flatMap_append

theorem Live.mem_calledIds {trace : List (ClientEvent R)} {id : UInt64} {handler : Option R}
    (live : Live trace id handler) : id ∈ calledIds trace := by
  obtain ⟨before, request, after, rfl, _⟩ := live
  simp [calledIds]

/-- A call is live after one more event if it is the call just made, or was live and has not ended. -/
theorem live_append_singleton {trace : List (ClientEvent R)} {event : ClientEvent R} {id : UInt64}
    {handler : Option R} :
    Live (trace ++ [event]) id handler ↔
      (∃ request, event = .called id request handler) ∨ Live trace id handler ∧ ¬ event.ends id := by
  constructor
  · rintro ⟨before, request, after, same, alive⟩
    rcases List.eq_nil_or_concat after with rfl | ⟨init, last, rfl⟩
    · obtain ⟨_, last⟩ := List.append_inj' same rfl
      exact Or.inl ⟨request, List.singleton_inj.mp last⟩
    · rw [List.concat_eq_append, ← List.cons_append, ← List.append_assoc] at same
      obtain ⟨rfl, last⟩ := List.append_inj' same rfl
      obtain rfl := List.singleton_inj.mp last
      refine Or.inr ⟨⟨before, request, init, rfl, fun other member => ?_⟩, ?_⟩
      · exact alive other (by simp [member])
      · exact alive event (by simp)
  · rintro (⟨request, rfl⟩ | ⟨⟨before, request, after, rfl, alive⟩, goes⟩)
    · exact ⟨trace, request, [], rfl, by simp⟩
    · refine ⟨before, request, after ++ [event], by simp, fun other member => ?_⟩
      rcases List.mem_append.mp member with old | new
      · exact alive other old
      · rwa [List.mem_singleton.mp new]

/-! ### The table -/

/-- The table holds exactly the live calls, and every message went where it belongs: to the handler of
the live call with its id if it is a response and that handler is not empty, else to the client's message
handler. -/
structure Table (client : RpcClient R) (trace : List (ClientEvent R)) : Prop where
  pending : ∀ id handler, client.pending id = some handler ↔ Live trace id handler
  dispatched : ∀ before message outcome after, trace = before ++ .received message outcome :: after →
    ∀ handler, outcome = some handler ↔
      message.kind = .response ∧ Live before message.id (some handler)

theorem table_nil (session : Option ℕ) : Table ({ session := session } : RpcClient R) [] where
  pending id handler := by
    constructor
    · intro impossible
      cases impossible
    · rintro ⟨before, request, after, same, _⟩
      simp at same
  dispatched before message outcome after same := by simp at same

namespace Table

variable {client client' : RpcClient R} {trace : List (ClientEvent R)}

/-- One more event that is not a dispatch. -/
theorem append_event (holds : Table client trace) {event : ClientEvent R}
    (notDispatch : ∀ message outcome, event ≠ .received message outcome)
    (pending : ∀ id handler, client'.pending id = some handler ↔
      (∃ request, event = .called id request handler) ∨
        client.pending id = some handler ∧ ¬ event.ends id) :
    Table client' (trace ++ [event]) where
  pending id handler := by rw [pending, live_append_singleton, holds.pending]
  dispatched before message outcome after same := by
    rcases List.eq_nil_or_concat after with rfl | ⟨init, last, rfl⟩
    · obtain ⟨_, last⟩ := List.append_inj' same rfl
      exact absurd (List.singleton_inj.mp last) (notDispatch message outcome)
    · rw [List.concat_eq_append, ← List.cons_append, ← List.append_assoc] at same
      exact holds.dispatched before message outcome init (List.append_inj' same rfl).1

/-- **The write handler keeps the table.** -/
theorem writeHandler (holds : Table client trace) (id : UInt64) (error : ErrorCode) :
    Table (client.writeHandler id error).1 (trace ++ (client.writeHandler id error).2) := by
  unfold RpcClient.writeHandler
  by_cases told : error = .success
  · rw [if_pos told, List.append_nil]
    exact holds
  · rw [if_neg told]
    refine holds.append_event (by simp) fun other handler => ?_
    show Function.update client.pending id none other = some handler ↔ _
    by_cases same : other = id
    · subst same
      simp [ClientEvent.ends]
    · rw [Function.update_of_ne same]
      simp [ClientEvent.ends, Ne.symm same]

/-- **The close handler keeps the table.** -/
theorem closeHandler (holds : Table client trace) :
    Table client.closeHandler.1 (trace ++ client.closeHandler.2) :=
  holds.append_event (by simp) fun id handler => by simp [RpcClient.closeHandler, ClientEvent.ends]

/-- **A dispatch keeps the table, and goes where it belongs.** -/
theorem dispatchMessage (holds : Table client trace) (message : RpcMessage) :
    Table (client.dispatchMessage message).1 (trace ++ (client.dispatchMessage message).2) := by
  -- the table after the dispatch, and the handler that was run
  obtain ⟨outcome, events, right, pending⟩ : ∃ outcome,
      (client.dispatchMessage message).2 = [.received message outcome] ∧
      (∀ handler, outcome = some handler ↔
        message.kind = .response ∧ client.pending message.id = some (some handler)) ∧
      ∀ id handler, (client.dispatchMessage message).1.pending id = some handler ↔
        client.pending id = some handler ∧ ¬ (message.kind = .response ∧ message.id = id) := by
    unfold RpcClient.dispatchMessage
    by_cases response : message.kind = .response
    · rw [if_pos response]
      cases found : client.pending message.id with
      | none =>
          refine ⟨none, rfl, by simp, fun id handler => ?_⟩
          by_cases same : message.id = id
          · subst same
            simp [found]
          · simp [same]
      | some handler =>
          refine ⟨handler, rfl, fun other => by simp [response], fun id other => ?_⟩
          show Function.update client.pending message.id none id = some other ↔ _
          by_cases same : id = message.id
          · subst same
            simp [response]
          · rw [Function.update_of_ne same]
            simp [Ne.symm same]
    · rw [if_neg response]
      exact ⟨none, rfl, by simp [response], by simp [response]⟩
  rw [events]
  refine ⟨fun id handler => ?_, fun before message' outcome' after same => ?_⟩
  · rw [pending, live_append_singleton, holds.pending]
    simp [ClientEvent.ends]
  · rcases List.eq_nil_or_concat after with rfl | ⟨init, last, rfl⟩
    · obtain ⟨rfl, last⟩ := List.append_inj' same rfl
      obtain ⟨rfl, rfl⟩ := ClientEvent.received.inj (List.singleton_inj.mp last)
      intro handler
      rw [right, holds.pending]
    · rw [List.concat_eq_append, ← List.cons_append, ← List.append_assoc] at same
      exact holds.dispatched before message' outcome' init (List.append_inj' same rfl).1

/-- **Every callback keeps the table.** -/
theorem handle (holds : Table client trace) (effect : Effect UInt64) :
    Table (client.handle effect).1 (trace ++ (client.handle effect).2) := by
  have kept : Table client (trace ++ []) := by rwa [List.append_nil]
  cases effect with
  | message message => exact holds.dispatchMessage message
  | write id error => exact holds.writeHandler id error
  | close => exact holds.closeHandler
  | _ => exact kept

theorem handleAll (holds : Table client trace) (effects : List (Effect UInt64)) :
    Table (client.handleAll effects).1 (trace ++ (client.handleAll effects).2) := by
  induction effects generalizing client trace with
  | nil => rwa [RpcClient.handleAll, List.append_nil]
  | cons effect effects ih =>
      have later := ih (holds.handle effect)
      rw [List.append_assoc] at later
      exact later

/-- **A call with a fresh id keeps the table.** -/
theorem register (holds : Table client trace) {id : UInt64} (fresh : id ∉ calledIds trace)
    (request : RpcMessage) (handler : Option R) :
    Table (client.register id handler) (trace ++ [ClientEvent.called id request handler]) := by
  refine holds.append_event (by simp) fun other handler' => ?_
  show Function.update client.pending id (some handler) other = some handler' ↔ _
  by_cases same : other = id
  · subst same
    have notPending : client.pending other ≠ some handler' :=
      fun pending => fresh ((holds.pending _ _).mp pending).mem_calledIds
    simp [notPending]
  · rw [Function.update_of_ne same]
    simp [ClientEvent.ends, Ne.symm same]

end Table

/-! ### The ids -/

/-- The first `count` ids that `next_request_id_` gives. -/
def allotted (count : ℕ) : List UInt64 :=
  (List.range count).map fun index => UInt64.ofNat (index + 1)

theorem allotted_succ (count : ℕ) :
    allotted (count + 1) = allotted count ++ [UInt64.ofNat (count + 1)] := by
  rw [allotted, List.range_succ, List.map_append]
  rfl

/-- Up to `2 ^ 64` calls have different ids. -/
theorem allotted_nodup {count : ℕ} (few : count ≤ 2 ^ 64) : (allotted count).Nodup := by
  refine List.nodup_range.map_on fun first before second before' same => ?_
  rw [List.mem_range] at before before'
  have residues := congrArg UInt64.toNat same
  rw [UInt64.toNat_ofNat', UInt64.toNat_ofNat'] at residues
  omega

namespace RpcClient

/-- The callbacks allot no ids. -/
theorem handle_numbers (client : RpcClient R) (effect : Effect UInt64) :
    (client.handle effect).1.nextRequestId = client.nextRequestId ∧
      calledIds (client.handle effect).2 = [] := by
  cases effect with
  | message message =>
      show (client.dispatchMessage message).1.nextRequestId = _ ∧ _
      unfold dispatchMessage handle
      by_cases response : message.kind = .response
      · cases found : client.pending message.id with
        | none => simp [dispatchMessage, response, found, calledIds]
        | some handler => simp [dispatchMessage, response, found, erase, calledIds]
      · simp [dispatchMessage, response, calledIds]
  | write id error =>
      show (client.writeHandler id error).1.nextRequestId = _ ∧
        calledIds (client.writeHandler id error).2 = _
      unfold writeHandler
      by_cases told : error = .success
      · rw [if_pos told]
        exact ⟨rfl, rfl⟩
      · rw [if_neg told]
        exact ⟨rfl, rfl⟩
  | _ => exact ⟨rfl, rfl⟩

theorem handleAll_numbers (client : RpcClient R) (effects : List (Effect UInt64)) :
    (client.handleAll effects).1.nextRequestId = client.nextRequestId ∧
      calledIds (client.handleAll effects).2 = [] := by
  induction effects generalizing client with
  | nil => exact ⟨rfl, rfl⟩
  | cons effect effects ih =>
      obtain ⟨next, none⟩ := client.handle_numbers effect
      obtain ⟨next', none'⟩ := ih (client.handle effect).1
      refine ⟨next'.trans next, ?_⟩
      show calledIds ((client.handle effect).2 ++ ((client.handle effect).1.handleAll effects).2) = []
      rw [calledIds_append, none, none', List.append_nil]

end RpcClient

/-! ### A client with its session -/

/-- A client that has connected once, its session, the API calls in progress, and what the client was
asked and told. -/
structure ClientNode (R : Type) where
  client : RpcClient R
  endpoint : Endpoint UInt64
  /-- Calls whose id has been allotted. -/
  calling : List (RpcMessage × Option R) := []
  /-- Messages that are about to be sent, those of calls with the id that the write handler captures. -/
  sending : List (RpcMessage × Option UInt64) := []
  trace : List (ClientEvent R) := []

namespace ClientNode

/-- The API calls, and the steps of the loop thread. -/
inductive Label (R : Type)
  /-- `call_async` begins: it checks the connection and allots the id. -/
  | callAsync (service method payload : ByteString) (handler : Option R)
  /-- A `call_async` in progress makes its entry. -/
  | register (index : ℕ)
  /-- `notify` begins: it checks the connection. -/
  | notify (service method payload : ByteString)
  /-- A `call_async` or `notify` in progress calls `session_->send`. -/
  | send (index : ℕ)
  | close
  | run (index : ℕ)
  | session (action : Action UInt64)
deriving DecidableEq, Repr

/-- A client whose `connect` has returned. -/
def connected (fd : ℕ) : ClientNode R :=
  { client := { session := some fd }, endpoint := .started fd }

/-- `RpcClient::connected`. -/
def isConnected (node : ClientNode R) : Bool :=
  node.client.session.isSome && node.endpoint.session.open_

/-- What a label does to the client, and what it then asks of the session. `call_async` and `notify` throw
when the client is not connected, and `close` does nothing without a session. -/
def enter (node : ClientNode R) :
    Label R → Option (ClientNode R × Option (Endpoint.Label UInt64))
  | .callAsync service method payload handler =>
      if node.isConnected then
        let request := RpcClient.callMessage node.client.nextRequestId service method payload
        some ({ node with
          client := node.client.allot, calling := node.calling ++ [(request, handler)] }, none)
      else some (node, none)
  | .register index =>
      match node.calling[index]? with
      | none => none
      | some (request, handler) =>
          some ({ node with
            client := node.client.register request.id handler
            calling := node.calling.eraseIdx index
            sending := node.sending ++ [(request, some request.id)]
            trace := node.trace ++ [.called request.id request handler] }, none)
  | .notify service method payload =>
      if node.isConnected then
        let message := RpcClient.notifyMessage service method payload
        some ({ node with sending := node.sending ++ [(message, none)] }, none)
      else some (node, none)
  | .send index =>
      if node.client.session.isSome then
        match node.sending[index]? with
        | none => none
        | some (message, handler) =>
            some ({ node with sending := node.sending.eraseIdx index }, some (.send message handler))
      else none
  | .close => some (node, if node.client.session.isSome then some .close else none)
  | .run index => some (node, some (.run index))
  | .session action => some (node, some (.session action))

/-- The node after the session has answered. -/
def absorb (node : ClientNode R) (answer : Endpoint UInt64 × List (Effect UInt64)) :
    ClientNode R × List (Effect UInt64) :=
  ({ node with
      client := (node.client.handleAll answer.2).1, endpoint := answer.1
      trace := node.trace ++ (node.client.handleAll answer.2).2 }, answer.2)

/-- One step, and the effects of the session. -/
def step (node : ClientNode R) (label : Label R) : Option (ClientNode R × List (Effect UInt64)) :=
  match node.enter label with
  | none => none
  | some (node, none) => some (node, [])
  | some (node, some label) => (node.endpoint.step label).map node.absorb

def machine : Machine (ClientNode R) (Label R) where
  step node label := (node.step label).map Prod.fst

/-- A step changes the client, and perhaps lets the session answer. -/
theorem step_cases {node node' : ClientNode R} {label : Label R} {effects : List (Effect UInt64)}
    (stepped : node.step label = some (node', effects)) :
    (node.enter label = some (node', none) ∧ effects = []) ∨
      ∃ entered endpointLabel endpoint', node.enter label = some (entered, some endpointLabel) ∧
        entered.endpoint.step endpointLabel = some (endpoint', effects) ∧
        node' = (entered.absorb (endpoint', effects)).1 := by
  unfold step at stepped
  split at stepped
  case h_1 => cases stepped
  case h_2 entered same =>
    cases stepped
    exact Or.inl ⟨same, rfl⟩
  case h_3 entered endpointLabel same =>
    obtain ⟨answer, moved, result⟩ := Option.map_eq_some_iff.mp stepped
    cases result
    exact Or.inr ⟨entered, endpointLabel, answer.1, same, moved, rfl⟩

/-- Nothing but the session's answer changes the session. -/
theorem enter_endpoint {node entered : ClientNode R} {label : Label R}
    {endpointLabel : Option (Endpoint.Label UInt64)}
    (same : node.enter label = some (entered, endpointLabel)) : entered.endpoint = node.endpoint := by
  unfold enter at same
  cases label with
  | callAsync | notify =>
      simp only at same
      split_ifs at same <;> cases same <;> rfl
  | register =>
      simp only at same
      split at same <;> cases same
      rfl
  | send =>
      simp only at same
      split_ifs at same
      split at same <;> cases same
      rfl
  | close | run | session =>
      cases same
      rfl

/-- All ids allotted so far: those of the calls made, and those of the calls about to be made. -/
def allIds (node : ClientNode R) : List UInt64 :=
  calledIds node.trace ++ node.calling.map fun call => call.1.id

/-- The invariant: the history has what the session has told, the ids are the first ones that the counter
gives, and as long as they are different the table is right. -/
structure Good (node : ClientNode R) : Prop where
  wf : node.endpoint.session.Wf
  told : node.trace.flatMap ClientEvent.told = node.endpoint.trace.flatMap toldBy
  ids : node.allIds.Perm (allotted node.allIds.length)
  next : node.client.nextRequestId = UInt64.ofNat (node.allIds.length + 1)
  table : node.allIds.length < 2 ^ 64 → Table node.client node.trace

theorem connected_good (fd : ℕ) : (connected fd : ClientNode R).Good where
  wf := Session.started_wf fd
  told := rfl
  ids := List.Perm.refl _
  next := rfl
  table _ := table_nil (some fd)

theorem Good.nodup {node : ClientNode R} (holds : node.Good) (few : node.allIds.length < 2 ^ 64) :
    node.allIds.Nodup :=
  holds.ids.nodup_iff.mpr (allotted_nodup few.le)

/-- The next id is allotted. -/
theorem Good.allot {node : ClientNode R} (holds : node.Good) (request : RpcMessage)
    (numbered : request.id = node.client.nextRequestId) (handler : Option R) :
    Good { node with client := node.client.allot, calling := node.calling ++ [(request, handler)] } := by
  have more : ({ node with
        client := node.client.allot, calling := node.calling ++ [(request, handler)] } :
      ClientNode R).allIds = node.allIds ++ [node.client.nextRequestId] := by
    simp [allIds, numbered]
  have longer : (node.allIds ++ [node.client.nextRequestId]).length = node.allIds.length + 1 := by
    simp
  constructor
  case wf => exact holds.wf
  case told => exact holds.told
  case ids =>
    rw [more, longer, allotted_succ, holds.next]
    exact holds.ids.append_right _
  case next =>
    rw [more, longer]
    show node.client.nextRequestId + 1 = _
    rw [holds.next, UInt64.ofNat_add (node.allIds.length + 1) 1]
    rfl
  case table =>
    intro few
    rw [more, longer] at few
    have table := holds.table (by omega)
    exact ⟨table.pending, table.dispatched⟩

/-- A call in progress makes its entry. -/
theorem Good.register {node : ClientNode R} (holds : node.Good) {index : ℕ} {request : RpcMessage}
    {handler : Option R} (calling : node.calling[index]? = some (request, handler)) :
    Good { node with
      client := node.client.register request.id handler
      calling := node.calling.eraseIdx index
      sending := node.sending ++ [(request, some request.id)]
      trace := node.trace ++ [ClientEvent.called request.id request handler] } := by
  obtain ⟨inside, found⟩ := List.getElem?_eq_some_iff.mp calling
  have perm : ({ node with
      client := node.client.register request.id handler
      calling := node.calling.eraseIdx index
      sending := node.sending ++ [(request, some request.id)]
      trace := node.trace ++ [ClientEvent.called request.id request handler] } : ClientNode R).allIds.Perm
        node.allIds := by
    have picked := (List.getElem_cons_eraseIdx_perm inside).map fun call => call.1.id
    rw [found] at picked
    rw [allIds, calledIds_append, List.append_assoc]
    exact List.Perm.append_left _ picked
  constructor
  case wf => exact holds.wf
  case told => simpa [ClientEvent.told] using holds.told
  case ids =>
    rw [perm.length_eq]
    exact perm.trans holds.ids
  case next =>
    rw [perm.length_eq]
    exact holds.next
  case table =>
    rw [perm.length_eq]
    intro few
    refine (holds.table few).register (fun member => ?_) request handler
    have apart := (List.nodup_append.mp (holds.nodup few)).2.2
    refine apart request.id member request.id ?_ rfl
    exact List.mem_map.mpr ⟨(request, handler), List.mem_of_getElem? calling, rfl⟩

/-- The calls in progress that only send leave the client alone. -/
theorem Good.congr {node node' : ClientNode R} (holds : node.Good)
    (client : node'.client = node.client) (endpoint : node'.endpoint = node.endpoint)
    (calling : node'.calling = node.calling) (trace : node'.trace = node.trace) : node'.Good := by
  have same : node'.allIds = node.allIds := by
    rw [allIds, allIds, calling, trace]
  constructor
  · rw [endpoint]
    exact holds.wf
  · rw [endpoint, trace]
    exact holds.told
  · rw [same]
    exact holds.ids
  · rw [same, client]
    exact holds.next
  · rw [same, client, trace]
    exact holds.table

/-- **What a label does to the client keeps the invariant.** -/
theorem Good.enter {node entered : ClientNode R} (holds : node.Good) {label : Label R}
    {endpointLabel : Option (Endpoint.Label UInt64)}
    (same : node.enter label = some (entered, endpointLabel)) : entered.Good := by
  unfold ClientNode.enter at same
  cases label with
  | callAsync service method payload handler =>
      simp only at same
      split_ifs at same
      · cases same
        exact holds.allot _ rfl handler
      · cases same
        exact holds
  | register index =>
      simp only at same
      split at same
      case h_1 => cases same
      case h_2 request handler calling =>
        cases same
        exact holds.register calling
  | notify service method payload =>
      simp only at same
      split_ifs at same <;> cases same
      · exact holds.congr rfl rfl rfl rfl
      · exact holds
  | send index =>
      simp only at same
      split_ifs at same
      split at same <;> cases same
      exact holds.congr rfl rfl rfl rfl
  | close | run | session =>
      cases same
      exact holds

/-- **The session's answer keeps the invariant.** -/
theorem Good.absorb {node : ClientNode R} (holds : node.Good) {label : Endpoint.Label UInt64}
    {endpoint' : Endpoint UInt64} {effects : List (Effect UInt64)}
    (moved : node.endpoint.step label = some (endpoint', effects)) :
    (node.absorb (endpoint', effects)).1.Good := by
  obtain ⟨next, none⟩ := node.client.handleAll_numbers effects
  have same : (node.absorb (endpoint', effects)).1.allIds = node.allIds := by
    rw [allIds, allIds, ClientNode.absorb, calledIds_append, none, List.append_nil]
  have moves := Endpoint.step_moves holds.wf moved
  constructor
  · exact moves.wf holds.wf
  · show (node.trace ++ (node.client.handleAll effects).2).flatMap ClientEvent.told =
      endpoint'.trace.flatMap toldBy
    rw [moves.trace_eq, List.flatMap_append, List.flatMap_append, holds.told, RpcClient.handleAll_told]
  · rw [same]
    exact holds.ids
  · rw [same]
    exact next.trans holds.next
  · rw [same]
    exact fun few => (holds.table few).handleAll effects

/-- **Every step keeps the invariant.** -/
theorem Good.step {node node' : ClientNode R} {label : Label R} {effects : List (Effect UInt64)}
    (holds : node.Good) (stepped : node.step label = some (node', effects)) : node'.Good := by
  rcases step_cases stepped with ⟨same, _⟩ | ⟨entered, endpointLabel, endpoint', same, moved, rfl⟩
  · exact holds.enter same
  · exact (holds.enter same).absorb moved

theorem run_good {fd : ℕ} {labels : List (Label R)} {final : ClientNode R}
    (ran : machine.run (connected fd) labels = some final) : final.Good := by
  refine Machine.invariant_run Good (fun holds stepped => ?_) (connected_good fd) ran
  obtain ⟨⟨next, effects⟩, moved, rfl⟩ := Option.map_eq_some_iff.mp stepped
  exact holds.step moved

/-- **The pending table.** In every state that a client with fewer than `2 ^ 64` calls reaches, its history
has exactly the messages, write errors and the close that its session has reported, in that order; the ids
are the first ones that the counter gives; the table holds exactly the live calls with their handlers; and
so a message was handed to a response handler exactly if it was a response and the call with its id was live
then, with that handler, and every other message went to the client's message handler. -/
theorem pending_iff_live {fd : ℕ} {labels : List (Label R)} {final : ClientNode R}
    (ran : machine.run (connected fd) labels = some final) (few : final.allIds.length < 2 ^ 64) :
    final.trace.flatMap ClientEvent.told = final.endpoint.trace.flatMap toldBy ∧
    final.allIds.Perm (allotted final.allIds.length) ∧
    (∀ id handler, final.client.pending id = some handler ↔ Live final.trace id handler) ∧
    ∀ before message outcome after, final.trace = before ++ .received message outcome :: after →
      ∀ handler, outcome = some handler ↔
        message.kind = .response ∧ Live before message.id (some handler) :=
  have good := run_good ran
  ⟨good.told, good.ids, (good.table few).pending, (good.table few).dispatched⟩

/-- Two calls are written. The first is answered twice, and the second answer is unsolicited; a notification
follows. The write of a third call then fails, and the connection ends with the second call in the table. -/
def answeredTwice : List (Label ℕ) :=
  [.callAsync .nil .nil .nil (some 7), .callAsync .nil .nil .nil (some 8), .register 0, .register 0,
    .send 0, .send 0, .run 0, .session (.modify .ok), .session (.send (.accepted 8)),
    .session (.modify .ok), .run 0, .session (.modify .ok), .session (.send (.accepted 8)),
    .session (.modify .ok), .session (.handleEvents { in_ := true }),
    .session (.recv (.data (frameOf { id := 1, kind := .response }))),
    .session (.recv (.data (frameOf { id := 1, kind := .response }))),
    .session (.recv (.data (frameOf { kind := .notify }))),
    .session (.recv (.error .eagain)), .session .parse, .session .parse, .session .parse,
    .session .parse, .callAsync .nil .nil .nil (some 9), .register 0, .send 0, .run 0,
    .session (.modify .ok), .session (.send (.error (.other 104))), .session .drain, .session .drain,
    .session .drain]

theorem answeredTwice_dispatched :
    ∃ final, machine.run (connected 5) answeredTwice = some final ∧
      final.trace = [.called 1 (RpcClient.callMessage 1 .nil .nil .nil) (some 7),
        .called 2 (RpcClient.callMessage 2 .nil .nil .nil) (some 8),
        .received { id := 1, kind := .response } (some 7),
        .received { id := 1, kind := .response } none, .received { kind := .notify } none,
        .called 3 (RpcClient.callMessage 3 .nil .nil .nil) (some 9), .writeFailed 3, .closed] ∧
      final.endpoint.trace.flatMap toldBy = [.message { id := 1, kind := .response },
        .message { id := 1, kind := .response }, .message { kind := .notify }, .writeFailed 3, .closed] ∧
      final.client.pending 2 = none ∧ ¬ Live final.trace 2 (some 8) := by
  obtain ⟨final, ran, few, empty, trace⟩ :
      ∃ final, machine.run (connected 5) answeredTwice = some final ∧
        final.allIds.length < 2 ^ 64 ∧ final.client.pending 2 = none ∧
        final.trace = [.called 1 (RpcClient.callMessage 1 .nil .nil .nil) (some 7),
          .called 2 (RpcClient.callMessage 2 .nil .nil .nil) (some 8),
          .received { id := 1, kind := .response } (some 7),
          .received { id := 1, kind := .response } none, .received { kind := .notify } none,
          .called 3 (RpcClient.callMessage 3 .nil .nil .nil) (some 9), .writeFailed 3, .closed] := by
    refine ⟨(machine.run (connected 5) answeredTwice).get (by decide +kernel),
      (Option.some_get _).symm, ?_⟩
    decide +kernel
  obtain ⟨told, _, pending, _⟩ := pending_iff_live ran few
  refine ⟨final, ran, trace, ?_, empty, fun live => ?_⟩
  · rw [← told, trace]
    rfl
  · rw [← pending, empty] at live
    cases live

end ClientNode

end Insist.MiniRpc
