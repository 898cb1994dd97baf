/-
**A client and the demo server** (`examples/server_main.cpp`).

The demo server's two handlers run on the loop thread, inside the step that calls them: the session handler
sends the welcome as soon as the session has been started, and the message handler answers a request at once
with what `handle_demo_request` makes of it. `DemoPair` is a client, the server's session for it with these
handlers, and the two byte streams between them; what is printed is left out.

* `Moves.delivered_cases` — a step of a session hands out at most one message, decoded from an admissible
  payload;
* `handled` — so `handle_demo_request` never throws;
* `step_refines` — every step of a `DemoPair` is one or two steps of `ClientServer`, in which nothing stays
  owed;
* `run_refines` — hence every run, and every answer given is the one of `handle_demo_request`.
-/
import Insist.MiniRpc.DemoServer
import Insist.MiniRpc.Settled

namespace Insist.MiniRpc

open Lib ProtobufWireCodec

variable {R H : Type}

/-! ### The handlers -/

/-- `std::to_string` of an unsigned number. -/
def decimal (number : ℕ) : List UInt8 := (Nat.toDigits 10 number).map fun char => UInt8.ofNat char.toNat

theorem length_decimal_le (number : UInt64) : (decimal number.toNat).length ≤ 20 := by
  rw [decimal, List.length_map, Nat.length_toDigits_le_iff (by decide) (by decide)]
  exact number.toNat_lt.trans (by decide)

/-- The welcome of the session handler. -/
def welcome (id : UInt64) : RpcMessage where
  kind := .notify
  service := ⟨ascii "System", by decide⟩
  method := ⟨ascii "welcome", by decide⟩
  payload := ⟨ascii "welcome, session #" ++ decimal id.toNat, by
    have short := length_decimal_le id
    have literal : (ascii "welcome, session #").length = 18 := by decide
    rw [List.length_append]
    omega⟩

/-- What the session handler hands to `Session::send`. -/
def onSession (id : UInt64) : List (RpcMessage × Option Unit) := [(welcome id, none)]

/-- What the message handler hands to `Session::send`; `none` where it throws. The write handler prints. -/
def onMessage (ctime : CtimeText) (message : RpcMessage) : Option (List (RpcMessage × Option Unit)) :=
  if message.kind = .request then
    (handleDemoRequest ctime message).map fun response => [(response, some ())]
  else some []

/-- The welcome fits into a frame. -/
theorem welcome_fits (id : UInt64) : FitsFrame (welcome id) := by
  have short := length_decimal_le id
  have literal : (ascii "welcome, session #").length = 18 := by decide
  have payload : (welcome id).payload.data.length ≤ 38 := by
    rw [welcome, List.length_append, literal]
    omega
  have digits : Nat.log 128 (welcome id).payload.data.length = 0 := Nat.log_of_lt (by omega)
  have field : lengthFieldLength (welcome id).payload.data.length ≤ 40 := by
    unfold lengthFieldLength varintLength
    rw [digits]
    split_ifs <;> omega
  have service : lengthFieldLength (welcome id).service.data.length = 8 := by
    show lengthFieldLength 6 = 8
    decide
  have method : lengthFieldLength (welcome id).method.data.length = 9 := by
    show lengthFieldLength 7 = 9
    decide
  have rest : varintFieldLength (welcome id).id.toNat + varintFieldLength (welcome id).kind.code.toNat +
      varintFieldLength (welcome id).status.toUInt32.toNat + lengthFieldLength
          (welcome id).error.data.length = 2 := by
    show varintFieldLength 0 + varintFieldLength 3 + varintFieldLength 0 + lengthFieldLength 0 = 2
    decide
  unfold FitsFrame
  rw [length_encode_eq, toNat_kMaxFrameSize]
  omega

/-- What every answer has. -/
theorem handleDemoRequest_plain {ctime : CtimeText} {request response : RpcMessage}
    (made : handleDemoRequest ctime request = some response) :
    response.id = request.id ∧ response.kind = .response ∧ 0 ≤ response.status := by
  have zero : (0 : Int32) ≤ 0 := by decide
  have notFound : (0 : Int32) ≤ 404 := by decide
  unfold handleDemoRequest at made
  split_ifs at made
  · obtain ⟨error, _, rfl⟩ := Option.map_eq_some_iff.mp made
    exact ⟨rfl, rfl, notFound⟩
  · cases made
    exact ⟨rfl, rfl, zero⟩
  · cases made
    exact ⟨rfl, rfl, zero⟩
  · cases made
    exact ⟨rfl, rfl, zero⟩
  · obtain ⟨error, _, rfl⟩ := Option.map_eq_some_iff.mp made
    exact ⟨rfl, rfl, notFound⟩

/-! ### What a step hands out -/

/-- **A step of a session hands out at most one message**, which an admissible payload has been decoded to. -/
theorem Session.Moves.delivered_cases {session session' : Session H} {action : Action H}
    {effects : List (Effect H)} (moves : Session.Moves session action session' effects) :
    MiniRpc.delivered effects = [] ∨
      ∃ message payload, MiniRpc.delivered effects = [message] ∧ payload.length ≤ kMaxFrameSize.toNat ∧
        decode payload = some message := by
  cases moves with
  | delivered inLoop popped decoded => exact Or.inr ⟨_, _, rfl, (tryPopFrame_ok popped).2, decoded⟩
  | dropped | failedFrame | closedFrame => exact Or.inl (delivered_of_silent (silent_invoke _ _))
  | wroteAll => exact Or.inl (delivered_of_silent (List.forall_mem_cons.mpr ⟨rfl, silent_invoke _ _⟩))
  | jump opened jump => rcases jump.effects_eq with rfl | rfl <;> exact Or.inl rfl
  | closing opened cause => cases cause <;> exact Or.inl rfl
  | _ => exact Or.inl rfl

theorem Endpoint.Moves.delivered_cases {endpoint endpoint' : Endpoint H} {label : Endpoint.Label H}
    {effects : List (Effect H)} (moves : Endpoint.Moves endpoint label endpoint' effects) :
    delivered effects = [] ∨
      ∃ message payload, delivered effects = [message] ∧ payload.length ≤ kMaxFrameSize.toNat ∧
        decode payload = some message := by
  cases moves with
  | rejected => exact Or.inl (delivered_of_silent (silent_invoke _ _))
  | posted | closePosted => exact Or.inl rfl
  | ran found moves => exact moves.delivered_cases
  | inside notTask moves => exact moves.delivered_cases

/-- `Session::send` neither reads nor writes. -/
theorem Endpoint.send_silent (endpoint : Endpoint H) (message : RpcMessage) (handler : Option H) :
    accepted (endpoint.send message handler).2 = [] ∧ delivered (endpoint.send message handler).2 = [] := by
  unfold Endpoint.send
  split_ifs
  · exact ⟨accepted_invoke _ _, delivered_of_silent (silent_invoke _ _)⟩
  · exact ⟨rfl, rfl⟩

/-! ### The pair -/

/-- A client, the demo server's session for it, the bytes on the way, and the answers given. -/
structure DemoPair (R : Type) where
  node : ClientNode R
  server : Endpoint Unit
  toServer : List UInt8 := []
  toClient : List UInt8 := []
  /-- Requests with their responses. -/
  answers : List (RpcMessage × RpcMessage) := []

namespace DemoPair

/-- What can happen: a step of the client, or one of the server's session, which may find this time. -/
inductive Label (R : Type)
  | client (label : ClientNode.Label R)
  | server (label : Endpoint.Label Unit) (ctime : CtimeText)

/-- An exception that leaves the message handler leaves the loop. -/
def throws (endpoint : Endpoint Unit) : Endpoint Unit :=
  { endpoint with session := { endpoint.session with control := .thrown } }

/-- The message handler is called. -/
def handle (ctime : CtimeText) (pair : DemoPair R) (message : RpcMessage) : DemoPair R :=
  match onMessage ctime message with
  | none => { pair with server := throws pair.server }
  | some messages =>
      { pair with
          server := pair.server.sendAll messages
          answers := pair.answers ++ messages.map fun entry => (message, entry.1) }

/-- The client has connected; the server has accepted, and its session handler has run. -/
def accepted (fd fd' : ℕ) (id : UInt64) : DemoPair R :=
  { node := .connected fd, server := (Endpoint.started fd').sendAll (onSession id) }

/-- One step. Nothing but the handlers calls `send` of the server's session. -/
def step (pair : DemoPair R) : Label R → Option (DemoPair R)
  | .client label =>
      match readFrom pair.toClient label.chunk with
      | none => none
      | some toClient =>
          (pair.node.step label).map fun answer =>
            { pair with
                node := answer.1, toClient := toClient
                toServer := pair.toServer ++ MiniRpc.accepted answer.2 }
  | .server label ctime =>
      if label.messages = [] then
        match readFrom pair.toServer label.chunk with
        | none => none
        | some toServer =>
            (pair.server.step label).map fun answer =>
              (delivered answer.2).foldl (handle ctime)
                { pair with
                    server := answer.1, toServer := toServer
                    toClient := pair.toClient ++ MiniRpc.accepted answer.2 }
      else none

def machine : Machine (DemoPair R) (Label R) where
  step := step

/-- The pair without the server's program. -/
def image (pair : DemoPair R) : ClientServer R Unit where
  node := pair.node
  server := pair.server
  toServer := pair.toServer
  toClient := pair.toClient
  answers := pair.answers

/-! ### The refinement -/

/-- **`handle_demo_request` does not throw** on a request that has been decoded from an admissible payload. -/
theorem handled (ctime : CtimeText) {payload : List UInt8} {message : RpcMessage}
    (small : payload.length ≤ kMaxFrameSize.toNat) (decoded : decode payload = some message)
    (asks : message.kind = .request) : ∃ response, handleDemoRequest ctime message = some response := by
  obtain ⟨response, made, _⟩ := handleDemoRequest_fits_iff ctime small decoded asks
  exact ⟨response, made⟩

/-- Sending a message, as a step of the abstract server. -/
theorem serve_send (pair : ClientServer R Unit) (message : RpcMessage) (handler : Option Unit) :
    pair.serve (pair.server.send message handler) =
      { pair with server := (pair.server.send message handler).1 } := by
  obtain ⟨silent, nothing⟩ := pair.server.send_silent message handler
  rw [ClientServer.serve, silent, nothing, List.append_nil, List.filter_nil, List.append_nil]

/-- A step of the server's session that hands out a request, and its answer. -/
theorem serve_refines (ctime : CtimeText) (pair : DemoPair R) {message : RpcMessage}
    (asks : message.kind = .request) {response : RpcMessage}
    (made : handleDemoRequest ctime message = some response) :
    ClientServer.machine.run { pair.image with owed := [message] } [.reply 0 response (some ())] =
      some (handle ctime pair message).image := by
  obtain ⟨sameId, kind, nonneg⟩ := handleDemoRequest_plain made
  have sends : onMessage ctime message = some [(response, some ())] := by
    rw [onMessage, if_pos asks, made]
    rfl
  rw [Machine.run_singleton]
  unfold ClientServer.machine ClientServer.step handle
  simp only [sends, List.getElem?_cons_zero, sameId, kind, nonneg, and_self, if_true, Endpoint.step,
    Option.map_some, List.eraseIdx_cons_zero]
  exact congrArg some (serve_send { pair.image with answers := pair.answers ++ [(message, response)] }
    response _)

/-- **Every step of the demo server is a step of a server that owes nothing.** -/
theorem step_refines {pair pair' : DemoPair R} {label : Label R} (wf : pair.server.session.Wf)
    (stepped : machine.step pair label = some pair') :
    ∃ labels, ClientServer.machine.run pair.image labels = some pair'.image := by
  cases label with
  | client label =>
      refine ⟨[.client label], ?_⟩
      rw [Machine.run_singleton]
      simp only [machine, DemoPair.step] at stepped
      split at stepped
      case h_1 => cases stepped
      case h_2 toClient read =>
        obtain ⟨answer, moved, rfl⟩ := Option.map_eq_some_iff.mp stepped
        unfold ClientServer.machine ClientServer.step image
        simp only [read, moved, Option.map_some]
  | server label ctime =>
      simp only [machine, DemoPair.step] at stepped
      split_ifs at stepped with silent
      split at stepped
      case h_1 => cases stepped
      case h_2 toServer read =>
        obtain ⟨⟨server, effects⟩, moved, rfl⟩ := Option.map_eq_some_iff.mp stepped
        have served : ClientServer.machine.step pair.image (.server label) =
            some ({ pair.image with toServer := toServer }.serve (server, effects)) := by
          unfold ClientServer.machine ClientServer.step image
          simp only [silent, read, moved, if_true, Option.map_some]
        have plain (none : (delivered effects).filter (·.kind = .request) = []) :
            ({ pair.image with toServer := toServer }.serve (server, effects)) =
              ({ pair with
                  server := server, toServer := toServer
                  toClient := pair.toClient ++ MiniRpc.accepted effects } : DemoPair R).image := by
          rw [ClientServer.serve, none]
          rfl
        rcases (Endpoint.step_moves wf moved).delivered_cases with none | ⟨message, payload, one,
          small, decoded⟩
        · refine ⟨[.server label], ?_⟩
          rw [Machine.run_singleton, served, plain (by rw [none]; rfl)]
          simp only [none, List.foldl_nil]
        · by_cases asks : message.kind = .request
          · obtain ⟨response, made⟩ := handled ctime small decoded asks
            refine ⟨[.server label, .reply 0 response (some ())], ?_⟩
            rw [Machine.run_cons, served]
            simp only [one, List.foldl_cons, List.foldl_nil]
            refine Eq.trans ?_ (serve_refines ctime _ asks made)
            have owes : (delivered effects).filter (·.kind = .request) = [message] := by
              rw [one, List.filter_cons_of_pos (by simpa using asks), List.filter_nil]
            rw [Option.bind_some, ClientServer.serve, owes]
            rfl
          · have sends : onMessage ctime message = some [] := if_neg asks
            refine ⟨[.server label], ?_⟩
            rw [Machine.run_singleton, served, plain (by
              rw [one, List.filter_cons_of_neg (by simpa using asks), List.filter_nil])]
            simp only [one, List.foldl_cons, List.foldl_nil, handle, sends, List.map_nil, List.append_nil]
            rfl

/-- The welcome is one step of the abstract server. -/
theorem accepted_refines (fd fd' : ℕ) (id : UInt64) :
    ClientServer.machine.run (ClientServer.started fd fd' : ClientServer R Unit) [.push (welcome id) none] =
      some (accepted fd fd' id).image := by
  have plain : (welcome id).kind ≠ .response ∧ 0 ≤ (welcome id).status := by
    show Kind.notify ≠ .response ∧ (0 : Int32) ≤ 0
    decide
  rw [Machine.run_singleton]
  unfold ClientServer.machine ClientServer.step
  simp only [plain, ne_eq, not_false_eq_true, and_self, if_true, Endpoint.step, Option.map_some]
  exact congrArg some (serve_send (ClientServer.started fd fd') (welcome id) none)

/-- The answers given are those of `handle_demo_request`. -/
def Answers (pair : DemoPair R) : Prop :=
  ∀ request response, (request, response) ∈ pair.answers →
    ∃ ctime, handleDemoRequest ctime request = some response

theorem Answers.handle {pair : DemoPair R} (holds : pair.Answers) (ctime : CtimeText) (message : RpcMessage) :
    (handle ctime pair message).Answers := by
  unfold DemoPair.handle onMessage
  by_cases asks : message.kind = .request
  · rw [if_pos asks]
    cases made : handleDemoRequest ctime message with
    | none => exact holds
    | some response =>
        intro request response' member
        rcases List.mem_append.mp member with old | new
        · exact holds request response' old
        · obtain ⟨rfl, rfl⟩ := Prod.mk.inj (List.mem_singleton.mp new)
          exact ⟨ctime, made⟩
  · rw [if_neg asks]
    intro request response member
    exact holds request response (by simpa using member)

theorem Answers.step {pair pair' : DemoPair R} {label : Label R} (holds : pair.Answers)
    (stepped : machine.step pair label = some pair') : pair'.Answers := by
  cases label with
  | client label =>
      simp only [machine, DemoPair.step] at stepped
      split at stepped
      case h_1 => cases stepped
      case h_2 =>
        obtain ⟨answer, _, rfl⟩ := Option.map_eq_some_iff.mp stepped
        exact holds
  | server label ctime =>
      simp only [machine, DemoPair.step] at stepped
      split_ifs at stepped
      split at stepped
      case h_1 => cases stepped
      case h_2 toServer _ =>
        obtain ⟨answer, _, rfl⟩ := Option.map_eq_some_iff.mp stepped
        have before : ({ pair with
            server := answer.1, toServer := toServer
            toClient := pair.toClient ++ MiniRpc.accepted answer.2 } : DemoPair R).Answers := holds
        generalize ({ pair with
            server := answer.1, toServer := toServer
            toClient := pair.toClient ++ MiniRpc.accepted answer.2 } : DemoPair R) = served at before ⊢
        induction delivered answer.2 generalizing served with
        | nil => exact before
        | cons message messages ih => exact ih _ (before.handle ctime message)

/-- **Every run of the demo server is a run of a server that owes nothing**, and answers as
`handle_demo_request` does. -/
theorem run_refines {fd fd' : ℕ} {id : UInt64} {labels : List (Label R)} {final : DemoPair R}
    (ran : machine.run (accepted fd fd' id) labels = some final) :
    (∃ labels', ClientServer.machine.run (ClientServer.started fd fd') labels' = some final.image) ∧
      final.Answers := by
  have welcomed := accepted_refines (R := R) fd fd' id
  constructor
  · obtain ⟨labels', image, ranImage, rfl, _⟩ := Machine.simulation_run ClientServer.machine
      (fun (pair : DemoPair R) image => image = pair.image ∧ ClientServer.Correlates image) (by
        rintro pair next label image ⟨rfl, correlates⟩ stepped
        obtain ⟨steps, moved⟩ := step_refines correlates.wf stepped
        refine ⟨steps, _, moved, rfl, ?_⟩
        exact Machine.invariant_run ClientServer.Correlates (fun holds stepped => holds.step stepped)
          correlates moved)
      ⟨rfl, ClientServer.run_correlates welcomed⟩ ran
    exact ⟨_, (Machine.run_append_eq_some _).mpr ⟨_, welcomed, ranImage⟩⟩
  · refine Machine.invariant_run Answers (fun holds stepped => holds.step stepped) ?_ ran
    intro request response member
    cases member

/-- What a run of the demo server keeps. -/
theorem run_conserves {fd fd' : ℕ} {id : UInt64} {labels : List (Label R)} {final : DemoPair R}
    (ran : machine.run (accepted fd fd' id) labels = some final) :
    ClientServer.Correlates final.image ∧ ClientServer.Conserves final.image ∧ final.Answers := by
  obtain ⟨⟨labels', image⟩, answers⟩ := run_refines ran
  obtain ⟨correlates, conserves⟩ := ClientServer.run_conserves image
  exact ⟨correlates, conserves, answers⟩

/-! ### Every call at rest -/

/-- The responses with this id that the client dispatched. -/
def responsesTo (pair : DemoPair R) (id : UInt64) : List RpcMessage :=
  (dispatched pair.node.trace).filter fun message => message.kind = .response ∧ message.id = id

theorem mem_dispatched {trace : List (ClientEvent R)} {message : RpcMessage} :
    message ∈ dispatched trace ↔ ∃ outcome, .received message outcome ∈ trace := by
  unfold dispatched
  rw [List.mem_flatMap]
  constructor
  · rintro ⟨event, member, found⟩
    cases event with
    | received other outcome => exact ⟨outcome, by rwa [List.mem_singleton.mp found]⟩
    | _ => cases found
  · rintro ⟨outcome, member⟩
    exact ⟨_, member, List.mem_singleton_self _⟩

/-- A request that was called and fits is answered with a response that fits exactly if its names do. -/
theorem fits_answer_iff {ctime : CtimeText} {request response : RpcMessage} (small : FitsFrame request)
    (plain : request.kind = .request ∧ request.status = 0)
    (made : handleDemoRequest ctime request = some response) : FitsFrame response ↔ RepeatsFit request := by
  have decoded : decode (encode request) = some request :=
    decode_encode_of_nonneg (by rw [plain.2]; decide)
  obtain ⟨response', made', _, _, fits⟩ := handleDemoRequest_fits_iff ctime small decoded plain.1
  obtain rfl := Option.some.inj (made.symm.trans made')
  exact fits

/-- How a call of the demo service stands when nothing is on the way. -/
structure CallSettled (pair : DemoPair R) (id : UInt64) (request : RpcMessage) (handler : Option R) : Prop where
  /-- A request that does not fit is reported, and not sent. -/
  rejected : ¬ FitsFrame request →
    .writeFailed id ∈ pair.node.trace ∧ pair.responsesTo id = [] ∧ pair.node.client.pending id = none
  /-- A request whose names fit a second time gets its answer, once, and the handler runs on it. -/
  answered : FitsFrame request → RepeatsFit request → ∃ ctime response,
    handleDemoRequest ctime request = some response ∧ pair.responsesTo id = [response] ∧
      .received response handler ∈ pair.node.trace ∧ pair.node.client.pending id = none
  /-- Any other request is never answered, and its handler stays in the table. -/
  hangs : FitsFrame request → ¬ RepeatsFit request →
    pair.responsesTo id = [] ∧ pair.node.client.pending id = some handler

/-- **Every call of a settled pair.** -/
theorem callSettled_of_rest {pair : DemoPair R} (correlates : ClientServer.Correlates pair.image)
    (conserves : ClientServer.Conserves pair.image) (answers : pair.Answers)
    (few : pair.node.allIds.length < 2 ^ 64) (rest : pair.image.AtRest) {id : UInt64} {request : RpcMessage}
    {handler : Option R} (called : .called id request handler ∈ pair.node.trace) :
    pair.CallSettled id request handler := by
  obtain ⟨_, isRequest, status⟩ := conserves.client.called id request handler called
  -- a response to the call is the server's answer to its request
  have given {message : RpcMessage} (member : message ∈ pair.responsesTo id) :
      (request, message) ∈ pair.answers ∧ FitsFrame message := by
    obtain ⟨there, same⟩ := List.mem_filter.mp member
    obtain ⟨outcome, received⟩ := mem_dispatched.mp there
    obtain ⟨kind, sameId⟩ : message.kind = .response ∧ message.id = id := by simpa using same
    obtain ⟨_, _, _, _, given⟩ := conserves.received_cases correlates few called received kind sameId
    have handed : dispatched pair.node.trace = delivered pair.node.endpoint.trace :=
      correlates.accounts.dispatched
    rw [handed] at there
    exact ⟨given, (correlates.back.carried.executed _ (correlates.back.delivered_initial.1.subset there)).1⟩
  have nothing (never : ∀ message, (request, message) ∈ pair.answers → ¬ FitsFrame message) :
      pair.responsesTo id = [] := by
    refine List.eq_nil_iff_forall_not_mem.mpr fun message member => ?_
    exact never message (given member).1 (given member).2
  have settled := conserves.settled_of_rest correlates few rest called
  cases settled with
  | rejected large failed ended =>
      refine ⟨fun _ => ⟨failed, nothing fun message answered => ?_, ended⟩, fun small => absurd small large,
        fun small => absurd small large⟩
      exact absurd (ClientServer.Conserves.fits_of_answered correlates answered) large
  | answered response answered fits ran ended =>
      have small := ClientServer.Conserves.fits_of_answered correlates answered
      obtain ⟨ctime, made⟩ := answers request response answered
      have repeats := (fits_answer_iff small ⟨isRequest, status⟩ made).mp fits
      refine ⟨fun large => absurd small large, fun _ _ => ⟨ctime, response, made, ?_, ran, ended⟩,
        fun _ not => absurd repeats not⟩
      have kind := conserves.given request response answered
      have sameId : response.id = id :=
        (correlates.matched request response answered).trans
          (conserves.client.called id request handler called).1
      have only : ∀ message ∈ pair.responsesTo id, message = response := by
        intro message member
        have ids : message.id = response.id :=
          (correlates.matched _ _ (given member).1).trans (correlates.matched _ _ answered).symm
        exact (ClientServer.Conserves.response_unique correlates few answered (given member).1 ids).2
      have one : (pair.responsesTo id).count response = 1 := by
        rw [responsesTo, List.count_filter (by simp [kind, sameId])]
        have once := conserves.count_dispatched_le correlates few kind
        have there : response ∈ dispatched pair.node.trace := mem_dispatched.mpr ⟨handler, ran⟩
        have positive := List.count_pos_iff.mpr there
        exact le_antisymm once positive
      have length : (pair.responsesTo id).length = 1 := by
        rw [← one, List.eq_replicate_of_mem only, List.length_replicate, List.count_replicate_self]
      rw [List.eq_replicate_of_mem only, length]
      rfl
  | waiting small silent waits never =>
      rcases silent with owed | ⟨response, answered, large⟩
      · cases owed
      · obtain ⟨ctime, made⟩ := answers request response answered
        have not : ¬ RepeatsFit request := fun repeats =>
          large ((fits_answer_iff small ⟨isRequest, status⟩ made).mpr repeats)
        refine ⟨fun large' => absurd small large', fun _ repeats => absurd repeats not,
          fun _ _ => ⟨nothing fun message answered' => ?_, waits⟩⟩
        have ids : message.id = response.id :=
          (correlates.matched _ _ answered').trans (correlates.matched _ _ answered).symm
        obtain ⟨_, rfl⟩ := ClientServer.Conserves.response_unique correlates few answered answered' ids
        exact large

end DemoPair

/-- **The demo service settles every call.** Take any number of clients of the demo server, and any interleaving
of their calls and of all loop steps, writes and reads. When a client and its session on the server have come to
rest, without a fault or a close, and the client has made fewer than `2 ^ 64` calls, then a call whose request
does not fit into a frame has been reported; a call whose request's names fit a second time has run its handler
exactly once, on what `handle_demo_request` answers to this request; and any other call waits without an
answer. -/
theorem demo_calls_settled {ι : Type} [DecidableEq ι] {fd fd' : ι → ℕ} {id : ι → UInt64}
    {labels : List (ι × DemoPair.Label R)} {final : ι → DemoPair R}
    (ran : (DemoPair.machine.family ι).run (fun index => DemoPair.accepted (fd index) (fd' index) (id index))
      labels = some final) {index : ι} (few : (final index).node.allIds.length < 2 ^ 64)
    (rest : (final index).image.AtRest) {call : UInt64} {request : RpcMessage} {handler : Option R}
    (called : .called call request handler ∈ (final index).node.trace) :
    (final index).CallSettled call request handler := by
  obtain ⟨correlates, conserves, answers⟩ := DemoPair.run_conserves (Machine.family_run ran index)
  exact DemoPair.callSettled_of_rest correlates conserves answers few rest called

/-- A call of `echo`. -/
def echoCall : RpcMessage :=
  RpcClient.callMessage 1 addRequest.service ⟨ascii "echo", by decide⟩ ⟨ascii "hi", by decide⟩

/-- Of two clients of the demo server, one calls `echo`, and gets the welcome and the answer at once. -/
def oneEcho : List (Bool × DemoPair.Label ℕ) :=
  [.client (.callAsync echoCall.service echoCall.method echoCall.payload (some 7)), .client (.register 0),
    .client (.send 0), .client (.run 0), .client (.session (.modify .ok)),
    .client (.session (.send (.accepted 31))), .client (.session (.modify .ok)),
    .server (.run 0) newYear, .server (.session (.modify .ok)) newYear,
    .server (.session (.send (.accepted 44))) newYear, .server (.session (.modify .ok)) newYear,
    .server (.session (.handleEvents { in_ := true })) newYear,
    .server (.session (.recv (.data (frameOf echoCall)))) newYear,
    .server (.session (.recv (.error .eagain))) newYear, .server (.session .parse) newYear,
    .server (.session .parse) newYear, .server (.run 0) newYear, .server (.session (.modify .ok)) newYear,
    .server (.session (.send (.accepted 31))) newYear, .server (.session (.modify .ok)) newYear,
    .client (.session (.handleEvents { in_ := true })),
    .client (.session (.recv (.data (frameOf (welcome 1) ++ frameOf { echoCall with kind := .response })))),
    .client (.session (.recv (.error .eagain))), .client (.session .parse), .client (.session .parse),
    .client (.session .parse)].map fun label => (true, label)

theorem oneEcho_settled :
    ∃ final, (DemoPair.machine.family Bool).run (fun _ => DemoPair.accepted 5 6 1) oneEcho = some final ∧
      (final true).CallSettled 1 echoCall (some 7) := by
  obtain ⟨final, ran, few, trace, client, server, calling, sending, toServer, toClient⟩ :
      ∃ final, (DemoPair.machine.family Bool).run (fun _ => DemoPair.accepted 5 6 1) oneEcho = some final ∧
        (final true).node.allIds.length < 2 ^ 64 ∧
        (final true).node.trace = [.called 1 echoCall (some 7), .received (welcome 1) none,
          .received { echoCall with kind := .response } (some 7)] ∧
        ((final true).node.endpoint.session.open_ = true ∧ (final true).node.endpoint.session.control = .idle ∧
          (final true).node.endpoint.tasks = [] ∧ (final true).node.endpoint.session.writeQueue = []) ∧
        ((final true).server.session.open_ = true ∧ (final true).server.session.control = .idle ∧
          (final true).server.tasks = [] ∧ (final true).server.session.writeQueue = []) ∧
        (final true).node.calling = [] ∧ (final true).node.sending = [] ∧ (final true).toServer = [] ∧
        (final true).toClient = [] := by
    refine ⟨((DemoPair.machine.family Bool).run (fun _ => DemoPair.accepted 5 6 1) oneEcho).get
      (by decide +kernel), (Option.some_get _).symm, ?_⟩
    decide +kernel
  obtain ⟨opened, idle, tasks, queue⟩ := client
  obtain ⟨opened', idle', tasks', queue'⟩ := server
  refine ⟨final, ran, demo_calls_settled ran few ?_ (by rw [trace]; exact List.mem_cons_self)⟩
  exact ⟨⟨opened, idle, tasks, queue⟩, ⟨opened', idle', tasks', queue'⟩, calling, sending, toServer, toClient⟩

end Insist.MiniRpc
