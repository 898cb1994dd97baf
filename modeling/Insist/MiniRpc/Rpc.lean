/-
**Clients and a server.**

`ClientServer` is a client, the server's session for it, and the two byte streams between them. The
server's message handler owes every request it is handed one response with the request's id, which it may
send at any later time and in any order; it may send other messages that are not responses, as the demo
server's welcome. Any number of clients, each with its own connection and its own ids from 1 on, is a
family of such pairs, whose steps interleave freely.

* `Correlates` — the invariant of a pair: the accounts of the client, both directions of the connection,
  and what the server owes and has answered;
* `each_response_to_its_own_call` — the correlation of requests and responses along every run of all
  clients and the server.
-/
import Insist.MiniRpc.ClientRequests
import Insist.MiniRpc.Connection

namespace Insist.MiniRpc

open Lib

variable {R K : Type}

/-- The bytes a client's label brings. -/
def ClientNode.Label.chunk : ClientNode.Label R → List UInt8
  | .session action => action.chunk
  | _ => []

/-- What the label brings, the session reads. -/
theorem ClientNode.enter_chunk {node entered : ClientNode R} {label : ClientNode.Label R}
    {endpointLabel : Option (Endpoint.Label UInt64)}
    (same : node.enter label = some (entered, endpointLabel)) :
    label.chunk = endpointLabel.elim [] Endpoint.Label.chunk := by
  unfold enter at same
  cases label with
  | callAsync | notify =>
      simp only at same
      split_ifs at same <;> cases same <;> rfl
  | register =>
      simp only at same
      split at same <;> cases same
      rfl
  | send =>
      simp only at same
      split_ifs at same
      split at same <;> cases same
      rfl
  | close =>
      simp only at same
      split_ifs at same <;> cases same <;> rfl
  | run | session =>
      cases same
      rfl

/-! ### A client and its server session -/

/-- A client, the server's session for it, and the bytes on the way. -/
structure ClientServer (R K : Type) where
  node : ClientNode R
  server : Endpoint K
  toServer : List UInt8 := []
  toClient : List UInt8 := []
  /-- Requests that the message handler has been given and not yet answered. -/
  owed : List RpcMessage := []
  /-- Requests with their responses. -/
  answers : List (RpcMessage × RpcMessage) := []

namespace ClientServer

/-- What can happen. -/
inductive Label (R K : Type)
  | client (label : ClientNode.Label R)
  /-- The server answers a request. -/
  | reply (index : ℕ) (response : RpcMessage) (handler : Option K)
  /-- The server sends a message that is not a response. -/
  | push (message : RpcMessage) (handler : Option K)
  /-- The server's session moves otherwise. -/
  | server (label : Endpoint.Label K)
deriving DecidableEq, Repr

/-- The client has connected, and the server has accepted. -/
def started (fd fd' : ℕ) : ClientServer R K := { node := .connected fd, server := .started fd' }

/-- The server's session after a step. -/
def serve (pair : ClientServer R K) (answer : Endpoint K × List (Effect K)) : ClientServer R K :=
  { pair with
      server := answer.1
      toClient := pair.toClient ++ accepted answer.2
      owed := pair.owed ++ (delivered answer.2).filter (·.kind = .request) }

/-- One step. -/
def step (pair : ClientServer R K) : Label R K → Option (ClientServer R K)
  | .client label =>
      match readFrom pair.toClient label.chunk with
      | none => none
      | some toClient =>
          (pair.node.step label).map fun answer =>
            { pair with
                node := answer.1, toClient := toClient
                toServer := pair.toServer ++ accepted answer.2 }
  | .reply index response handler =>
      match pair.owed[index]? with
      | none => none
      | some request =>
          if response.id = request.id ∧ response.kind = .response ∧ 0 ≤ response.status then
            (pair.server.step (.send response handler)).map fun answer =>
              { pair with
                  owed := pair.owed.eraseIdx index
                  answers := pair.answers ++ [(request, response)] }.serve answer
          else none
  | .push message handler =>
      if message.kind ≠ .response ∧ 0 ≤ message.status then
        (pair.server.step (.send message handler)).map pair.serve
      else none
  | .server label =>
      if label.messages = [] then
        match readFrom pair.toServer label.chunk with
        | none => none
        | some toServer => (pair.server.step label).map { pair with toServer := toServer }.serve
      else none

def machine : Machine (ClientServer R K) (Label R K) where
  step := step

/-! ### The invariant -/

/-- How the requests and responses of a pair stand to each other. -/
structure Correlates (pair : ClientServer R K) : Prop where
  good : pair.node.Good
  accounts : Accounts pair.node []
  wf : pair.server.session.Wf
  forward : Direction pair.node.endpoint pair.toServer pair.server
  back : Direction pair.server pair.toClient pair.node.endpoint
  /-- Every request delivered is owed or answered, once. -/
  asked : (pair.answers.map Prod.fst ++ pair.owed).Perm
    ((delivered pair.server.trace).filter (·.kind = .request))
  matched : ∀ request response, (request, response) ∈ pair.answers → response.id = request.id
  replies : pair.server.Posted fun message =>
    message.kind = .response → ∃ request, (request, message) ∈ pair.answers

theorem started_correlates (fd fd' : ℕ) : Correlates (started fd fd' : ClientServer R K) where
  good := ClientNode.connected_good fd
  accounts := Accounts.connected fd
  wf := Session.started_wf fd'
  forward := started_direction fd fd'
  back := started_direction fd' fd
  asked := List.Perm.refl _
  matched := by simp [started]
  replies := Endpoint.started_posted _ fd'

namespace Correlates

variable {pair : ClientServer R K}

/-- **A step of the client keeps the invariant.** -/
theorem step_client (holds : Correlates pair) {label : ClientNode.Label R} {toClient : List UInt8}
    (read : readFrom pair.toClient label.chunk = some toClient) {node : ClientNode R}
    {effects : List (Effect UInt64)} (stepped : pair.node.step label = some (node, effects)) :
    Correlates { pair with
      node := node, toClient := toClient, toServer := pair.toServer ++ accepted effects } := by
  have good := holds.good.step stepped
  rcases ClientNode.step_cases stepped with ⟨same, rfl⟩ | ⟨entered, endpointLabel, endpoint', same, moved,
    rfl⟩
  · -- the session is not asked, and nothing is read
    have endpoint := ClientNode.enter_endpoint same
    have nothing : label.chunk = [] := ClientNode.enter_chunk same
    rw [nothing] at read
    obtain rfl : toClient = pair.toClient := (readFrom_eq_some read).symm
    have silent : pair.toServer ++ accepted ([] : List (Effect UInt64)) = pair.toServer :=
      List.append_nil _
    refine ⟨good, holds.accounts.enter same, holds.wf, ?_, ?_, holds.asked, holds.matched, holds.replies⟩
    · show Direction node.endpoint (pair.toServer ++ accepted []) pair.server
      rw [endpoint, silent]
      exact holds.forward
    · show Direction pair.server pair.toClient node.endpoint
      rw [endpoint]
      exact holds.back
  · have endpoint := ClientNode.enter_endpoint same
    have accounts := holds.accounts.enter same
    have wf : entered.endpoint.session.Wf := by
      rw [endpoint]
      exact holds.good.wf
    have moves := Endpoint.step_moves wf moved
    have chunk : label.chunk = endpointLabel.chunk := ClientNode.enter_chunk same
    refine ⟨good, accounts.absorb moves, holds.wf, ?_, ?_, holds.asked, holds.matched, holds.replies⟩
    · have forward := holds.forward
      rw [← endpoint] at forward
      refine forward.step_sender wf (fun message handler sends => ?_) moves
      have zero := (accounts.leaving message (by
        rw [sends]
        exact List.mem_singleton.mpr rfl)).1
      rw [zero]
      decide
    · have back := holds.back
      rw [← endpoint] at back
      rw [chunk] at read
      exact back.step_receiver wf read moves

/-- **A step of the server's session keeps the invariant**, if what it sends is not a response or the
answer to a request owed. -/
theorem step_server (holds : Correlates pair) {label : Endpoint.Label K} {toServer : List UInt8}
    (read : readFrom pair.toServer label.chunk = some toServer) {server : Endpoint K}
    {effects : List (Effect K)} (stepped : pair.server.step label = some (server, effects))
    {owed : List RpcMessage} {answers : List (RpcMessage × RpcMessage)}
    (moved : (answers.map Prod.fst ++ owed).Perm (pair.answers.map Prod.fst ++ pair.owed))
    (kept : ∀ entry ∈ pair.answers, entry ∈ answers)
    (matched : ∀ request response, (request, response) ∈ answers → response.id = request.id)
    (sends : ∀ message handler, label = .send message handler → 0 ≤ message.status ∧
      (message.kind = .response → ∃ request, (request, message) ∈ answers)) :
    Correlates ({ pair with toServer := toServer, owed := owed, answers := answers }.serve
      (server, effects)) := by
  have moves := Endpoint.step_moves holds.wf stepped
  constructor
  case good => exact holds.good
  case accounts => exact holds.accounts
  case wf => exact moves.wf holds.wf
  case forward => exact holds.forward.step_receiver holds.wf read moves
  case back =>
    exact holds.back.step_sender holds.wf (fun message handler same => (sends message handler same).1) moves
  case asked =>
    show (answers.map Prod.fst ++ (owed ++ (delivered effects).filter (·.kind = .request))).Perm
      ((delivered server.trace).filter (·.kind = .request))
    rw [moves.trace_eq, delivered_append, List.filter_append, ← List.append_assoc]
    exact (moved.trans holds.asked).append_right _
  case matched => exact matched
  case replies =>
    have before : pair.server.Posted fun message =>
        message.kind = .response → ∃ request, (request, message) ∈ answers := by
      constructor
      · intro message handler member response
        obtain ⟨request, entry⟩ := holds.replies.tasks message handler member response
        exact ⟨request, kept _ entry⟩
      · intro message member response
        obtain ⟨request, entry⟩ := holds.replies.executed message member response
        exact ⟨request, kept _ entry⟩
    exact moves.posted_good (fun message handler same _ => (sends message handler same).2) before

/-- **Every step keeps the invariant.** -/
theorem step {pair' : ClientServer R K} {label : Label R K} (holds : Correlates pair)
    (stepped : machine.step pair label = some pair') : Correlates pair' := by
  have unread (wire : List UInt8) : readFrom wire [] = some wire := by
    simp [readFrom]
  cases label with
  | client label =>
      simp only [machine, ClientServer.step] at stepped
      split at stepped
      case h_1 => cases stepped
      case h_2 toClient read =>
        obtain ⟨⟨node, effects⟩, moved, rfl⟩ := Option.map_eq_some_iff.mp stepped
        exact holds.step_client read moved
  | reply index response handler =>
      simp only [machine, ClientServer.step] at stepped
      split at stepped
      case h_1 => cases stepped
      case h_2 request found =>
        split_ifs at stepped with answer
        obtain ⟨sameId, kind, nonneg⟩ := answer
        obtain ⟨⟨server, effects⟩, moved, rfl⟩ := Option.map_eq_some_iff.mp stepped
        refine holds.step_server (unread _) moved ?_ (fun entry member => List.mem_append_left _ member)
          ?_ ?_
        · obtain ⟨inside, rfl⟩ := List.getElem?_eq_some_iff.mp found
          rw [List.map_append, List.append_assoc]
          exact List.Perm.append_left _ (List.getElem_cons_eraseIdx_perm inside)
        · intro other response' member
          rcases List.mem_append.mp member with old | new
          · exact holds.matched other response' old
          · obtain ⟨rfl, rfl⟩ := Prod.mk.inj (List.mem_singleton.mp new)
            exact sameId
        · rintro message handler' same
          cases same
          exact ⟨nonneg, fun _ => ⟨request, by simp⟩⟩
  | push message handler =>
      simp only [machine, ClientServer.step] at stepped
      split_ifs at stepped with plain
      obtain ⟨⟨server, effects⟩, moved, rfl⟩ := Option.map_eq_some_iff.mp stepped
      refine holds.step_server (unread _) moved (List.Perm.refl _) (fun entry member => member)
        holds.matched ?_
      rintro message' handler' same
      cases same
      exact ⟨plain.2, fun response => absurd response plain.1⟩
  | server label =>
      simp only [machine, ClientServer.step] at stepped
      split_ifs at stepped with silent
      split at stepped
      case h_1 => cases stepped
      case h_2 toServer read =>
        obtain ⟨⟨server, effects⟩, moved, rfl⟩ := Option.map_eq_some_iff.mp stepped
        refine holds.step_server read moved (List.Perm.refl _) (fun entry member => member)
          holds.matched ?_
        rintro message handler rfl
        cases silent

end Correlates

theorem run_correlates {fd fd' : ℕ} {labels : List (Label R K)} {final : ClientServer R K}
    (ran : machine.run (started fd fd') labels = some final) : Correlates final :=
  Machine.invariant_run Correlates (fun holds stepped => holds.step stepped)
    (started_correlates fd fd') ran

/-! ### What the invariant gives -/

/-- A call is known by its id. -/
theorem called_unique {trace : List (ClientEvent R)} (nodup : (calledIds trace).Nodup) {id : UInt64}
    {request request' : RpcMessage} {handler handler' : Option R}
    (made : .called id request handler ∈ trace) (made' : .called id request' handler' ∈ trace) :
    request = request' ∧ handler = handler' := by
  have allotted {part : List (ClientEvent R)} (member : .called id request' handler' ∈ part) :
      id ∈ calledIds part :=
    List.mem_flatMap.mpr ⟨_, member, List.mem_singleton.mpr rfl⟩
  obtain ⟨before, after, rfl⟩ := List.append_of_mem made
  have ids : calledIds (before ++ .called id request handler :: after) =
      calledIds before ++ id :: calledIds after := by
    rw [calledIds_append]
    rfl
  rw [ids] at nodup
  obtain ⟨_, tail, apart⟩ := List.nodup_append.mp nodup
  rcases List.mem_append.mp made' with early | late
  · exact absurd rfl (apart id (allotted early) id List.mem_cons_self)
  · rcases List.mem_cons.mp late with same | later
    · cases same
      exact ⟨rfl, rfl⟩
    · exact absurd (allotted later) (List.nodup_cons.mp tail).1

namespace Correlates

variable {pair : ClientServer R K}

/-- No request is answered twice. -/
theorem answers_nodup (holds : Correlates pair) (few : pair.node.allIds.length < 2 ^ 64) :
    (pair.answers.map fun entry => entry.1.id).Nodup := by
  have nodup : (calledIds pair.node.trace).Nodup := (List.nodup_append.mp (holds.good.nodup few)).1
  refine List.nodup_iff_count_le_one.mpr fun id => ?_
  -- answered requests were delivered, so executed by the client, so called
  obtain ⟨later, executed⟩ := holds.forward.delivered_initial.1
  have requests : requestIds (delivered pair.server.trace) =
      ((delivered pair.server.trace).filter (·.kind = .request)).map (·.id) := by
    induction delivered pair.server.trace with
    | nil => rfl
    | cons message rest ih =>
        by_cases request : message.kind = .request
        · rw [List.filter_cons_of_pos (by simpa using request), List.map_cons, ← ih]
          simp [requestIds, request]
        · rw [List.filter_cons_of_neg (by simpa using request), ← ih]
          simp [requestIds, request]
  have asked := (holds.asked.map (·.id)).count_eq id
  rw [← requests, List.map_append, List.count_append, List.map_map] at asked
  have once := holds.accounts.once id
  rw [← executed, requestIds_append, List.count_append] at once
  have called := List.nodup_iff_count_le_one.mp nodup id
  have same : (pair.answers.map fun entry => entry.1.id) =
      pair.answers.map ((fun message : RpcMessage => message.id) ∘ Prod.fst) := rfl
  rw [same]
  omega

/-- **Every response handler runs at most once, on the response to its own request.** -/
theorem responses (holds : Correlates pair) (few : pair.node.allIds.length < 2 ^ 64) :
    (∀ id, (ranIds pair.node.trace).count id ≤ 1) ∧
    ∀ response handler, .received response (some handler) ∈ pair.node.trace →
      ∃ request, .called response.id request (some handler) ∈ pair.node.trace ∧
        (request, response) ∈ pair.answers ∧
        (∀ request' handler', .called response.id request' handler' ∈ pair.node.trace →
          request' = request ∧ handler' = some handler) ∧
        ∀ response', (request, response') ∈ pair.answers → response' = response := by
  have nodup : (calledIds pair.node.trace).Nodup := (List.nodup_append.mp (holds.good.nodup few)).1
  refine ⟨fun id => ?_, fun response handler member => ?_⟩
  · have uses := holds.accounts.uses id
    have called := List.nodup_iff_count_le_one.mp nodup id
    unfold handlerUses at uses
    omega
  · -- the call that was live when the response came
    obtain ⟨before, after, split⟩ := List.append_of_mem member
    obtain ⟨kind, first, request', middle, early, _⟩ :=
      ((holds.good.table few).dispatched before response (some handler) after split handler).mp rfl
    have mine : .called response.id request' (some handler) ∈ pair.node.trace := by
      rw [split, early]
      simp
    -- the request that the server answered with it
    have dispatched : response ∈ dispatched pair.node.trace :=
      List.mem_flatMap.mpr ⟨_, member, List.mem_singleton.mpr rfl⟩
    rw [holds.accounts.dispatched] at dispatched
    have sent := holds.back.delivered_initial.1.subset dispatched
    obtain ⟨request, answered⟩ := holds.replies.executed response sent kind
    have asked : request ∈ (delivered pair.server.trace).filter (·.kind = .request) :=
      holds.asked.subset (List.mem_append_left _ (List.mem_map.mpr ⟨_, answered, rfl⟩))
    obtain ⟨delivered, isRequest⟩ := List.mem_filter.mp asked
    have executed := holds.forward.delivered_initial.1.subset delivered
    obtain ⟨handler', made⟩ := holds.accounts.posted.executed request executed (by simpa using isRequest)
    rw [← holds.matched request response answered] at made
    obtain ⟨rfl, rfl⟩ := called_unique nodup made mine
    refine ⟨request, made, answered, fun other handler' also => called_unique nodup also made, ?_⟩
    intro response' also
    have entries := List.inj_on_of_nodup_map (holds.answers_nodup few) also answered rfl
    exact (Prod.mk.inj entries).2

end Correlates

end ClientServer

/-- **Request/response correlation.** Take any number of clients, each with its own connection to the
server, and any interleaving of their calls, of all loop steps, writes and reads and of the server's
replies. As long as a client makes fewer than `2 ^ 64` calls, each of its response handlers runs at most
once, and the message it then gets is the server's only response to the request of the one call with that
id, which this client made with this handler. -/
theorem each_response_to_its_own_call {ι : Type} [DecidableEq ι] {fd fd' : ι → ℕ}
    {labels : List (ι × ClientServer.Label R K)} {final : ι → ClientServer R K}
    (ran : (ClientServer.machine.family ι).run
      (fun index => ClientServer.started (fd index) (fd' index)) labels = some final)
    {index : ι} (few : (final index).node.allIds.length < 2 ^ 64) :
    (∀ id, (ranIds (final index).node.trace).count id ≤ 1) ∧
    ∀ response handler, .received response (some handler) ∈ (final index).node.trace →
      ∃ request, .called response.id request (some handler) ∈ (final index).node.trace ∧
        (request, response) ∈ (final index).answers ∧
        (∀ request' handler', .called response.id request' handler' ∈ (final index).node.trace →
          request' = request ∧ handler' = some handler) ∧
        ∀ response', (request, response') ∈ (final index).answers → response' = response :=
  (ClientServer.run_correlates (Machine.family_run ran index)).responses few

/-- Two clients call, each with the id 1; the server answers the first. -/
def twoClients : List (Bool × ClientServer.Label ℕ ℕ) :=
  [(true, .client (.callAsync .nil .nil .nil (some 7))), (false, .client (.callAsync .nil .nil .nil (some 9))),
    (true, .client (.register 0)), (false, .client (.register 0)), (true, .client (.send 0)),
    (true, .client (.run 0)), (true, .client (.session (.modify .ok))),
    (true, .client (.session (.send (.accepted 8)))), (true, .client (.session (.modify .ok))),
    (true, .server (.session (.handleEvents { in_ := true }))),
    (true, .server (.session (.recv (.data (frameOf (RpcClient.callMessage 1 .nil .nil .nil)))))),
    (true, .server (.session (.recv (.error .eagain)))), (true, .server (.session .parse)),
    (true, .server (.session .parse)), (true, .reply 0 { id := 1, kind := .response, status := 404 } none),
    (true, .server (.run 0)), (true, .server (.session (.modify .ok))),
    (true, .server (.session (.send (.accepted 11)))), (true, .server (.session (.modify .ok))),
    (true, .client (.session (.handleEvents { in_ := true }))),
    (true, .client (.session (.recv (.data (frameOf { id := 1, kind := .response, status := 404 }))))),
    (true, .client (.session (.recv (.error .eagain)))), (true, .client (.session .parse))]

theorem twoClients_response :
    ∃ final, (ClientServer.machine.family Bool).run (fun _ => ClientServer.started 5 6) twoClients =
        some final ∧
      .received { id := 1, kind := .response, status := 404 } (some 7) ∈ (final true).node.trace ∧
      ((RpcClient.callMessage 1 .nil .nil .nil, { id := 1, kind := .response, status := 404 }) :
        RpcMessage × RpcMessage) ∈ (final true).answers ∧
      (ranIds (final true).node.trace).count 1 ≤ 1 := by
  obtain ⟨final, ran, few, received⟩ :
      ∃ final, (ClientServer.machine.family Bool).run (fun _ => ClientServer.started 5 6) twoClients =
          some final ∧
        (final true).node.allIds.length < 2 ^ 64 ∧
        (final true).node.trace = [.called 1 (RpcClient.callMessage 1 .nil .nil .nil) (some 7),
          .received { id := 1, kind := .response, status := 404 } (some 7)] := by
    refine ⟨((ClientServer.machine.family Bool).run (fun _ => ClientServer.started 5 6)
      twoClients).get (by decide +kernel), (Option.some_get _).symm, ?_⟩
    decide +kernel
  obtain ⟨once, own⟩ := each_response_to_its_own_call ran few
  obtain ⟨request, _, answered, only, _⟩ := own { id := 1, kind := .response, status := 404 } 7
    (by rw [received]; simp)
  obtain ⟨rfl, _⟩ := only (RpcClient.callMessage 1 .nil .nil .nil) (some 7) (by rw [received]; simp)
  exact ⟨final, ran, by rw [received]; simp, answered, once 1⟩

end Insist.MiniRpc
