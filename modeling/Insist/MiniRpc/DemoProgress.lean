/-
**The demo service can always settle.**

As long as nothing faulty has happened to a client of the demo server and its session there (no error of a
socket or of `epoll_ctl`, no hang-up, no close), both loop threads can always bring everything that is on its
way to its end: the calls in progress are made, the client comes to rest, then the server with all it had been
sent, then the client again with the answers. No new call is made on the way, and every event is one that
`epoll` would report.

* `DemoPair.Calm`, `run_calm` — the invariant of faultless runs;
* `settling` — the steps that are taken, and how the steps of a `Side` become steps of a `DemoPair`;
* **`demo_can_settle`** — from every state of every faultless run, a state is reached in which every call made
  so far is settled.
-/
import Insist.MiniRpc.DemoWorld
import Insist.MiniRpc.Progress

namespace Insist.MiniRpc

open Lib

variable {R : Type}

namespace ClientNode

/-- Nothing faulty, and nobody closes. -/
def Label.faultless : Label R → Bool
  | .close => false
  | .session action => (Endpoint.Label.session action).faultless
  | _ => true

/-- What a faultless label asks of the session is faultless; the client keeps its session. -/
theorem enter_faultless {node entered : ClientNode R} {label : Label R}
    {endpointLabel : Option (Endpoint.Label UInt64)} (faultless : label.faultless = true)
    (same : node.enter label = some (entered, endpointLabel)) :
    (∀ asked ∈ endpointLabel, asked.faultless = true) ∧ entered.client.session = node.client.session := by
  unfold enter at same
  cases label with
  | callAsync | notify =>
      simp only at same
      split_ifs at same <;> cases same <;> exact ⟨by simp, rfl⟩
  | register =>
      simp only at same
      split at same <;> cases same
      exact ⟨by simp, rfl⟩
  | send =>
      simp only at same
      split_ifs at same
      split at same <;> cases same
      exact ⟨by simp [Endpoint.Label.faultless, Endpoint.Label.quiet, Endpoint.Label.modifySucceeds], rfl⟩
  | close => cases faultless
  | run =>
      cases same
      exact ⟨by simp [Endpoint.Label.faultless, Endpoint.Label.quiet, Endpoint.Label.modifySucceeds], rfl⟩
  | session action =>
      cases same
      refine ⟨fun asked member => ?_, rfl⟩
      cases member
      exact faultless

end ClientNode

namespace DemoPair

/-! ### Faultless runs -/

/-- Nothing faulty, and nobody closes. -/
def Label.faultless : Label R → Bool
  | .client label => label.faultless
  | .server label _ => label.faultless

/-- Both sessions are calm, and the client has its own. -/
structure Calm (pair : DemoPair R) : Prop where
  correlates : ClientServer.Correlates pair.image
  client : pair.node.endpoint.Calm
  server : pair.server.Calm
  connected : pair.node.client.session.isSome = true

theorem accepted_calm (fd fd' : ℕ) (id : UInt64) : (accepted fd fd' id : DemoPair R).Calm where
  correlates := ClientServer.run_correlates (accepted_refines fd fd' id)
  client := Endpoint.started_calm fd
  server := (Endpoint.started_calm fd').sendAll _
  connected := rfl

/-- The server's program leaves the client alone. -/
theorem node_foldl (ctime : CtimeText) (pair : DemoPair R) (messages : List RpcMessage) :
    (messages.foldl (handle ctime) pair).node = pair.node := by
  induction messages generalizing pair with
  | nil => rfl
  | cons message messages ih =>
      refine (ih _).trans ?_
      unfold handle
      cases onMessage ctime message <;> rfl

/-- What the message handler sends for several messages, if it does not throw. -/
theorem server_foldl (ctime : CtimeText) (pair : DemoPair R) (calm : pair.server.Calm)
    {messages : List RpcMessage}
    (handled : ∀ message ∈ messages, ∃ entries, onMessage ctime message = some entries) :
    (messages.foldl (handle ctime) pair).server =
        messages.foldl (fun endpoint message => endpoint.sendAll ((onMessage ctime message).getD []))
          pair.server ∧
      (messages.foldl (handle ctime) pair).server.Calm ∧
      (messages.foldl (handle ctime) pair).toServer = pair.toServer ∧
      (messages.foldl (handle ctime) pair).toClient = pair.toClient := by
  induction messages generalizing pair with
  | nil => exact ⟨rfl, calm, rfl, rfl⟩
  | cons message messages ih =>
      obtain ⟨entries, made⟩ := handled message List.mem_cons_self
      have here : handle ctime pair message = { pair with
          server := pair.server.sendAll entries
          answers := pair.answers ++ entries.map fun entry => (message, entry.1) } := by
        simp only [handle, made]
      have now := ih (handle ctime pair message) (by rw [here]; exact calm.sendAll entries)
        fun other member => handled other (List.mem_cons_of_mem _ member)
      rw [List.foldl_cons, List.foldl_cons, made, Option.getD_some]
      rw [here] at now ⊢
      exact now

/-- The message handler does not throw on what the session hands out. -/
theorem handled_of_delivered (ctime : CtimeText) {endpoint endpoint' : Endpoint Unit}
    {label : Endpoint.Label Unit}
    {effects : List (Effect Unit)} (moves : Endpoint.Moves endpoint label endpoint' effects) :
    ∀ message ∈ delivered effects, ∃ entries, onMessage ctime message = some entries := by
  intro message member
  rcases moves.delivered_cases with none | ⟨only, payload, one, small, decoded⟩
  · rw [none] at member
    cases member
  · rw [one] at member
    obtain rfl := List.mem_singleton.mp member
    by_cases asks : message.kind = .request
    · obtain ⟨response, made⟩ := handled ctime small decoded asks
      exact ⟨_, by rw [onMessage, if_pos asks, made]; rfl⟩
    · exact ⟨[], if_neg asks⟩

/-- **Every faultless step leaves the pair calm.** -/
theorem Calm.step {pair pair' : DemoPair R} {label : Label R} (calm : pair.Calm)
    (faultless : label.faultless = true) (stepped : machine.step pair label = some pair') : pair'.Calm := by
  have correlates : ClientServer.Correlates pair'.image := by
    obtain ⟨labels, ran⟩ := step_refines calm.correlates.wf stepped
    exact Machine.invariant_run ClientServer.Correlates (fun holds stepped => holds.step stepped)
      calm.correlates ran
  cases label with
  | client label =>
      simp only [machine, DemoPair.step] at stepped
      split at stepped
      case h_1 => cases stepped
      case h_2 toClient read =>
        obtain ⟨⟨node, effects⟩, moved, rfl⟩ := Option.map_eq_some_iff.mp stepped
        rcases ClientNode.step_cases moved with ⟨same, _⟩ | ⟨entered, asked, endpoint', same, took, rfl⟩
        · obtain ⟨_, session⟩ := ClientNode.enter_faultless faultless same
          have endpoint := ClientNode.enter_endpoint same
          exact ⟨correlates, by rw [endpoint]; exact calm.client, calm.server,
            by rw [session]; exact calm.connected⟩
        · obtain ⟨plain, session⟩ := ClientNode.enter_faultless faultless same
          have chunk := ClientNode.enter_chunk same
          have client := calm.client
          have clean := calm.correlates.back.clean client.session.serving
          have endpoint := ClientNode.enter_endpoint same
          rw [← endpoint] at client
          have moves := Endpoint.step_moves client.session.wf took
          have good := moves.clean (by rw [endpoint]; exact clean)
            (by rw [← show label.chunk = asked.chunk from chunk]; exact read)
          have after := moves.calm client (plain asked rfl) good.1
          refine ⟨correlates, after, calm.server, ?_⟩
          have unclosed := moves.close_of_serving client.session.wf after.session.serving
          show (entered.client.handleAll effects).1.session.isSome = true
          rw [RpcClient.handleAll_session,
            if_neg (fun close => unclosed ((Effect.any_isClose effects).mp close)),
            session]
          exact calm.connected
  | server label ctime =>
      simp only [machine, DemoPair.step] at stepped
      split_ifs at stepped with silent
      split at stepped
      case h_1 => cases stepped
      case h_2 toServer read =>
        obtain ⟨⟨server, effects⟩, moved, rfl⟩ := Option.map_eq_some_iff.mp stepped
        have moves := Endpoint.step_moves calm.server.session.wf moved
        have clean := calm.correlates.forward.clean calm.server.session.serving
        have after := moves.calm calm.server faultless (moves.clean clean read).1
        let served : DemoPair R := { pair with
          server := server, toServer := toServer
          toClient := pair.toClient ++ MiniRpc.accepted effects }
        obtain ⟨_, kept, _⟩ := server_foldl ctime served after (handled_of_delivered ctime moves)
        have node := node_foldl ctime served (delivered effects)
        exact ⟨correlates, by rw [node]; exact calm.client, kept, by rw [node]; exact calm.connected⟩

theorem run_calm {fd fd' : ℕ} {id : UInt64} {labels : List (Label R)} {final : DemoPair R}
    (faultless : ∀ label ∈ labels, label.faultless = true)
    (ran : machine.run (accepted fd fd' id) labels = some final) : final.Calm :=
  Machine.invariant_run_of (fun label => label.faultless = true) Calm
    (fun holds permitted stepped => holds.step permitted stepped) (accepted_calm fd fd' id) faultless ran

/-! ### The steps that are taken -/

/-- The calls in progress go on, and the loop threads move as they can when nothing is faulty. -/
def Label.settling (pair : DemoPair R) : Label R → Bool
  | .client (.register _) | .client (.send _) => true
  | .client (.run index) => (Endpoint.Label.run index).settling pair.node.endpoint pair.toClient
  | .client (.session action) => (Endpoint.Label.session action).settling pair.node.endpoint pair.toClient
  | .client _ => false
  | .server label _ => label.settling pair.server pair.toServer

/-- The steps that need no new call and no fault. -/
def settling : Machine (DemoPair R) (Label R) :=
  machine.guarded fun pair label => label.settling pair = true

theorem Label.faultless_of_settling {pair : DemoPair R} {label : Label R}
    (settles : label.settling pair = true) :
    label.faultless = true := by
  cases label with
  | client label =>
      cases label with
      | register | send | run => rfl
      | session action =>
          have moves : (Endpoint.Label.session action).settling pair.node.endpoint pair.toClient =
            true := settles
          exact Endpoint.Label.faultless_of_settling moves
      | callAsync | notify | close => cases settles
  | server label ctime =>
      have moves : label.settling pair.server pair.toServer = true := settles
      exact Endpoint.Label.faultless_of_settling moves

/-- **Settling leaves the pair calm.** -/
theorem Calm.of_settling {pair final : DemoPair R} (calm : pair.Calm) (reaches : settling.Reaches pair final) :
    final.Calm := by
  obtain ⟨labels, ran⟩ := reaches
  refine Machine.invariant_run Calm (fun holds stepped => ?_) calm ran
  obtain ⟨settles, moved⟩ := Machine.guarded_step.mp stepped
  exact holds.step (Label.faultless_of_settling settles) moved

/-! ### A side and its pair -/

/-- The client's side. -/
def clientSide (pair : DemoPair R) : Side UInt64 := ⟨pair.node.endpoint, pair.toClient, pair.toServer⟩

/-- The server's side. -/
def serverSide (pair : DemoPair R) : Side Unit := ⟨pair.server, pair.toServer, pair.toClient⟩

/-- A message handler that sends nothing. -/
theorem foldl_sendAll_nil (endpoint : Endpoint UInt64) (messages : List RpcMessage) :
    messages.foldl (fun endpoint _ => endpoint.sendAll []) endpoint = endpoint := by
  induction messages with
  | nil => rfl
  | cons message messages ih => exact ih

/-- **What the client's side can do, the pair can**; the server and the calls in progress stay as they are. -/
theorem reaches_of_clientSide {pair : DemoPair R} {side : Side UInt64}
    (reaches : (Side.machine fun _ => []).Reaches pair.clientSide side) :
    ∃ pair', settling.Reaches pair pair' ∧ pair'.clientSide = side ∧ pair'.server = pair.server ∧
      pair'.node.calling = pair.node.calling ∧ pair'.node.sending = pair.node.sending := by
  refine Machine.Reaches.simulated settling (fun side (pair' : DemoPair R) => pair'.clientSide = side ∧
    pair'.server = pair.server ∧ pair'.node.calling = pair.node.calling ∧
      pair'.node.sending = pair.node.sending) ?_ ⟨rfl, rfl, rfl, rfl⟩ reaches
  rintro _ next label image ⟨rfl, server, calling, sending⟩ stepped
  simp only [Side.machine, Side.step] at stepped
  split_ifs at stepped with settles
  split at stepped
  case h_1 => cases stepped
  case h_2 toClient read =>
    obtain ⟨⟨endpoint, effects⟩, moved, rfl⟩ := Option.map_eq_some_iff.mp stepped
    have lifted (label' : ClientNode.Label R) (chunk : label'.chunk = label.chunk)
        (settles : (Label.client label').settling image = true)
        (taken : image.node.step label' = some (image.node.absorb (endpoint, effects))) :
        ∃ image', settling.Reaches image image' ∧ image'.clientSide =
            { endpoint := (delivered effects).foldl (fun endpoint _ => endpoint.sendAll []) endpoint
              incoming := toClient, outgoing := image.toServer ++ MiniRpc.accepted effects } ∧
          image'.server = pair.server ∧ image'.node.calling = pair.node.calling ∧
          image'.node.sending = pair.node.sending := by
      have stepped : settling.step image (.client label') = some { image with
          node := (image.node.absorb (endpoint, effects)).1, toClient := toClient
          toServer := image.toServer ++ MiniRpc.accepted effects } := by
        refine Machine.guarded_step.mpr ⟨settles, ?_⟩
        have read' : readFrom image.toClient label'.chunk = some toClient := by
          rw [chunk]
          exact read
        unfold machine DemoPair.step
        simp only [read', taken, Option.map_some]
        rfl
      refine ⟨_, Machine.Reaches.of_step stepped, ?_, server, calling, sending⟩
      rw [foldl_sendAll_nil]
      rfl
    cases label with
    | run index =>
        refine lifted (.run index) rfl settles ?_
        show (image.node.endpoint.step (.run index)).map image.node.absorb = _
        rw [show image.node.endpoint.step (.run index) = _ from moved]
        rfl
    | session action =>
        refine lifted (.session action) rfl settles ?_
        show (image.node.endpoint.step (.session action)).map image.node.absorb = _
        rw [show image.node.endpoint.step (.session action) = _ from moved]
        rfl
    | send | close => cases settles

/-- **What the server's side can do, the pair can**, at any time of the day; the client stays as it is. -/
theorem reaches_of_serverSide (ctime : CtimeText) {pair : DemoPair R} (calm : pair.Calm) {side : Side Unit}
    (reaches : (Side.machine fun message => (onMessage ctime message).getD []).Reaches pair.serverSide side) :
    ∃ pair', settling.Reaches pair pair' ∧ pair'.serverSide = side ∧ pair'.node = pair.node := by
  obtain ⟨pair', reached, _, same, node⟩ := Machine.Reaches.simulated settling
    (fun side (pair' : DemoPair R) => pair'.Calm ∧ pair'.serverSide = side ∧ pair'.node = pair.node) (by
      rintro _ next label image ⟨calm, rfl, node⟩ stepped
      simp only [Side.machine, Side.step] at stepped
      split_ifs at stepped with settles
      split at stepped
      case h_1 => cases stepped
      case h_2 toServer read =>
        obtain ⟨⟨server, effects⟩, moved, rfl⟩ := Option.map_eq_some_iff.mp stepped
        have silent : label.messages = [] := by
          cases label with
          | send => cases settles
          | _ => rfl
        let served : DemoPair R := { image with
          server := server, toServer := toServer
          toClient := image.toClient ++ MiniRpc.accepted effects }
        have taken : settling.step image (.server label ctime) =
            some ((delivered effects).foldl (handle ctime) served) := by
          refine Machine.guarded_step.mpr ⟨settles, ?_⟩
          have read' : readFrom image.toServer label.chunk = some toServer := read
          have moved' : image.server.step label = some (server, effects) := moved
          unfold machine DemoPair.step
          simp only [silent, read', moved', Option.map_some, if_true]
          rfl
        have moves := Endpoint.step_moves calm.server.session.wf moved
        have clean := calm.correlates.forward.clean calm.server.session.serving
        have after := moves.calm calm.server (Endpoint.Label.faultless_of_settling settles)
          (moves.clean clean read).1
        obtain ⟨same, _, toServer', toClient'⟩ :=
          server_foldl ctime served after (handled_of_delivered ctime moves)
        have reached := Machine.Reaches.of_step taken
        refine ⟨_, reached, calm.of_settling reached, ?_, (node_foldl ctime served _).trans node⟩
        rw [serverSide, same, toServer', toClient']
        rfl) ⟨calm, rfl, rfl⟩ reaches
  exact ⟨pair', reached, same, node⟩

/-! ### What settling keeps -/

/-- A step that makes no new call keeps the number of calls, and adds to the history. -/
theorem step_history {node node' : ClientNode R} {label : ClientNode.Label R} {effects : List (Effect UInt64)}
    (noCall : ∀ service method payload handler, label ≠ .callAsync service method payload handler)
    (stepped : node.step label = some (node', effects)) :
    node.trace <+: node'.trace ∧ node'.allIds.length = node.allIds.length := by
  have entered {after : ClientNode R} {asked : Option (Endpoint.Label UInt64)}
      (same : node.enter label = some (after, asked)) :
      node.trace <+: after.trace ∧ after.allIds.length = node.allIds.length := by
    unfold ClientNode.enter at same
    cases label with
    | callAsync => exact absurd rfl (noCall _ _ _ _)
    | notify =>
        simp only at same
        split_ifs at same <;> cases same <;> exact ⟨List.prefix_refl _, rfl⟩
    | register index =>
        simp only at same
        split at same
        case h_1 => cases same
        case h_2 request handler found =>
          cases same
          obtain ⟨inside, _⟩ := List.getElem?_eq_some_iff.mp found
          refine ⟨List.prefix_append _ _, ?_⟩
          have one : calledIds [(.called request.id request handler : ClientEvent R)] = [request.id] := rfl
          rw [ClientNode.allIds, ClientNode.allIds, calledIds_append, one]
          simp only [List.length_append, List.length_map, List.length_eraseIdx_of_lt inside,
            List.length_singleton]
          omega
    | send =>
        simp only at same
        split_ifs at same
        split at same <;> cases same
        exact ⟨List.prefix_refl _, rfl⟩
    | close | run | session =>
        cases same
        exact ⟨List.prefix_refl _, rfl⟩
  rcases ClientNode.step_cases stepped with ⟨same, _⟩ | ⟨after, asked, endpoint', same, _, rfl⟩
  · exact entered same
  · obtain ⟨more, ids⟩ := entered same
    refine ⟨more.trans (List.prefix_append _ _), ?_⟩
    rw [← ids]
    show (calledIds (after.trace ++ (after.client.handleAll effects).2) ++ _).length = _
    rw [calledIds_append, (after.client.handleAll_numbers effects).2, List.append_nil]
    rfl

/-- **Settling makes no new call**, and forgets nothing. -/
theorem history_of_settling {pair final : DemoPair R} (reaches : settling.Reaches pair final) :
    pair.node.trace <+: final.node.trace ∧ final.node.allIds.length = pair.node.allIds.length := by
  obtain ⟨labels, ran⟩ := reaches
  refine Machine.invariant_run (fun final : DemoPair R => pair.node.trace <+: final.node.trace ∧
    final.node.allIds.length = pair.node.allIds.length) ?_ ⟨List.prefix_refl _, rfl⟩ ran
  rintro state label next ⟨more, ids⟩ stepped
  obtain ⟨settles, moved⟩ := Machine.guarded_step.mp stepped
  cases label with
  | client label =>
      simp only [machine, DemoPair.step] at moved
      split at moved
      case h_1 => cases moved
      case h_2 =>
        obtain ⟨⟨node, effects⟩, took, rfl⟩ := Option.map_eq_some_iff.mp moved
        have noCall : ∀ service method payload handler,
            label ≠ ClientNode.Label.callAsync service method payload handler := by
          rintro service method payload handler rfl
          cases settles
        obtain ⟨later, same⟩ := step_history noCall took
        exact ⟨more.trans later, same.trans ids⟩
  | server label ctime =>
      simp only [machine, DemoPair.step] at moved
      split_ifs at moved
      split at moved
      case h_1 => cases moved
      case h_2 =>
        obtain ⟨answer, _, rfl⟩ := Option.map_eq_some_iff.mp moved
        rw [node_foldl]
        exact ⟨more, ids⟩

/-! ### To rest -/

/-- A side without tasks, whose message handler sends nothing, executes nothing. -/
theorem executed_of_reaches {side side' : Side UInt64} (reaches : (Side.machine fun _ => []).Reaches side side')
    (none : side.endpoint.tasks = []) : side'.endpoint.executed = side.endpoint.executed := by
  obtain ⟨labels, ran⟩ := reaches
  have kept := Machine.invariant_run
    (fun side' : Side UInt64 => side'.endpoint.tasks = [] ∧ side'.endpoint.executed = side.endpoint.executed)
    (by
      rintro side label next ⟨tasks, executed⟩ stepped
      simp only [Side.machine, Side.step] at stepped
      split_ifs at stepped with settles
      split at stepped
      case h_1 => cases stepped
      case h_2 toClient _ =>
        obtain ⟨⟨endpoint, effects⟩, moved, rfl⟩ := Option.map_eq_some_iff.mp stepped
        simp only [foldl_sendAll_nil]
        cases label with
        | send | close => cases settles
        | run index => simp [Endpoint.step, tasks] at moved
        | session action =>
            simp only [Endpoint.step] at moved
            split_ifs at moved
            obtain ⟨answer, _, same⟩ := Option.map_eq_some_iff.mp moved
            cases same
            exact ⟨tasks, (List.append_nil _).trans executed⟩)
    ⟨none, rfl⟩ ran
  exact kept.2

/-- The calls in progress make their entries. -/
theorem exists_registered (pair : DemoPair R) :
    ∃ pair', settling.Reaches pair pair' ∧ pair'.node.calling = [] := by
  induction calls : pair.node.calling generalizing pair with
  | nil => exact ⟨pair, Machine.Reaches.refl pair, calls⟩
  | cons call calling ih =>
      obtain ⟨request, handler⟩ := call
      let next : DemoPair R := { pair with
        node := { pair.node with
          client := pair.node.client.register request.id handler
          calling := calling
          sending := pair.node.sending ++ [(request, some request.id)]
          trace := pair.node.trace ++ [.called request.id request handler] } }
      have taken : settling.step pair (.client (.register 0)) = some next := by
        refine Machine.guarded_step.mpr ⟨rfl, ?_⟩
        have unread : readFrom pair.toClient (ClientNode.Label.register 0 : ClientNode.Label R).chunk =
            some pair.toClient := readFrom_nil _
        unfold machine DemoPair.step
        simp only [unread, ClientNode.step, ClientNode.enter, calls, List.getElem?_cons_zero,
          List.eraseIdx_cons_zero, Option.map_some, MiniRpc.accepted, List.flatMap_nil, List.append_nil]
        rfl
      obtain ⟨pair', later, done⟩ := ih next rfl
      exact ⟨pair', Machine.Reaches.step taken later, done⟩

/-- What is about to be sent is sent. -/
theorem exists_sent {pair : DemoPair R} (calm : pair.Calm) (called : pair.node.calling = []) :
    ∃ pair', settling.Reaches pair pair' ∧ pair'.node.calling = [] ∧ pair'.node.sending = [] := by
  induction entries : pair.node.sending generalizing pair with
  | nil => exact ⟨pair, Machine.Reaches.refl pair, called, entries⟩
  | cons entry sending ih =>
      obtain ⟨message, handler⟩ := entry
      obtain ⟨next, taken, calling, rest⟩ : ∃ next, settling.step pair (.client (.send 0)) = some next ∧
          next.node.calling = [] ∧ next.node.sending = sending := by
        have unread : readFrom pair.toClient (ClientNode.Label.send 0 : ClientNode.Label R).chunk =
            some pair.toClient := readFrom_nil _
        have sent : pair.node.step (.send 0) = some
          (({ pair.node with sending := sending } : ClientNode R).absorb
            (pair.node.endpoint.send message handler)) := by
          unfold ClientNode.step ClientNode.enter
          simp only [calm.connected, if_true, entries, List.getElem?_cons_zero, List.eraseIdx_cons_zero,
            Endpoint.step, Option.map_some]
        refine ⟨{ pair with
          node := (({ pair.node with sending := sending } : ClientNode R).absorb
            (pair.node.endpoint.send message handler)).1
          toServer := pair.toServer ++ MiniRpc.accepted (pair.node.endpoint.send message handler).2 },
          Machine.guarded_step.mpr ⟨rfl, ?_⟩, called, rfl⟩
        unfold machine DemoPair.step
        simp only [unread, sent, Option.map_some]
        rfl
      obtain ⟨pair', later, done⟩ := ih (calm.of_settling (Machine.Reaches.of_step taken)) calling rest
      exact ⟨pair', Machine.Reaches.step taken later, done⟩

/-- The two sides of a calm pair are calm. -/
theorem Calm.sides {pair : DemoPair R} (calm : pair.Calm) : pair.clientSide.Calm ∧ pair.serverSide.Calm :=
  ⟨⟨calm.client, calm.correlates.back.clean calm.client.session.serving⟩,
    ⟨calm.server, calm.correlates.forward.clean calm.server.session.serving⟩⟩

/-- **A calm pair can come to rest.** -/
theorem exists_rest {pair : DemoPair R} (calm : pair.Calm) :
    ∃ final, settling.Reaches pair final ∧ final.image.AtRest := by
  obtain ⟨registered, first, called⟩ := exists_registered pair
  obtain ⟨sent, second, calling, sending⟩ := exists_sent (calm.of_settling first) called
  have calm₂ := (calm.of_settling first).of_settling second
  -- the client writes all its requests
  obtain ⟨_, third, rest₃, _⟩ := Side.exists_rest (fun _ => []) calm₂.sides.1
  obtain ⟨written, reached₃, rfl, _, calling₃, sending₃⟩ := reaches_of_clientSide third
  have calm₃ := calm₂.of_settling reached₃
  -- the server reads them, and writes all its answers
  obtain ⟨_, fourth, rest₄, read₄⟩ :=
    Side.exists_rest (fun message => (onMessage newYear message).getD []) calm₃.sides.2
  obtain ⟨served, reached₄, rfl, node₄⟩ := reaches_of_serverSide newYear calm₃ fourth
  have calm₄ := calm₃.of_settling reached₄
  -- the client reads the answers, and writes nothing more
  obtain ⟨_, fifth, rest₅, read₅⟩ := Side.exists_rest (fun _ => []) calm₄.sides.1
  obtain ⟨final, reached₅, rfl, server₅, calling₅, sending₅⟩ := reaches_of_clientSide fifth
  have calm₅ := calm₄.of_settling reached₅
  have client₄ : served.node.endpoint.AtRest := by
    rw [node₄]
    exact rest₃
  have executed : final.node.endpoint.executed = served.node.endpoint.executed :=
    executed_of_reaches fifth client₄.tasks
  have server : final.server.AtRest := by
    rw [server₅]
    exact rest₄
  refine ⟨final, first.trans (second.trans (reached₃.trans (reached₄.trans reached₅))), ?_⟩
  refine ⟨rest₅, server, by rw [image, calling₅, node₄, calling₃, calling],
    by rw [image, sending₅, node₄, sending₃, sending], ?_, read₅⟩
  -- what the client has written is what its executed messages take, before and after
  have before := calm₄.correlates.forward
  have after := calm₅.correlates.forward
  have all (pair : DemoPair R) (rest : pair.node.endpoint.AtRest)
      (forward : Direction pair.node.endpoint pair.toServer pair.server) :
      received pair.server.trace ++ pair.toServer = pair.node.endpoint.executed.flatMap frameOf := by
    have whole := forward.sent.sends.whole rest.serving
    rw [rest.queue, List.flatMap_nil, List.append_nil, forward.sent.frames rest.opened] at whole
    rw [← whole, forward.carries]
  have same : received final.server.trace ++ final.toServer =
      received served.server.trace ++ served.toServer := by
    rw [all final rest₅ after, all served client₄ before, executed]
  have nothing : served.toServer = [] := read₄
  rw [server₅, nothing] at same
  exact List.append_cancel_left same

end DemoPair

/-- **The demo service can always settle.** Take any run of a client and the demo server in which nothing faulty
has happened: no error of a socket or of `epoll_ctl`, no hang-up, no close. From the state it has come to, a
state in which nothing is on the way any more can be reached, and only by steps of two kinds: the calls in
progress make their entries and send, and the two loop threads run their tasks in order and then act on events
that `epoll` would report. Nothing of the client's history is lost there, no call has been added, and as long as
the ids have not run out each call of the history is settled: reported, answered exactly once, or waiting for an
answer that did not fit. -/
theorem demo_can_settle {fd fd' : ℕ} {id : UInt64} {labels : List (DemoPair.Label R)} {state : DemoPair R}
    (faultless : ∀ label ∈ labels, label.faultless = true)
    (ran : DemoPair.machine.run (DemoPair.accepted fd fd' id) labels = some state) :
    ∃ later final, DemoPair.settling.run state later = some final ∧ final.image.AtRest ∧
      state.node.trace <+: final.node.trace ∧ final.node.allIds.length = state.node.allIds.length ∧
      (state.node.allIds.length < 2 ^ 64 → ∀ call request handler,
        .called call request handler ∈ final.node.trace → final.CallSettled call request handler) := by
  have calm := DemoPair.run_calm faultless ran
  obtain ⟨final, ⟨later, settled⟩, rest⟩ := DemoPair.exists_rest calm
  obtain ⟨more, ids⟩ := DemoPair.history_of_settling ⟨later, settled⟩
  refine ⟨later, final, settled, rest, more, ids, fun few call request handler called => ?_⟩
  have whole : DemoPair.machine.run (DemoPair.accepted fd fd' id) (labels ++ later) = some final :=
    (DemoPair.machine.run_append_eq_some).mpr ⟨state, ran, Machine.run_of_guarded settled⟩
  obtain ⟨correlates, conserves, answers⟩ := DemoPair.run_conserves whole
  exact DemoPair.callSettled_of_rest correlates conserves answers (by rw [ids]; exact few) rest called

/-- A client has begun a call of `echo`, and nothing has been sent yet. -/
def justCalled : List (DemoPair.Label ℕ) :=
  [.client (.callAsync echoCall.service echoCall.method echoCall.payload (some 7)), .client (.register 0)]

theorem justCalled_settles :
    ∃ state later final, DemoPair.machine.run (DemoPair.accepted 5 6 1) justCalled = some state ∧
      DemoPair.settling.run state later = some final ∧ final.image.AtRest ∧
      final.CallSettled 1 echoCall (some 7) := by
  obtain ⟨state, ran, trace, ids⟩ :
      ∃ state, DemoPair.machine.run (DemoPair.accepted 5 6 1) justCalled = some state ∧
        state.node.trace = [.called 1 echoCall (some 7)] ∧ state.node.allIds.length = 1 := by
    refine ⟨(DemoPair.machine.run (DemoPair.accepted 5 6 1) justCalled).get (by decide +kernel),
      (Option.some_get _).symm, ?_⟩
    decide +kernel
  obtain ⟨later, final, settled, rest, more, _, every⟩ := demo_can_settle (by decide) ran
  have called : .called 1 echoCall (some 7) ∈ final.node.trace :=
    more.subset (by rw [trace]; exact List.mem_singleton_self _)
  exact ⟨state, later, final, ran, settled, rest, every (by rw [ids]; decide) 1 echoCall (some 7) called⟩

end Insist.MiniRpc
