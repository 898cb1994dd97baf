/-
**Answers come in the order of the calls.**

The loop runs the posted tasks in the order in which they were posted. With this, and with one thread that makes
the client's calls, nothing overtakes anything on the way of a request and of its answer: the requests are
posted in the order of the calls, executed, delivered and answered in this order, and the answers are executed
and dispatched in the order in which they were given, after the welcome.

* `Endpoint.Moves.posted_eq` — what is posted only grows at its end;
* `InOrder`, `InOrder.step` — the invariant: each stage is the one before it, as far as it has come;
* **`responses_in_order`** — the client dispatches the welcome, and then the answers to an initial part of its
  calls.
-/
import Insist.MiniRpc.DemoWorld

namespace Insist.MiniRpc

open Lib

variable {R H : Type}

/-! ### In order -/

/-- The loop runs the first task. -/
def Endpoint.Label.inOrder : Endpoint.Label H → Bool
  | .run index => index = 0
  | _ => true

/-- The loop runs the first task, and the calls in progress go on one after the other. -/
def ClientNode.Label.inOrder : ClientNode.Label R → Bool
  | .register index | .send index | .run index => index = 0
  | _ => true

namespace Endpoint

/-- What has been posted so far. -/
def posted (endpoint : Endpoint H) : List RpcMessage := endpoint.executed ++ taskMessages endpoint.tasks

/-- **What is posted only grows at its end**, by the messages that fit. -/
theorem Moves.posted_eq {endpoint endpoint' : Endpoint H} {label : Label H} {effects : List (Effect H)}
    (moves : Moves endpoint label endpoint' effects) (inOrder : label.inOrder = true) :
    endpoint'.posted = endpoint.posted ++ label.messages.filter (FitsFrame ·) := by
  unfold Endpoint.posted
  cases moves with
  | @rejected message handler large =>
      have tooLarge : ¬ FitsFrame message := not_le.mpr large
      have none : (Label.send message handler).messages.filter (FitsFrame ·) = [] := by
        rw [Label.messages, List.filter_cons_of_neg (by simp [tooLarge]), List.filter_nil]
      rw [none, List.append_nil]
  | @posted message handler small =>
      have fits : FitsFrame message := small
      have one : (Label.send message handler).messages.filter (FitsFrame ·) = [message] := by
        rw [Label.messages, List.filter_cons_of_pos (by simp [fits]), List.filter_nil]
      have more : taskMessages (endpoint.tasks ++ [Task.send message handler]) =
          taskMessages endpoint.tasks ++ [message] := by
        simp [taskMessages, Task.message]
      rw [one, more, List.append_assoc]
  | closePosted =>
      have more : taskMessages (endpoint.tasks ++ [Task.close]) = taskMessages endpoint.tasks := by
        simp [taskMessages, Task.message]
      have none : (Label.close : Label H).messages.filter (FitsFrame ·) = [] := rfl
      rw [more, none, List.append_nil]
  | @ran index task session effects found moves =>
      obtain rfl : index = 0 := by simpa [Label.inOrder] using inOrder
      have none : (Label.run 0 : Label H).messages.filter (FitsFrame ·) = [] := rfl
      rw [none, List.append_nil]
      cases tasks : endpoint.tasks with
      | nil => simp [tasks] at found
      | cons first rest =>
          obtain rfl : first = task := by simpa [tasks] using found
          show endpoint.executed ++ first.message ++ taskMessages rest =
            endpoint.executed ++ taskMessages (first :: rest)
          rw [List.append_assoc]
          rfl
  | @inside action session effects notTask moves =>
      have none : (Label.session action).messages.filter (FitsFrame ·) = [] := rfl
      rw [none, List.append_nil]
      show endpoint.executed ++ [] ++ taskMessages endpoint.tasks = _
      rw [List.append_nil]

/-- Sending several messages. -/
theorem posted_sendAll (endpoint : Endpoint H) (entries : List (RpcMessage × Option H)) :
    (endpoint.sendAll entries).posted = endpoint.posted ++ (entries.map Prod.fst).filter (FitsFrame ·) ∧
      delivered (endpoint.sendAll entries).trace = delivered endpoint.trace := by
  induction entries generalizing endpoint with
  | nil => exact ⟨(List.append_nil _).symm, rfl⟩
  | cons entry entries ih =>
      obtain ⟨message, handler⟩ := entry
      obtain ⟨posts, delivers⟩ := ih (endpoint.send message handler).1
      refine ⟨posts.trans ?_, delivers.trans ?_⟩
      · unfold Endpoint.send posted
        by_cases small : FitsFrame message
        · have notLarge : ¬ (ProtobufWireCodec.encode message).length > kMaxFrameSize.toNat := not_lt.mpr small
          rw [if_neg notLarge, List.map_cons, List.filter_cons_of_pos (by simpa using small)]
          simp [taskMessages, Task.message]
        · have large : (ProtobufWireCodec.encode message).length > kMaxFrameSize.toNat := not_le.mp small
          rw [if_pos large, List.map_cons, List.filter_cons_of_neg (by simpa using small)]
      · unfold Endpoint.send
        split_ifs
        · rw [delivered_append, delivered_of_silent (silent_invoke _ _), List.append_nil]
        · rfl

end Endpoint

/-! ### A client -/

/-- The requests of a list that fit into a frame. -/
def fittingRequests (messages : List RpcMessage) : List RpcMessage :=
  messages.filter fun message => message.kind = .request ∧ FitsFrame message

theorem fittingRequests_append (first second : List RpcMessage) :
    fittingRequests (first ++ second) = fittingRequests first ++ fittingRequests second :=
  List.filter_append _ _

theorem fittingRequests_filter (messages : List RpcMessage) :
    fittingRequests (messages.filter (FitsFrame ·)) = fittingRequests messages := by
  rw [fittingRequests, fittingRequests, List.filter_filter]
  refine List.filter_congr fun message _ => ?_
  by_cases fits : FitsFrame message <;> simp [fits]

/-- The client's requests are posted, or about to be sent, in the order of its calls. -/
def ClientNode.InOrder (node : ClientNode R) (outgoing : List RpcMessage) : Prop :=
  fittingRequests (node.endpoint.posted ++ outgoing ++ sendingMessages node.sending) =
    fittingRequests (calledRequests node.trace)

namespace ClientNode.InOrder

variable {node node' : ClientNode R}

/-- What a label does to the client keeps the order. -/
theorem enter (holds : node.InOrder []) {entered : ClientNode R} {label : ClientNode.Label R}
    (inOrder : label.inOrder = true) {asked : Option (Endpoint.Label UInt64)}
    (same : node.enter label = some (entered, asked)) :
    entered.InOrder (asked.elim [] Endpoint.Label.messages) ∧
      (asked.elim true Endpoint.Label.inOrder = true) := by
  unfold ClientNode.enter at same
  cases label with
  | callAsync =>
      simp only at same
      split_ifs at same <;> cases same <;> exact ⟨holds, rfl⟩
  | register index =>
      simp only at same
      split at same
      case h_1 => cases same
      case h_2 request handler found =>
        cases same
        refine ⟨?_, rfl⟩
        have called : calledRequests [(.called request.id request handler : ClientEvent R)] = [request] := rfl
        show fittingRequests (node.endpoint.posted ++ [] ++ sendingMessages
          (node.sending ++ [(request, some request.id)])) =
          fittingRequests (calledRequests (node.trace ++ [.called request.id request handler]))
        have more : sendingMessages (node.sending ++ [(request, some request.id)]) =
            sendingMessages node.sending ++ [request] := by
          rw [sendingMessages, List.map_append]
          rfl
        rw [more, ← List.append_assoc, fittingRequests_append _ [request], calledRequests_append, called,
          fittingRequests_append _ [request]]
        exact congrArg (· ++ fittingRequests [request]) holds
  | notify service method payload =>
      simp only at same
      split_ifs at same
      · cases same
        refine ⟨?_, rfl⟩
        have other : fittingRequests [RpcClient.notifyMessage service method payload] = [] := by
          have kind : ¬ (RpcClient.notifyMessage service method payload).kind = .request := by
            show ¬ Kind.notify = .request
            decide
          simp [fittingRequests, kind]
        show fittingRequests (node.endpoint.posted ++ [] ++
          sendingMessages (node.sending ++ [(RpcClient.notifyMessage service method payload, none)])) = _
        have more : sendingMessages (node.sending ++ [(RpcClient.notifyMessage service method payload, none)]) =
            sendingMessages node.sending ++ [RpcClient.notifyMessage service method payload] := by
          rw [sendingMessages, List.map_append]
          rfl
        rw [more, ← List.append_assoc, fittingRequests_append, other, List.append_nil]
        exact holds
      · cases same
        exact ⟨holds, rfl⟩
  | send index =>
      obtain rfl : index = 0 := by simpa [ClientNode.Label.inOrder] using inOrder
      simp only at same
      split_ifs at same
      split at same
      case h_1 => cases same
      case h_2 message handler found =>
        cases same
        refine ⟨?_, rfl⟩
        cases entries : node.sending with
        | nil => simp [entries] at found
        | cons entry rest =>
            obtain rfl : entry = (message, handler) := by simpa [entries] using found
            unfold ClientNode.InOrder at holds
            rw [entries] at holds
            have split : node.endpoint.posted ++ [] ++ sendingMessages ((message, handler) :: rest) =
                node.endpoint.posted ++ [message] ++ sendingMessages rest := by
              rw [List.append_nil, List.append_assoc]
              rfl
            rw [split] at holds
            show fittingRequests (node.endpoint.posted ++ [message] ++ sendingMessages rest) = _
            exact holds
  | close =>
      simp only at same
      split_ifs at same <;> cases same <;> exact ⟨holds, rfl⟩
  | run =>
      cases same
      exact ⟨holds, inOrder⟩
  | session =>
      cases same
      exact ⟨holds, rfl⟩

/-- **Every step in order keeps the order.** -/
theorem step (holds : node.InOrder []) (wf : node.endpoint.session.Wf) {label : ClientNode.Label R}
    (inOrder : label.inOrder = true) {effects : List (Effect UInt64)}
    (stepped : node.step label = some (node', effects)) : node'.InOrder [] := by
  rcases ClientNode.step_cases stepped with ⟨same, _⟩ | ⟨entered, asked, endpoint', same, moved, rfl⟩
  · exact (holds.enter inOrder same).1
  · obtain ⟨before, first⟩ := holds.enter inOrder same
    have moves := Endpoint.step_moves (by rw [ClientNode.enter_endpoint same]; exact wf) moved
    have posts := moves.posted_eq first
    show fittingRequests (endpoint'.posted ++ [] ++ sendingMessages entered.sending) =
      fittingRequests (calledRequests (entered.trace ++ (entered.client.handleAll effects).2))
    rw [calledRequests_append, RpcClient.handleAll_calledRequests, List.append_nil, List.append_nil, posts,
      fittingRequests_append, fittingRequests_append, fittingRequests_filter, ← fittingRequests_append,
      ← fittingRequests_append]
    exact before

end ClientNode.InOrder

/-! ### The pair -/

namespace DemoPair

/-- Both loops run their first task, and the client's calls go on one after the other. -/
def Label.inOrder : Label R → Bool
  | .client label => label.inOrder
  | .server label _ => label.inOrder

/-- Each stage on the way is the one before it, as far as it has come. -/
structure InOrder (id : UInt64) (pair : DemoPair R) : Prop where
  requests : pair.node.InOrder []
  asked : pair.answers.map Prod.fst = (delivered pair.server.trace).filter (·.kind = .request)
  replied : pair.server.posted = (welcome id :: pair.answers.map Prod.snd).filter (FitsFrame ·)

theorem accepted_inOrder (fd fd' : ℕ) (id : UInt64) : (accepted fd fd' id : DemoPair R).InOrder id where
  requests := rfl
  asked := by
    obtain ⟨_, delivers⟩ := (Endpoint.started fd' : Endpoint Unit).posted_sendAll (onSession id)
    show [] = (delivered ((Endpoint.started fd').sendAll (onSession id)).trace).filter _
    rw [delivers]
    rfl
  replied := by
    obtain ⟨posts, _⟩ := (Endpoint.started fd' : Endpoint Unit).posted_sendAll (onSession id)
    exact posts

/-- The message handler answers in order. -/
theorem handle_inOrder (ctime : CtimeText) (pair : DemoPair R) {message : RpcMessage}
    (handled : ∃ entries, onMessage ctime message = some entries) :
    ∃ replies, (handle ctime pair message).server.posted = pair.server.posted ++ replies.filter (FitsFrame ·) ∧
      delivered (handle ctime pair message).server.trace = delivered pair.server.trace ∧
      (handle ctime pair message).answers.map Prod.snd = pair.answers.map Prod.snd ++ replies ∧
      (handle ctime pair message).answers.map Prod.fst =
        pair.answers.map Prod.fst ++ [message].filter (·.kind = .request) := by
  obtain ⟨entries, made⟩ := handled
  obtain ⟨posts, delivers⟩ := pair.server.posted_sendAll entries
  have here : handle ctime pair message = { pair with
      server := pair.server.sendAll entries
      answers := pair.answers ++ entries.map fun entry => (message, entry.1) } := by
    simp only [handle, made]
  refine ⟨entries.map Prod.fst, by rw [here]; exact posts, by rw [here]; exact delivers, ?_, ?_⟩
  · rw [here, List.map_append, List.map_map]
    rfl
  · rw [here, List.map_append, List.map_map]
    congr 1
    unfold onMessage at made
    by_cases asks : message.kind = .request
    · rw [if_pos asks] at made
      obtain ⟨response, _, rfl⟩ := Option.map_eq_some_iff.mp made
      rw [List.filter_cons_of_pos (by simpa using asks)]
      rfl
    · rw [if_neg asks] at made
      cases made
      rw [List.filter_cons_of_neg (by simpa using asks)]
      rfl

/-- **Every step in order keeps the order.** -/
theorem InOrder.step {id : UInt64} {pair pair' : DemoPair R} {label : Label R} (holds : pair.InOrder id)
    (correlates : ClientServer.Correlates pair.image) (inOrder : label.inOrder = true)
    (stepped : machine.step pair label = some pair') : pair'.InOrder id := by
  cases label with
  | client label =>
      simp only [machine, DemoPair.step] at stepped
      split at stepped
      case h_1 => cases stepped
      case h_2 =>
        obtain ⟨⟨node, effects⟩, moved, rfl⟩ := Option.map_eq_some_iff.mp stepped
        exact ⟨holds.requests.step correlates.good.wf inOrder moved, holds.asked, holds.replied⟩
  | server label ctime =>
      simp only [machine, DemoPair.step] at stepped
      split_ifs at stepped with silent
      split at stepped
      case h_1 => cases stepped
      case h_2 toServer read =>
        obtain ⟨⟨server, effects⟩, moved, rfl⟩ := Option.map_eq_some_iff.mp stepped
        have moves := Endpoint.step_moves correlates.wf moved
        have posts : server.posted = pair.server.posted ++ label.messages.filter (FitsFrame ·) :=
          moves.posted_eq inOrder
        rw [silent, List.filter_nil, List.append_nil] at posts
        have trace : server.trace = pair.server.trace ++ effects := moves.trace_eq
        rcases moves.delivered_cases with none | ⟨message, payload, one, small, decoded⟩
        · simp only [none, List.foldl_nil]
          refine ⟨holds.requests, ?_, posts.trans holds.replied⟩
          show pair.answers.map Prod.fst = (delivered server.trace).filter _
          rw [trace, delivered_append, none, List.append_nil]
          exact holds.asked
        · simp only [one, List.foldl_cons, List.foldl_nil]
          have handled : ∃ entries, onMessage ctime message = some entries := by
            by_cases asks : message.kind = .request
            · obtain ⟨response, made⟩ := handled ctime small decoded asks
              exact ⟨_, by rw [onMessage, if_pos asks, made]; rfl⟩
            · exact ⟨[], if_neg asks⟩
          let served : DemoPair R := { pair with
            server := server, toServer := toServer
            toClient := pair.toClient ++ MiniRpc.accepted effects }
          obtain ⟨replies, posted, delivers, second, first⟩ := handle_inOrder ctime served handled
          have node : (handle ctime served message).node = pair.node := by
            unfold handle
            cases onMessage ctime message <;> rfl
          refine ⟨?_, ?_, ?_⟩
          · show (handle ctime served message).node.InOrder []
            rw [node]
            exact holds.requests
          · show (handle ctime served message).answers.map Prod.fst =
              (delivered (handle ctime served message).server.trace).filter _
            rw [first, delivers, show delivered served.server.trace = delivered server.trace from rfl, trace,
              delivered_append, one, List.filter_append]
            exact congrArg (· ++ _) holds.asked
          · show (handle ctime served message).server.posted =
              (welcome id :: (handle ctime served message).answers.map Prod.snd).filter _
            rw [posted, second, show served.server.posted = server.posted from rfl, posts, holds.replied,
              ← List.filter_append]
            rfl

theorem run_inOrder {fd fd' : ℕ} {id : UInt64} {labels : List (Label R)} {final : DemoPair R}
    (inOrder : ∀ label ∈ labels, label.inOrder = true)
    (ran : machine.run (accepted fd fd' id) labels = some final) : final.InOrder id := by
  have kept := Machine.invariant_run_of (fun label : Label R => label.inOrder = true)
    (fun pair => ClientServer.Correlates pair.image ∧ pair.InOrder id) (by
      rintro pair label next ⟨correlates, holds⟩ permitted stepped
      obtain ⟨labels, moved⟩ := step_refines correlates.wf stepped
      exact ⟨Machine.invariant_run ClientServer.Correlates (fun holds stepped => holds.step stepped)
        correlates moved, holds.step correlates permitted stepped⟩)
    ⟨ClientServer.run_correlates (accepted_refines fd fd' id), accepted_inOrder fd fd' id⟩ inOrder ran
  exact kept.2

instance (request : RpcMessage) : Decidable (RepeatsFit request) :=
  inferInstanceAs (Decidable (∀ size ∈ errorLength request, _ ≤ kMaxFrameSize.toNat))

/-- The calls whose request fits, and whose answer fits. -/
def answerable (trace : List (ClientEvent R)) : List RpcMessage :=
  (calledRequests trace).filter fun request => FitsFrame request ∧ RepeatsFit request

/-- The answered requests are an initial part of those that fit. -/
theorem InOrder.asked_initial {id : UInt64} {pair : DemoPair R} (holds : pair.InOrder id)
    (correlates : ClientServer.Correlates pair.image) :
    pair.answers.map Prod.fst <+: fittingRequests (calledRequests pair.node.trace) := by
  have requests := holds.requests
  unfold ClientNode.InOrder at requests
  rw [← requests, holds.asked]
  have forward := correlates.forward
  have executed : pair.node.endpoint.executed.filter (·.kind = .request) =
      fittingRequests pair.node.endpoint.executed := by
    refine List.filter_congr fun message member => ?_
    have fits : FitsFrame message := (forward.carried.executed message member).1
    simp [fits]
  have part : (delivered pair.server.trace).filter (·.kind = .request) <+:
      pair.node.endpoint.executed.filter (·.kind = .request) := forward.delivered_initial.1.filter _
  rw [executed] at part
  rw [Endpoint.posted, List.append_assoc, List.append_assoc, fittingRequests_append]
  exact part.trans (List.prefix_append _ _)

/-- What is dispatched is an initial part of the welcome and the answers that fit. -/
theorem InOrder.dispatched_initial {id : UInt64} {pair : DemoPair R} (holds : pair.InOrder id)
    (correlates : ClientServer.Correlates pair.image) :
    dispatched pair.node.trace <+:
      welcome id :: (pair.answers.filter fun entry => FitsFrame entry.2).map Prod.snd := by
  have handed : dispatched pair.node.trace = delivered pair.node.endpoint.trace :=
    correlates.accounts.dispatched
  have executed : delivered pair.node.endpoint.trace <+: pair.server.executed :=
    correlates.back.delivered_initial.1
  have posted : pair.server.executed <+: pair.server.posted := List.prefix_append _ _
  have initial := executed.trans posted
  rw [← handed, holds.replied, List.filter_cons_of_pos (by simp [welcome_fits id]), List.filter_map] at initial
  exact initial

end DemoPair

/-- **Answers come in the order of the calls.** Take any run of a client and the demo server in which each loop
runs its posted tasks in their order, and the client's calls go on one after the other. What the client has
dispatched so far, if anything, is the welcome, and then, one for one and in this order, what
`handle_demo_request` answers to an initial part of the calls whose request and answer fit into a frame. -/
theorem responses_in_order {fd fd' : ℕ} {id : UInt64} {labels : List (DemoPair.Label R)} {final : DemoPair R}
    (inOrder : ∀ label ∈ labels, label.inOrder = true)
    (ran : DemoPair.machine.run (DemoPair.accepted fd fd' id) labels = some final) :
    dispatched final.node.trace = [] ∨ ∃ answers : List (RpcMessage × RpcMessage),
      dispatched final.node.trace = welcome id :: answers.map Prod.snd ∧
      answers.map Prod.fst <+: DemoPair.answerable final.node.trace ∧
      ∀ request response, (request, response) ∈ answers →
        ∃ ctime, handleDemoRequest ctime request = some response := by
  have holds := DemoPair.run_inOrder inOrder ran
  obtain ⟨correlates, conserves, demo⟩ := DemoPair.run_conserves ran
  have initial := holds.dispatched_initial correlates
  have asked := holds.asked_initial correlates
  let all := final.answers.filter fun entry => FitsFrame entry.2
  -- an answer fits exactly if the names of its request fit a second time
  have same : all.map Prod.fst = (final.answers.map Prod.fst).filter (RepeatsFit ·) := by
    rw [List.filter_map]
    congr 1
    refine List.filter_congr fun entry member => ?_
    obtain ⟨ctime, made⟩ := demo entry.1 entry.2 member
    have small := ClientServer.Conserves.fits_of_answered correlates member
    have there := asked.subset (List.mem_map.mpr ⟨entry, member, rfl⟩)
    obtain ⟨call, handler, called⟩ := mem_calledRequests.mp (List.mem_filter.mp there).1
    have plain := (conserves.client.called call entry.1 handler called).2
    exact decide_eq_decide.mpr (DemoPair.fits_answer_iff small plain made)
  have taken := List.prefix_iff_eq_take.mp initial
  cases length : (dispatched final.node.trace).length with
  | zero => exact Or.inl (List.length_eq_zero_iff.mp length)
  | succ count =>
  rw [length, List.take_succ_cons, ← List.map_take] at taken
  refine Or.inr ⟨all.take count, taken, ?_, fun request response member =>
    demo request response (List.mem_filter.mp (List.mem_of_mem_take member)).1⟩
  rw [List.map_take, same]
  refine (List.take_prefix _ _).trans ?_
  have repeats := asked.filter (RepeatsFit ·)
  have calls : (fittingRequests (calledRequests final.node.trace)).filter (RepeatsFit ·) =
      DemoPair.answerable final.node.trace := by
    rw [fittingRequests, List.filter_filter, DemoPair.answerable]
    refine List.filter_congr fun request member => ?_
    obtain ⟨call, handler, called⟩ := mem_calledRequests.mp member
    have kind : request.kind = .request := (conserves.client.called call request handler called).2.1
    simp only [kind, decide_true, Bool.true_and, Bool.decide_and]
    exact Bool.and_comm _ _
  rwa [calls] at repeats

theorem oneEcho_inOrder :
    ∃ final, DemoPair.machine.run (DemoPair.accepted 5 6 1) (oneEcho.map Prod.snd) = some final ∧
      ∃ answers : List (RpcMessage × RpcMessage),
        dispatched final.node.trace = welcome 1 :: answers.map Prod.snd ∧
        answers.map Prod.fst <+: DemoPair.answerable final.node.trace ∧
        ∀ request response, (request, response) ∈ answers →
          ∃ ctime, handleDemoRequest ctime request = some response := by
  obtain ⟨final, ran, some⟩ : ∃ final,
      DemoPair.machine.run (DemoPair.accepted 5 6 1) (oneEcho.map Prod.snd) = some final ∧
        dispatched final.node.trace ≠ [] := by
    refine ⟨(DemoPair.machine.run (DemoPair.accepted 5 6 1) (oneEcho.map Prod.snd)).get (by decide +kernel),
      (Option.some_get _).symm, ?_⟩
    decide +kernel
  exact ⟨final, ran, (responses_in_order (by decide) ran).resolve_left some⟩

end Insist.MiniRpc
