/-
**A client and its server at rest.**

When nothing is on the way any more (no call in progress, no task posted, no frame queued, no byte between the
two kernels) and both sessions still serve their sockets, the history of the client says everything about each
of its calls. A call whose request does not fit was told a write error. A call whose request was answered with a
response that fits has run its handler on that response, once. Every other call waits, its handler still in the
table: the server owes the answer, or has given one that `Session::send` dropped.

* `Direction.settled` — at rest, what one side has executed is what the other has delivered;
* `not_live_of_ended` — a call that has ended is not live, as long as the ids are different;
* `Settled` — the three ways in which a call can stand;
* **`settled_of_rest`** — at rest, every call stands in one of them.
-/
import Insist.MiniRpc.Delivery

namespace Insist.MiniRpc

open Lib

variable {R K H : Type}

/-! ### Rest -/

/-- The session is open and between callbacks, no task is posted, and no frame is queued. -/
structure Endpoint.AtRest (endpoint : Endpoint H) : Prop where
  opened : endpoint.session.open_ = true
  idle : endpoint.session.control = .idle
  tasks : endpoint.tasks = []
  queue : endpoint.session.writeQueue = []

theorem Endpoint.AtRest.serving {endpoint : Endpoint H} (rest : endpoint.AtRest) :
    endpoint.session.Serving := by
  refine ⟨rest.opened, fun error failing => ?_⟩
  rw [rest.idle] at failing
  cases failing

/-- **At rest, what one side has executed is what the other has delivered.** -/
theorem Direction.settled {sender : Endpoint H} {receiver : Endpoint K} (holds : Direction sender [] receiver)
    (sends : sender.AtRest) (receives : receiver.AtRest) : delivered receiver.trace = sender.executed := by
  obtain ⟨residue, state⟩ := holds.receives
  have whole := holds.sent.sends.whole sends.serving
  rw [sends.queue, List.flatMap_nil, List.append_nil, holds.sent.frames sends.opened, holds.carries,
    List.append_nil] at whole
  have frames := parses_frames holds.carried.executed
  rw [← whole] at frames
  have needMore : popMessage residue = .needMore :=
    state.settled receives.serving (by rw [receives.idle]; rfl)
  exact (state.parsed.eq_of_stuck (StreamParser.stuck_of_needMore needMore) frames
    (StreamParser.stuck_of_needMore popMessage_nil)).1

/-- Nothing is on the way between a client and its server. -/
structure ClientServer.AtRest (pair : ClientServer R K) : Prop where
  client : pair.node.endpoint.AtRest
  server : pair.server.AtRest
  calling : pair.node.calling = []
  sending : pair.node.sending = []
  toServer : pair.toServer = []
  toClient : pair.toClient = []

/-! ### Calls that have ended -/

/-- **A call that has ended is not live**, if no id is allotted twice. -/
theorem not_live_of_ended {before after : List (ClientEvent R)} {event : ClientEvent R} {id : UInt64}
    (nodup : (calledIds (before ++ event :: after)).Nodup) (called : id ∈ calledIds before)
    (ends : event.ends id) (handler : Option R) : ¬ Live (before ++ event :: after) id handler := by
  rintro ⟨early, request, late, same, alive⟩
  rcases List.append_eq_append_iff.mp same with ⟨part, rfl, rest⟩ | ⟨part, rfl, rest⟩
  · cases part with
    | nil =>
        obtain ⟨rfl, _⟩ := List.cons.inj rest
        exact ends
    | cons head part =>
        -- the call would be made a second time after its end
        obtain ⟨rfl, rfl⟩ := List.cons.inj rest
        rw [calledIds_append] at nodup
        refine (List.nodup_append.mp nodup).2.2 id called id ?_ rfl
        exact List.mem_flatMap.mpr ⟨.called id request handler, by simp, List.mem_singleton_self _⟩
  · cases part with
    | nil =>
        obtain ⟨rfl, _⟩ := List.cons.inj rest
        exact ends
    | cons head part =>
        obtain ⟨rfl, rfl⟩ := List.cons.inj rest
        exact alive event (by simp) ends

/-! ### How a call stands -/

namespace ClientServer

/-- The ways in which a call can stand. -/
inductive Settled (pair : ClientServer R K) (id : UInt64) (request : RpcMessage) (handler : Option R) : Prop
  /-- The request does not fit, and the write handler has been told. -/
  | rejected (large : ¬ FitsFrame request) (failed : .writeFailed id ∈ pair.node.trace)
      (ended : pair.node.client.pending id = none)
  /-- The handler has run on the server's response. -/
  | answered (response : RpcMessage) (given : (request, response) ∈ pair.answers) (fits : FitsFrame response)
      (ran : .received response handler ∈ pair.node.trace) (ended : pair.node.client.pending id = none)
  /-- The handler waits: the server owes the answer, or its answer does not fit. -/
  | waiting (small : FitsFrame request)
      (silent : request ∈ pair.owed ∨ ∃ response, (request, response) ∈ pair.answers ∧ ¬ FitsFrame response)
      (waits : pair.node.client.pending id = some handler)
      (never : ∀ response outcome, .received response outcome ∈ pair.node.trace →
        response.kind = .response → response.id ≠ id)

namespace Conserves

variable {pair : ClientServer R K}

/-- No response is given twice. -/
theorem responses_nodup (correlates : Correlates pair) (few : pair.node.allIds.length < 2 ^ 64) :
    (pair.answers.map Prod.snd).Nodup := by
  have ids : (pair.answers.map fun entry => entry.1.id) =
      (pair.answers.map Prod.snd).map fun response => response.id := by
    rw [List.map_map]
    refine List.map_congr_left fun entry member => ?_
    exact (correlates.matched entry.1 entry.2 member).symm
  have nodup := correlates.answers_nodup few
  rw [ids] at nodup
  exact nodup.of_map

/-- **No response is dispatched twice.** -/
theorem count_dispatched_le (holds : Conserves pair) (correlates : Correlates pair)
    (few : pair.node.allIds.length < 2 ^ 64) {response : RpcMessage} (kind : response.kind = .response) :
    (dispatched pair.node.trace).count response ≤ 1 := by
  have initial := correlates.back.delivered_initial.1.sublist.count_le response
  rw [← correlates.accounts.dispatched] at initial
  by_cases executed : response ∈ pair.server.executed
  · have fits : FitsFrame response := (correlates.back.carried.executed response executed).1
    have given := holds.responses response kind fits
    have once := List.nodup_iff_count_le_one.mp (responses_nodup correlates few) response
    omega
  · rw [List.count_eq_zero_of_not_mem executed] at initial
    omega

/-- Two responses to one call are one. -/
theorem response_unique (correlates : Correlates pair) (few : pair.node.allIds.length < 2 ^ 64)
    {request request' response response' : RpcMessage} (given : (request, response) ∈ pair.answers)
    (given' : (request', response') ∈ pair.answers) (same : response'.id = response.id) :
    request' = request ∧ response' = response := by
  have ids : request'.id = request.id := by
    rw [← correlates.matched _ _ given, ← correlates.matched _ _ given', same]
  have entries := List.inj_on_of_nodup_map (correlates.answers_nodup few) given' given ids
  exact Prod.mk.inj entries

/-- A response that was dispatched, and its call. -/
theorem received_cases (holds : Conserves pair) (correlates : Correlates pair)
    (few : pair.node.allIds.length < 2 ^ 64) {id : UInt64} {request response : RpcMessage}
    {handler outcome : Option R} (called : .called id request handler ∈ pair.node.trace)
    (received : .received response outcome ∈ pair.node.trace) (kind : response.kind = .response)
    (same : response.id = id) :
    ∃ before after, pair.node.trace = before ++ .received response outcome :: after ∧
      .called id request handler ∈ before ∧ (request, response) ∈ pair.answers := by
  have nodup : (calledIds pair.node.trace).Nodup := (List.nodup_append.mp (correlates.good.nodup few)).1
  obtain ⟨before, after, split⟩ := List.append_of_mem received
  obtain ⟨request', handler', early, given⟩ := holds.preceded before _ after split response outcome rfl kind
  rw [same] at early
  have made : .called id request' handler' ∈ pair.node.trace := by
    rw [split]
    exact List.mem_append_left _ early
  obtain ⟨rfl, rfl⟩ := called_unique nodup made called
  exact ⟨before, after, split, early, given⟩

/-- A call that was answered, and its request, are one, and it fits. -/
theorem fits_of_answered (correlates : Correlates pair) {request response : RpcMessage}
    (given : (request, response) ∈ pair.answers) : FitsFrame request := by
  have asked : request ∈ (delivered pair.server.trace).filter (·.kind = .request) :=
    correlates.asked.subset (List.mem_append_left _ (List.mem_map.mpr ⟨_, given, rfl⟩))
  have executed := correlates.forward.delivered_initial.1.subset (List.mem_filter.mp asked).1
  exact (correlates.forward.carried.executed request executed).1

/-- **While the client's session serves its socket, a response is dispatched to the handler of its call.** -/
theorem outcome_eq (holds : Conserves pair) (correlates : Correlates pair)
    (few : pair.node.allIds.length < 2 ^ 64) (serving : pair.node.endpoint.session.Serving) {id : UInt64}
    {request response : RpcMessage} {handler outcome : Option R}
    (called : .called id request handler ∈ pair.node.trace)
    (received : .received response outcome ∈ pair.node.trace) (kind : response.kind = .response)
    (same : response.id = id) : outcome = handler := by
  have nodup : (calledIds pair.node.trace).Nodup := (List.nodup_append.mp (correlates.good.nodup few)).1
  obtain ⟨before, after, split, early, given⟩ := holds.received_cases correlates few called received kind same
  have table := (correlates.good.table few).dispatched before response outcome after split
  obtain ⟨first, middle, whole⟩ := List.append_of_mem early
  -- the call was live when its response came: nothing before could have ended it
  have live : Live before response.id handler := by
    rw [same]
    refine ⟨first, request, middle, whole, fun event member ends => ?_⟩
    have earlier : event ∈ pair.node.trace := by
      rw [split, whole]
      simp [member]
    cases event with
    | called => exact ends
    | closed => exact holds.client.unclosed serving earlier
    | writeFailed other =>
        obtain rfl : other = id := ends
        obtain ⟨start, rest, place⟩ := List.append_of_mem earlier
        obtain ⟨request', handler', made, large⟩ := holds.client.told serving start _ rest place other rfl
        have again : .called other request' handler' ∈ pair.node.trace := by
          rw [place]
          exact List.mem_append_left _ made
        obtain ⟨rfl, _⟩ := called_unique nodup again called
        exact large (fits_of_answered correlates given)
    | received response' outcome' =>
        obtain ⟨kind', id'⟩ := ends
        obtain ⟨_, _, _, _, given'⟩ := holds.received_cases correlates few called earlier kind' id'
        obtain ⟨_, rfl⟩ := response_unique correlates few given given' (id'.trans same.symm)
        -- it would have come twice
        have once := holds.count_dispatched_le correlates few kind
        have there : response' ∈ dispatched before := by
          refine List.mem_flatMap.mpr ⟨.received response' outcome', ?_, List.mem_singleton_self response'⟩
          rw [whole]
          simp [member]
        have more : dispatched pair.node.trace = dispatched before ++ response' :: dispatched after := by
          rw [split, dispatched_append]
          rfl
        rw [more, List.count_append, List.count_cons_self] at once
        have positive := List.count_pos_iff.mpr there
        omega
  cases handler with
  | some handler => exact (table handler).mpr ⟨kind, live⟩
  | none =>
      cases outcome with
      | none => rfl
      | some other =>
          obtain ⟨_, begin_, request', rest, called', _⟩ := (table other).mp rfl
          have made : .called id request' (some other) ∈ pair.node.trace := by
            rw [split, called', same]
            simp
          exact absurd (called_unique nodup made called).2 (by simp)

/-- A call that has ended is not in the table any more. -/
theorem pending_eq_none (correlates : Correlates pair) (few : pair.node.allIds.length < 2 ^ 64)
    {before after : List (ClientEvent R)} {event : ClientEvent R} {id : UInt64}
    (split : pair.node.trace = before ++ event :: after) (called : id ∈ calledIds before)
    (ends : event.ends id) : pair.node.client.pending id = none := by
  have nodup : (calledIds pair.node.trace).Nodup := (List.nodup_append.mp (correlates.good.nodup few)).1
  rw [split] at nodup
  refine Option.eq_none_iff_forall_not_mem.mpr fun handler pending => ?_
  have live := ((correlates.good.table few).pending id handler).mp pending
  rw [split] at live
  exact not_live_of_ended nodup called ends handler live

/-! ### Every call at rest -/

section Rest

variable (holds : Conserves pair) (correlates : Correlates pair) (few : pair.node.allIds.length < 2 ^ 64)
  (rest : pair.AtRest) {id : UInt64} {request : RpcMessage} {handler : Option R}
  (called : .called id request handler ∈ pair.node.trace)

include holds correlates few rest called

/-- The call of a request that does not fit. -/
theorem settled_of_large (large : ¬ FitsFrame request) : Settled pair id request handler := by
  have failed : .writeFailed id ∈ pair.node.trace := by
    rcases holds.client.refused id request handler called large with waiting | failed
    · rw [rest.sending] at waiting
      cases waiting
    · exact failed
  obtain ⟨before, after, split⟩ := List.append_of_mem failed
  obtain ⟨request', handler', early, _⟩ :=
    holds.client.told rest.client.serving before _ after split id rfl
  have allotted : id ∈ calledIds before := List.mem_flatMap.mpr ⟨_, early, List.mem_singleton_self _⟩
  exact .rejected large failed (pending_eq_none correlates few split allotted rfl)

/-- The call of a request that was answered with a response that fits. -/
theorem settled_of_answered {response : RpcMessage} (given : (request, response) ∈ pair.answers)
    (fits : FitsFrame response) : Settled pair id request handler := by
  have kind := holds.given request response given
  have sameId : response.id = id :=
    (correlates.matched request response given).trans (holds.client.called id request handler called).1
  -- the response was executed, so delivered and dispatched
  have executed : response ∈ pair.server.executed := by
    have counted := holds.responses response kind fits
    have one : 0 < (pair.answers.map Prod.snd).count response :=
      List.count_pos_iff.mpr (List.mem_map.mpr ⟨_, given, rfl⟩)
    have none : (taskMessages ([] : List (Task K))).count response = 0 := rfl
    rw [rest.server.tasks, none, Nat.zero_add] at counted
    rw [← counted] at one
    exact List.count_pos_iff.mp one
  have back := correlates.back
  rw [rest.toClient] at back
  rw [← back.settled rest.server rest.client, ← correlates.accounts.dispatched] at executed
  obtain ⟨event, member, found⟩ := List.mem_flatMap.mp executed
  obtain ⟨outcome, rfl⟩ : ∃ outcome, event = .received response outcome := by
    cases event with
    | received message outcome => exact ⟨outcome, by rw [List.mem_singleton.mp found]⟩
    | _ => cases found
  obtain rfl := holds.outcome_eq correlates few rest.client.serving called member kind sameId
  obtain ⟨before, after, split, early, _⟩ := holds.received_cases correlates few called member kind sameId
  have allotted : id ∈ calledIds before := List.mem_flatMap.mpr ⟨_, early, List.mem_singleton_self _⟩
  exact .answered response given fits member (pending_eq_none correlates few split allotted ⟨kind, sameId⟩)

/-- The call of a request whose answer is owed, or does not fit. -/
theorem settled_of_silent (small : FitsFrame request)
    (silent : request ∈ pair.owed ∨ ∃ response, (request, response) ∈ pair.answers ∧ ¬ FitsFrame response) :
    Settled pair id request handler := by
  have nodup : (calledIds pair.node.trace).Nodup := (List.nodup_append.mp (correlates.good.nodup few)).1
  obtain ⟨isId, isRequest, _⟩ := holds.client.called id request handler called
  -- a request is delivered once, so it is not both owed and answered
  have once : (pair.answers.map Prod.fst ++ pair.owed).count request ≤ 1 := by
    rw [correlates.asked.count_eq, List.count_filter (by simpa using isRequest)]
    have initial := correlates.forward.delivered_initial.1.sublist.count_le request
    have counted := correlates.accounts.once id
    have calls := List.nodup_iff_count_le_one.mp nodup id
    have part : pair.node.endpoint.executed.count request ≤
        (requestIds pair.node.endpoint.executed).count id := by
      induction pair.node.endpoint.executed with
      | nil => exact le_rfl
      | cons message executed ih =>
          rw [List.count_cons, show message :: executed = [message] ++ executed from rfl, requestIds_append,
            List.count_append]
          by_cases same : message = request
          · subst same
            simp only [requestIds, isRequest, isId, BEq.rfl, if_true, List.flatMap_cons, List.flatMap_nil,
              List.append_nil, List.count_singleton_self] at ih ⊢
            omega
          · rw [if_neg (by simpa using same)]
            omega
    omega
  have never : ∀ response outcome, .received response outcome ∈ pair.node.trace →
      response.kind = .response → response.id ≠ id := by
    intro response outcome member kind sameId
    obtain ⟨_, _, _, _, given⟩ := holds.received_cases correlates few called member kind sameId
    rcases silent with owed | ⟨dropped, given', large⟩
    · have left : 0 < (pair.answers.map Prod.fst).count request :=
        List.count_pos_iff.mpr (List.mem_map.mpr ⟨_, given, rfl⟩)
      have right := List.count_pos_iff.mpr owed
      rw [List.count_append] at once
      omega
    · have ids : dropped.id = response.id :=
        (correlates.matched _ _ given').trans (correlates.matched _ _ given).symm
      obtain ⟨_, rfl⟩ := response_unique correlates few given given' ids
      have there : dropped ∈ dispatched pair.node.trace :=
        List.mem_flatMap.mpr ⟨_, member, List.mem_singleton.mpr rfl⟩
      rw [correlates.accounts.dispatched] at there
      exact large (correlates.back.carried.executed _ (correlates.back.delivered_initial.1.subset there)).1
  have live : Live pair.node.trace id handler := by
    obtain ⟨before, after, split⟩ := List.append_of_mem called
    refine ⟨before, request, after, split, fun event member ends => ?_⟩
    have there : event ∈ pair.node.trace := by
      rw [split]
      simp [member]
    cases event with
    | called => exact ends
    | closed => exact holds.client.unclosed rest.client.serving there
    | received response outcome => exact never response outcome there ends.1 ends.2
    | writeFailed other =>
        obtain rfl : other = id := ends
        obtain ⟨start, later, place⟩ := List.append_of_mem there
        obtain ⟨request', handler', made, large⟩ :=
          holds.client.told rest.client.serving start _ later place other rfl
        have again : .called other request' handler' ∈ pair.node.trace := by
          rw [place]
          exact List.mem_append_left _ made
        obtain ⟨rfl, _⟩ := called_unique nodup again called
        exact large small
  exact .waiting small silent (((correlates.good.table few).pending id handler).mpr live) never

/-- **At rest, every call was rejected, answered or still waits for an answer that the server owes or has
dropped.** -/
theorem settled_of_rest : Settled pair id request handler := by
  by_cases small : FitsFrame request
  · obtain ⟨_, isRequest, _⟩ := holds.client.called id request handler called
    have counted := holds.client.requests request isRequest small
    have one : 0 < (calledRequests pair.node.trace).count request :=
      List.count_pos_iff.mpr (List.mem_flatMap.mpr ⟨_, called, List.mem_singleton_self _⟩)
    -- it is not on its way any more, so it was executed and delivered
    have executed : request ∈ pair.node.endpoint.executed := by
      have none : (sendingMessages []).count request = 0 := rfl
      have none' : (taskMessages ([] : List (Task UInt64))).count request = 0 := rfl
      rw [rest.sending, rest.client.tasks, none, none', Nat.zero_add] at counted
      rw [← counted] at one
      exact List.count_pos_iff.mp one
    have forward := correlates.forward
    rw [rest.toServer] at forward
    rw [← forward.settled rest.client rest.server] at executed
    have asked : request ∈ pair.answers.map Prod.fst ++ pair.owed :=
      correlates.asked.symm.subset (List.mem_filter.mpr ⟨executed, by simpa using isRequest⟩)
    rcases List.mem_append.mp asked with answered | owed
    · obtain ⟨⟨_, response⟩, given, rfl⟩ := List.mem_map.mp answered
      by_cases fits : FitsFrame response
      · exact holds.settled_of_answered correlates few rest called given fits
      · exact holds.settled_of_silent correlates few rest called small (Or.inr ⟨response, given, fits⟩)
    · exact holds.settled_of_silent correlates few rest called small (Or.inl owed)
  · exact holds.settled_of_large correlates few rest called small

end Rest

end Conserves

end ClientServer

end Insist.MiniRpc
