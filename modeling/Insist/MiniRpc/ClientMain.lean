/-
**`main` of the client** (`examples/client_main.cpp`), against the demo server.

The main thread notifies, calls three methods, sleeps in turns until `remaining` is 0 or the turns are over,
closes, stops the loop and joins its thread. `io_thread` is in `EventLoop::run`: as long as it finds `stopped_`
unset it runs the tasks that are there, waits, and handles at most one event of the session; then it runs the
tasks once more and returns. The response handler of all three calls counts `remaining` down on that thread, and
closes and stops when it gets to 0. Both threads and the server take their steps in any order, and anything can
fail. The model begins when `connect` has returned; `print_response` is its argument, and the other texts are
left out.

* `step_calls` — the calls made, those in progress and those to come are always the three calls of the program;
* `Good`, `run_good` — the invariant of all runs;
* **`main_exit_code`** — the program prints each right answer at most once and nothing else, and returns 0
  exactly if it has printed all three.
-/
import Insist.MiniRpc.DemoOrder

namespace Insist.MiniRpc

open Lib

/-! ### The calls of a client -/

section Calls

variable {R : Type}

/-- The requests of the calls made, with their handlers. -/
def made (trace : List (ClientEvent R)) : List (RpcMessage × Option R) :=
  trace.flatMap fun
    | .called _ request handler => [(request, handler)]
    | _ => []

/-- The messages that were dispatched to a response handler. -/
def responded (trace : List (ClientEvent R)) : List RpcMessage :=
  trace.flatMap fun
    | .received message (some _) => [message]
    | _ => []

theorem made_append (first second : List (ClientEvent R)) :
    made (first ++ second) = made first ++ made second :=
  List.flatMap_append

theorem responded_append (first second : List (ClientEvent R)) :
    responded (first ++ second) = responded first ++ responded second :=
  List.flatMap_append

theorem mem_made {trace : List (ClientEvent R)} {id : UInt64} {request : RpcMessage} {handler : Option R}
    (called : .called id request handler ∈ trace) : (request, handler) ∈ made trace :=
  List.mem_flatMap.mpr ⟨_, called, List.mem_singleton_self _⟩

theorem mem_responded {trace : List (ClientEvent R)} {message : RpcMessage} :
    message ∈ responded trace ↔ ∃ handler, .received message (some handler) ∈ trace := by
  unfold responded
  rw [List.mem_flatMap]
  constructor
  · rintro ⟨event, member, found⟩
    match event, found with
    | .received other (some handler), found => exact ⟨handler, by rwa [List.mem_singleton.mp found]⟩
  · rintro ⟨handler, member⟩
    exact ⟨_, member, List.mem_singleton_self _⟩

theorem length_made (trace : List (ClientEvent R)) : (made trace).length = (calledIds trace).length := by
  induction trace with
  | nil => rfl
  | cons event trace ih =>
      show (made ([event] ++ trace)).length = (calledIds ([event] ++ trace)).length
      rw [made_append, calledIds_append, List.length_append, List.length_append, ih]
      cases event <;> rfl

theorem map_id_responded (trace : List (ClientEvent R)) : (responded trace).map (·.id) = ranIds trace := by
  induction trace with
  | nil => rfl
  | cons event trace ih =>
      show (responded ([event] ++ trace)).map _ = ranIds ([event] ++ trace)
      have split : ranIds ([event] ++ trace) = ranIds [event] ++ ranIds trace := List.flatMap_append
      rw [responded_append, split, List.map_append, ih]
      congr 1
      match event with
      | .received _ (some _) | .received _ none | .called .. | .writeFailed _ | .closed => rfl

/-- The callbacks make no calls. -/
theorem RpcClient.made_handleAll (client : RpcClient R) (effects : List (Effect UInt64)) :
    made (client.handleAll effects).2 = [] := by
  refine List.flatMap_eq_nil_iff.mpr fun event member => ?_
  rcases client.handleAll_mem member with ⟨_, _, rfl, _⟩ | ⟨_, _, rfl, _⟩ | ⟨rfl, _⟩ <;> rfl

/-- The calls that these labels make, if the next id is this one. -/
def toCome : UInt64 → List (ClientNode.Label R) → List (RpcMessage × Option R)
  | next, .callAsync service method payload handler :: rest =>
      (RpcClient.callMessage next service method payload, handler) :: toCome (next + 1) rest
  | next, _ :: rest => toCome next rest
  | _, [] => []

namespace ClientNode

/-- `call_async` and `notify` look whether the client is connected. -/
def Label.checks : Label R → Bool
  | .callAsync .. | .notify .. => true
  | _ => false

/-- **A step keeps the calls together**: those made, those in progress and those to come. -/
theorem step_calls {node node' : ClientNode R} {label : Label R} {effects : List (Effect UInt64)}
    (stepped : node.step label = some (node', effects)) (first : ∀ index, label = .register index → index = 0)
    (connected : label.checks = true → node.isConnected = true) (rest : List (Label R)) :
    made node'.trace ++ node'.calling ++ toCome node'.client.nextRequestId rest =
      made node.trace ++ node.calling ++ toCome node.client.nextRequestId (label :: rest) := by
  -- the session's answer makes no call
  suffices entered : ∀ entered asked, node.enter label = some (entered, asked) →
      made entered.trace ++ entered.calling ++ toCome entered.client.nextRequestId rest =
        made node.trace ++ node.calling ++ toCome node.client.nextRequestId (label :: rest) by
    rcases step_cases stepped with ⟨same, _⟩ | ⟨node₁, asked, endpoint', same, _, rfl⟩
    · exact entered _ _ same
    · rw [← entered _ _ same]
      show made (node₁.trace ++ (node₁.client.handleAll effects).2) ++ node₁.calling ++
        toCome (node₁.client.handleAll effects).1.nextRequestId rest = _
      rw [made_append, RpcClient.made_handleAll, List.append_nil, (node₁.client.handleAll_numbers effects).1]
  intro entered asked same
  unfold enter at same
  cases label with
  | callAsync service method payload handler =>
      simp only [connected rfl, if_true] at same
      cases same
      show made node.trace ++ (node.calling ++ [_]) ++ toCome (node.client.nextRequestId + 1) rest = _
      rw [toCome, List.append_assoc, List.append_assoc, List.append_assoc]
      rfl
  | register index =>
      obtain rfl := first index rfl
      simp only at same
      split at same
      case h_1 => cases same
      case h_2 request handler found =>
        cases same
        cases calling : node.calling with
        | nil => simp [calling] at found
        | cons call calls =>
            obtain rfl : call = (request, handler) := by simpa [calling] using found
            show made (node.trace ++ [.called request.id request handler]) ++
              ((request, handler) :: calls).eraseIdx 0 ++ toCome node.client.nextRequestId rest = _
            rw [made_append, List.append_assoc (made node.trace)]
            rfl
  | notify service method payload =>
      simp only [connected rfl, if_true] at same
      cases same
      rfl
  | send index =>
      simp only at same
      split_ifs at same
      split at same <;> cases same
      rfl
  | close | run | session =>
      cases same
      rfl

end ClientNode

namespace DemoPair

/-- A label of the client is a step of its node. -/
theorem step_client {pair pair' : DemoPair R} {label : ClientNode.Label R}
    (stepped : pair.step (.client label) = some pair') :
    ∃ effects, pair.node.step label = some (pair'.node, effects) := by
  simp only [DemoPair.step] at stepped
  split at stepped
  case h_1 => cases stepped
  case h_2 =>
    obtain ⟨answer, moved, rfl⟩ := Option.map_eq_some_iff.mp stepped
    exact ⟨answer.2, moved⟩

theorem reaches_of_step {pair pair' : DemoPair R} {label : Label R} (stepped : pair.step label = some pair') :
    machine.Reaches pair pair' :=
  ⟨[label], (machine.run_singleton pair label).trans stepped⟩

/-- A label of the server leaves the client alone. -/
theorem step_server_node {pair pair' : DemoPair R} {label : Endpoint.Label Unit} {ctime : CtimeText}
    (stepped : pair.step (.server label ctime) = some pair') : pair'.node = pair.node := by
  have handle_node (pair : DemoPair R) (message : RpcMessage) : (handle ctime pair message).node =
      pair.node := by
    unfold handle
    cases onMessage ctime message <;> rfl
  simp only [DemoPair.step] at stepped
  split_ifs at stepped
  split at stepped
  case h_1 => cases stepped
  case h_2 toServer _ =>
    obtain ⟨answer, _, rfl⟩ := Option.map_eq_some_iff.mp stepped
    generalize served : ({ pair with
        server := answer.1, toServer := toServer
        toClient := pair.toClient ++ MiniRpc.accepted answer.2 } : DemoPair R) = state
    have same : state.node = pair.node := by rw [← served]
    rw [← same]
    clear served same
    induction delivered answer.2 generalizing state with
    | nil => rfl
    | cons message messages ih => exact (ih _).trans (handle_node _ _)

end DemoPair

end Calls

/-! ### The program -/

/-- Where the main thread is. -/
inductive MainPoint
  /-- It makes these steps of its calls. -/
  | calls (rest : List (ClientNode.Label Unit))
  /-- It sleeps, at most so often. -/
  | waits (turns : ℕ)
  | closes
  | stops
  | joins
  | returned (code : ℤ)
  /-- An exception has left `main`. -/
  | terminated
deriving DecidableEq

/-- Where `io_thread` is: before, in and after `loop.run()`. `last` says that `stopped_` was set at the test, so
that these are the tasks after the loop. -/
inductive LoopPoint
  | starting
  /-- At the test of the loop. -/
  | testing
  /-- At the swap in `drain_tasks`. -/
  | taking (last : Bool)
  /-- In the loop of `drain_tasks`, with so many of the tasks that it has taken left. -/
  | draining (left : ℕ) (last : Bool)
  /-- `epoll_wait` has returned; `fresh` as long as no event of the session has been handled. -/
  | polled (fresh : Bool)
  | returned
deriving DecidableEq

/-- Where `io_thread` is after a step of the client's code, if it can take that step here. The tasks that it has
taken are the first ones of the list, since later ones go to the end. -/
def LoopPoint.does : LoopPoint → ClientNode.Label Unit → Option LoopPoint
  | .draining (left + 1) last, .run 0 => some (.draining left last)
  | .polled fresh, .session (.handleEvents _) => if fresh then some (.polled false) else none
  | .draining _ _, .session (.handleEvents _) => none
  | .draining left last, .session _ => some (.draining left last)
  | .polled fresh, .session _ => some (.polled fresh)
  | _, _ => none

/-- The client's process, and the server. -/
structure DemoClient where
  pair : DemoPair Unit
  main : MainPoint
  loop : LoopPoint := .starting
  /-- `stopped_` of the loop. -/
  stopped : Bool := false
  remaining : ℤ := 3
  /-- What `print_response` was called with. -/
  printed : List RpcMessage := []

namespace DemoClient

/-- A call of `call_async` with `on_response`: the id is allotted, the entry made, and the request sent. -/
def callAsync (method payload : ByteString) : List (ClientNode.Label Unit) :=
  [.callAsync addRequest.service method payload (some ()), .register 0, .send 0]

/-- What `main` notifies the server of. -/
def pushed : RpcMessage :=
  RpcClient.notifyMessage ⟨ascii "Client", by decide⟩ ⟨ascii "ready", by decide⟩
    ⟨ascii "client can also push messages", by decide⟩

/-- What `main` does with the client after it has connected. -/
def script : List (ClientNode.Label Unit) :=
  [.notify pushed.service pushed.method pushed.payload, .send 0] ++
  callAsync echoCall.method ⟨ascii "hello mini rpc", by decide⟩ ++
  callAsync ⟨ascii "upper", by decide⟩ ⟨ascii "full duplex protobuf", by decide⟩ ++
  callAsync ⟨ascii "time", by decide⟩ .nil

/-- `client.connect` has returned. -/
def connected (fd fd' : ℕ) (id : UInt64) : DemoClient :=
  { pair := .accepted fd fd' id, main := .calls script }

/-- `on_response`. -/
def onResponse (state : DemoClient) (response : RpcMessage) : Option DemoClient :=
  let state := { state with printed := state.printed ++ [response], remaining := state.remaining - 1 }
  if state.remaining = 0 then
    (state.pair.step (.client .close)).map fun pair => { state with pair := pair, stopped := true }
  else some state

inductive Label
  /-- The main thread goes on. -/
  | main
  /-- `io_thread` goes on in `loop.run()`. -/
  | run
  /-- The loop runs a task, or the client's session. -/
  | loop (label : ClientNode.Label Unit)
  | server (label : Endpoint.Label Unit) (ctime : CtimeText)

/-- What the loop thread does with the client. -/
def ofLoop : ClientNode.Label Unit → Bool
  | .run _ | .session _ => true
  | _ => false

/-- The main thread goes on. -/
def mainStep (state : DemoClient) : Option DemoClient :=
  match state.main with
  | .calls [] => some { state with main := .waits 30 }
  | .calls (label :: rest) =>
      if label.checks ∧ ¬ state.pair.node.isConnected then some { state with main := .terminated }
      else (state.pair.step (.client label)).map fun pair => { state with pair := pair, main := .calls rest }
  | .waits turns =>
      if turns = 0 ∨ state.remaining ≤ 0 then some { state with main := .closes }
      else some { state with main := .waits (turns - 1) }
  | .closes => (state.pair.step (.client .close)).map fun pair => { state with pair := pair, main := .stops }
  | .stops => some { state with stopped := true, main := .joins }
  | .joins =>
      if state.loop = .returned then
        some { state with main := .returned (if state.remaining = 0 then 0 else 1) }
      else none
  | .returned _ | .terminated => none

/-- `io_thread` goes on in `loop.run()`, between the callbacks. -/
def runStep (state : DemoClient) : Option DemoClient :=
  match state.loop with
  | .starting => some { state with loop := .testing, stopped := false }
  | .testing => some { state with loop := .taking state.stopped }
  | .taking last => some { state with loop := .draining state.pair.node.endpoint.tasks.length last }
  | .draining 0 false => some { state with loop := .polled true }
  | .draining 0 true => some { state with loop := .returned }
  | .polled _ => some { state with loop := .testing }
  | .draining (_ + 1) _ | .returned => none

/-- The loop thread runs a task or the session, and then the response handlers that the client has dispatched
to. -/
def loopStep (state : DemoClient) (label : ClientNode.Label Unit) (loop : LoopPoint) : Option DemoClient :=
  (state.pair.step (.client label)).bind fun pair =>
    (responded (pair.node.trace.drop state.pair.node.trace.length)).foldlM onResponse
      { state with pair := pair, loop := loop }

/-- An exception that leaves a thread ends the process. -/
def alive (state : DemoClient) : Bool :=
  state.main ≠ .terminated && state.pair.node.endpoint.session.control ≠ .thrown

/-- One step. -/
def step (state : DemoClient) : Label → Option DemoClient
  | .main => if state.alive then state.mainStep else none
  | .run => if state.alive ∧ state.pair.node.endpoint.session.control = .idle then state.runStep else none
  | .loop label => if state.alive then (state.loop.does label).bind (state.loopStep label) else none
  | .server label ctime =>
      (state.pair.step (.server label ctime)).map fun pair => { state with pair := pair }

def machine : Machine DemoClient Label where
  step := step

/-- The loop runs tasks and the session only, before it has returned. -/
theorem ofLoop_of_does {loop next : LoopPoint} {label : ClientNode.Label Unit}
    (does : loop.does label = some next) :
    ofLoop label = true ∧ loop ≠ .returned ∧ next ≠ .starting := by
  unfold LoopPoint.does at does
  split at does
  case h_2 =>
    split_ifs at does
    cases does
    exact ⟨rfl, by simp, by simp⟩
  case h_1 | h_4 | h_5 =>
    cases does
    exact ⟨rfl, by simp, by simp⟩
  case h_3 | h_6 => cases does

/-! ### The right answers -/

/-- The answer to `echo`. -/
def echoed : RpcMessage :=
  { id := 1, kind := .response, service := addRequest.service, method := echoCall.method
    payload := ⟨ascii "hello mini rpc", by decide⟩ }

/-- The answer to `upper`. -/
def uppered : RpcMessage :=
  { id := 2, kind := .response, service := addRequest.service, method := ⟨ascii "upper", by decide⟩
    payload := ⟨ascii "FULL DUPLEX PROTOBUF", by decide⟩ }

/-- The answer to `time`. -/
def timed (ctime : CtimeText) : RpcMessage :=
  { id := 3, kind := .response, service := addRequest.service, method := ⟨ascii "time", by decide⟩
    payload := nowText ctime }

/-- What the demo server answers to the calls of the program. -/
theorem answer_of_call {request response : RpcMessage} (mine : (request, some ()) ∈ toCome 1 script)
    {ctime : CtimeText} (made : handleDemoRequest ctime request = some response) :
    response = echoed ∨ response = uppered ∨ response = timed ctime := by
  have three : toCome 1 script =
      [(RpcClient.callMessage 1 addRequest.service echoCall.method
        ⟨ascii "hello mini rpc", by decide⟩, some ()),
        (RpcClient.callMessage 2 addRequest.service ⟨ascii "upper", by decide⟩
          ⟨ascii "full duplex protobuf", by decide⟩, some ()),
        (RpcClient.callMessage 3 addRequest.service ⟨ascii "time", by decide⟩ .nil, some ())] := rfl
  rw [three] at mine
  simp only [List.mem_cons, Prod.mk.injEq, and_true, List.not_mem_nil, or_false] at mine
  rcases mine with rfl | rfl | rfl
  · exact Or.inl (Option.some.inj (made.symm.trans rfl))
  · exact Or.inr (Or.inl (Option.some.inj (made.symm.trans rfl)))
  · exact Or.inr (Or.inr (Option.some.inj (made.symm.trans rfl)))

/-! ### The invariant -/

/-- The calls of the program, as far as they have been made, and what has been printed and counted. -/
structure Good (fd fd' : ℕ) (id : UInt64) (state : DemoClient) : Prop where
  reached : DemoPair.machine.Reaches (DemoPair.accepted fd fd' id) state.pair
  calls : made state.pair.node.trace ++ state.pair.node.calling <+: toCome 1 script
  script : ∀ rest, state.main = .calls rest → rest <:+ DemoClient.script ∧
    made state.pair.node.trace ++ state.pair.node.calling ++ toCome state.pair.node.client.nextRequestId rest =
      toCome 1 DemoClient.script
  printed : state.printed = responded state.pair.node.trace
  remaining : state.remaining = 3 - state.printed.length
  code : ∀ code, state.main = .returned code →
    state.loop = .returned ∧ code = if state.remaining = 0 then 0 else 1

theorem good_connected (fd fd' : ℕ) (id : UInt64) : (connected fd fd' id).Good fd fd' id where
  reached := Machine.Reaches.refl _
  calls := List.nil_prefix
  script rest same := by
    cases same
    exact ⟨List.suffix_refl _, rfl⟩
  printed := rfl
  remaining := rfl
  code code same := by cases same

namespace Good

variable {fd fd' : ℕ} {id : UInt64} {state : DemoClient} {pair : DemoPair Unit}

/-- What the loop does makes no call. -/
theorem calls_of_loop {node node' : ClientNode Unit} {label : ClientNode.Label Unit}
    {effects : List (Effect UInt64)} (stepped : node.step label = some (node', effects))
    (loops : ofLoop label = true) (rest : List (ClientNode.Label Unit)) :
    made node'.trace ++ node'.calling ++ toCome node'.client.nextRequestId rest =
      made node.trace ++ node.calling ++ toCome node.client.nextRequestId rest := by
  have kept (first : ∀ index, label = .register index → index = 0)
      (connected : label.checks = true → node.isConnected = true) :=
    ClientNode.step_calls stepped first connected rest
  cases label with
  | run | session => exact kept (fun index same => by cases same) (fun checks => by cases checks)
  | _ => cases loops

/-- The same client, with the calls of the program where they were. -/
theorem of_node (holds : state.Good fd fd' id) {state' : DemoClient}
    (reached : DemoPair.machine.Reaches (DemoPair.accepted fd fd' id) state'.pair)
    (trace : state'.pair.node.trace = state.pair.node.trace)
    (calling : state'.pair.node.calling = state.pair.node.calling)
    (next : state'.pair.node.client.nextRequestId = state.pair.node.client.nextRequestId)
    (rest : ∀ rest, state'.main = .calls rest → state.main = .calls rest)
    (printed : state'.printed = state.printed) (remaining : state'.remaining = state.remaining)
    (code : ∀ code, state'.main = .returned code →
      state'.loop = .returned ∧ code = if state.remaining = 0 then 0 else 1) : state'.Good fd fd' id where
  reached := reached
  calls := by
    rw [trace, calling]
    exact holds.calls
  script left same := by
    rw [trace, calling, next]
    exact holds.script left (rest left same)
  printed := by
    rw [printed, trace]
    exact holds.printed
  remaining := by
    rw [remaining, printed]
    exact holds.remaining
  code := by
    rw [remaining]
    exact code

/-- Only `send` and `close` ask the session for something. -/
theorem asked_of_call {node entered : ClientNode Unit} {label : ClientNode.Label Unit}
    {asked : Endpoint.Label UInt64} (same : node.enter label = some (entered, some asked))
    (calls : ofLoop label = false) :
    entered.trace = node.trace ∧ ((∃ message handler, asked = .send message handler) ∨ asked = .close) := by
  unfold ClientNode.enter at same
  cases label with
  | callAsync | notify =>
      simp only at same
      split_ifs at same <;> cases same
  | register =>
      simp only at same
      split at same <;> cases same
  | send =>
      simp only at same
      split_ifs at same
      split at same <;> cases same
      exact ⟨rfl, Or.inl ⟨_, _, rfl⟩⟩
  | close =>
      obtain ⟨rfl, asks⟩ := Prod.mk.inj (Option.some.inj same)
      split_ifs at asks
      cases asks
      exact ⟨rfl, Or.inr rfl⟩
  | run | session => cases calls

/-- What the main thread does with the client dispatches nothing. -/
theorem responded_of_call {node node' : ClientNode Unit} {label : ClientNode.Label Unit}
    {effects : List (Effect UInt64)} (stepped : node.step label = some (node', effects))
    (calls : ofLoop label = false) : responded node'.trace = responded node.trace := by
  have nothing {events : List (ClientEvent Unit)} (none : dispatched events = []) : responded events = [] := by
    refine List.eq_nil_iff_forall_not_mem.mpr fun message member => ?_
    obtain ⟨handler, received⟩ := mem_responded.mp member
    have there : message ∈ dispatched events := DemoPair.mem_dispatched.mpr ⟨_, received⟩
    rw [none] at there
    cases there
  rcases ClientNode.step_cases stepped with ⟨same, _⟩ | ⟨entered, asked, endpoint', same, moved, rfl⟩
  · unfold ClientNode.enter at same
    cases label with
    | callAsync | notify =>
        simp only at same
        split_ifs at same <;> cases same <;> rfl
    | register =>
        simp only at same
        split at same <;> cases same
        rw [responded_append]
        exact List.append_nil _
    | send =>
        simp only at same
        split_ifs at same
        split at same <;> cases same
    | close =>
        obtain ⟨rfl, _⟩ := Prod.mk.inj (Option.some.inj same)
        rfl
    | run | session => cases calls
  · obtain ⟨trace, ⟨message, handler, rfl⟩ | rfl⟩ := asked_of_call same calls
    all_goals
      have silent : delivered effects = [] := by
        obtain ⟨_, rfl⟩ := Prod.mk.inj (Option.some.inj moved)
        first | exact (Endpoint.send_silent _ _ _).2 | rfl
      have none : responded (entered.client.handleAll effects).2 = [] :=
        nothing ((entered.client.handleAll_dispatched effects).trans silent)
      show responded (entered.trace ++ (entered.client.handleAll effects).2) = _
      rw [responded_append, trace, none, List.append_nil]

/-- What the main thread does with the client posts tasks, and leaves the session as it is. -/
theorem posts_of_call {node node' : ClientNode Unit} {label : ClientNode.Label Unit}
    {effects : List (Effect UInt64)} (stepped : node.step label = some (node', effects))
    (calls : ofLoop label = false) :
    node'.endpoint.session = node.endpoint.session ∧
      node.endpoint.tasks.length ≤ node'.endpoint.tasks.length := by
  rcases ClientNode.step_cases stepped with ⟨same, _⟩ | ⟨entered, asked, endpoint', same, moved, rfl⟩
  · rw [ClientNode.enter_endpoint same]
    exact ⟨rfl, le_rfl⟩
  · rw [← ClientNode.enter_endpoint same]
    show endpoint'.session = entered.endpoint.session ∧ entered.endpoint.tasks.length ≤ endpoint'.tasks.length
    obtain ⟨_, ⟨message, handler, rfl⟩ | rfl⟩ := asked_of_call same calls
    · have sent : (entered.endpoint.send message handler).1 = endpoint' :=
        congrArg Prod.fst (Option.some.inj moved)
      rw [← sent, Endpoint.send]
      split_ifs
      · exact ⟨rfl, le_rfl⟩
      · exact ⟨rfl, by simp⟩
    · cases moved
      exact ⟨rfl, by simp [Endpoint.close]⟩

/-- `client.close()` posts a task, and does nothing else. -/
theorem node_of_close {pair pair' : DemoPair Unit} (stepped : pair.step (.client .close) = some pair') :
    pair'.node.trace = pair.node.trace ∧ pair'.node.calling = pair.node.calling ∧
      pair'.node.client = pair.node.client ∧ pair'.node.endpoint.session = pair.node.endpoint.session ∧
      pair.node.endpoint.tasks.length ≤ pair'.node.endpoint.tasks.length := by
  obtain ⟨effects, moved⟩ := DemoPair.step_client stepped
  have posts := posts_of_call moved rfl
  unfold ClientNode.step ClientNode.enter at moved
  by_cases session : pair.node.client.session.isSome = true
  · simp only [session, if_true] at moved
    obtain ⟨answer, closed, same⟩ := Option.map_eq_some_iff.mp moved
    cases closed
    obtain ⟨node, _⟩ := Prod.mk.inj same
    rw [← node] at posts ⊢
    exact ⟨List.append_nil _, rfl, rfl, posts⟩
  · simp only [session, if_false, Bool.false_eq_true] at moved
    obtain ⟨node, _⟩ := Prod.mk.inj (Option.some.inj moved)
    rw [← node] at posts ⊢
    exact ⟨rfl, rfl, rfl, posts⟩

/-- What the response handlers of a step do. -/
structure Handles (responses : List RpcMessage) (state state' : DemoClient) : Prop where
  reaches : DemoPair.machine.Reaches state.pair state'.pair
  trace : state'.pair.node.trace = state.pair.node.trace
  calling : state'.pair.node.calling = state.pair.node.calling
  client : state'.pair.node.client = state.pair.node.client
  session : state'.pair.node.endpoint.session = state.pair.node.endpoint.session
  tasks : state.pair.node.endpoint.tasks.length ≤ state'.pair.node.endpoint.tasks.length
  main : state'.main = state.main
  loop : state'.loop = state.loop
  printed : state'.printed = state.printed ++ responses
  remaining : state'.remaining = state.remaining - responses.length

/-- **Every response is printed and counted**, whether or not the last one closes. -/
theorem handles_of_responses {responses : List RpcMessage} {state state' : DemoClient}
    (handled : responses.foldlM onResponse state = some state') : Handles responses state state' := by
  induction responses generalizing state with
  | nil =>
      obtain rfl : state = state' := Option.some.inj handled
      exact ⟨Machine.Reaches.refl _, rfl, rfl, rfl, rfl, le_rfl, rfl, rfl, (List.append_nil _).symm,
        (sub_zero _).symm⟩
  | cons response responses ih =>
      rw [List.foldlM_cons] at handled
      obtain ⟨next, first, rest⟩ := Option.bind_eq_some_iff.mp handled
      have later := ih rest
      have here : Handles [response] state next := by
        unfold onResponse at first
        dsimp only at first
        split_ifs at first with last
        · obtain ⟨pair, closed, rfl⟩ := Option.map_eq_some_iff.mp first
          obtain ⟨trace, calling, client, session, tasks⟩ := node_of_close closed
          exact ⟨DemoPair.reaches_of_step closed, trace, calling, client, session, tasks, rfl, rfl, rfl, rfl⟩
        · cases first
          exact ⟨Machine.Reaches.refl _, rfl, rfl, rfl, rfl, le_rfl, rfl, rfl, rfl, rfl⟩
      refine ⟨here.reaches.trans later.reaches, later.trace.trans here.trace, later.calling.trans here.calling,
        later.client.trans here.client, later.session.trans here.session, here.tasks.trans later.tasks,
        later.main.trans here.main, later.loop.trans here.loop, ?_, ?_⟩
      · rw [later.printed, here.printed, List.append_assoc]
        rfl
      · rw [later.remaining, here.remaining, List.length_singleton, List.length_cons]
        push_cast
        ring

variable {state' : DemoClient}

/-- The steps of `script` that are left are taken one after the other, and are none of the loop's. -/
theorem script_label {label : ClientNode.Label Unit} {rest : List (ClientNode.Label Unit)}
    (suffix : label :: rest <:+ DemoClient.script) :
    ofLoop label = false ∧ ∀ index, label = .register index → index = 0 := by
  have every : ∀ label ∈ DemoClient.script, ofLoop label = false ∧ label.inOrder = true := by decide
  obtain ⟨other, first⟩ := every label (suffix.subset List.mem_cons_self)
  refine ⟨other, fun index same => ?_⟩
  subst same
  simpa [ClientNode.Label.inOrder] using first

/-- **The main thread keeps the invariant.** -/
theorem main (holds : state.Good fd fd' id) (stepped : state.mainStep = some state') :
    state'.Good fd fd' id := by
  unfold mainStep at stepped
  split at stepped
  case h_1 => -- the calls are made
    cases stepped
    exact holds.of_node holds.reached rfl rfl rfl (fun _ same => by cases same) rfl rfl
      (fun _ same => by cases same)
  case h_2 label rest here =>
    split_ifs at stepped with refused
    · cases stepped
      exact holds.of_node holds.reached rfl rfl rfl (fun _ same => by cases same) rfl rfl
        (fun _ same => by cases same)
    · obtain ⟨pair, moved, rfl⟩ := Option.map_eq_some_iff.mp stepped
      obtain ⟨effects, stepped⟩ := DemoPair.step_client moved
      obtain ⟨suffix, before⟩ := holds.script _ here
      obtain ⟨other, first⟩ := script_label suffix
      have connected : label.checks = true → state.pair.node.isConnected = true := by
        simpa using refused
      have now := (ClientNode.step_calls stepped first connected rest).trans before
      have silent := responded_of_call stepped other
      exact {
        reached := holds.reached.trans (DemoPair.reaches_of_step moved)
        calls := ⟨_, now⟩
        script := fun left same => by
          cases same
          exact ⟨(List.suffix_cons label rest).trans suffix, now⟩
        printed := holds.printed.trans silent.symm
        remaining := holds.remaining
        code := fun _ same => by cases same }
  case h_3 => -- it sleeps
    split_ifs at stepped <;> cases stepped <;>
      exact holds.of_node holds.reached rfl rfl rfl (fun _ same => by cases same) rfl rfl
        (fun _ same => by cases same)
  case h_4 =>
    obtain ⟨pair, closed, rfl⟩ := Option.map_eq_some_iff.mp stepped
    obtain ⟨trace, calling, client, _⟩ := node_of_close closed
    exact holds.of_node (holds.reached.trans (DemoPair.reaches_of_step closed)) trace calling
      (congrArg RpcClient.nextRequestId client) (fun _ same => by cases same) rfl rfl
      (fun _ same => by cases same)
  case h_5 =>
    cases stepped
    exact holds.of_node holds.reached rfl rfl rfl (fun _ same => by cases same) rfl rfl
      (fun _ same => by cases same)
  case h_6 =>
    by_cases joined : state.loop = .returned
    · rw [if_pos joined] at stepped
      cases stepped
      exact holds.of_node holds.reached rfl rfl rfl (fun _ same => by cases same) rfl rfl
        (fun code same => ⟨joined, (MainPoint.returned.inj same).symm⟩)
    · rw [if_neg joined] at stepped
      cases stepped
  case h_7 | h_8 => cases stepped

/-- **`EventLoop::run` keeps the invariant.** -/
theorem run (holds : state.Good fd fd' id) (stepped : state.runStep = some state') : state'.Good fd fd' id := by
  have stays {next : LoopPoint} {stopped : Bool} (running : state.loop ≠ .returned) :
      Good fd fd' id { state with loop := next, stopped := stopped } :=
    holds.of_node holds.reached rfl rfl rfl (fun _ same => same) rfl rfl
      (fun code same => absurd (holds.code code same).1 running)
  unfold runStep at stepped
  split at stepped
  case h_7 | h_8 => cases stepped
  all_goals
    cases stepped
    exact stays (by simp [*])

/-- **The loop thread keeps the invariant.** -/
theorem loop (holds : state.Good fd fd' id) {label : ClientNode.Label Unit} {next : LoopPoint}
    (does : state.loop.does label = some next) (stepped : state.loopStep label next = some state') :
    state'.Good fd fd' id := by
  obtain ⟨loops, running, _⟩ := ofLoop_of_does does
  obtain ⟨pair, moved, handled⟩ := Option.bind_eq_some_iff.mp stepped
  obtain ⟨effects, answered⟩ := DemoPair.step_client moved
  obtain ⟨events, more, _⟩ := ClientNode.step_trace answered
  rw [more, List.drop_left] at handled
  have handles := handles_of_responses handled
  have calls := calls_of_loop answered loops
  rw [← handles.trace, ← handles.calling, ← handles.client] at calls
  exact {
    reached := (holds.reached.trans (DemoPair.reaches_of_step moved)).trans handles.reaches
    calls := by
      have same := calls []
      rw [show ∀ next, toCome next ([] : List (ClientNode.Label Unit)) = [] from fun next => by rw [toCome],
        toCome, List.append_nil, List.append_nil] at same
      rw [same]
      exact holds.calls
    script := fun rest here => by
      rw [handles.main] at here
      rw [calls]
      exact holds.script rest here
    printed := by
      rw [handles.printed, handles.trace, more, responded_append]
      exact congrArg (· ++ _) holds.printed
    remaining := by
      rw [handles.remaining, handles.printed, List.length_append]
      have counted : state.remaining = 3 - state.printed.length := holds.remaining
      push_cast
      show state.remaining - _ = _
      omega
    code := fun code here => by
      rw [handles.main] at here
      exact absurd (holds.code code here).1 running }

/-- **Every step keeps the invariant.** -/
theorem step (holds : state.Good fd fd' id) {label : Label} (stepped : machine.step state label = some state') :
    state'.Good fd fd' id := by
  unfold machine DemoClient.step at stepped
  cases label with
  | main =>
      simp only at stepped
      split_ifs at stepped
      exact holds.main stepped
  | run =>
      simp only at stepped
      split_ifs at stepped
      exact holds.run stepped
  | loop label =>
      simp only at stepped
      split_ifs at stepped
      obtain ⟨next, does, stepped⟩ := Option.bind_eq_some_iff.mp stepped
      exact holds.loop does stepped
  | server label ctime =>
      obtain ⟨pair, moved, rfl⟩ := Option.map_eq_some_iff.mp stepped
      have node := DemoPair.step_server_node moved
      refine holds.of_node (holds.reached.trans (DemoPair.reaches_of_step moved)) ?_ ?_ ?_
        (fun _ same => same) rfl rfl holds.code
      · exact congrArg ClientNode.trace node
      · exact congrArg ClientNode.calling node
      · exact congrArg (·.client.nextRequestId) node

end Good

theorem run_good {fd fd' : ℕ} {id : UInt64} {labels : List Label} {final : DemoClient}
    (ran : machine.run (connected fd fd' id) labels = some final) : final.Good fd fd' id :=
  Machine.invariant_run (Good fd fd' id) (fun holds stepped => holds.step stepped)
    (good_connected fd fd' id) ran

namespace Good

variable {fd fd' : ℕ} {id : UInt64} {state : DemoClient}

/-- Fewer than `2 ^ 64` calls. -/
theorem few (holds : state.Good fd fd' id) : state.pair.node.allIds.length < 2 ^ 64 := by
  have short : (made state.pair.node.trace ++ state.pair.node.calling).length ≤ 3 := holds.calls.length_le
  rw [List.length_append, length_made] at short
  rw [ClientNode.allIds, List.length_append, List.length_map]
  omega

/-- **What is printed is right**: it is what the demo server answers to a call of the program. -/
theorem printed_cases (holds : state.Good fd fd' id) {response : RpcMessage}
    (member : response ∈ state.printed) :
    response = echoed ∨ response = uppered ∨ ∃ ctime, response = timed ctime := by
  obtain ⟨labels, ran⟩ := holds.reached
  obtain ⟨correlates, conserves, answers⟩ := DemoPair.run_conserves ran
  rw [holds.printed] at member
  obtain ⟨handler, received⟩ := mem_responded.mp member
  obtain ⟨request, called, answered, _⟩ := (correlates.responses holds.few).2 response handler received
  obtain ⟨ctime, made⟩ := answers request response answered
  have mine : (request, some handler) ∈ toCome 1 DemoClient.script :=
    holds.calls.subset (List.mem_append_left _ (mem_made called))
  rcases answer_of_call mine made with echo | upper | time
  · exact Or.inl echo
  · exact Or.inr (Or.inl upper)
  · exact Or.inr (Or.inr ⟨ctime, time⟩)

/-- No answer is printed twice. -/
theorem ids_nodup (holds : state.Good fd fd' id) : (state.printed.map (·.id)).Nodup := by
  obtain ⟨labels, ran⟩ := holds.reached
  obtain ⟨correlates, _⟩ := DemoPair.run_conserves ran
  rw [holds.printed, map_id_responded]
  exact List.nodup_iff_count_le_one.mpr (correlates.responses holds.few).1

end Good

end DemoClient

/-- **What the client prints, and what it returns.** Take any run of the client's two threads and of the demo
server's session for it, with any faults. `print_response` is called with the right answers to the three calls
only, with each at most once and in some order; `remaining` is the number of those that are missing; and if
`main` returns, then with 0 if all three answers were printed, and with 1 otherwise. -/
theorem main_exit_code {fd fd' : ℕ} {id : UInt64} {labels : List DemoClient.Label} {final : DemoClient}
    (ran : DemoClient.machine.run (DemoClient.connected fd fd' id) labels = some final) :
    (∃ ctime, final.printed.Subperm [DemoClient.echoed, DemoClient.uppered, DemoClient.timed ctime]) ∧
      final.remaining = 3 - final.printed.length ∧
      ∀ code, final.main = .returned code → code = if final.printed.length = 3 then 0 else 1 := by
  have holds := DemoClient.run_good ran
  refine ⟨?_, holds.remaining, fun code returned => ?_⟩
  · have nodup : final.printed.Nodup := holds.ids_nodup.of_map _
    -- there is only one answer to the call of `time`
    obtain ⟨ctime, only⟩ : ∃ ctime, ∀ response ∈ final.printed,
        response = DemoClient.echoed ∨ response = DemoClient.uppered ∨ response = DemoClient.timed ctime := by
      by_cases some : ∃ ctime, DemoClient.timed ctime ∈ final.printed
      · obtain ⟨ctime, there⟩ := some
        refine ⟨ctime, fun response member => ?_⟩
        rcases holds.printed_cases member with echo | upper | ⟨other, rfl⟩
        · exact Or.inl echo
        · exact Or.inr (Or.inl upper)
        · exact Or.inr (Or.inr (List.inj_on_of_nodup_map holds.ids_nodup member there rfl))
      · refine ⟨newYear, fun response member => ?_⟩
        rcases holds.printed_cases member with echo | upper | ⟨other, rfl⟩
        · exact Or.inl echo
        · exact Or.inr (Or.inl upper)
        · exact absurd ⟨other, member⟩ some
    refine ⟨ctime, List.subperm_of_subset nodup fun response member => ?_⟩
    simpa using only response member
  · rw [(holds.code code returned).2, holds.remaining]
    split_ifs <;> first | rfl | omega

/-- The client's session writes its next message. -/
def clientWrites (size : ℕ) : List DemoClient.Label :=
  [.loop (.run 0), .loop (.session (.modify .ok)), .loop (.session (.send (.accepted size))),
    .loop (.session (.modify .ok))]

/-- The server's session writes its next message. -/
def serverWrites (size : ℕ) : List DemoClient.Label :=
  [.server (.run 0) newYear, .server (.session (.modify .ok)) newYear,
    .server (.session (.send (.accepted size))) newYear, .server (.session (.modify .ok)) newYear]

/-- A session reads four messages at once. -/
def readsFour {H : Type} (messages : List RpcMessage) : List (Action H) :=
  [.handleEvents { in_ := true }, .recv (.data (messages.flatMap frameOf)), .recv (.error .eagain),
    .parse, .parse, .parse, .parse, .parse]

/-- What the client sends. -/
def clientMessages : List RpcMessage := DemoClient.pushed :: (toCome 1 DemoClient.script).map Prod.fst

/-- What the server sends. -/
def serverMessages : List RpcMessage :=
  [welcome 1, DemoClient.echoed, DemoClient.uppered, DemoClient.timed newYear]

/-- A run in which the client gets all three answers: its loop turns once, and then runs the task of `close`. -/
def allThree : List DemoClient.Label :=
  List.replicate 12 DemoClient.Label.main ++ List.replicate 3 DemoClient.Label.run ++
    [52, 43, 50, 27].flatMap clientWrites ++
    (readsFour clientMessages).map (fun action => DemoClient.Label.server (.session action) newYear) ++
    [44, 43, 50, 53].flatMap serverWrites ++ [DemoClient.Label.run] ++
    (readsFour serverMessages).map (fun action => DemoClient.Label.loop (.session action)) ++
    List.replicate 3 DemoClient.Label.run ++
    [DemoClient.Label.loop (.run 0), DemoClient.Label.loop (.session .drain), DemoClient.Label.run] ++
    List.replicate 4 DemoClient.Label.main

theorem allThree_exit_code :
    ∃ final, DemoClient.machine.run (DemoClient.connected 5 6 1) allThree = some final ∧
      final.main = .returned 0 ∧
      ∃ ctime, final.printed.Perm [DemoClient.echoed, DemoClient.uppered, DemoClient.timed ctime] := by
  have ends : (DemoClient.machine.run (DemoClient.connected 5 6 1) allThree).map (·.main) =
      some (.returned 0) := by decide +kernel
  obtain ⟨final, ran, returned⟩ := Option.map_eq_some_iff.mp ends
  obtain ⟨⟨ctime, printed⟩, _, code⟩ := main_exit_code ran
  have all : final.printed.length = 3 := by
    by_contra other
    have zero := code 0 returned
    rw [if_neg other] at zero
    cases zero
  exact ⟨final, ran, returned, ctime, printed.perm_of_length_le (by rw [all]; exact le_rfl)⟩

end Insist.MiniRpc
