/-
**A session with its callers and its posted tasks.**

`Session::send` and `Session::close` may be called by any thread at any time; both leave a task for the
loop, which runs one whenever it is not inside the session's code. No order is assumed between the
tasks. An `Endpoint` adds the posted tasks to the session, and records what has happened: every effect
in `trace`, and in `executed` the messages whose tasks have run.

* `step_moves` — the steps of an endpoint, in terms of the moves of its session;
* `Moves.session_invariant` — what every move of the session preserves, whatever caller-side write
  handlers run in between, every step of the endpoint preserves;
* `Posted`, `Moves.posted_good` — the tasks and the executed messages are ones `send` did not reject.
-/
import Insist.Lib.Machine
import Insist.MiniRpc.MessageStream
import Insist.MiniRpc.SessionSteps

namespace Insist.MiniRpc

open Lib

/-- A task posted to the loop. The task of `send` captures the frame made of its message. -/
inductive Task (H : Type)
  | send (message : RpcMessage) (handler : Option H)
  | close
deriving DecidableEq, Repr

/-- What the loop does when it runs the task. -/
def Task.action {H : Type} : Task H → Action H
  | .send message handler => .sendTask (frameOf message) handler
  | .close => .closeTask

/-- The message of a task of `send`. -/
def Task.message {H : Type} : Task H → List RpcMessage
  | .send message _ => [message]
  | .close => []

/-- The actions that only a posted task starts. -/
def Action.fromTask {H : Type} : Action H → Bool
  | .sendTask _ _ | .closeTask => true
  | _ => false

/-- A session, the tasks posted for it and not yet run, and its history. -/
structure Endpoint (H : Type) where
  session : Session H
  tasks : List (Task H) := []
  executed : List RpcMessage := []
  trace : List (Effect H) := []
deriving DecidableEq, Repr

namespace Endpoint

variable {H : Type}

/-- What can happen to an endpoint. -/
inductive Label (H : Type)
  /-- A call of `Session::send`. -/
  | send (message : RpcMessage) (handler : Option H)
  /-- A call of `Session::close`. -/
  | close
  /-- The loop runs a posted task. -/
  | run (index : ℕ)
  /-- The loop enters or resumes the session's code otherwise. -/
  | session (action : Action H)
deriving DecidableEq, Repr

/-- An endpoint whose session has just been started. -/
def started (fd : ℕ) : Endpoint H := { session := .started fd }

/-- `Session::send`: oversized messages are rejected on the spot, the others leave a task. -/
def send (endpoint : Endpoint H) (message : RpcMessage) (handler : Option H) :
    Endpoint H × List (Effect H) :=
  if (ProtobufWireCodec.encode message).length > kMaxFrameSize.toNat then
    let effects := Session.invoke handler .messageSize
    ({ endpoint with trace := endpoint.trace ++ effects }, effects)
  else ({ endpoint with tasks := endpoint.tasks ++ [.send message handler] }, [])

/-- `Session::close`. -/
def close (endpoint : Endpoint H) : Endpoint H :=
  { endpoint with tasks := endpoint.tasks ++ [.close] }

/-- The endpoint after a step of its session. -/
def advance (endpoint : Endpoint H) (tasks : List (Task H)) (messages : List RpcMessage)
    (answer : Session H × List (Effect H)) : Endpoint H × List (Effect H) :=
  ({ session := answer.1, tasks := tasks, executed := endpoint.executed ++ messages
     trace := endpoint.trace ++ answer.2 }, answer.2)

/-- One step of an endpoint, and its effects. -/
def step (endpoint : Endpoint H) : Label H → Option (Endpoint H × List (Effect H))
  | .send message handler => some (endpoint.send message handler)
  | .close => some (endpoint.close, [])
  | .run index =>
      match endpoint.tasks[index]? with
      | none => none
      | some task =>
          (endpoint.session.step task.action).map
            (endpoint.advance (endpoint.tasks.eraseIdx index) task.message)
  | .session action =>
      if action.fromTask then none
      else (endpoint.session.step action).map (endpoint.advance endpoint.tasks [])

/-- Endpoints as a machine. -/
def machine : Machine (Endpoint H) (Label H) where
  step endpoint label := (endpoint.step label).map Prod.fst

/-! ### The steps -/

/-- Every step of an endpoint with a well-formed session. -/
inductive Moves : Endpoint H → Label H → Endpoint H → List (Effect H) → Prop
  /-- `send` rejects the message. -/
  | rejected {endpoint : Endpoint H} {message : RpcMessage} {handler : Option H}
      (large : kMaxFrameSize.toNat < (ProtobufWireCodec.encode message).length) :
      Moves endpoint (.send message handler)
        { endpoint with trace := endpoint.trace ++ Session.invoke handler .messageSize }
        (Session.invoke handler .messageSize)
  /-- `send` posts its task. -/
  | posted {endpoint : Endpoint H} {message : RpcMessage} {handler : Option H}
      (small : (ProtobufWireCodec.encode message).length ≤ kMaxFrameSize.toNat) :
      Moves endpoint (.send message handler)
        { endpoint with tasks := endpoint.tasks ++ [.send message handler] } []
  /-- `close` posts its task. -/
  | closePosted {endpoint : Endpoint H} :
      Moves endpoint .close { endpoint with tasks := endpoint.tasks ++ [.close] } []
  /-- The loop runs a task. -/
  | ran {endpoint : Endpoint H} {index : ℕ} {task : Task H} {session : Session H}
      {effects : List (Effect H)} (posted : endpoint.tasks[index]? = some task)
      (moves : Session.Moves endpoint.session task.action session effects) :
      Moves endpoint (.run index)
        (endpoint.advance (endpoint.tasks.eraseIdx index) task.message (session, effects)).1 effects
  /-- The loop runs the session's code from another point. -/
  | inside {endpoint : Endpoint H} {action : Action H} {session : Session H}
      {effects : List (Effect H)} (notTask : action.fromTask = false)
      (moves : Session.Moves endpoint.session action session effects) :
      Moves endpoint (.session action)
        (endpoint.advance endpoint.tasks [] (session, effects)).1 effects

/-- **Every step of an endpoint is one of the listed moves.** -/
theorem step_moves {endpoint endpoint' : Endpoint H} {label : Label H} {effects : List (Effect H)}
    (wf : endpoint.session.Wf) (stepped : endpoint.step label = some (endpoint', effects)) :
    Moves endpoint label endpoint' effects := by
  cases label with
  | send message handler =>
      simp only [step, send, Option.some.injEq] at stepped
      split_ifs at stepped with large
      · cases stepped
        exact .rejected large
      · cases stepped
        exact .posted (by omega)
  | close =>
      cases stepped
      exact .closePosted
  | run index =>
      simp only [step] at stepped
      split at stepped
      case h_1 => cases stepped
      case h_2 task posted =>
        obtain ⟨answer, moved, same⟩ := Option.map_eq_some_iff.mp stepped
        cases same
        exact .ran posted (Session.step_moves wf moved)
  | session action =>
      simp only [step] at stepped
      split_ifs at stepped with fromTask
      obtain ⟨answer, moved, same⟩ := Option.map_eq_some_iff.mp stepped
      cases same
      exact .inside (by simpa using fromTask) (Session.step_moves wf moved)

/-- A step appends its effects to the trace. -/
theorem Moves.trace_eq {endpoint endpoint' : Endpoint H} {label : Label H}
    {effects : List (Effect H)} (moves : Moves endpoint label endpoint' effects) :
    endpoint'.trace = endpoint.trace ++ effects := by
  cases moves with
  | rejected large => rfl
  | posted small => simp
  | closePosted => simp
  | ran posted moves => rfl
  | inside notTask moves => rfl

/-- **What every move of the session preserves, every step of the endpoint preserves**, as long as the
write handlers that `send` itself runs do not matter. -/
theorem Moves.session_invariant (invariant : Session H → List (Effect H) → Prop)
    (rejected : ∀ {session trace} {handler : Option H}, invariant session trace →
      invariant session (trace ++ Session.invoke handler .messageSize))
    (preserved : ∀ {session session' action effects trace}, session.Wf → invariant session trace →
      Session.Moves session action session' effects → invariant session' (trace ++ effects))
    {endpoint endpoint' : Endpoint H} {label : Label H} {effects : List (Effect H)}
    (moves : Moves endpoint label endpoint' effects) (wf : endpoint.session.Wf)
    (holds : invariant endpoint.session endpoint.trace) :
    invariant endpoint'.session endpoint'.trace := by
  cases moves with
  | rejected large => exact rejected holds
  | posted small => exact holds
  | closePosted => exact holds
  | ran posted moves => exact preserved wf holds moves
  | inside notTask moves => exact preserved wf holds moves

theorem Moves.wf {endpoint endpoint' : Endpoint H} {label : Label H} {effects : List (Effect H)}
    (moves : Moves endpoint label endpoint' effects) (wf : endpoint.session.Wf) :
    endpoint'.session.Wf := by
  cases moves with
  | rejected large => exact wf
  | posted small => exact wf
  | closePosted => exact wf
  | ran posted moves => exact moves.wf wf
  | inside notTask moves => exact moves.wf wf

theorem machine_step {endpoint endpoint' : Endpoint H} {label : Label H}
    (stepped : machine.step endpoint label = some endpoint') (wf : endpoint.session.Wf) :
    ∃ effects, Moves endpoint label endpoint' effects := by
  obtain ⟨⟨next, effects⟩, moved, rfl⟩ := Option.map_eq_some_iff.mp stepped
  exact ⟨effects, step_moves wf moved⟩

/-- **An invariant of the moves holds along every run**, together with the session's own. -/
theorem run_invariant (allowed : Label H → Prop) (invariant : Endpoint H → Prop)
    (preserved : ∀ {endpoint endpoint' label effects}, endpoint.session.Wf → invariant endpoint →
      allowed label → Moves endpoint label endpoint' effects → invariant endpoint')
    {endpoint final : Endpoint H} {labels : List (Label H)} (wf : endpoint.session.Wf)
    (initially : invariant endpoint) (kind : ∀ label ∈ labels, allowed label)
    (ran : machine.run endpoint labels = some final) : final.session.Wf ∧ invariant final := by
  refine Machine.invariant_run_of allowed
    (fun endpoint => endpoint.session.Wf ∧ invariant endpoint) ?_ ⟨wf, initially⟩ kind ran
  intro endpoint label endpoint' holds permitted stepped
  obtain ⟨effects, moves⟩ := machine_step stepped holds.1
  exact ⟨moves.wf holds.1, preserved holds.1 holds.2 permitted moves⟩

/-! ### What was posted -/

/-- The tasks' and the executed messages meet a condition that `send` has checked. -/
structure Posted (good : RpcMessage → Prop) (endpoint : Endpoint H) : Prop where
  tasks : ∀ message handler, .send message handler ∈ endpoint.tasks → good message
  executed : ∀ message ∈ endpoint.executed, good message

/-- **Only messages that were sent and not rejected become tasks.** -/
theorem Moves.posted_good {good : RpcMessage → Prop} {endpoint endpoint' : Endpoint H}
    {label : Label H} {effects : List (Effect H)} (moves : Moves endpoint label endpoint' effects)
    (sent : ∀ message handler, label = .send message handler →
      (ProtobufWireCodec.encode message).length ≤ kMaxFrameSize.toNat → good message)
    (holds : Posted good endpoint) : Posted good endpoint' := by
  cases moves with
  | rejected large => exact ⟨holds.tasks, holds.executed⟩
  | posted small =>
      refine ⟨fun message handler member => ?_, holds.executed⟩
      rcases List.mem_append.mp member with old | new
      · exact holds.tasks message handler old
      · obtain ⟨rfl, rfl⟩ := Task.send.inj (List.mem_singleton.mp new)
        exact sent message handler rfl small
  | closePosted =>
      refine ⟨fun message handler member => ?_, holds.executed⟩
      rcases List.mem_append.mp member with old | new
      · exact holds.tasks message handler old
      · cases List.mem_singleton.mp new
  | @ran index task session effects posted moves =>
      refine ⟨fun message handler member =>
        holds.tasks message handler (List.mem_of_mem_eraseIdx member), fun message member => ?_⟩
      rcases List.mem_append.mp member with old | new
      · exact holds.executed message old
      · cases task with
        | send message' handler =>
            cases List.mem_singleton.mp new
            exact holds.tasks message handler (List.mem_of_getElem? posted)
        | close => cases new
  | inside notTask moves =>
      refine ⟨holds.tasks, fun message member => ?_⟩
      rcases List.mem_append.mp member with old | new
      · exact holds.executed message old
      · cases new

theorem started_posted (good : RpcMessage → Prop) (fd : ℕ) :
    Posted good (started fd : Endpoint H) := by
  constructor <;> simp [started]

end Endpoint

end Insist.MiniRpc
