/-
**Every write handler is invoked once, and told the truth.**

`Calls` numbers the calls of `Session::send` on an endpoint, and names the write handler of a call after
the call. `Handlers` is the invariant: the handlers given are those invoked, those in the write queue and
those in posted tasks, each once; the handlers queued are those invoked out of the queue followed by those
still in it; and what the kernel has taken of a call's frame is nothing before it is queued, the written
part of it while it is queued, and the whole of it afterwards exactly if its handler was told `success`.

* `Calls.run_good`, `write_handler_protocol` — the invariant and the results for every run.
-/
import Insist.MiniRpc.Send
import Mathlib.Data.List.Perm.Basic
import Mathlib.Data.List.Nodup
import Mathlib.Data.List.Induction

namespace Insist.MiniRpc

open Lib

variable {H : Type}

/-! ### What the trace says about the handlers -/

/-- The write handlers invoked, in order. -/
def invoked (trace : List (Effect H)) : List H :=
  trace.flatMap fun
    | .write handler _ => [handler]
    | _ => []

/-- The write handlers of the frames that have entered the queue, in order. -/
def queuedHandlers (trace : List (Effect H)) : List H :=
  trace.flatMap fun
    | .queued _ handler => handler.toList
    | _ => []

/-- What the kernel has taken of the frame with this handler. -/
def acceptedFor [DecidableEq H] (handler : H) (trace : List (Effect H)) : List UInt8 :=
  trace.flatMap fun
    | .accepted bytes other => if other = some handler then bytes else []
    | _ => []

/-- The handlers in the write queue. -/
def queueHandlers (queue : List (OutgoingFrame H)) : List H :=
  queue.flatMap fun frame => frame.handler.toList

/-- The handlers in posted tasks. -/
def taskHandlers (tasks : List (Task H)) : List H :=
  tasks.flatMap fun
    | .send _ handler => handler.toList
    | .close => []

@[simp] theorem invoked_append (first second : List (Effect H)) :
    invoked (first ++ second) = invoked first ++ invoked second :=
  List.flatMap_append

@[simp] theorem queuedHandlers_append (first second : List (Effect H)) :
    queuedHandlers (first ++ second) = queuedHandlers first ++ queuedHandlers second :=
  List.flatMap_append

@[simp] theorem acceptedFor_append [DecidableEq H] (handler : H) (first second : List (Effect H)) :
    acceptedFor handler (first ++ second) = acceptedFor handler first ++ acceptedFor handler second :=
  List.flatMap_append

@[simp] theorem taskHandlers_append (first second : List (Task H)) :
    taskHandlers (first ++ second) = taskHandlers first ++ taskHandlers second :=
  List.flatMap_append

@[simp] theorem invoked_invoke (handler : Option H) (error : ErrorCode) :
    invoked (Session.invoke handler error) = handler.toList := by
  cases handler <;> rfl

@[simp] theorem queuedHandlers_invoke (handler : Option H) (error : ErrorCode) :
    queuedHandlers (Session.invoke handler error) = [] := by
  cases handler <;> rfl

@[simp] theorem acceptedFor_invoke [DecidableEq H] (handler : H) (other : Option H)
    (error : ErrorCode) : acceptedFor handler (Session.invoke other error) = [] := by
  cases other <;> rfl

theorem acceptedFor_accepted [DecidableEq H] {handler : H} {other : Option H} (mine : other = some handler)
    (bytes : List UInt8) : acceptedFor handler [.accepted bytes other] = bytes := by
  simp [acceptedFor, mine]

theorem mem_invoked {trace : List (Effect H)} {handler : H} :
    handler ∈ invoked trace ↔ ∃ error, .write handler error ∈ trace := by
  rw [invoked, List.mem_flatMap]
  constructor
  · rintro ⟨effect, member, here⟩
    cases effect <;> simp at here
    subst here
    exact ⟨_, member⟩
  · rintro ⟨error, member⟩
    exact ⟨_, member, by simp⟩

/-- Taking a task out leaves the handlers of the others. -/
theorem taskHandlers_eraseIdx {tasks : List (Task H)} {index : ℕ} {task : Task H}
    (posted : tasks[index]? = some task) :
    (taskHandlers tasks).Perm (taskHandlers [task] ++ taskHandlers (tasks.eraseIdx index)) := by
  obtain ⟨inside, rfl⟩ := List.getElem?_eq_some_iff.mp posted
  rw [← taskHandlers_append]
  exact (List.getElem_cons_eraseIdx_perm inside).symm.flatMap_right _

/-! ### Numbered calls -/

/-- An endpoint and the calls of `send` so far: the message, and whether a write handler came with it. -/
structure Calls where
  endpoint : Endpoint ℕ
  calls : List (RpcMessage × Bool) := []
deriving DecidableEq, Repr

namespace Calls

/-- What can happen. -/
inductive Label
  | send (message : RpcMessage) (withHandler : Bool)
  | close
  | run (index : ℕ)
  | session (action : Action ℕ)
deriving DecidableEq, Repr

/-- The write handler of the next call is named after the call. -/
def handlerOf (calls : List (RpcMessage × Bool)) (withHandler : Bool) : Option ℕ :=
  if withHandler then some calls.length else none

/-- The step of the endpoint. -/
def Label.toEndpoint (calls : List (RpcMessage × Bool)) : Label → Endpoint.Label ℕ
  | .send message withHandler => .send message (handlerOf calls withHandler)
  | .close => .close
  | .run index => .run index
  | .session action => .session action

/-- The calls after a step. -/
def Label.record (calls : List (RpcMessage × Bool)) : Label → List (RpcMessage × Bool)
  | .send message withHandler => calls ++ [(message, withHandler)]
  | _ => calls

/-- One step. -/
def step (state : Calls) (label : Label) : Option Calls :=
  (Endpoint.machine.step state.endpoint (label.toEndpoint state.calls)).map fun endpoint =>
    { endpoint := endpoint, calls := label.record state.calls }

def machine : Machine Calls Label where
  step := step

/-- A session that has just been started, before any call. -/
def started (fd : ℕ) : Calls := { endpoint := .started fd }

end Calls

/-- The calls that came with a write handler. -/
def given (calls : List (RpcMessage × Bool)) : List ℕ :=
  calls.zipIdx.flatMap fun call => (if call.1.2 then [call.2] else [])

theorem given_append (calls : List (RpcMessage × Bool)) (message : RpcMessage) (withHandler : Bool) :
    given (calls ++ [(message, withHandler)]) =
      given calls ++ (Calls.handlerOf calls withHandler).toList := by
  rw [given, List.zipIdx_append, List.flatMap_append]
  cases withHandler <;> simp [given, Calls.handlerOf]

/-- The call with this number was made for this message, and with a write handler. -/
def Called (calls : List (RpcMessage × Bool)) (number : ℕ) (message : RpcMessage) : Prop :=
  calls[number]? = some (message, true)

theorem Called.append {calls : List (RpcMessage × Bool)} {number : ℕ} {message : RpcMessage}
    (called : Called calls number message) (call : RpcMessage × Bool) :
    Called (calls ++ [call]) number message := by
  rw [Called, List.getElem?_append_left (List.getElem?_eq_some_iff.mp called).1]
  exact called

theorem Called.unique {calls : List (RpcMessage × Bool)} {number : ℕ} {first second : RpcMessage}
    (called : Called calls number first) (also : Called calls number second) : first = second := by
  rw [Called, called] at also
  cases also
  rfl

theorem mem_given {calls : List (RpcMessage × Bool)} {number : ℕ} :
    number ∈ given calls ↔ ∃ message, Called calls number message := by
  rw [given, List.mem_flatMap]
  constructor
  · rintro ⟨⟨⟨message, withHandler⟩, index⟩, member, here⟩
    cases withHandler <;> simp at here
    subst here
    exact ⟨message, List.mem_zipIdx_iff_getElem?.mp member⟩
  · rintro ⟨message, called⟩
    exact ⟨((message, true), number), List.mem_zipIdx_iff_getElem?.mpr called, by simp⟩

theorem given_nodup (calls : List (RpcMessage × Bool)) : (given calls).Nodup := by
  induction calls using List.reverseRecOn with
  | nil => exact List.nodup_nil
  | append_singleton calls call ih =>
      obtain ⟨message, withHandler⟩ := call
      rw [given_append]
      cases withHandler with
      | false => simpa [Calls.handlerOf] using ih
      | true =>
          refine List.nodup_append.mpr ⟨ih, List.nodup_singleton _, ?_⟩
          intro number member other new
          obtain ⟨message, called⟩ := mem_given.mp member
          have earlier := (List.getElem?_eq_some_iff.mp called).1
          simp [Calls.handlerOf] at new
          omega

/-! ### The invariant -/

/-- How the handlers given stand to the session, the tasks and the history. -/
structure Handlers (calls : List (RpcMessage × Bool)) (session : Session ℕ) (tasks : List (Task ℕ))
    (trace : List (Effect ℕ)) : Prop where
  all : (given calls).Perm
    (invoked trace ++ (queueHandlers session.writeQueue ++ taskHandlers tasks))
  order : (invoked trace).filter (· ∈ queuedHandlers trace) ++ queueHandlers session.writeQueue =
    queuedHandlers trace
  fresh : ∀ number, calls.length ≤ number → acceptedFor number trace = []
  waiting : ∀ message number, .send message (some number) ∈ tasks →
    Called calls number message ∧ acceptedFor number trace = []
  sending : ∀ frame ∈ session.writeQueue, frame.written < frame.bytes.length ∧
    ∀ number, frame.handler = some number → ∃ message, Called calls number message ∧
      frame.bytes = frameOf message ∧ acceptedFor number trace = frame.bytes.take frame.written
  told : ∀ number error, .write number error ∈ trace → ∃ message, Called calls number message ∧
    (error = .success ↔ acceptedFor number trace = frameOf message)
  failing : session.control ≠ .failLoop .success

theorem started_handlers (fd : ℕ) : Handlers [] (Session.started fd) [] [] where
  all := List.Perm.refl _
  order := rfl
  fresh _ _ := rfl
  waiting := by simp
  sending := by simp [Session.started]
  told := by simp
  failing := by simp [Session.started]

namespace Handlers

variable {calls : List (RpcMessage × Bool)} {session session' : Session ℕ} {tasks : List (Task ℕ)}
  {trace effects : List (Effect ℕ)}

theorem nodup (holds : Handlers calls session tasks trace) :
    (invoked trace ++ (queueHandlers session.writeQueue ++ taskHandlers tasks)).Nodup :=
  holds.all.nodup_iff.mp (given_nodup calls)

/-- A handler that has entered the queue has been invoked or is still in it. -/
theorem mem_queued (holds : Handlers calls session tasks trace) {number : ℕ}
    (queued : number ∈ queuedHandlers trace) :
    number ∈ invoked trace ∨ number ∈ queueHandlers session.writeQueue := by
  rw [← holds.order] at queued
  rcases List.mem_append.mp queued with out | still
  · exact Or.inl (List.mem_filter.mp out).1
  · exact Or.inr still

/-- The front frame's handler is nowhere else. -/
theorem front_unique (holds : Handlers calls session tasks trace) {frame : OutgoingFrame ℕ}
    {queue : List (OutgoingFrame ℕ)} (front : session.writeQueue = frame :: queue) {number : ℕ}
    (mine : frame.handler = some number) :
    number ∉ invoked trace ∧ number ∉ queueHandlers queue ∧ number ∉ taskHandlers tasks := by
  have nodup := holds.nodup
  rw [front, queueHandlers, List.flatMap_cons, mine] at nodup
  obtain ⟨_, inner, apart⟩ := List.nodup_append.mp nodup
  obtain ⟨once, _⟩ : number ∉ queueHandlers queue ++ taskHandlers tasks ∧ _ :=
    List.nodup_cons.mp inner
  refine ⟨fun member => apart number member number (by simp) rfl, ?_, ?_⟩
  · exact fun member => once (List.mem_append_left _ member)
  · exact fun member => once (List.mem_append_right _ member)

theorem queueHandlers_front {frame : OutgoingFrame ℕ} {queue : List (OutgoingFrame ℕ)}
    (front : session.writeQueue = frame :: queue) :
    queueHandlers session.writeQueue = frame.handler.toList ++ queueHandlers queue := by
  rw [front]
  rfl

/-- The front frame's handler leaves the queue for those that were invoked. -/
theorem front_all (holds : Handlers calls session tasks trace) {frame : OutgoingFrame ℕ}
    {queue : List (OutgoingFrame ℕ)} (front : session.writeQueue = frame :: queue) :
    (given calls).Perm (invoked trace ++ frame.handler.toList ++
      (queueHandlers queue ++ taskHandlers tasks)) := by
  have all := holds.all
  rw [queueHandlers_front front] at all
  rw [List.append_assoc, ← List.append_assoc _ _ (taskHandlers _)]
  exact all

/-- It is the first one that is waiting. -/
theorem front_order (holds : Handlers calls session tasks trace) {frame : OutgoingFrame ℕ}
    {queue : List (OutgoingFrame ℕ)} (front : session.writeQueue = frame :: queue) :
    (invoked trace ++ frame.handler.toList).filter (· ∈ queuedHandlers trace) ++ queueHandlers queue =
      queuedHandlers trace := by
  have handlers := queueHandlers_front front
  have kept : frame.handler.toList.filter (· ∈ queuedHandlers trace) = frame.handler.toList := by
    refine List.filter_eq_self.mpr fun number member => ?_
    rw [← holds.order, handlers]
    simp [member]
  rw [List.filter_append, kept, List.append_assoc, ← handlers]
  exact holds.order

/-- A posted task's handler is nowhere else. -/
theorem posted_unique (holds : Handlers calls session tasks trace) {index : ℕ}
    {message : RpcMessage} {number : ℕ}
    (posted : tasks[index]? = some (.send message (some number))) :
    number ∉ invoked trace ∧ number ∉ queueHandlers session.writeQueue ∧
      number ∉ taskHandlers (tasks.eraseIdx index) := by
  have perm := holds.all.trans
    (List.Perm.append_left _ (List.Perm.append_left _ (taskHandlers_eraseIdx posted)))
  have nodup := perm.nodup_iff.mp (given_nodup calls)
  obtain ⟨_, inner, apart⟩ := List.nodup_append.mp nodup
  obtain ⟨_, tail, apart'⟩ := List.nodup_append.mp inner
  refine ⟨fun member => apart number member number ?_ rfl, fun member => apart' number member number ?_ rfl,
    (List.nodup_cons.mp tail).1⟩
  · exact List.mem_append_right _ (List.mem_append_left _ (List.mem_singleton.mpr rfl))
  · exact List.mem_append_left _ (List.mem_singleton.mpr rfl)

theorem mem_taskHandlers {message : RpcMessage} {number : ℕ}
    (member : .send message (some number) ∈ tasks) : number ∈ taskHandlers tasks :=
  List.mem_flatMap.mpr ⟨_, member, by simp⟩

theorem mem_queueHandlers {queue : List (OutgoingFrame ℕ)} {frame : OutgoingFrame ℕ} {number : ℕ}
    (member : frame ∈ queue) (mine : frame.handler = some number) : number ∈ queueHandlers queue :=
  List.mem_flatMap.mpr ⟨frame, member, by simp [mine]⟩

/-- A handler invoked in this step is one of those that the step adds. -/
theorem told_append {handler : Option ℕ} {error : ErrorCode} {number : ℕ} {error' : ErrorCode}
    (told : .write number error' ∈ trace ++ Session.invoke handler error) :
    .write number error' ∈ trace ∨ handler = some number ∧ error' = error := by
  rcases List.mem_append.mp told with old | new
  · exact Or.inl old
  · cases handler with
    | none => cases new
    | some other =>
        obtain ⟨rfl, rfl⟩ := Effect.write.inj (List.mem_singleton.mp new)
        exact Or.inr ⟨rfl, rfl⟩

/-- A move that touches no handler and writes nothing. -/
theorem neutral (holds : Handlers calls session tasks trace) (noWrite : invoked effects = [])
    (noFrame : queuedHandlers effects = []) (nothing : ∀ number, acceptedFor number effects = [])
    (sameQueue : session'.writeQueue = session.writeQueue)
    (failing : session'.control ≠ .failLoop .success) :
    Handlers calls session' tasks (trace ++ effects) := by
  constructor
  case all => simpa [noWrite, sameQueue] using holds.all
  case order => simpa [noWrite, noFrame, sameQueue] using holds.order
  case fresh =>
    intro number later
    simpa [nothing] using holds.fresh number later
  case waiting =>
    intro message number member
    simpa [nothing] using holds.waiting message number member
  case sending =>
    rw [sameQueue]
    simpa [nothing] using holds.sending
  case told =>
    intro number error member
    rcases List.mem_append.mp member with old | new
    · simpa [nothing] using holds.told number error old
    · have : number ∈ invoked effects := mem_invoked.mpr ⟨error, new⟩
      rw [noWrite] at this
      cases this
  case failing => exact failing

/-- The loop takes out a task of `close`. -/
theorem forget (holds : Handlers calls session tasks trace) {index : ℕ}
    (posted : tasks[index]? = some .close) : Handlers calls session (tasks.eraseIdx index) trace where
  all := holds.all.trans
    (List.Perm.append_left _ (List.Perm.append_left _ (taskHandlers_eraseIdx posted)))
  order := holds.order
  fresh := holds.fresh
  waiting message number member := holds.waiting message number (List.mem_of_mem_eraseIdx member)
  sending := holds.sending
  told := holds.told
  failing := holds.failing

/-- The task of `send` finds the session closed. -/
theorem discard (holds : Handlers calls session tasks trace) {index : ℕ} {message : RpcMessage}
    {handler : Option ℕ} (posted : tasks[index]? = some (.send message handler)) {error : ErrorCode}
    (failed : error ≠ .success) :
    Handlers calls session (tasks.eraseIdx index) (trace ++ Session.invoke handler error) := by
  have unique {number : ℕ} (mine : handler = some number) :
      number ∉ queuedHandlers trace := by
    subst mine
    obtain ⟨notInvoked, notQueued, _⟩ := holds.posted_unique posted
    exact fun queued => (holds.mem_queued queued).elim notInvoked notQueued
  constructor
  case all =>
    refine (holds.all.trans
      (List.Perm.append_left _ (List.Perm.append_left _ (taskHandlers_eraseIdx posted)))).trans ?_
    rw [invoked_append, invoked_invoke, List.append_assoc]
    refine List.Perm.append_left _ ?_
    rw [← List.append_assoc, ← List.append_assoc]
    refine List.Perm.append_right _ ?_
    simpa [taskHandlers] using List.perm_append_comm
  case order =>
    rw [invoked_append, invoked_invoke, queuedHandlers_append, queuedHandlers_invoke, List.append_nil,
      List.filter_append]
    have none : handler.toList.filter (· ∈ queuedHandlers trace) = [] := by
      cases handler with
      | none => rfl
      | some number => simp [unique rfl]
    rw [none, List.append_nil]
    exact holds.order
  case fresh => simpa using holds.fresh
  case waiting =>
    intro message' number member
    simpa using holds.waiting message' number (List.mem_of_mem_eraseIdx member)
  case sending => simpa using holds.sending
  case told =>
    intro number error' member
    rcases told_append member with old | ⟨rfl, rfl⟩
    · simpa using holds.told number error' old
    · obtain ⟨called, nothing⟩ := holds.waiting message number (List.mem_of_getElem? posted)
      refine ⟨message, called, ?_⟩
      rw [acceptedFor_append, acceptedFor_invoke, List.append_nil, nothing]
      exact ⟨fun same => absurd same failed, fun same => absurd same.symm (frameOf_ne_nil message)⟩
  case failing => exact holds.failing

/-- The task of `send` queues its frame. -/
theorem enqueue (holds : Handlers calls session tasks trace) {index : ℕ} {message : RpcMessage}
    {handler : Option ℕ} (posted : tasks[index]? = some (.send message handler))
    (queue : session'.writeQueue =
      session.writeQueue ++ [{ bytes := frameOf message, handler := handler }])
    (failing : session'.control ≠ .failLoop .success) :
    Handlers calls session' (tasks.eraseIdx index) (trace ++ [Effect.queued (frameOf message) handler]) := by
  have noWrite : invoked [(.queued (frameOf message) handler : Effect ℕ)] = [] := rfl
  have queued : queuedHandlers [(.queued (frameOf message) handler : Effect ℕ)] = handler.toList := by
    simp [queuedHandlers]
  have nothing (number : ℕ) :
      acceptedFor number [(.queued (frameOf message) handler : Effect ℕ)] = [] := rfl
  have handlers : queueHandlers session'.writeQueue =
      queueHandlers session.writeQueue ++ handler.toList := by
    simp [queue, queueHandlers]
  constructor
  case all =>
    refine (holds.all.trans
      (List.Perm.append_left _ (List.Perm.append_left _ (taskHandlers_eraseIdx posted)))).trans ?_
    rw [invoked_append, noWrite, List.append_nil, handlers, List.append_assoc]
    simp [taskHandlers]
  case order =>
    rw [invoked_append, noWrite, List.append_nil, queuedHandlers_append, queued, handlers,
      ← List.append_assoc]
    congr 1
    rw [← holds.order]
    congr 1
    refine List.filter_congr fun number member => ?_
    rw [holds.order]
    cases handler with
    | none => simp
    | some other =>
        have different : number ≠ other := by
          rintro rfl
          exact (holds.posted_unique posted).1 member
        simp [different]
  case fresh => simpa [nothing] using holds.fresh
  case waiting =>
    intro message' number member
    simpa [nothing] using holds.waiting message' number (List.mem_of_mem_eraseIdx member)
  case sending =>
    intro frame member
    rw [queue] at member
    rcases List.mem_append.mp member with old | new
    · simpa [nothing] using holds.sending frame old
    · obtain rfl := List.mem_singleton.mp new
      refine ⟨List.length_pos_iff.mpr (frameOf_ne_nil message), ?_⟩
      rintro number rfl
      obtain ⟨called, empty⟩ := holds.waiting message number (List.mem_of_getElem? posted)
      exact ⟨message, called, rfl, by simp [nothing, empty]⟩
  case told =>
    intro number error member
    have old : .write number error ∈ trace := by simpa using member
    simpa [nothing] using holds.told number error old
  case failing => exact failing

/-- The front frame's handler is told an error. -/
theorem pop (holds : Handlers calls session tasks trace) {frame : OutgoingFrame ℕ}
    {queue : List (OutgoingFrame ℕ)} (front : session.writeQueue = frame :: queue)
    {error : ErrorCode} (failed : error ≠ .success) (rest : session'.writeQueue = queue)
    (failing : session'.control ≠ .failLoop .success) :
    Handlers calls session' tasks (trace ++ Session.invoke frame.handler error) := by
  constructor
  case all =>
    rw [invoked_append, invoked_invoke, rest]
    exact holds.front_all front
  case order =>
    rw [invoked_append, invoked_invoke, queuedHandlers_append, queuedHandlers_invoke, List.append_nil, rest]
    exact holds.front_order front
  case fresh => simpa using holds.fresh
  case waiting => simpa using holds.waiting
  case sending =>
    intro other member
    rw [rest] at member
    simpa using holds.sending other (by rw [front]; exact List.mem_cons_of_mem _ member)
  case told =>
    intro number error' member
    rcases told_append member with old | ⟨mine, rfl⟩
    · simpa using holds.told number error' old
    · obtain ⟨unfinished, known⟩ := holds.sending frame (by rw [front]; exact List.mem_cons_self)
      obtain ⟨message, called, bytes, part⟩ := known number mine
      refine ⟨message, called, fun same => absurd same failed, fun whole => ?_⟩
      rw [acceptedFor_append, acceptedFor_invoke, List.append_nil, part, ← bytes] at whole
      have := congrArg List.length whole
      rw [List.length_take] at this
      omega
  case failing => exact failing

/-- The kernel takes bytes of the front frame: what it has taken for the other calls stays. -/
theorem accept_other (holds : Handlers calls session tasks trace) {frame : OutgoingFrame ℕ}
    {queue : List (OutgoingFrame ℕ)} (front : session.writeQueue = frame :: queue) {bytes : List UInt8} :
    (∀ number, calls.length ≤ number →
      acceptedFor number (trace ++ [Effect.accepted bytes frame.handler]) = []) ∧
    (∀ message number, .send message (some number) ∈ tasks → Called calls number message ∧
      acceptedFor number (trace ++ [Effect.accepted bytes frame.handler]) = []) ∧
    (∀ other ∈ queue, other.written < other.bytes.length ∧
      ∀ number, other.handler = some number → ∃ message, Called calls number message ∧
        other.bytes = frameOf message ∧
        acceptedFor number (trace ++ [Effect.accepted bytes frame.handler]) =
          other.bytes.take other.written) ∧
    ∀ number error, .write number error ∈ trace → ∃ message, Called calls number message ∧
      (error = .success ↔
        acceptedFor number (trace ++ [Effect.accepted bytes frame.handler]) = frameOf message) := by
  have kept {number : ℕ} (different : frame.handler ≠ some number) :
      acceptedFor number (trace ++ [Effect.accepted bytes frame.handler]) = acceptedFor number trace := by
    simp [acceptedFor, different]
  refine ⟨fun number later => ?_, fun message number member => ?_, fun other member => ?_,
    fun number error member => ?_⟩
  · rw [kept]
    · exact holds.fresh number later
    · intro mine
      obtain ⟨_, known⟩ := holds.sending frame (by rw [front]; exact List.mem_cons_self)
      obtain ⟨message, called, _⟩ := known number mine
      have := (List.getElem?_eq_some_iff.mp called).1
      omega
  · rw [kept fun mine => (holds.front_unique front mine).2.2 (mem_taskHandlers member)]
    exact holds.waiting message number member
  · obtain ⟨unfinished, known⟩ :=
      holds.sending other (by rw [front]; exact List.mem_cons_of_mem _ member)
    refine ⟨unfinished, fun number mine => ?_⟩
    rw [kept fun same => (holds.front_unique front same).2.1 (mem_queueHandlers member mine)]
    exact known number mine
  · rw [kept fun mine => (holds.front_unique front mine).1 (mem_invoked.mpr ⟨error, member⟩)]
    exact holds.told number error member

/-- The kernel takes a part of what is left of the front frame. -/
theorem writePart (holds : Handlers calls session tasks trace) {frame : OutgoingFrame ℕ}
    {queue : List (OutgoingFrame ℕ)} (front : session.writeQueue = frame :: queue) {count : ℕ}
    (part : frame.written + count < frame.bytes.length)
    (rest : session'.writeQueue = { frame with written := frame.written + count } :: queue)
    (failing : session'.control ≠ .failLoop .success) :
    Handlers calls session' tasks
      (trace ++ [Effect.accepted ((frame.bytes.drop frame.written).take count) frame.handler]) := by
  obtain ⟨fresh, waiting, sending, told⟩ := holds.accept_other front
  have handlers : queueHandlers session'.writeQueue = queueHandlers session.writeQueue := by
    rw [rest, front]
    rfl
  constructor
  case all =>
    rw [invoked_append, handlers]
    simpa [invoked] using holds.all
  case order =>
    rw [invoked_append, queuedHandlers_append, handlers]
    simpa [invoked, queuedHandlers] using holds.order
  case fresh => exact fresh
  case waiting => exact waiting
  case sending =>
    rw [rest]
    refine List.forall_mem_cons.mpr ⟨⟨part, fun number mine => ?_⟩, sending⟩
    obtain ⟨_, known⟩ := holds.sending frame (by rw [front]; exact List.mem_cons_self)
    obtain ⟨message, called, bytes, before⟩ := known number mine
    refine ⟨message, called, bytes, ?_⟩
    rw [acceptedFor_append, before, acceptedFor_accepted mine, List.take_add]
  case told =>
    intro number error member
    exact told number error (by simpa using member)
  case failing => exact failing

/-- The kernel takes all that is left of the front frame, and its handler is told `success`. -/
theorem writeAll (holds : Handlers calls session tasks trace) {frame : OutgoingFrame ℕ}
    {queue : List (OutgoingFrame ℕ)} (front : session.writeQueue = frame :: queue) {count : ℕ}
    (whole : frame.written + count = frame.bytes.length) (rest : session'.writeQueue = queue)
    (failing : session'.control ≠ .failLoop .success) :
    Handlers calls session' tasks
      (trace ++ .accepted ((frame.bytes.drop frame.written).take count) frame.handler ::
        Session.invoke frame.handler .success) := by
  obtain ⟨fresh, waiting, sending, told⟩ := holds.accept_other front
  have nothing (bytes : List UInt8) :
      invoked [(.accepted bytes frame.handler : Effect ℕ)] = [] := rfl
  have noFrame (bytes : List UInt8) :
      queuedHandlers [(.accepted bytes frame.handler : Effect ℕ)] = [] := rfl
  rw [List.append_cons]
  constructor
  case all =>
    rw [invoked_append, invoked_append, nothing, List.append_nil, invoked_invoke, rest]
    exact holds.front_all front
  case order =>
    rw [invoked_append, invoked_append, nothing, List.append_nil, invoked_invoke, queuedHandlers_append,
      queuedHandlers_append, noFrame, List.append_nil, queuedHandlers_invoke, List.append_nil, rest]
    exact holds.front_order front
  case fresh =>
    intro number later
    rw [acceptedFor_append, acceptedFor_invoke, List.append_nil]
    exact fresh number later
  case waiting =>
    intro message number member
    rw [acceptedFor_append, acceptedFor_invoke, List.append_nil]
    exact waiting message number member
  case sending =>
    intro other member
    rw [rest] at member
    simpa only [acceptedFor_append, acceptedFor_invoke, List.append_nil] using sending other member
  case told =>
    intro number error member
    rw [acceptedFor_append, acceptedFor_invoke, List.append_nil]
    rcases told_append member with old | ⟨mine, rfl⟩
    · exact told number error (by simpa using old)
    · obtain ⟨_, known⟩ := holds.sending frame (by rw [front]; exact List.mem_cons_self)
      obtain ⟨message, called, bytes, before⟩ := known number mine
      refine ⟨message, called, fun _ => ?_, fun _ => rfl⟩
      rw [acceptedFor_append, before, acceptedFor_accepted mine, ← List.take_add, whole,
        List.take_length, bytes]
  case failing => exact failing

/-- No move makes a session fail with `success`. -/
theorem not_failing (holds : Handlers calls session tasks trace) {action : Action ℕ}
    (moves : Session.Moves session action session' effects) :
    session'.control ≠ .failLoop .success := by
  intro failing
  rcases moves.to_failLoop failing with before | entered
  · exact holds.failing before
  · rcases moves.failed_cause entered with ⟨code, impossible, _⟩ | impossible | impossible <;>
      cases impossible

/-- **Every move that is not a task keeps the invariant.** -/
theorem step_inside (holds : Handlers calls session tasks trace) {action : Action ℕ}
    (notTask : action.fromTask = false) (moves : Session.Moves session action session' effects) :
    Handlers calls session' tasks (trace ++ effects) := by
  have failing := holds.not_failing moves
  cases moves with
  | dropped | queued | ignored => cases notTask
  | jump opened jump =>
      refine holds.neutral ?_ ?_ ?_ rfl failing
      · rcases jump.effects_eq with rfl | rfl <;> rfl
      · rcases jump.effects_eq with rfl | rfl <;> rfl
      · rcases jump.effects_eq with rfl | rfl <;> exact fun _ => rfl
  | closing opened cause =>
      refine holds.neutral ?_ ?_ ?_ rfl failing
      · cases cause <;> rfl
      · cases cause <;> rfl
      · cases cause <;> exact fun _ => rfl
  | wrotePart inLoop front positive part => exact holds.writePart front part rfl failing
  | wroteAll inLoop front positive whole next => exact holds.writeAll front whole rfl failing
  | failedFrame inLoop front =>
      refine holds.pop front ?_ rfl failing
      rintro rfl
      exact holds.failing inLoop
  | closedFrame inLoop front => exact holds.pop front (by simp) rfl failing
  | _ => exact holds.neutral rfl rfl (fun _ => rfl) rfl failing

/-- **A task's move keeps the invariant.** -/
theorem step_task (holds : Handlers calls session tasks trace) {index : ℕ} {task : Task ℕ}
    (posted : tasks[index]? = some task)
    (moves : Session.Moves session task.action session' effects) :
    Handlers calls session' (tasks.eraseIdx index) (trace ++ effects) := by
  have failing := holds.not_failing moves
  cases task with
  | send message handler =>
      cases moves with
      | dropped idle closed => exact holds.discard posted (by simp)
      | queued idle opened => exact holds.enqueue posted rfl failing
      | jump opened jump => cases jump
      | socketError inLoop => rcases inLoop with ⟨_, _, same⟩ | ⟨_, _, same⟩ <;> cases same
      | closing opened cause => cases cause
  | close =>
      have forgotten := holds.forget posted
      cases moves with
      | ignored idle closed => simpa using forgotten
      | jump opened jump => cases jump
      | socketError inLoop => rcases inLoop with ⟨_, _, same⟩ | ⟨_, _, same⟩ <;> cases same
      | closing opened cause =>
          cases cause
          exact forgotten.neutral rfl rfl (fun _ => rfl) rfl failing

theorem fresh_number (calls : List (RpcMessage × Bool)) : calls.length ∉ given calls := by
  intro member
  obtain ⟨message, called⟩ := mem_given.mp member
  exact absurd (List.getElem?_eq_some_iff.mp called).1 (lt_irrefl _)

/-- The next call's number has not entered the queue. -/
theorem fresh_queued (holds : Handlers calls session tasks trace) :
    calls.length ∉ queuedHandlers trace := by
  intro queued
  refine fresh_number calls (holds.all.mem_iff.mpr ?_)
  rcases holds.mem_queued queued with out | still
  · exact List.mem_append_left _ out
  · exact List.mem_append_right _ (List.mem_append_left _ still)

theorem called_handlerOf {message : RpcMessage} {withHandler : Bool} {number : ℕ}
    (mine : Calls.handlerOf calls withHandler = some number) :
    number = calls.length ∧ Called (calls ++ [(message, withHandler)]) number message := by
  cases withHandler with
  | false => cases mine
  | true =>
      obtain rfl : calls.length = number := Option.some.inj mine
      exact ⟨rfl, List.getElem?_concat_length⟩

/-- What is known of the calls stays known when there is one more. -/
theorem sending_append (holds : Handlers calls session tasks trace) (call : RpcMessage × Bool) :
    ∀ frame ∈ session.writeQueue, frame.written < frame.bytes.length ∧
      ∀ number, frame.handler = some number → ∃ message, Called (calls ++ [call]) number message ∧
        frame.bytes = frameOf message ∧ acceptedFor number trace = frame.bytes.take frame.written := by
  intro frame member
  obtain ⟨unfinished, known⟩ := holds.sending frame member
  refine ⟨unfinished, fun number mine => ?_⟩
  obtain ⟨message, called, sent⟩ := known number mine
  exact ⟨message, called.append _, sent⟩

theorem told_mono (holds : Handlers calls session tasks trace) (call : RpcMessage × Bool) {number : ℕ}
    {error : ErrorCode} (told : .write number error ∈ trace) :
    ∃ message, Called (calls ++ [call]) number message ∧
      (error = .success ↔ acceptedFor number trace = frameOf message) := by
  obtain ⟨message, called, truth⟩ := holds.told number error told
  exact ⟨message, called.append _, truth⟩

/-- `send` rejects the message. -/
theorem reject (holds : Handlers calls session tasks trace) (message : RpcMessage)
    (withHandler : Bool) :
    Handlers (calls ++ [(message, withHandler)]) session tasks
      (trace ++ Session.invoke (Calls.handlerOf calls withHandler) .messageSize) := by
  constructor
  case all =>
    rw [given_append, invoked_append, invoked_invoke, List.append_assoc]
    refine (holds.all.append_right _).trans ?_
    rw [List.append_assoc]
    exact List.Perm.append_left _ List.perm_append_comm
  case order =>
    rw [invoked_append, invoked_invoke, queuedHandlers_append, queuedHandlers_invoke, List.append_nil,
      List.filter_append]
    have none : (Calls.handlerOf calls withHandler).toList.filter (· ∈ queuedHandlers trace) = [] := by
      cases withHandler with
      | false => rfl
      | true => simp [Calls.handlerOf, holds.fresh_queued]
    rw [none, List.append_nil]
    exact holds.order
  case fresh =>
    intro number later
    rw [List.length_append] at later
    simpa using holds.fresh number (by omega)
  case waiting =>
    intro other number member
    obtain ⟨called, nothing⟩ := holds.waiting other number member
    exact ⟨called.append _, by simpa using nothing⟩
  case sending => simpa using holds.sending_append (message, withHandler)
  case told =>
    intro number error member
    rw [acceptedFor_append, acceptedFor_invoke, List.append_nil]
    rcases told_append member with old | ⟨mine, rfl⟩
    · exact holds.told_mono _ old
    · obtain ⟨rfl, called⟩ := called_handlerOf mine
      refine ⟨message, called, ?_⟩
      rw [holds.fresh _ le_rfl]
      exact ⟨nofun, fun same => absurd same.symm (frameOf_ne_nil message)⟩
  case failing => exact holds.failing

/-- `send` posts its task. -/
theorem post (holds : Handlers calls session tasks trace) (message : RpcMessage)
    (withHandler : Bool) :
    Handlers (calls ++ [(message, withHandler)]) session
      (tasks ++ [Task.send message (Calls.handlerOf calls withHandler)]) trace := by
  constructor
  case all =>
    rw [given_append, taskHandlers_append]
    simpa [taskHandlers] using holds.all.append_right (Calls.handlerOf calls withHandler).toList
  case order => exact holds.order
  case fresh =>
    intro number later
    rw [List.length_append] at later
    exact holds.fresh number (by omega)
  case waiting =>
    intro other number member
    rcases List.mem_append.mp member with old | new
    · obtain ⟨called, nothing⟩ := holds.waiting other number old
      exact ⟨called.append _, nothing⟩
    · obtain ⟨rfl, mine⟩ := Task.send.inj (List.mem_singleton.mp new)
      obtain ⟨rfl, called⟩ := called_handlerOf mine.symm
      exact ⟨called, holds.fresh _ le_rfl⟩
  case sending => exact holds.sending_append _
  case told => exact fun number error => holds.told_mono _
  case failing => exact holds.failing

/-- A call's handler in the queue, or in a posted task, has not been told of a whole frame. -/
theorem unsent (holds : Handlers calls session tasks trace) {number : ℕ} {message : RpcMessage}
    (called : Called calls number message)
    (waits : number ∈ queueHandlers session.writeQueue ++ taskHandlers tasks) :
    acceptedFor number trace ≠ frameOf message := by
  intro whole
  rcases List.mem_append.mp waits with sending | posted
  · obtain ⟨frame, member, mine⟩ := List.mem_flatMap.mp sending
    obtain ⟨unfinished, known⟩ := holds.sending frame member
    obtain ⟨other, also, bytes, part⟩ := known number (by simpa using mine)
    rw [part, ← also.unique called, ← bytes] at whole
    have := congrArg List.length whole
    rw [List.length_take] at this
    omega
  · obtain ⟨task, member, mine⟩ := List.mem_flatMap.mp posted
    cases task with
    | send other handler =>
        obtain rfl : handler = some number := by simpa using mine
        rw [(holds.waiting other number member).2] at whole
        exact absurd whole.symm (frameOf_ne_nil message)
    | close => cases mine

/-- **`success` means that the whole frame was accepted.** -/
theorem success_iff (holds : Handlers calls session tasks trace) {number : ℕ} {message : RpcMessage}
    (called : Called calls number message) :
    .write number .success ∈ trace ↔ acceptedFor number trace = frameOf message := by
  constructor
  · intro told
    obtain ⟨other, also, truth⟩ := holds.told number .success told
    rw [also.unique called] at truth
    exact truth.mp rfl
  · intro whole
    have member : number ∈ given calls := mem_given.mpr ⟨message, called⟩
    have told := (List.mem_append.mp (holds.all.mem_iff.mp member)).resolve_right
      fun waits => holds.unsent called waits whole
    obtain ⟨error, told⟩ := mem_invoked.mp told
    obtain ⟨other, also, truth⟩ := holds.told number error told
    rw [also.unique called] at truth
    rwa [truth.mpr whole] at told

end Handlers

/-! ### Runs -/

/-- The invariant of numbered calls. -/
structure Calls.Good (state : Calls) : Prop where
  wf : state.endpoint.session.Wf
  handlers : Handlers state.calls state.endpoint.session state.endpoint.tasks state.endpoint.trace

theorem Calls.Good.step {state state' : Calls} {label : Calls.Label} (holds : state.Good)
    (stepped : Calls.machine.step state label = some state') : state'.Good := by
  obtain ⟨endpoint, moved, rfl⟩ := Option.map_eq_some_iff.mp stepped
  obtain ⟨effects, moves⟩ := Endpoint.machine_step moved holds.wf
  refine ⟨moves.wf holds.wf, ?_⟩
  cases label with
  | send message withHandler =>
      cases moves with
      | rejected large => exact holds.handlers.reject message withHandler
      | posted small => exact holds.handlers.post message withHandler
  | close =>
      cases moves with
      | closePosted =>
          have same : taskHandlers (state.endpoint.tasks ++ [Task.close]) =
              taskHandlers state.endpoint.tasks := by
            rw [taskHandlers_append]
            exact List.append_nil _
          obtain ⟨all, order, fresh, waiting, sending, told, failing⟩ := holds.handlers
          refine ⟨by rw [same]; exact all, order, fresh, fun message number member => ?_, sending, told,
            failing⟩
          rcases List.mem_append.mp member with old | new
          · exact waiting message number old
          · cases List.mem_singleton.mp new
  | run index =>
      cases moves with
      | ran posted moves => exact holds.handlers.step_task posted moves
  | session action =>
      cases moves with
      | inside notTask moves => exact holds.handlers.step_inside notTask moves

/-- **Along every run the invariant holds.** -/
theorem Calls.run_good {fd : ℕ} {labels : List Calls.Label} {final : Calls}
    (ran : Calls.machine.run (Calls.started fd) labels = some final) : final.Good :=
  Machine.invariant_run Calls.Good (fun holds stepped => holds.step stepped)
    ⟨Session.started_wf fd, started_handlers fd⟩ ran

/-- **The write handler protocol.** In every state reached by a run: no write handler is invoked twice;
between callbacks, once the session is closed and no posted task is left, every write handler given has
been invoked exactly once; a call's write handler has been told `success`
exactly if the kernel has accepted its whole frame; and the handlers of the frames queued are invoked in
the order in which the frames were queued. -/
theorem write_handler_protocol {fd : ℕ} {labels : List Calls.Label} {final : Calls}
    (ran : Calls.machine.run (Calls.started fd) labels = some final) :
    (∀ number, (invoked final.endpoint.trace).count number ≤ 1) ∧
    (final.endpoint.session.open_ = false → final.endpoint.session.control = .idle →
      final.endpoint.tasks = [] →
        ∀ number message, final.calls[number]? = some (message, true) →
          (invoked final.endpoint.trace).count number = 1) ∧
    (∀ number message, final.calls[number]? = some (message, true) →
      (.write number .success ∈ final.endpoint.trace ↔
        acceptedFor number final.endpoint.trace = frameOf message)) ∧
    (invoked final.endpoint.trace).filter (· ∈ queuedHandlers final.endpoint.trace) <+:
      queuedHandlers final.endpoint.trace := by
  obtain ⟨wf, holds⟩ := Calls.run_good ran
  have nodup : (invoked final.endpoint.trace).Nodup := (List.nodup_append.mp holds.nodup).1
  refine ⟨fun number => List.nodup_iff_count_le_one.mp nodup number, ?_, ?_, ?_⟩
  · intro closed between noTasks number message called
    have member : number ∈ given final.calls := mem_given.mpr ⟨message, called⟩
    have all := holds.all.mem_iff.mp member
    rw [wf.drained closed between, noTasks] at all
    exact List.count_eq_one_of_mem nodup (by simpa [queueHandlers, taskHandlers] using all)
  · exact fun number message called => holds.success_iff called
  · exact ⟨_, holds.order⟩

/-- One frame is written whole; the close overtakes the task of the second. -/
def writtenAndDropped : List Calls.Label :=
  [.send {} true, .send { id := 1 } true, .run 0, .session (.modify .ok),
    .session (.send (.accepted 1)), .session (.send (.error .eintr)), .session (.send (.accepted 3)),
    .session (.modify .ok), .close, .run 1, .session .drain, .run 0]

theorem writtenAndDropped_told :
    ∃ final, Calls.machine.run (Calls.started 5) writtenAndDropped = some final ∧
      (invoked final.endpoint.trace).count 1 = 1 ∧
      acceptedFor 0 final.endpoint.trace = frameOf {} := by
  obtain ⟨final, ran, closed, between, noTasks, called, told⟩ :
      ∃ final, Calls.machine.run (Calls.started 5) writtenAndDropped = some final ∧
        final.endpoint.session.open_ = false ∧ final.endpoint.session.control = .idle ∧
        final.endpoint.tasks = [] ∧ final.calls = [({}, true), ({ id := 1 }, true)] ∧
        .write 0 .success ∈ final.endpoint.trace := by
    refine ⟨(Calls.machine.run (Calls.started 5) writtenAndDropped).get (by decide +kernel),
      (Option.some_get _).symm, ?_⟩
    decide +kernel
  obtain ⟨_, once, success, _⟩ := write_handler_protocol ran
  refine ⟨final, ran, once closed between noTasks 1 { id := 1 } (by rw [called]; rfl), ?_⟩
  exact (success 0 {} (by rw [called]; rfl)).mp told

end Insist.MiniRpc
