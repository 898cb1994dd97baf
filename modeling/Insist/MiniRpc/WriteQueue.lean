/-
**The write queue and `EPOLLOUT`.**

The queue is changed by posted sends, by the kernel's answers and by failures, and `update_events` is
called at another point of each of these paths. What holds of the queue holds at every point of the
code; what holds of the interest set is broken inside of a callback and restored before its end.

* `Pending` — no queued frame is finished, and only the front one is begun; `push`, `part` and `tail`
  are the three things that happen to a queue;
* `Control.settled` — the points of the code after which no `update_events` has to come;
* `Armed` — the invariant: at these points an open session's interest is what `update_events` would ask
  for now. `Moves.armed` is its step lemma, for calls of `epoll_ctl(MOD)` that succeed;
* **`write_queue_armed`** — along every run: no finished frame is queued, only the front one is begun,
  `::send` gets at least one byte, and between callbacks an open session asks for `EPOLLOUT` exactly
  when its queue is not empty.

A `MOD` that fails without throwing leaves the old interest in the set, so its success is assumed.
-/
import Insist.MiniRpc.Endpoint

namespace Insist.MiniRpc

open Lib

/-- Between callbacks, or in the reads of one: the queue is as the last `update_events` saw it. -/
def Control.settled : Control → Bool
  | .idle | .recvLoop _ | .parseLoop _ => true
  | _ => false

/-- A queued frame has bytes, and `epoll_ctl(MOD)` succeeds. -/
def Action.Sound {H : Type} : Action H → Prop
  | .sendTask frame _ => frame ≠ []
  | .modify result => result = .ok
  | _ => True

/-- If the label is an answer of `epoll_ctl(MOD)`, it is a success. -/
def Endpoint.Label.modifySucceeds {H : Type} : Endpoint.Label H → Bool
  | .session (.modify result) => result = .ok
  | _ => true

/-- What holds of `write_queue_`. -/
structure Pending {H : Type} (queue : List (OutgoingFrame H)) : Prop where
  unfinished : ∀ frame ∈ queue, frame.written < frame.bytes.length
  untouched : ∀ frame ∈ queue.tail, frame.written = 0

namespace Pending

variable {H : Type} {queue : List (OutgoingFrame H)} {frame : OutgoingFrame H}

theorem nil : Pending ([] : List (OutgoingFrame H)) := ⟨by simp, by simp⟩

/-- The task of `send` puts a frame at the end. -/
theorem push (holds : Pending queue) {bytes : List UInt8} (nonempty : bytes ≠ [])
    (handler : Option H) : Pending (queue ++ [{ bytes := bytes, handler := handler }]) := by
  constructor
  · intro frame member
    rcases List.mem_append.mp member with old | new
    · exact holds.unfinished frame old
    · rw [List.mem_singleton.mp new]
      exact List.length_pos_of_ne_nil nonempty
  · intro frame member
    cases queue with
    | nil => simp at member
    | cons front queue =>
        rcases List.mem_append.mp member with old | new
        · exact holds.untouched frame old
        · rw [List.mem_singleton.mp new]

/-- The kernel takes a part of the front frame. -/
theorem part (holds : Pending (frame :: queue)) {count : ℕ}
    (part : frame.written + count < frame.bytes.length) :
    Pending ({ frame with written := frame.written + count } :: queue) := by
  refine ⟨fun other member => ?_, holds.untouched⟩
  rcases List.mem_cons.mp member with rfl | behind
  · exact part
  · exact holds.unfinished other (List.mem_cons_of_mem _ behind)

/-- The front frame leaves. -/
theorem tail (holds : Pending (frame :: queue)) : Pending queue where
  unfinished other member := holds.unfinished other (List.mem_cons_of_mem _ member)
  untouched other member := holds.untouched other (List.mem_of_mem_tail member)

end Pending

namespace Session

variable {H : Type} {session session' : Session H} {action : Action H} {effects : List (Effect H)}

/-- The invariant of the queue and of the interest set. -/
structure Armed (session : Session H) : Prop where
  queue : Pending session.writeQueue
  registered : session.open_ = true → session.registered = true
  interest : session.open_ = true → session.control.settled = true →
    session.interest = some session.wantedEvents

theorem started_armed (fd : ℕ) : (started fd : Session H).Armed where
  queue := .nil
  registered _ := rfl
  interest _ _ := rfl

/-- A jump to a point that no `update_events` follows comes from such a point. -/
theorem Jump.settled {control : Control} (jump : Jump session action control effects)
    (settled : control.settled = true) : session.control.settled = true := by
  cases jump with
  | sendInterrupted inLoop queued => cases settled
  | sendBlocked inLoop => cases settled
  | enterRead idle readable => rw [idle]; rfl
  | skipRead idle unreadable next => rw [idle]; rfl
  | recvInterrupted inLoop => rw [inLoop]; rfl
  | recvBlocked inLoop => rw [inLoop]; rfl
  | parsedAll inLoop popped next => rw [inLoop]; rfl

namespace Armed

/-- Elsewhere the interest is not looked at. -/
theorem unsettled (holds : Armed session) {queue : List (OutgoingFrame H)} {control : Control}
    (pending : Pending queue) (inside : control.settled = false) :
    Armed { session with writeQueue := queue, control := control } where
  queue := pending
  registered := holds.registered
  interest _ settled := by rw [inside] at settled; cases settled

/-- A closed session is not in the interest set. -/
theorem of_closed (closed : session.open_ = false) (pending : Pending session.writeQueue) :
    Armed session where
  queue := pending
  registered opened := by rw [closed] at opened; cases opened
  interest opened := by rw [closed] at opened; cases opened

/-- A move that ends at `closing` keeps the queue and leaves the session closed. -/
theorem closing (holds : Armed session) : Armed session.closing := of_closed rfl holds.queue

end Armed

/-- **One step of a session keeps its interest set in line with its queue.** -/
theorem Moves.armed (moves : Moves session action session' effects) (sound : action.Sound)
    (wf : session.Wf) (holds : Armed session) : Armed session' := by
  cases moves with
  | dropped idle closed => exact holds
  | ignored idle closed => exact holds
  | received inLoop nonempty fits => exact ⟨holds.queue, holds.registered, holds.interest⟩
  | delivered inLoop popped decoded => exact ⟨holds.queue, holds.registered, holds.interest⟩
  | jump opened jump =>
      exact ⟨holds.queue, holds.registered,
        fun opened settled => holds.interest opened (jump.settled settled)⟩
  | queued idle opened => exact holds.unsettled (holds.queue.push sound _) rfl
  | undecodable inLoop popped rejected => exact ⟨holds.queue, holds.registered, fun _ => nofun⟩
  | oversized inLoop popped => exact holds.unsettled holds.queue rfl
  | socketError inLoop => exact holds.unsettled holds.queue rfl
  | threw inCode => cases sound
  | closing opened cause => exact holds.closing
  | updatedClosing inCode asked => exact holds.closing
  | wrotePart inLoop front positive part =>
      rw [← control_eta inLoop]
      exact holds.unsettled ((front ▸ holds.queue).part part) rfl
  | wroteAll inLoop front positive whole next =>
      refine holds.unsettled (front ▸ holds.queue).tail ?_
      rcases next with ⟨rfl, _⟩ | ⟨rfl, _⟩ <;> rfl
  | updated inCode told unregistered succeeded next =>
      -- Here the interest set catches up, wherever the code goes on.
      exact ⟨holds.queue, holds.registered,
        fun opened _ => succeeded (holds.registered opened) sound⟩
  | failedFrame inLoop front =>
      rw [← control_eta inLoop]
      exact holds.unsettled (front ▸ holds.queue).tail rfl
  | closedFrame inLoop front =>
      exact .of_closed (wf.closed_of_closeLoop inLoop) (front ▸ holds.queue).tail
  | closedLast inLoop empty => exact .of_closed (wf.closed_of_closeLoop inLoop) holds.queue

/-- The interest of an armed session has `EPOLLOUT` for a queue that is not empty. -/
theorem out_wantedEvents (session : Session H) :
    session.wantedEvents.out = true ↔ session.writeQueue ≠ [] := by
  simp [wantedEvents]

/-- Where `::send` is called, it is called with bytes. -/
theorem Armed.rest_ne_nil (holds : Armed session) (wf : session.Wf) {rdhup : Bool}
    (inLoop : session.control = .writeLoop rdhup) :
    ∃ frame queue, session.writeQueue = frame :: queue ∧ frame.bytes.drop frame.written ≠ [] := by
  obtain ⟨frame, queue, front⟩ := List.exists_cons_of_ne_nil (wf.writing rdhup inLoop)
  refine ⟨frame, queue, front, ?_⟩
  have unfinished := holds.queue.unfinished frame (by rw [front]; exact List.mem_cons_self)
  exact List.drop_eq_nil_iff.not.mpr (by omega)

end Session

namespace Endpoint

variable {H : Type}

/-- A posted task's frame has its header. -/
theorem task_sound (task : Task H) : task.action.Sound := by
  cases task with
  | send message handler => exact frameOf_ne_nil message
  | close => trivial

theorem inside_sound {action : Action H} (notTask : action.fromTask = false)
    (succeeds : (Label.session action).modifySucceeds = true) : action.Sound := by
  cases action with
  | sendTask frame handler => cases notTask
  | modify result =>
      have ok : result = .ok := of_decide_eq_true succeeds
      exact ok
  | _ => trivial

theorem Moves.armed {endpoint endpoint' : Endpoint H} {label : Label H} {effects : List (Effect H)}
    (moves : Moves endpoint label endpoint' effects) (succeeds : label.modifySucceeds = true)
    (wf : endpoint.session.Wf) (holds : endpoint.session.Armed) : endpoint'.session.Armed := by
  cases moves with
  | rejected large => exact holds
  | posted small => exact holds
  | closePosted => exact holds
  | @ran index task session effects posted moves => exact moves.armed (task_sound task) wf holds
  | inside notTask moves => exact moves.armed (inside_sound notTask succeeds) wf holds

/-- **The write queue and the interest set agree.** In every state that a session reaches after its
`start`, with any tasks posted before it and as long as `epoll_ctl(MOD)` succeeds: no queued frame is
finished and only the front one is begun; where `::send` is called, there are bytes to send; and between
callbacks an open session's socket is in the interest set, with `EPOLLOUT` exactly when the queue is not
empty. -/
theorem write_queue_armed {fd : ℕ} {posted : List (Task H)} {labels : List (Label H)}
    {final : Endpoint H} (succeeds : ∀ label ∈ labels, label.modifySucceeds = true)
    (ran : machine.run { session := .started fd, tasks := posted } labels = some final) :
    (∀ frame ∈ final.session.writeQueue, frame.written < frame.bytes.length) ∧
    (∀ frame ∈ final.session.writeQueue.tail, frame.written = 0) ∧
    (∀ rdhup, final.session.control = .writeLoop rdhup →
      ∃ frame queue, final.session.writeQueue = frame :: queue ∧
        frame.bytes.drop frame.written ≠ []) ∧
    (final.session.control = .idle → final.session.open_ = true →
      ∃ events, final.session.interest = some events ∧
        (events.out = true ↔ final.session.writeQueue ≠ [])) := by
  obtain ⟨wf, armed⟩ := run_invariant (fun label => label.modifySucceeds = true)
    (fun endpoint => endpoint.session.Armed)
    (fun wf armed succeeds moves => moves.armed succeeds wf armed)
    (Session.started_wf fd) (Session.started_armed fd) succeeds ran
  refine ⟨armed.queue.unfinished, armed.queue.untouched, fun rdhup => armed.rest_ne_nil wf, ?_⟩
  intro between opened
  exact ⟨_, armed.interest opened (by rw [between]; rfl), final.session.out_wantedEvents⟩

/-- A task posted before the start and one posted after it; the kernel takes the first frame whole, a
part of the second, and then blocks. -/
def blockedHalfway : List (Label ℕ) :=
  [.send { id := 1 } none, .run 0, .session (.modify .ok), .session (.send (.accepted 4)),
    .session (.modify .ok), .run 0, .session (.modify .ok), .session (.send (.accepted 2)),
    .session (.send (.error .eagain)), .session (.modify .ok)]

theorem blockedHalfway_armed :
    ∃ final, machine.run { session := .started 5, tasks := [.send {} (some 0)] } blockedHalfway =
        some final ∧
      final.session.writeQueue.map OutgoingFrame.written = [2] ∧
      ∃ events, final.session.interest = some events ∧ events.out = true := by
  obtain ⟨final, ran, between, opened, written⟩ :
      ∃ final, machine.run { session := .started 5, tasks := [.send {} (some 0)] } blockedHalfway =
          some final ∧
        final.session.control = .idle ∧ final.session.open_ = true ∧
        final.session.writeQueue.map OutgoingFrame.written = [2] := by
    refine ⟨(machine.run { session := .started 5, tasks := [.send {} (some 0)] } blockedHalfway).get
      (by decide +kernel), (Option.some_get _).symm, ?_⟩
    decide +kernel
  obtain ⟨_, _, _, armed⟩ := write_queue_armed (by decide) ran
  obtain ⟨events, inSet, out⟩ := armed between opened
  refine ⟨final, ran, written, events, inSet, out.mpr fun empty => ?_⟩
  rw [empty] at written
  cases written

end Endpoint

end Insist.MiniRpc
