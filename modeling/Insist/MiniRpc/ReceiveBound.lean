/-
**The size of `read_buffer_`.**

`async_read` parses after its loop of reads, which ends when `recv` has nothing more to hand over. So the limit
that `try_pop_frame` puts on a frame limits what a pass leaves in the buffer, not what it reads into it. A
`Watch` is a session with the bytes that `recv` has handed over, those of the earlier passes apart from those of
the current one:

* `Fits` — the incomplete frame at the end of the bytes of the earlier passes, the bytes of the current pass and
  the next chunk are together at most one maximal frame and one chunk;
* `bounded_iff_fits` — **the buffer stays within one maximal frame and one chunk exactly as long as this is so
  of every chunk that `recv` hands over**, and the incomplete frame is always so short that the first chunk of a
  pass fits;
* `unbounded_against_fast_peer` — a peer that sends 514 chunks before `recv` blocks exceeds the bound.
-/
import Insist.MiniRpc.Lifecycle
import Insist.MiniRpc.Receive

namespace Insist.MiniRpc

open Lib

variable {H : Type}

/-- One maximal frame and one chunk of `recv`. -/
def kReceiveLimit : ℕ := kFrameHeaderSize + kMaxFrameSize.toNat + kChunkSize

namespace Session

/-- The buffer grows by what `recv` returns, and by nothing else. -/
theorem Moves.readBuffer {session session' : Session H} {action : Action H} {effects : List (Effect H)}
    (moves : Moves session action session' effects) :
    (∃ chunk events, action = .recv (.data chunk) ∧ session.control = .recvLoop events ∧
      session'.control = .recvLoop events ∧ session'.readBuffer = session.readBuffer ++ chunk) ∨
    (∀ chunk, action ≠ .recv (.data chunk)) ∧ session'.readBuffer.length ≤ session.readBuffer.length := by
  have popped {payload rest : List UInt8} (popped : tryPopFrame session.readBuffer = .ok payload rest) :
      rest.length ≤ session.readBuffer.length := by
    rw [(tryPopFrame_ok popped).1, List.length_append]
    exact Nat.le_add_left _ _
  cases moves with
  | received inLoop nonempty fits => exact Or.inl ⟨_, _, rfl, inLoop, inLoop, rfl⟩
  | delivered inLoop front decoded => exact Or.inr ⟨by simp, popped front⟩
  | undecodable inLoop front rejected => exact Or.inr ⟨by simp, popped front⟩
  | jump opened jump => exact Or.inr ⟨by cases jump <;> simp, le_rfl⟩
  | socketError inLoop =>
      refine Or.inr ⟨?_, le_rfl⟩
      rcases inLoop with ⟨_, _, rfl⟩ | ⟨_, _, rfl⟩ <;> simp
  | closing opened cause => exact Or.inr ⟨by cases cause <;> simp, le_rfl⟩
  | _ => exact Or.inr ⟨by simp, le_rfl⟩

/-- A pass goes on from where it was, or begins with the buffer as it is. -/
theorem Moves.pass {session session' : Session H} {action : Action H} {effects : List (Effect H)}
    (moves : Moves session action session' effects) {events : Events}
    (inLoop : session'.control = .recvLoop events) :
    ((∃ events, action = .handleEvents events) ∧ session.control = .idle ∧
      session'.readBuffer = session.readBuffer) ∨
    session.control = .recvLoop events ∧
      (action = .recv (.error .eintr) ∧ session'.readBuffer = session.readBuffer ∨
        ∃ chunk, action = .recv (.data chunk) ∧ session'.readBuffer = session.readBuffer ++ chunk) := by
  cases moves with
  | jump opened jump =>
      cases jump with
      | enterRead idle readable => exact Or.inl ⟨⟨_, rfl⟩, idle, rfl⟩
      | skipRead idle unreadable next => exact Or.inl ⟨⟨_, rfl⟩, idle, rfl⟩
      | recvInterrupted before => exact Or.inr ⟨before.trans inLoop, Or.inl ⟨rfl, rfl⟩⟩
      | parsedAll before popped next => cases next <;> cases inLoop
      | _ => cases inLoop
  | received before nonempty fits => exact Or.inr ⟨inLoop, Or.inr ⟨_, rfl, rfl⟩⟩
  | dropped idle | ignored idle =>
      rw [idle] at inLoop
      cases inLoop
  | delivered before | wrotePart before | failedFrame before | closedFrame before =>
      rw [before] at inLoop
      cases inLoop
  | wroteAll before front positive whole next =>
      rcases next with ⟨rfl, _⟩ | ⟨rfl, _⟩ <;> cases inLoop
  | updated inCode told unregistered succeeded next => cases next <;> cases inLoop
  | _ => cases inLoop

/-- `~Session` reads nothing. -/
theorem received_destroy (session : Session H) : received session.destroy.2 = [] := by
  unfold destroy
  cases session.socketFd <;> rfl

/-- `recv` fills at most the local buffer. -/
theorem Moves.of_data {session session' : Session H} {chunk : List UInt8} {effects : List (Effect H)}
    (moves : Moves session (.recv (.data chunk)) session' effects) :
    (∃ events, session.control = .recvLoop events) ∧ chunk.length ≤ kChunkSize := by
  cases moves with
  | received inLoop nonempty fits => exact ⟨⟨_, inLoop⟩, fits⟩
  | jump opened jump => cases jump
  | socketError inLoop => rcases inLoop with ⟨_, _, same⟩ | ⟨_, _, same⟩ <;> cases same
  | closing opened cause => cases cause

end Session

namespace Receives

variable {session : Session H} {trace : List (Effect H)} {residue : List UInt8}

/-- An exception has left the session's code, and `run()` is called again. -/
theorem rerun {endpoint : Endpoint H} (receives : Receives endpoint.session endpoint.trace residue) :
    Receives endpoint.rerun.session endpoint.rerun.trace residue := by
  unfold Endpoint.rerun
  split_ifs with thrown
  · have kept : Receives { endpoint.session with control := .idle } (endpoint.trace ++ []) residue :=
      receives.silent (by simp)
        (fun serving => ⟨⟨serving.1, by simp [thrown]⟩, rfl, fun _ => Or.inl (by rw [thrown]; rfl)⟩) (by simp)
    rwa [List.append_nil] at kept
  · exact receives

/-- `~Session` leaves what has been read. -/
theorem destroy (receives : Receives session trace residue) :
    Receives session.destroy.1 (trace ++ session.destroy.2) residue := by
  unfold Session.destroy
  cases session.socketFd with
  | none => rwa [List.append_nil]
  | some fd =>
      exact receives.silent (by simp [Effect.silent])
        (fun serving => ⟨serving, rfl, Or.inl⟩) fun _ place => place

/-- **Outside `async_read`, the buffer of a session that serves its socket is what the bytes so far leave
over.** -/
theorem buffered_rest (receives : Receives session trace residue) (serving : session.Serving)
    (outside : session.control.reading = false) :
    MaximalRun (received trace) (delivered trace) session.readBuffer ∧
      session.readBuffer.length < kFrameHeaderSize + kMaxFrameSize.toNat := by
  have needMore := receives.settled serving outside
  rw [receives.buffered serving]
  refine ⟨maximalRun_iff.mpr ⟨receives.parsed, StreamParser.stuck_of_needMore needMore⟩, ?_⟩
  exact length_lt_of_needMore (popMessage_eq_needMore needMore)

end Receives

/-! ### Watching the passes -/

/-- A session, the bytes that `recv` has handed over in the passes of `async_read` before the current one, and
those of the current one. -/
structure Watch (H : Type) where
  life : Life H
  earlier : List UInt8 := []
  pass : List UInt8 := []

namespace Watch

/-- The watch after a step that leads to this life. -/
def note (watch : Watch H) (label : Life.Label H) (life : Life H) : Watch H :=
  match label with
  | .endpoint (.session (.handleEvents _)) =>
      { life := life, earlier := watch.earlier ++ watch.pass, pass := [] }
  | .endpoint (.session (.recv (.data chunk))) =>
      { life := life, earlier := watch.earlier, pass := watch.pass ++ chunk }
  | _ => { watch with life := life }

/-- One step of the session. -/
def step (watch : Watch H) (label : Life.Label H) : Option (Watch H) :=
  (watch.life.step label).map (watch.note label)

/-- Watched sessions as a machine. -/
def machine : Machine (Watch H) (Life.Label H) := ⟨step⟩

/-- A session whose `start` has returned. -/
def started (fd : ℕ) : Watch H := { life := .started fd }

/-- The session. -/
def session (watch : Watch H) : Session H := watch.life.endpoint.session

/-- The buffer. -/
def readBuffer (watch : Watch H) : List UInt8 := watch.session.readBuffer

/-- The step leaves at most one maximal frame and one chunk in the buffer. -/
def StaysBounded (watch : Watch H) (label : Life.Label H) : Prop :=
  ∀ next, watch.step label = some next → next.readBuffer.length ≤ kReceiveLimit

/-- What `recv` hands over fits, together with what it has handed over before in the pass and with what follows
the last complete frame in the bytes of the earlier passes. -/
def Fits (watch : Watch H) (label : Life.Label H) : Prop :=
  ∀ chunk, label = .endpoint (.session (.recv (.data chunk))) → (watch.step label).isSome = true →
    ∀ decoded rest, MaximalRun watch.earlier decoded rest →
      rest.length + watch.pass.length + chunk.length ≤ kReceiveLimit

/-- While a pass reads, what follows the last complete frame in the bytes of the earlier passes is less than one
maximal frame; so the first chunk of a pass fits. -/
def BeginsShort (watch : Watch H) (label : Life.Label H) : Prop :=
  (∀ events, watch.session.control = .recvLoop events → ∀ decoded rest,
    MaximalRun watch.earlier decoded rest → rest.length < kFrameHeaderSize + kMaxFrameSize.toNat) ∧
  (watch.pass = [] → watch.Fits label)

/-- In the loop of reads, the buffer is what the earlier passes have left over, and the bytes of this pass. -/
structure Accounts (earlier pass : List UInt8) (session : Session H) : Prop where
  begun : ∀ events, session.control = .recvLoop events → ∃ decoded rest, MaximalRun earlier decoded rest ∧
    rest.length < kFrameHeaderSize + kMaxFrameSize.toNat ∧ session.readBuffer = rest ++ pass

/-- What every watched session keeps. -/
structure Watched (fd : ℕ) (watch : Watch H) : Prop where
  lived : Life.Lived fd watch.life
  receives : ∃ residue, Receives watch.session watch.life.endpoint.trace residue
  bytes : received watch.life.endpoint.trace = watch.earlier ++ watch.pass
  accounts : Accounts watch.earlier watch.pass watch.session

theorem started_watched (fd : ℕ) : Watched fd (started fd : Watch H) where
  lived := Life.started_lived fd
  receives := ⟨[], started_receives fd⟩
  bytes := rfl
  accounts := ⟨fun _ inLoop => by cases inLoop⟩

/-- An action that is none of `async_read`'s reads nothing and begins no pass. -/
theorem Watched.accounts_of_other {fd : ℕ} {watch : Watch H} (watched : Watched fd watch) {action : Action H}
    {session' : Session H} {effects : List (Effect H)}
    (moves : Session.Moves watch.session action session' effects)
    (notEntry : ∀ events, action ≠ .handleEvents events) (notData : ∀ chunk, action ≠ .recv (.data chunk)) :
    Accounts watch.earlier watch.pass session' := by
  constructor
  intro events inLoop
  rcases moves.pass inLoop with ⟨⟨events', same⟩, _⟩ | ⟨before, ⟨_, same⟩ | ⟨chunk, same, _⟩⟩
  · exact absurd same (notEntry events')
  · rw [same]
    exact watched.accounts.begun events before
  · exact absurd same (notData chunk)

/-- `handle_events` begins a pass with what the bytes so far leave over. -/
theorem Watched.accounts_of_entry {fd : ℕ} {watch : Watch H} (watched : Watched fd watch) {events : Events}
    {session' : Session H} {effects : List (Effect H)}
    (moves : Session.Moves watch.session (.handleEvents events) session' effects) :
    Accounts (watch.earlier ++ watch.pass) [] session' := by
  constructor
  intro events' inLoop
  have wf := watched.lived.sound.wf
  rcases moves.pass inLoop with ⟨_, idle, same⟩ | ⟨_, ⟨impossible, _⟩ | ⟨_, impossible, _⟩⟩
  · have opened := (moves.of_open wf ((moves.wf wf).open_of_running (by rw [inLoop]; rfl))).1
    obtain ⟨residue, receives⟩ := watched.receives
    obtain ⟨run, short⟩ := receives.buffered_rest ⟨opened, by simp [idle]⟩ (by rw [idle]; rfl)
    rw [watched.bytes] at run
    exact ⟨_, _, run, short, by rw [same, List.append_nil]⟩
  · cases impossible
  · cases impossible

/-- A chunk goes behind what the pass has read before. -/
theorem Watched.accounts_of_data {fd : ℕ} {watch : Watch H} (watched : Watched fd watch) {chunk : List UInt8}
    {session' : Session H} {effects : List (Effect H)}
    (moves : Session.Moves watch.session (.recv (.data chunk)) session' effects) :
    Accounts watch.earlier (watch.pass ++ chunk) session' := by
  constructor
  intro events inLoop
  rcases moves.pass inLoop with ⟨⟨_, impossible⟩, _⟩ | ⟨before, ⟨impossible, _⟩ | ⟨chunk', same, grown⟩⟩
  · cases impossible
  · cases impossible
  · cases same
    obtain ⟨decoded, rest, run, short, buffered⟩ := watched.accounts.begun events before
    exact ⟨decoded, rest, run, short, by rw [grown, buffered, List.append_assoc]⟩

/-- **The loop's entries into the session's code keep the watch.** -/
theorem Watched.inside {fd : ℕ} {watch : Watch H} (watched : Watched fd watch) {action : Action H}
    {endpoint : Endpoint H} {effects : List (Effect H)}
    (lived : Life.Lived fd { endpoint := endpoint })
    (receives : ∃ residue, Receives endpoint.session endpoint.trace residue)
    (moves : Session.Moves watch.session action endpoint.session effects)
    (trace : endpoint.trace = watch.life.endpoint.trace ++ effects) :
    Watched fd (watch.note (.endpoint (.session action)) { endpoint := endpoint }) := by
  have bytes : received endpoint.trace = watch.earlier ++ watch.pass ++ action.chunk := by
    rw [trace, received_append, watched.bytes, moves.received_eq]
  cases action with
  | handleEvents events => exact ⟨lived, receives, bytes, watched.accounts_of_entry moves⟩
  | recv result =>
      cases result with
      | data chunk =>
          exact ⟨lived, receives, bytes.trans (List.append_assoc _ _ _), watched.accounts_of_data moves⟩
      | eof | error =>
          exact ⟨lived, receives, bytes.trans (List.append_nil _),
            watched.accounts_of_other moves (by simp) (by simp)⟩
  | sendTask | closeTask | parse | send | modify | drain =>
      exact ⟨lived, receives, bytes.trans (List.append_nil _),
        watched.accounts_of_other moves (by simp) (by simp)⟩

/-- **Every step keeps the watch.** -/
theorem Watched.step {fd : ℕ} {watch next : Watch H} {label : Life.Label H} (watched : Watched fd watch)
    (stepped : watch.step label = some next) : Watched fd next := by
  obtain ⟨life, taken, rfl⟩ := Option.map_eq_some_iff.mp stepped
  have lived := watched.lived.step taken
  have wf := watched.lived.sound.wf
  obtain ⟨residue, receives⟩ := watched.receives
  obtain ⟨_, ⟨label, endpoint, effects, rfl, moved, rfl⟩ | ⟨rfl, rfl⟩ | ⟨rfl, rfl⟩⟩ :=
    Life.step_cases taken
  · have moves := Endpoint.step_moves wf moved
    have receives' := moves.receives wf receives
    cases moves with
    | rejected large =>
        refine ⟨lived, receives', ?_, watched.accounts⟩
        show received (_ ++ _) = _
        rw [received_append, received_invoke, List.append_nil]
        exact watched.bytes
    | posted small => exact ⟨lived, receives', watched.bytes, watched.accounts⟩
    | closePosted => exact ⟨lived, receives', watched.bytes, watched.accounts⟩
    | @ran index task session effects posted moves =>
        refine ⟨lived, receives', ?_, ?_⟩
        · show received (_ ++ effects) = _
          rw [received_append, moves.received_eq, watched.bytes]
          cases task <;> exact List.append_nil _
        · cases task <;> exact watched.accounts_of_other moves (by simp [Task.action]) (by simp [Task.action])
    | inside notTask moves => exact watched.inside lived receives' moves rfl
  · refine ⟨lived, ⟨residue, receives.rerun⟩, ?_, ?_⟩
    · show received watch.life.endpoint.rerun.trace = _
      rw [Endpoint.rerun_trace]
      exact watched.bytes
    · show Accounts watch.earlier watch.pass watch.life.endpoint.rerun.session
      unfold Endpoint.rerun
      split_ifs
      · exact ⟨fun _ inLoop => by cases inLoop⟩
      · exact watched.accounts
  · refine ⟨lived, ⟨residue, receives.destroy⟩, ?_, ?_⟩
    · show received (watch.life.endpoint.trace ++ watch.life.endpoint.session.destroy.2) = _
      rw [received_append, watched.bytes, Session.received_destroy]
      exact List.append_nil _
    · constructor
      intro events inLoop
      obtain ⟨decoded, rest, run, short, buffered⟩ :=
        watched.accounts.begun events ((Session.destroy_control _).symm.trans inLoop)
      exact ⟨decoded, rest, run, short, (Session.destroy_readBuffer _).trans buffered⟩

/-- **What a step does to the size of the buffer.** -/
theorem Watched.length_step {fd : ℕ} {watch next : Watch H} {label : Life.Label H}
    (watched : Watched fd watch) (stepped : watch.step label = some next) :
    (∃ chunk events, label = .endpoint (.session (.recv (.data chunk))) ∧
      watch.session.control = .recvLoop events ∧ chunk.length ≤ kChunkSize ∧
      next.readBuffer = watch.readBuffer ++ chunk) ∨
    (∀ chunk, label ≠ .endpoint (.session (.recv (.data chunk)))) ∧
      next.readBuffer.length ≤ watch.readBuffer.length := by
  obtain ⟨life, taken, rfl⟩ := Option.map_eq_some_iff.mp stepped
  have wf := watched.lived.sound.wf
  -- the buffer is that of the life, whatever the watch notes
  have buffer : (watch.note label life).readBuffer = life.endpoint.session.readBuffer := by
    unfold note
    split <;> rfl
  rw [buffer]
  obtain ⟨_, ⟨label, endpoint, effects, rfl, moved, rfl⟩ | ⟨rfl, rfl⟩ | ⟨rfl, rfl⟩⟩ :=
    Life.step_cases taken
  · cases Endpoint.step_moves wf moved with
    | rejected large => exact Or.inr ⟨by simp, le_rfl⟩
    | posted small => exact Or.inr ⟨by simp, le_rfl⟩
    | closePosted => exact Or.inr ⟨by simp, le_rfl⟩
    | @ran index task session effects posted moves =>
        refine Or.inr ⟨by simp, ?_⟩
        rcases moves.readBuffer with ⟨chunk, _, impossible, _⟩ | ⟨_, shorter⟩
        · cases task <;> cases impossible
        · exact shorter
    | inside notTask moves =>
        rcases moves.readBuffer with ⟨chunk, events, rfl, inLoop, _, same⟩ | ⟨other, shorter⟩
        · exact Or.inl ⟨chunk, events, rfl, inLoop, moves.of_data.2, same⟩
        · refine Or.inr ⟨fun chunk same => other chunk ?_, shorter⟩
          simpa using same
  · refine Or.inr ⟨by simp, ?_⟩
    exact (congrArg List.length watch.life.endpoint.rerun_readBuffer).le
  · refine Or.inr ⟨by simp, ?_⟩
    exact (congrArg List.length watch.life.endpoint.session.destroy_readBuffer).le

/-- **A step stays within the bound exactly if what `recv` hands over fits.** -/
theorem Watched.staysBounded_iff {fd : ℕ} {watch : Watch H} {label : Life.Label H}
    (watched : Watched fd watch) (bounded : watch.readBuffer.length ≤ kReceiveLimit) :
    watch.StaysBounded label ↔ watch.Fits label := by
  constructor
  · rintro stays chunk rfl enabled decoded rest run
    obtain ⟨next, stepped⟩ := Option.isSome_iff_exists.mp enabled
    have within := stays next stepped
    rcases watched.length_step stepped with ⟨chunk', events, same, inLoop, _, grown⟩ | ⟨other, _⟩
    · cases same
      obtain ⟨_, _, run', _, buffered⟩ := watched.accounts.begun events inLoop
      obtain ⟨_, rfl⟩ := run'.unique run
      rwa [grown, readBuffer, buffered, List.length_append, List.length_append] at within
    · exact absurd rfl (other chunk)
  · intro fits next stepped
    rcases watched.length_step stepped with ⟨chunk, events, rfl, inLoop, _, grown⟩ | ⟨_, shorter⟩
    · obtain ⟨decoded, rest, run, _, buffered⟩ := watched.accounts.begun events inLoop
      rw [grown, readBuffer, buffered, List.length_append, List.length_append]
      exact fits chunk rfl (by rw [stepped]; rfl) decoded rest run
    · exact shorter.trans bounded

/-- The first chunk of a pass fits. -/
theorem Watched.fits_first_chunk {fd : ℕ} {watch : Watch H} {label : Life.Label H}
    (watched : Watched fd watch) (first : watch.pass = []) : watch.Fits label := by
  rintro chunk rfl enabled decoded rest run
  obtain ⟨next, stepped⟩ := Option.isSome_iff_exists.mp enabled
  rcases watched.length_step stepped with ⟨chunk', events, same, inLoop, small, _⟩ | ⟨other, _⟩
  · cases same
    obtain ⟨_, _, run', short, _⟩ := watched.accounts.begun events inLoop
    obtain ⟨_, rfl⟩ := run'.unique run
    rw [first, List.length_nil]
    unfold kReceiveLimit
    omega
  · exact absurd rfl (other chunk)

theorem Watched.beginsShort {fd : ℕ} {watch : Watch H} (watched : Watched fd watch) (label : Life.Label H) :
    watch.BeginsShort label := by
  refine ⟨fun events inLoop decoded rest run => ?_, watched.fits_first_chunk⟩
  obtain ⟨_, _, run', short, _⟩ := watched.accounts.begun events inLoop
  obtain ⟨_, rfl⟩ := run'.unique run
  exact short

end Watch

/-- **The buffer stays within one maximal frame and one chunk, in every state of a run, exactly if in every pass
of `async_read` what `recv` hands over fits** behind the incomplete frame that the earlier passes have brought;
and that one is always so short that the first chunk of a pass fits. -/
theorem bounded_iff_fits (fd : ℕ) (labels : List (Life.Label H)) :
    (Watch.machine.Along Watch.StaysBounded (Watch.started fd : Watch H) labels ↔
      Watch.machine.Along Watch.Fits (Watch.started fd) labels) ∧
    Watch.machine.Along Watch.BeginsShort (Watch.started fd : Watch H) labels := by
  constructor
  · refine Machine.along_congr
      (fun watch => Watch.Watched fd watch ∧ watch.readBuffer.length ≤ kReceiveLimit) ?_ ?_
      ⟨Watch.started_watched fd, Nat.zero_le _⟩
    · intro watch label holds
      exact holds.1.staysBounded_iff holds.2
    · intro watch label next holds fits stepped
      exact ⟨holds.1.step stepped, (holds.1.staysBounded_iff holds.2).mpr fits next stepped⟩
  · exact Machine.along_of_invariant (Watch.Watched fd) (fun watched => watched.beginsShort _)
      (fun watched stepped => watched.step stepped) (Watch.started_watched fd) labels

/-! ### A peer that keeps the socket readable -/

namespace Watch

/-- `recv` hands over a chunk. -/
def recvChunk (chunk : List UInt8) : Life.Label H := .endpoint (.session (.recv (.data chunk)))

theorem possible_data {chunk : List UInt8} (nonempty : 0 < chunk.length) (fits : chunk.length ≤ kChunkSize) :
    (RecvResult.data chunk).possible = true :=
  decide_eq_true ⟨nonempty, fits⟩

theorem step_recvChunk {watch : Watch H} {events : Events} {chunk : List UInt8}
    (present : watch.life.destroyed = false)
    (inLoop : watch.life.endpoint.session.control = .recvLoop events)
    (possible : (RecvResult.data chunk).possible = true) :
    ∃ next, watch.step (recvChunk chunk) = some next ∧ next.life.destroyed = false ∧
      next.life.endpoint.session.control = .recvLoop events ∧
      next.readBuffer = watch.readBuffer ++ chunk := by
  have moved : watch.life.endpoint.session.step (.recv (.data chunk)) =
      some (watch.life.endpoint.session.asyncReadRecv events (.data chunk)) := by
    unfold Session.step
    rw [inLoop]
    exact if_pos possible
  have taken : watch.life.step (recvChunk chunk) =
      some
        { endpoint := (watch.life.endpoint.advance watch.life.endpoint.tasks []
            (watch.life.endpoint.session.asyncReadRecv events (.data chunk))).1 } := by
    unfold Life.step
    rw [present, if_neg Bool.false_ne_true]
    simp only [recvChunk, Endpoint.step, Action.fromTask, moved]
    rfl
  have stepped : watch.step (recvChunk chunk) = some _ := congrArg (Option.map _) taken
  exact ⟨_, stepped, rfl, inLoop, rfl⟩

/-- As long as `recv` hands over chunks, the buffer grows. -/
theorem run_recvChunk {watch : Watch H} {events : Events} {chunk : List UInt8} (count : ℕ)
    (present : watch.life.destroyed = false)
    (inLoop : watch.life.endpoint.session.control = .recvLoop events)
    (possible : (RecvResult.data chunk).possible = true) :
    ∃ later, machine.run watch (List.replicate count (recvChunk chunk)) = some later ∧
      later.life.destroyed = false ∧ later.life.endpoint.session.control = .recvLoop events ∧
      later.readBuffer.length = watch.readBuffer.length + count * chunk.length := by
  induction count generalizing watch with
  | zero => exact ⟨watch, rfl, present, inLoop, by omega⟩
  | succ count ih =>
      obtain ⟨next, stepped, present', inLoop', grown⟩ := step_recvChunk present inLoop possible
      obtain ⟨later, ran, present'', inLoop'', size⟩ := ih present' inLoop'
      refine ⟨later, ?_, present'', inLoop'', ?_⟩
      · rw [List.replicate_succ]
        exact (machine.run_cons_eq_some).mpr ⟨next, stepped, ran⟩
      · rw [size, grown, List.length_append]
        ring

/-- The event, and then 514 full chunks of a header that announces too much. -/
def fastPeer : List (Life.Label ℕ) :=
  .endpoint (.session (.handleEvents { in_ := true })) ::
    List.replicate 514 (recvChunk (List.replicate 8192 0xff))

end Watch

/-- **A peer that sends 514 chunks before `recv` blocks exceeds the bound.** -/
theorem unbounded_against_fast_peer :
    ¬ Watch.machine.Along Watch.StaysBounded (Watch.started 5) Watch.fastPeer := by
  intro along
  have possible : (RecvResult.data (List.replicate 8192 (0xff : UInt8))).possible = true := by
    apply Watch.possible_data
    · rw [List.length_replicate]
      exact Nat.zero_lt_succ _
    · rw [List.length_replicate, kChunkSize]
  obtain ⟨entered, stepped, present, inLoop, empty⟩ : ∃ entered : Watch ℕ,
      Watch.machine.step (Watch.started 5) (.endpoint (.session (.handleEvents { in_ := true }))) =
        some entered ∧ entered.life.destroyed = false ∧
      entered.life.endpoint.session.control = .recvLoop { in_ := true } ∧ entered.readBuffer = [] :=
    ⟨_, rfl, rfl, rfl, rfl⟩
  obtain ⟨later, ran, present', inLoop', size⟩ := Watch.run_recvChunk 513 present inLoop possible
  obtain ⟨next, last, _, _, grown⟩ := Watch.step_recvChunk present' inLoop' possible
  have reading := along.2 entered stepped
  rw [show 514 = 513 + 1 from rfl, List.replicate_succ'] at reading
  have within := reading.at ran next last
  rw [grown, List.length_append, size, empty, List.length_replicate, List.length_nil, kReceiveLimit,
    toNat_kMaxFrameSize, kFrameHeaderSize, kChunkSize] at within
  omega

end Insist.MiniRpc
