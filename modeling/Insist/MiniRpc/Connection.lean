/-
**Two sessions joined by a reliable byte stream.**

A `Connection` is a pair of endpoints and the bytes on the way in each direction: what one kernel has taken
and the other side's `recv` has not returned yet. The bytes stay in order and none is lost, doubled or
changed; when and in what pieces they are written and read, and every error, close and end of the stream,
is up to the labels.

* `Direction` — one direction of a connection: what was taken is what was read and what is on the way;
* `Direction.delivered_initial` — the messages delivered are an initial part of those executed, and the
  receiver never meets a bad frame;
* `delivered_prefix_executed` — the same along every run.
-/
import Insist.MiniRpc.Send

namespace Insist.MiniRpc

open Lib

variable {H K : Type}

/-! ### One direction -/

/-- The bytes a label brings. -/
def Endpoint.Label.chunk : Endpoint.Label H → List UInt8
  | .session action => action.chunk
  | _ => []

/-- What is left on the way after a read, if the stream holds what is read. -/
def readFrom (wire chunk : List UInt8) : Option (List UInt8) :=
  if chunk.isPrefixOf wire then some (wire.drop chunk.length) else none

theorem readFrom_eq_some {wire chunk wire' : List UInt8} (read : readFrom wire chunk = some wire') :
    wire = chunk ++ wire' := by
  unfold readFrom at read
  split_ifs at read with held
  obtain ⟨later, same⟩ : chunk <+: wire := List.isPrefixOf_iff_prefix.mp held
  cases read
  rw [← same, List.drop_left]

/-- One direction of a connection. -/
structure Direction (sender : Endpoint H) (wire : List UInt8) (receiver : Endpoint K) : Prop where
  carries : accepted sender.trace = received receiver.trace ++ wire
  sent : Sent sender
  carried : sender.Posted Carried
  receives : ∃ residue, Receives receiver.session receiver.trace residue

theorem started_direction (fd fd' : ℕ) :
    Direction (.started fd : Endpoint H) [] (.started fd' : Endpoint K) where
  carries := rfl
  sent := started_sent fd
  carried := Endpoint.started_posted Carried fd
  receives := ⟨[], started_receives fd'⟩

/-- **What one side delivers is an initial part of what the other side has executed**, and it never
rejects a frame. -/
theorem Direction.delivered_initial {sender : Endpoint H} {wire : List UInt8} {receiver : Endpoint K}
    (holds : Direction sender wire receiver) :
    delivered receiver.trace <+: sender.executed ∧
      .failed .messageSize ∉ receiver.trace ∧ .failed .protocolError ∉ receiver.trace := by
  obtain ⟨residue, receives⟩ := holds.receives
  obtain ⟨later, same⟩ := holds.sent.accepted_initial
  have frames := parses_frames holds.carried.executed
  rw [← same, holds.carries, List.append_assoc] at frames
  have notBad (reason : ErrorCode) : popMessage residue ≠ .bad reason :=
    frames.pop_ne_bad rfl receives.parsed reason
  refine ⟨frames.prefix_of_whole rfl receives.parsed, fun member => ?_, fun member => ?_⟩
  · rcases receives.rejected _ member with ⟨errno, impossible⟩ | bad
    · cases impossible
    · exact notBad _ bad
  · rcases receives.rejected _ member with ⟨errno, impossible⟩ | bad
    · cases impossible
    · exact notBad _ bad

/-- A step of the sender puts on the way what its kernel takes. -/
theorem Direction.step_sender {sender sender' : Endpoint H} {wire : List UInt8}
    {receiver : Endpoint K} {label : Endpoint.Label H} {effects : List (Effect H)}
    (holds : Direction sender wire receiver) (wf : sender.session.Wf)
    (nonneg : ∀ message handler, label = .send message handler → 0 ≤ message.status)
    (moves : Endpoint.Moves sender label sender' effects) :
    Direction sender' (wire ++ accepted effects) receiver where
  carries := by
    rw [moves.trace_eq, accepted_append, holds.carries, List.append_assoc]
  sent := moves.sent wf holds.sent
  carried := moves.posted_good (fun message handler same small => ⟨small, nonneg _ _ same⟩) holds.carried
  receives := holds.receives

/-- What an endpoint reads is what its label brings. -/
theorem Endpoint.Moves.received_eq {endpoint endpoint' : Endpoint H} {label : Endpoint.Label H}
    {effects : List (Effect H)} (moves : Endpoint.Moves endpoint label endpoint' effects) :
    received effects = label.chunk := by
  cases moves with
  | rejected large => exact received_invoke _ _
  | posted small => rfl
  | closePosted => rfl
  | @ran index task session effects posted moves =>
      rw [moves.received_eq]
      cases task <;> rfl
  | inside notTask moves => exact moves.received_eq

/-- A step of the receiver takes off the way what it reads. -/
theorem Direction.step_receiver {sender : Endpoint H} {wire wire' : List UInt8}
    {receiver receiver' : Endpoint K} {label : Endpoint.Label K} {effects : List (Effect K)}
    (holds : Direction sender wire receiver) (wf : receiver.session.Wf)
    (read : readFrom wire label.chunk = some wire')
    (moves : Endpoint.Moves receiver label receiver' effects) : Direction sender wire' receiver' where
  carries := by
    rw [moves.trace_eq, received_append, holds.carries, moves.received_eq, List.append_assoc,
      ← readFrom_eq_some read]
  sent := holds.sent
  carried := holds.carried
  receives := by
    obtain ⟨residue, receives⟩ := holds.receives
    exact moves.receives wf receives

/-! ### Both directions -/

/-- Two endpoints and the bytes on the way between them. -/
structure Connection (H K : Type) where
  a : Endpoint H
  b : Endpoint K
  toA : List UInt8 := []
  toB : List UInt8 := []
deriving DecidableEq, Repr

namespace Connection

/-- A step of one of the sides. -/
inductive Label (H K : Type)
  | a (label : Endpoint.Label H)
  | b (label : Endpoint.Label K)
deriving DecidableEq, Repr

/-- Both sessions have just been started. -/
def started (fd fd' : ℕ) : Connection H K := { a := .started fd, b := .started fd' }

/-- One step. -/
def step (connection : Connection H K) : Label H K → Option (Connection H K)
  | .a label => do
      let toA ← readFrom connection.toA label.chunk
      let (a, effects) ← connection.a.step label
      pure { connection with a := a, toA := toA, toB := connection.toB ++ accepted effects }
  | .b label => do
      let toB ← readFrom connection.toB label.chunk
      let (b, effects) ← connection.b.step label
      pure { connection with b := b, toB := toB, toA := connection.toA ++ accepted effects }

def machine : Machine (Connection H K) (Label H K) where
  step := step

theorem step_a {connection connection' : Connection H K} {label : Endpoint.Label H}
    (stepped : connection.step (.a label) = some connection') :
    ∃ toA a effects, readFrom connection.toA label.chunk = some toA ∧
      connection.a.step label = some (a, effects) ∧
      connection' = { connection with a := a, toA := toA, toB := connection.toB ++ accepted effects } := by
  simp only [step, Option.bind_eq_bind, Option.bind_eq_some_iff, Option.pure_def,
    Option.some.injEq] at stepped
  obtain ⟨toA, read, ⟨a, effects⟩, moved, rfl⟩ := stepped
  exact ⟨toA, a, effects, read, moved, rfl⟩

theorem step_b {connection connection' : Connection H K} {label : Endpoint.Label K}
    (stepped : connection.step (.b label) = some connection') :
    ∃ toB b effects, readFrom connection.toB label.chunk = some toB ∧
      connection.b.step label = some (b, effects) ∧
      connection' = { connection with b := b, toB := toB, toA := connection.toA ++ accepted effects } := by
  simp only [step, Option.bind_eq_bind, Option.bind_eq_some_iff, Option.pure_def,
    Option.some.injEq] at stepped
  obtain ⟨toB, read, ⟨b, effects⟩, moved, rfl⟩ := stepped
  exact ⟨toB, b, effects, read, moved, rfl⟩

/-- The direction from `a` to `b`, and both sessions well-formed. -/
structure Forward (connection : Connection H K) : Prop where
  wfA : connection.a.session.Wf
  wfB : connection.b.session.Wf
  direction : Direction connection.a connection.toB connection.b

theorem Forward.step {connection connection' : Connection H K} {label : Label H K}
    (holds : connection.Forward)
    (nonneg : ∀ message handler, label = .a (.send message handler) → 0 ≤ message.status)
    (stepped : machine.step connection label = some connection') : connection'.Forward := by
  cases label with
  | a label =>
      obtain ⟨toA, a, effects, read, moved, rfl⟩ := step_a stepped
      have moves := Endpoint.step_moves holds.wfA moved
      refine ⟨moves.wf holds.wfA, holds.wfB, holds.direction.step_sender holds.wfA ?_ moves⟩
      rintro message handler rfl
      exact nonneg message handler rfl
  | b label =>
      obtain ⟨toB, b, effects, read, moved, rfl⟩ := step_b stepped
      have moves := Endpoint.step_moves holds.wfB moved
      exact ⟨holds.wfA, moves.wf holds.wfB, holds.direction.step_receiver holds.wfB read moves⟩

/-- **Messages arrive in order, whole and once.** As long as `a` sends messages with a non-negative
status, along every run the messages handed to `b`'s message handler are an initial part of the messages
whose send tasks `a` has executed, and `b` never fails with `message_size` or `protocol_error`. -/
theorem delivered_prefix_executed {fd fd' : ℕ} {labels : List (Label H K)}
    {final : Connection H K}
    (nonneg : ∀ message handler, .a (.send message handler) ∈ labels → 0 ≤ message.status)
    (ran : machine.run (started fd fd') labels = some final) :
    delivered final.b.trace <+: final.a.executed ∧
      .failed .messageSize ∉ final.b.trace ∧ .failed .protocolError ∉ final.b.trace := by
  have forward : final.Forward := by
    refine Machine.invariant_run_of
      (fun label => ∀ message handler, label = .a (.send message handler) → 0 ≤ message.status)
      Forward (fun holds kind stepped => holds.step kind stepped)
      ⟨Session.started_wf fd, Session.started_wf fd', started_direction fd fd'⟩ ?_ ran
    rintro label member message handler rfl
    exact nonneg message handler member
  exact forward.direction.delivered_initial

/-- Two sends, written in three pieces and read in three, the third cutting the second frame. -/
def twoSends : List (Label ℕ ℕ) :=
  [.a (.send { id := 1 } none), .a (.send {} (some 2)), .a (.run 0), .a (.session (.modify .ok)),
    .a (.session (.send (.accepted 3))), .a (.session (.send (.error .eagain))),
    .b (.session (.handleEvents { in_ := true })), .b (.session (.recv (.data [0, 0]))),
    .b (.session (.recv (.error .eagain))), .b (.session .parse), .a (.session (.modify .ok)),
    .a (.run 0), .a (.session (.modify .ok)), .a (.session (.send (.accepted 3))),
    .a (.session (.send (.accepted 2))),
    .b (.session (.handleEvents { in_ := true })), .b (.session (.recv (.data [0, 2, 8, 1]))),
    .b (.session (.recv (.data [0]))), .b (.session (.recv (.error .eagain))),
    .b (.session .parse), .b (.session .parse)]

theorem twoSends_delivered :
    ∃ final, machine.run (started 5 6) twoSends = some final ∧
      delivered final.b.trace <+: final.a.executed ∧ delivered final.b.trace = [{ id := 1 }] ∧
      final.a.executed = [{ id := 1 }, {}] := by
  obtain ⟨final, ran, seen⟩ :
      ∃ final, machine.run (started 5 6) twoSends = some final ∧
        delivered final.b.trace = [{ id := 1 }] ∧ final.a.executed = [{ id := 1 }, {}] := by
    refine ⟨(machine.run (started 5 6) twoSends).get (by decide +kernel), (Option.some_get _).symm, ?_⟩
    decide +kernel
  refine ⟨final, ran, (delivered_prefix_executed ?_ ran).1, seen⟩
  intro message handler member
  simp [twoSends] at member
  rcases member with ⟨rfl, _⟩ | ⟨rfl, _⟩ <;> decide

end Connection

end Insist.MiniRpc
