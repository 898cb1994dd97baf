/-
**The stream of messages inside the stream of bytes.**

`popMessage` is what one turn of the parse loop of `async_read` does to the front of the buffer: no
complete frame, a rejection, or a message. It obeys the laws of a stream parser, so everything about
cut points comes from `Lib.StreamParser`. `MaximalRun` states, in terms of frames and decodings only,
what a whole stream holds; `maximalRun_iff` identifies it with the parse that cannot be continued, so
every stream has exactly one (`exists_maximalRun`, `MaximalRun.unique`).
-/
import Insist.Lib.StreamParser
import Insist.MiniRpc.Framing
import Insist.MiniRpc.RoundTrip
import Insist.MiniRpc.Session

namespace Insist.MiniRpc

open Lib

/-- One turn of the parse loop of `async_read`. -/
def popMessage (buffer : List UInt8) : Pop RpcMessage UInt8 ErrorCode :=
  match tryPopFrame buffer with
  | .needMore => .needMore
  | .tooLarge => .bad .messageSize
  | .ok payload rest =>
      match ProtobufWireCodec.decode payload with
      | none => .bad .protocolError
      | some message => .item message rest

/-! ### The answers of `popMessage` -/

theorem popMessage_needMore {buffer : List UInt8} (popped : tryPopFrame buffer = .needMore) :
    popMessage buffer = .needMore := by
  rw [popMessage, popped]

theorem popMessage_tooLarge {buffer : List UInt8} (popped : tryPopFrame buffer = .tooLarge) :
    popMessage buffer = .bad .messageSize := by
  rw [popMessage, popped]

theorem popMessage_undecodable {buffer payload rest : List UInt8}
    (popped : tryPopFrame buffer = .ok payload rest)
    (rejected : ProtobufWireCodec.decode payload = none) :
    popMessage buffer = .bad .protocolError := by
  rw [popMessage, popped]
  simp only [rejected]

theorem popMessage_message {buffer payload rest : List UInt8} {message : RpcMessage}
    (popped : tryPopFrame buffer = .ok payload rest)
    (decoded : ProtobufWireCodec.decode payload = some message) :
    popMessage buffer = .item message rest := by
  rw [popMessage, popped]
  simp only [decoded]

/-- A message comes from a complete admissible frame that decodes. -/
theorem popMessage_eq_item {buffer rest : List UInt8} {message : RpcMessage}
    (popped : popMessage buffer = .item message rest) :
    ∃ payload, tryPopFrame buffer = .ok payload rest ∧
      ProtobufWireCodec.decode payload = some message := by
  unfold popMessage at popped
  split at popped
  case h_1 => cases popped
  case h_2 => cases popped
  case h_3 payload rest' frame =>
    split at popped
    case h_1 => cases popped
    case h_2 message' decoded =>
      cases popped
      exact ⟨payload, frame, decoded⟩

/-- A rejection is an oversized header or a complete body that does not decode. -/
theorem popMessage_eq_bad {buffer : List UInt8} {reason : ErrorCode}
    (popped : popMessage buffer = .bad reason) :
    (tryPopFrame buffer = .tooLarge ∧ reason = .messageSize) ∨
      ∃ payload rest, tryPopFrame buffer = .ok payload rest ∧
        ProtobufWireCodec.decode payload = none ∧ reason = .protocolError := by
  unfold popMessage at popped
  split at popped
  case h_1 => cases popped
  case h_2 frame =>
    cases popped
    exact Or.inl ⟨frame, rfl⟩
  case h_3 payload rest frame =>
    split at popped
    case h_1 rejected =>
      cases popped
      exact Or.inr ⟨payload, rest, frame, rejected, rfl⟩
    case h_2 => cases popped

theorem popMessage_eq_needMore {buffer : List UInt8} (popped : popMessage buffer = .needMore) :
    tryPopFrame buffer = .needMore := by
  unfold popMessage at popped
  split at popped
  case h_1 frame => exact frame
  case h_2 => cases popped
  case h_3 => split at popped <;> cases popped

theorem popMessage_shrinks {input rest : List UInt8} {message : RpcMessage}
    (popped : popMessage input = .item message rest) : rest.length < input.length := by
  obtain ⟨payload, frame, _⟩ := popMessage_eq_item popped
  obtain ⟨rfl, _⟩ := tryPopFrame_ok frame
  rw [List.length_append, length_makeFrame, kFrameHeaderSize]
  omega

theorem popMessage_item_append {input rest : List UInt8} {message : RpcMessage}
    (popped : popMessage input = .item message rest) (more : List UInt8) :
    popMessage (input ++ more) = .item message (rest ++ more) := by
  obtain ⟨payload, frame, decoded⟩ := popMessage_eq_item popped
  exact popMessage_message (tryPopFrame_ok_append frame more) decoded

theorem popMessage_bad_append {input : List UInt8} {reason : ErrorCode}
    (popped : popMessage input = .bad reason) (more : List UInt8) :
    popMessage (input ++ more) = .bad reason := by
  rcases popMessage_eq_bad popped with ⟨frame, rfl⟩ | ⟨payload, rest, frame, rejected, rfl⟩
  · exact popMessage_tooLarge (tryPopFrame_tooLarge_append frame more)
  · exact popMessage_undecodable (tryPopFrame_ok_append frame more) rejected

/-- **`popMessage` is a stream parser.** -/
def messages : StreamParser RpcMessage UInt8 ErrorCode where
  pop := popMessage
  shrinks := popMessage_shrinks
  item_append := popMessage_item_append
  bad_append := popMessage_bad_append

@[simp] theorem messages_pop : messages.pop = popMessage := rfl

@[simp] theorem popMessage_nil : popMessage [] = .needMore := rfl

/-! ### Streams of frames -/

/-- The bytes that carry one message. -/
def frameOf (message : RpcMessage) : List UInt8 :=
  makeFrame (ProtobufWireCodec.encode message)

theorem frameOf_ne_nil (message : RpcMessage) : frameOf message ≠ [] :=
  makeFrame_ne_nil _

/-- What `Session::send` does not reject and the codec brings back. -/
def Carried (message : RpcMessage) : Prop :=
  (ProtobufWireCodec.encode message).length ≤ kMaxFrameSize.toNat ∧ 0 ≤ message.status

theorem popMessage_frameOf {message : RpcMessage} (carried : Carried message)
    (rest : List UInt8) : popMessage (frameOf message ++ rest) = .item message rest :=
  popMessage_message (tryPopFrame_makeFrame carried.1 rest)
    (ProtobufWireCodec.decode_encode_of_nonneg carried.2)

/-- **The frames of a list of messages parse to that list.** -/
theorem parses_frames {sent : List RpcMessage} (carried : ∀ message ∈ sent, Carried message) :
    messages.Parses (sent.flatMap frameOf) sent [] := by
  induction sent with
  | nil => exact .nil []
  | cons message rest ih =>
      have first : popMessage (frameOf message ++ rest.flatMap frameOf) =
          .item message (rest.flatMap frameOf) :=
        popMessage_frameOf (carried message List.mem_cons_self) _
      exact .cons first (ih fun other member => carried other (List.mem_cons_of_mem _ member))

/-- `stream` begins with the frames of admissible bodies that decode to `decoded`, and `rest` follows
them. -/
def FramesOf (stream : List UInt8) (decoded : List RpcMessage) (rest : List UInt8) : Prop :=
  ∃ bodies : List (List UInt8), stream = bodies.flatMap makeFrame ++ rest ∧
    bodies.map ProtobufWireCodec.decode = decoded.map some ∧
    ∀ body ∈ bodies, body.length ≤ kMaxFrameSize.toNat

/-- `decoded` are the decodings of the maximal initial run of complete admissible frames of `stream`
whose bodies decode, and `rest` is what follows that run. -/
structure MaximalRun (stream : List UInt8) (decoded : List RpcMessage) (rest : List UInt8) : Prop where
  frames : FramesOf stream decoded rest
  maximal : ¬ ∃ body tail message, rest = makeFrame body ++ tail ∧
    body.length ≤ kMaxFrameSize.toNat ∧ ProtobufWireCodec.decode body = some message

/-- The next frame has a header above `kMaxFrameSize`, or a complete body that does not decode. -/
def BadFrame (rest : List UInt8) : Prop :=
  OversizedHeader rest ∨
    ∃ body tail, rest = makeFrame body ++ tail ∧ body.length ≤ kMaxFrameSize.toNat ∧
      ProtobufWireCodec.decode body = none

theorem parses_iff_framesOf {stream rest : List UInt8} {decoded : List RpcMessage} :
    messages.Parses stream decoded rest ↔ FramesOf stream decoded rest := by
  constructor
  · intro parsed
    induction parsed with
    | nil input => exact ⟨[], rfl, rfl, fun body member => by cases member⟩
    | cons popped _ ih =>
        obtain ⟨body, frame, decodes⟩ := popMessage_eq_item popped
        obtain ⟨rfl, small⟩ := tryPopFrame_ok frame
        obtain ⟨bodies, rfl, decodings, smalls⟩ := ih
        refine ⟨body :: bodies, by simp, by simp [decodes, decodings], ?_⟩
        exact List.forall_mem_cons.mpr ⟨small, smalls⟩
  · rintro ⟨bodies, rfl, decodings, smalls⟩
    induction bodies generalizing decoded with
    | nil =>
        obtain rfl : decoded = [] := by simpa using decodings.symm
        exact .nil _
    | cons body bodies ih =>
        obtain ⟨small, smalls⟩ := List.forall_mem_cons.mp smalls
        cases decoded with
        | nil => simp at decodings
        | cons message decoded =>
            obtain ⟨decodes, decodings⟩ : ProtobufWireCodec.decode body = some message ∧
                bodies.map ProtobufWireCodec.decode = decoded.map some := by
              simpa using decodings
            rw [List.flatMap_cons, List.append_assoc]
            exact .cons (popMessage_message (tryPopFrame_makeFrame small _) decodes)
              (ih decodings smalls)

theorem stuck_iff {rest : List UInt8} :
    messages.Stuck rest ↔ ¬ ∃ body tail message, rest = makeFrame body ++ tail ∧
      body.length ≤ kMaxFrameSize.toNat ∧ ProtobufWireCodec.decode body = some message := by
  constructor
  · rintro stuck ⟨body, tail, message, rfl, small, decodes⟩
    exact stuck message tail (popMessage_message (tryPopFrame_makeFrame small tail) decodes)
  · intro maximal message tail popped
    obtain ⟨body, frame, decodes⟩ := popMessage_eq_item popped
    obtain ⟨rfl, small⟩ := tryPopFrame_ok frame
    exact maximal ⟨body, tail, message, rfl, small, decodes⟩

/-- **The maximal run is the parse that cannot be continued.** -/
theorem maximalRun_iff {stream rest : List UInt8} {decoded : List RpcMessage} :
    MaximalRun stream decoded rest ↔ messages.Parses stream decoded rest ∧ messages.Stuck rest := by
  rw [parses_iff_framesOf, stuck_iff]
  exact ⟨fun run => ⟨run.frames, run.maximal⟩, fun both => ⟨both.1, both.2⟩⟩

/-- **Every stream has a maximal run.** -/
theorem exists_maximalRun (stream : List UInt8) : ∃ decoded rest, MaximalRun stream decoded rest := by
  obtain ⟨decoded, rest, parsed, stuck⟩ := messages.exists_stuck stream
  exact ⟨decoded, rest, maximalRun_iff.mpr ⟨parsed, stuck⟩⟩

/-- **A stream has no other maximal run.** -/
theorem MaximalRun.unique {stream rest rest' : List UInt8} {decoded decoded' : List RpcMessage}
    (run : MaximalRun stream decoded rest) (run' : MaximalRun stream decoded' rest') :
    decoded' = decoded ∧ rest' = rest := by
  obtain ⟨parsed, stuck⟩ := maximalRun_iff.mp run
  obtain ⟨parsed', stuck'⟩ := maximalRun_iff.mp run'
  exact parsed'.eq_of_stuck stuck' parsed stuck

theorem badFrame_iff {rest : List UInt8} : BadFrame rest ↔ ∃ reason, popMessage rest = .bad reason := by
  constructor
  · rintro (oversized | ⟨body, tail, rfl, small, rejected⟩)
    · exact ⟨_, popMessage_tooLarge ((tryPopFrame_tooLarge_iff rest).mpr oversized)⟩
    · exact ⟨_, popMessage_undecodable (tryPopFrame_makeFrame small tail) rejected⟩
  · rintro ⟨reason, popped⟩
    rcases popMessage_eq_bad popped with ⟨frame, _⟩ | ⟨body, tail, frame, rejected, _⟩
    · exact Or.inl ((tryPopFrame_tooLarge_iff rest).mp frame)
    · obtain ⟨rfl, small⟩ := tryPopFrame_ok frame
      exact Or.inr ⟨body, tail, rfl, small, rejected⟩

/-- What is needed to read on is not bad. -/
theorem not_badFrame_of_needMore {rest : List UInt8} (popped : popMessage rest = .needMore) :
    ¬ BadFrame rest := by
  rw [badFrame_iff]
  rintro ⟨reason, rejected⟩
  rw [popped] at rejected
  cases rejected

end Insist.MiniRpc
