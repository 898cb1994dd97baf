/-
**The hand-written codec against the schema of `proto/rpc.proto`.**

`serialize` is the proto3 serialization of the message that the schema declares. Record by record it is what
`encode` writes, the status record excepted: the schema's `int32` is sign-extended to 64 bits
(`field_int32`), `encode` writes it as a `std::uint32_t`. So the two agree, and `decode` reads the
serialization back, exactly for the non-negative statuses (`serialize_iff_status_nonneg`); for a negative one
the bytes differ (`encode_ne_of_neg`), and `decode` refuses what the schema prescribes
(`decode_serialize_of_neg`).
-/
import Insist.Lib.Proto3
import Insist.MiniRpc.RoundTrip

namespace Insist.MiniRpc

open Insist.Lib

/-- The values of `RpcMessage::Kind` that have a name. -/
def Kind.Named (kind : Kind) : Prop :=
  kind = .unknown ∨ kind = .request ∨ kind = .response ∨ kind = .notify ∨ kind = .heartbeat

/-- The fields of `message RpcMessage` in `proto/rpc.proto`, in number order. -/
def RpcMessage.fields (message : RpcMessage) : List (ℕ × Proto3.Value) :=
  [(1, .uint64 message.id),
    (2, .enum message.kind.code.toInt32),
    (3, .string message.service.data),
    (4, .string message.method.data),
    (5, .bytes message.payload.data),
    (6, .int32 message.status),
    (7, .string message.error.data)]

/-- The standard proto3 serialization of the message. -/
def RpcMessage.serialize (message : RpcMessage) : List UInt8 := Proto3.serialize message.fields

namespace ProtobufWireCodec

/-! ### The records of the two encoders -/

/-- A varint field whose value the two encoders agree on. -/
theorem varintPart_eq {fieldNumber : UInt32} {value : UInt64} {field : Proto3.Value}
    (tag : (tagOf fieldNumber kWireVarint).toNat = fieldNumber.toNat * 8 + 0) (wire : field.wireType = 0)
    (default : field.isDefault = true ↔ value = 0)
    (payload : field.payload = Leb128.write value.toNat) :
    varintPart fieldNumber value = Proto3.field fieldNumber.toNat field := by
  unfold varintPart Proto3.field
  by_cases zero : value = 0
  · rw [if_neg (not_not.mpr zero), if_pos (default.mpr zero)]
  · rw [if_pos zero, if_neg fun isDefault => zero (default.mp isDefault), varintRecord, tag, wire,
      payload]

theorem lengthPart_eq {fieldNumber : UInt32} {value : ByteString} {field : Proto3.Value}
    (tag : (tagOf fieldNumber kWireLengthDelimited).toNat = fieldNumber.toNat * 8 + 2)
    (wire : field.wireType = 2)
    (default : field.isDefault = true ↔ value.data = [])
    (payload : field.payload = Leb128.write value.data.length ++ value.data) :
    lengthPart fieldNumber value = Proto3.field fieldNumber.toNat field := by
  unfold lengthPart Proto3.field
  by_cases empty : value.data = []
  · have isEmpty : value.empty = true := List.isEmpty_iff.mpr empty
    rw [if_neg (not_not.mpr isEmpty), if_pos (default.mpr empty)]
  · have filled : ¬ value.empty = true := fun isEmpty => empty (List.isEmpty_iff.mp isEmpty)
    rw [if_pos filled, if_neg fun isDefault => empty (default.mp isDefault), lengthRecord, tag, wire, payload,
      value.toNat_size]

/-- A named kind is its own number. -/
theorem kindPart_eq {kind : Kind} (named : kind.Named) :
    varintPart 2 kind.code.toUInt64 = Proto3.field 2 (.enum kind.code.toInt32) := by
  refine varintPart_eq (by decide) rfl ?_ ?_
  · rcases named with rfl | rfl | rfl | rfl | rfl <;> decide
  · rcases named with rfl | rfl | rfl | rfl | rfl <;> rfl

/-- The `std::uint64_t` of a sign-extended status. -/
def statusWord (status : Int32) : UInt64 := UInt64.ofNat (Proto3.signExtended status)

theorem toNat_statusWord (status : Int32) :
    (statusWord status).toNat = Proto3.signExtended status := by
  rw [statusWord, UInt64.toNat_ofNat']
  exact Nat.mod_eq_of_lt (Proto3.signExtended_lt status)

/-- The status field of the schema, as a varint. -/
theorem field_int32 (status : Int32) :
    varintPart 6 (statusWord status) = Proto3.field 6 (.int32 status) := by
  refine varintPart_eq (by decide) rfl ?_ ?_
  · rw [← UInt64.toNat_inj, toNat_statusWord]
    show decide (status = 0) = true ↔ Proto3.signExtended status = 0
    rw [decide_eq_true_iff, Proto3.signExtended_eq_zero_iff]
  · rw [toNat_statusWord]
    rfl

theorem toInt_eq_toNat_cond (status : Int32) :
    status.toInt = if 2 * status.toUInt32.toNat < 2 ^ 32 then (status.toUInt32.toNat : ℤ)
      else (status.toUInt32.toNat : ℤ) - 2 ^ 32 :=
  BitVec.toInt_eq_toNat_cond status.toBitVec

/-- The two words for a status are the same exactly if it is not negative. -/
theorem statusWord_eq_iff (status : Int32) :
    status.toUInt32.toUInt64 = statusWord status ↔ 0 ≤ status := by
  have cond := toInt_eq_toNat_cond status
  have bound := status.toUInt32.toNat_lt
  rw [← UInt64.toNat_inj, toNat_statusWord, UInt32.toNat_toUInt64, Int32.le_iff_toInt_le]
  show _ ↔ 0 ≤ status.toInt
  by_cases nonneg : 0 ≤ status.toInt
  · have extended := Proto3.signExtended_of_nonneg nonneg
    split at cond <;> omega
  · have extended := Proto3.signExtended_of_neg (not_le.mp nonneg)
    split at cond <;> omega

/-- The schema's word for a negative status is above what the decoder takes. -/
theorem statusWord_large {status : Int32} (negative : ¬ 0 ≤ status) : statusWord status > 0x7fffffff := by
  rw [Int32.le_iff_toInt_le] at negative
  have lower := status.le_toInt
  have extended := Proto3.signExtended_of_neg (not_le.mp negative)
  rw [gt_iff_lt, UInt64.lt_iff_toNat_lt, toNat_statusWord]
  show 2147483647 < Proto3.signExtended status
  omega

/-- **The serialization differs from the encoding in the status word only.** -/
theorem serialize_eq {message : RpcMessage} (named : message.kind.Named) :
    message.serialize =
      varintPart 1 message.id ++ (varintPart 2 message.kind.code.toUInt64 ++
        (lengthPart 3 message.service ++ (lengthPart 4 message.method ++
          (lengthPart 5 message.payload ++ (varintPart 6 (statusWord message.status) ++
            lengthPart 7 message.error))))) := by
  have id : varintPart 1 message.id = Proto3.field 1 (.uint64 message.id) :=
    varintPart_eq (by decide) rfl decide_eq_true_iff rfl
  have service : lengthPart 3 message.service = Proto3.field 3 (.string message.service.data) :=
    lengthPart_eq (by decide) rfl decide_eq_true_iff rfl
  have method : lengthPart 4 message.method = Proto3.field 4 (.string message.method.data) :=
    lengthPart_eq (by decide) rfl decide_eq_true_iff rfl
  have payload : lengthPart 5 message.payload = Proto3.field 5 (.bytes message.payload.data) :=
    lengthPart_eq (by decide) rfl decide_eq_true_iff rfl
  have error : lengthPart 7 message.error = Proto3.field 7 (.string message.error.data) :=
    lengthPart_eq (by decide) rfl decide_eq_true_iff rfl
  rw [id, kindPart_eq named, service, method, payload, field_int32, error]
  rw [RpcMessage.serialize, RpcMessage.fields, Proto3.serialize_cons, Proto3.serialize_cons,
    Proto3.serialize_cons, Proto3.serialize_cons, Proto3.serialize_cons, Proto3.serialize_cons,
    Proto3.serialize_singleton]

/-! ### The two encoders -/

/-- **A message with a non-negative status is encoded as the schema prescribes.** -/
theorem encode_eq_serialize {message : RpcMessage} (named : message.kind.Named)
    (nonneg : 0 ≤ message.status) : encode message = message.serialize := by
  rw [encode_eq, serialize_eq named, (statusWord_eq_iff message.status).mpr nonneg]

/-- A non-zero status is not left out. -/
theorem varintPart_status {value : UInt64} (large : value > 0x7fffffff) :
    varintPart 6 value = varintRecord 6 value := by
  refine if_pos ?_
  rintro rfl
  exact absurd large (by decide)

/-- **A message with a negative status is not.** -/
theorem encode_ne_of_neg {message : RpcMessage} (named : message.kind.Named)
    (negative : ¬ 0 ≤ message.status) : encode message ≠ message.serialize := by
  intro same
  rw [encode_eq, serialize_eq named] at same
  have status := List.append_cancel_right (List.append_cancel_left (List.append_cancel_left
    (List.append_cancel_left (List.append_cancel_left (List.append_cancel_left same)))))
  have small : message.status.toUInt32.toUInt64 > 0x7fffffff :=
    not_not.mp fun small => negative ((status_nonneg_iff _).mpr small)
  rw [varintPart_status small, varintPart_status (statusWord_large negative), varintRecord,
    varintRecord] at status
  have words := congrArg Leb128.value (List.append_cancel_left status)
  rw [Leb128.value_write, Leb128.value_write] at words
  exact negative ((statusWord_eq_iff _).mp (UInt64.toNat_inj.mp words))

/-- **The decoder refuses what the schema prescribes for a negative status.** -/
theorem decode_serialize_of_neg {message : RpcMessage} (named : message.kind.Named)
    (negative : ¬ 0 ≤ message.status) : decode message.serialize = none := by
  have large := statusWord_large negative
  have regroup : message.serialize =
      (varintPart 1 message.id ++ (varintPart 2 message.kind.code.toUInt64 ++
        (lengthPart 3 message.service ++ (lengthPart 4 message.method ++
          lengthPart 5 message.payload)))) ++
      (varintRecord 6 (statusWord message.status) ++ lengthPart 7 message.error) := by
    rw [serialize_eq named, varintPart_status large]
    simp only [List.append_assoc]
  rw [regroup, (decodes_before_status message).decode_append]
  exact decodeLoop_varintRecord_none List.drop_left (by decide) (by decide)
    fun bytes pos next read => by rw [decodeSwitch_status _ read, if_pos large]

/-- **The codec is wire compatible with the schema exactly on the non-negative statuses**, over all ids, named
kinds and byte strings. -/
theorem serialize_iff_status_nonneg (message : RpcMessage) (named : message.kind.Named) :
    encode message = message.serialize ∧ decode message.serialize = some message ↔ 0 ≤ message.status := by
  constructor
  · intro both
    by_contra negative
    exact encode_ne_of_neg named negative both.1
  · intro nonneg
    have same := encode_eq_serialize named nonneg
    refine ⟨same, ?_⟩
    rw [← same]
    exact decode_encode_of_nonneg nonneg

theorem serialize_response :
    encode { id := 300, kind := .response, status := 7 } =
        RpcMessage.serialize { id := 300, kind := .response, status := 7 } ∧
      decode (RpcMessage.serialize { id := 300, kind := .response, status := 7 }) =
        some { id := 300, kind := .response, status := 7 } :=
  (serialize_iff_status_nonneg _ (Or.inr (Or.inr (Or.inl rfl)))).mpr (by decide)

/-- A response with status `-1` is neither encoded as the schema prescribes nor read from it. -/
theorem serialize_fails_on_status_minus_one :
    ¬ (encode { kind := .response, status := -1 } =
        RpcMessage.serialize { kind := .response, status := -1 } ∧
      decode (RpcMessage.serialize { kind := .response, status := -1 }) =
        some { kind := .response, status := -1 }) := by
  decide +kernel

end ProtobufWireCodec

end Insist.MiniRpc
