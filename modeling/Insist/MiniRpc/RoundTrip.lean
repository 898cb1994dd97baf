/-
**Decoding what was encoded.**

`encode` is the concatenation of seven optional records (`encode_eq`), each a tag and a varint
(`varintRecord`) or a tag, a size and the bytes (`lengthRecord`). One iteration of `decode` on a
record consumes exactly that record, whatever stands around it, and sets exactly its field
(`decodes_varintRecord`, `decodes_lengthRecord`); the seven steps compose in
`roundTrip_iff_status_nonneg`: **every message with a non-negative status comes back, every other one is
rejected by the decoder** — `encode` writes a negative status as a `std::uint32_t` of at least
`2 ^ 31`, and `decode` refuses a status above `2 ^ 31 - 1`.
-/
import Insist.MiniRpc.Varint

namespace Insist.MiniRpc.ProtobufWireCodec

open Insist.Lib

/-! ### The records of an encoding -/

/-- The value `write_tag` writes. -/
def tagOf (fieldNumber wireType : UInt32) : UInt64 :=
  (fieldNumber.toUInt64 <<< 3) ||| wireType.toUInt64

/-- A varint field on the wire. -/
def varintRecord (fieldNumber : UInt32) (value : UInt64) : List UInt8 :=
  Leb128.write (tagOf fieldNumber kWireVarint).toNat ++ Leb128.write value.toNat

/-- A length-delimited field on the wire. -/
def lengthRecord (fieldNumber : UInt32) (value : ByteString) : List UInt8 :=
  Leb128.write (tagOf fieldNumber kWireLengthDelimited).toNat ++
    (Leb128.write value.size.toNat ++ value.data)

/-- A varint field that is left out at its default. -/
def varintPart (fieldNumber : UInt32) (value : UInt64) : List UInt8 :=
  if value ≠ 0 then varintRecord fieldNumber value else []

/-- A length-delimited field that is left out at its default. -/
def lengthPart (fieldNumber : UInt32) (value : ByteString) : List UInt8 :=
  if ¬ value.empty then lengthRecord fieldNumber value else []

theorem writeVarint_writeTag (out : List UInt8) (fieldNumber : UInt32) (value : UInt64) :
    writeVarint (writeTag out fieldNumber kWireVarint) value = out ++ varintRecord fieldNumber value := by
  rw [writeTag, writeVarint_eq, writeVarint_eq, varintRecord, tagOf, List.append_assoc]

theorem writeLengthDelimited_eq (out : List UInt8) (fieldNumber : UInt32) (value : ByteString) :
    writeLengthDelimited out fieldNumber value = out ++ lengthRecord fieldNumber value := by
  simp only [writeLengthDelimited, writeTag, writeVarint_eq, lengthRecord, tagOf, List.append_assoc]

theorem append_varintPart (out : List UInt8) (fieldNumber : UInt32) (value : UInt64) :
    (if value ≠ 0 then writeVarint (writeTag out fieldNumber kWireVarint) value else out) =
      out ++ varintPart fieldNumber value := by
  unfold varintPart
  split_ifs
  · exact writeVarint_writeTag out fieldNumber value
  · rw [List.append_nil]

theorem append_lengthPart (out : List UInt8) (fieldNumber : UInt32) (value : ByteString) :
    (if ¬ value.empty then writeLengthDelimited out fieldNumber value else out) =
      out ++ lengthPart fieldNumber value := by
  unfold lengthPart
  split_ifs
  · rw [List.append_nil]
  · exact writeLengthDelimited_eq out fieldNumber value

theorem kind_ne_unknown_iff (kind : Kind) : kind ≠ .unknown ↔ kind.code.toUInt64 ≠ 0 := by
  rw [not_iff_not]
  constructor
  · rintro rfl
    rfl
  · intro zero
    have code : kind.code = 0 := by
      apply UInt32.toNat_inj.mp
      have := congrArg UInt64.toNat zero
      rwa [UInt32.toNat_toUInt64] at this
    cases kind
    cases code
    rfl

theorem status_ne_zero_iff (status : Int32) : status ≠ 0 ↔ status.toUInt32.toUInt64 ≠ 0 := by
  rw [not_iff_not]
  constructor
  · rintro rfl
    rfl
  · intro zero
    have word : status.toUInt32 = 0 := by
      apply UInt32.toNat_inj.mp
      have := congrArg UInt64.toNat zero
      rwa [UInt32.toNat_toUInt64] at this
    exact congrArg UInt32.toInt32 word

/-- **An encoding is seven optional records, in field order.** -/
theorem encode_eq (message : RpcMessage) :
    encode message =
      varintPart 1 message.id ++ (varintPart 2 message.kind.code.toUInt64 ++
        (lengthPart 3 message.service ++ (lengthPart 4 message.method ++
          (lengthPart 5 message.payload ++ (varintPart 6 message.status.toUInt32.toUInt64 ++
            lengthPart 7 message.error))))) := by
  simp only [encode, kind_ne_unknown_iff, status_ne_zero_iff, append_varintPart, append_lengthPart,
    List.nil_append, List.append_assoc]

/-! ### Reading one record -/

section Reading

variable {bytes rest : List UInt8} {pos : ℕ}

/-- The bytes unread after the front of the unread bytes was read. -/
theorem drop_after {front : List UInt8} (unread : bytes.drop pos = front ++ rest) :
    bytes.drop (pos + front.length) = rest := by
  rw [← List.drop_drop, unread, List.drop_left]

theorem pos_lt_of_unread {front : List UInt8} (nonempty : front ≠ [])
    (unread : bytes.drop pos = front ++ rest) : pos < bytes.length := by
  by_contra outside
  rw [List.drop_eq_nil_of_le (by omega)] at unread
  exact nonempty (List.append_eq_nil_iff.mp unread.symm).1

theorem readLengthDelimitedField_of_unread {value : ByteString}
    (unread : bytes.drop pos = (Leb128.write value.size.toNat ++ value.data) ++ rest) :
    readLengthDelimitedField bytes pos kWireLengthDelimited =
      some (value, pos + (Leb128.write value.size.toNat ++ value.data).length) := by
  rw [List.append_assoc] at unread
  have unreadData := drop_after unread
  have enough : ¬ value.size.toNat >
      bytes.length - (pos + (Leb128.write value.size.toNat).length) := by
    have := congrArg List.length unreadData
    rw [List.length_drop, List.length_append] at this
    rw [value.toNat_size] at this ⊢
    omega
  have data : substr bytes (pos + (Leb128.write value.size.toNat).length) value.size = value := by
    apply ByteString.ext_data
    simp only [substr]
    rw [unreadData, value.toNat_size, List.take_left]
  simp only [readLengthDelimitedField, readVarint_of_unread unread]
  rw [if_neg (fun different => different rfl), if_neg enough, data, List.length_append,
    value.toNat_size, Nat.add_assoc]

end Reading

/-! ### Decoding record by record -/

/-- Wherever it stands, `part` takes `decode`'s loop from `message` to `message'`. -/
def Decodes (part : List UInt8) (message message' : RpcMessage) : Prop :=
  ∀ (bytes : List UInt8) (pos : ℕ) (rest : List UInt8), bytes.drop pos = part ++ rest →
    decodeLoop bytes pos message = decodeLoop bytes (pos + part.length) message'

namespace Decodes

theorem nil (message : RpcMessage) : Decodes [] message message :=
  fun _ _ _ _ => rfl

theorem append {first second : List UInt8} {message middle final : RpcMessage}
    (left : Decodes first message middle) (right : Decodes second middle final) :
    Decodes (first ++ second) message final := by
  intro bytes pos rest unread
  rw [List.append_assoc] at unread
  rw [left bytes pos _ unread, right bytes _ rest (drop_after unread), List.length_append,
    Nat.add_assoc]

/-- A record that one iteration consumes. -/
theorem of_field {record : List UInt8} {message message' : RpcMessage} (nonempty : record ≠ [])
    (field : ∀ (bytes : List UInt8) (pos : ℕ) (rest : List UInt8), bytes.drop pos = record ++ rest →
      decodeField bytes pos message = some (message', pos + record.length)) :
    Decodes record message message' := by
  intro bytes pos rest unread
  exact decodeLoop_of_field (pos_lt_of_unread nonempty unread) (field bytes pos rest unread)

/-- What stands in front of the rest of the input. -/
theorem decode_append {first second : List UInt8} {message : RpcMessage}
    (decodes : Decodes first {} message) :
    decode (first ++ second) = decodeLoop (first ++ second) first.length message := by
  rw [decode, decodes (first ++ second) 0 second rfl, Nat.zero_add]

/-- The whole input. -/
theorem decode_eq {bytes : List UInt8} {message : RpcMessage} (decodes : Decodes bytes {} message) :
    decode bytes = some message := by
  have whole : decode (bytes ++ []) = _ := decodes.decode_append
  rw [List.append_nil] at whole
  rw [whole, decodeLoop_of_end (lt_irrefl _)]

end Decodes

/-! ### The seven fields -/

theorem varintRecord_ne_nil (fieldNumber : UInt32) (value : UInt64) :
    varintRecord fieldNumber value ≠ [] := by
  simp [varintRecord, Leb128.write_ne_nil]

theorem lengthRecord_ne_nil (fieldNumber : UInt32) (value : ByteString) :
    lengthRecord fieldNumber value ≠ [] := by
  simp [lengthRecord, Leb128.write_ne_nil]

/-- **A varint record is consumed whole**: the switch reads exactly its value. -/
theorem decodes_varintRecord {fieldNumber : UInt32} {value : UInt64}
    {message message' : RpcMessage}
    (number : (tagOf fieldNumber kWireVarint >>> 3).toUInt32 = fieldNumber)
    (wire : (tagOf fieldNumber kWireVarint &&& 0x07).toUInt32 = kWireVarint)
    (sets : ∀ (bytes : List UInt8) (pos next : ℕ),
      readVarintField bytes pos kWireVarint = some (value, next) →
      decodeSwitch bytes pos message fieldNumber kWireVarint = some (message', next)) :
    Decodes (varintRecord fieldNumber value) message message' := by
  refine .of_field (varintRecord_ne_nil _ _) fun bytes pos rest unread => ?_
  rw [varintRecord, List.append_assoc] at unread
  have read := readVarint_of_unread (drop_after unread)
  rw [decodeField, readVarint_of_unread unread]
  show decodeSwitch _ _ _ _ _ = _
  rw [number, wire, sets bytes _ _ ((if_neg (fun different => different rfl)).trans read),
    varintRecord, Nat.add_assoc, ← List.length_append]

/-- **A length-delimited record is consumed whole.** -/
theorem decodes_lengthRecord {fieldNumber : UInt32} {value : ByteString}
    {message message' : RpcMessage}
    (number : (tagOf fieldNumber kWireLengthDelimited >>> 3).toUInt32 = fieldNumber)
    (wire : (tagOf fieldNumber kWireLengthDelimited &&& 0x07).toUInt32 = kWireLengthDelimited)
    (sets : ∀ (bytes : List UInt8) (pos next : ℕ),
      readLengthDelimitedField bytes pos kWireLengthDelimited = some (value, next) →
      decodeSwitch bytes pos message fieldNumber kWireLengthDelimited = some (message', next)) :
    Decodes (lengthRecord fieldNumber value) message message' := by
  refine .of_field (lengthRecord_ne_nil _ _) fun bytes pos rest unread => ?_
  rw [lengthRecord, List.append_assoc] at unread
  have read := readLengthDelimitedField_of_unread (drop_after unread)
  rw [decodeField, readVarint_of_unread unread]
  show decodeSwitch _ _ _ _ _ = _
  rw [number, wire, sets bytes _ _ read, lengthRecord, Nat.add_assoc, ← List.length_append]

/-- A varint record whose value the switch refuses ends the decoding. -/
theorem decodeLoop_varintRecord_none {bytes rest : List UInt8} {pos : ℕ} {fieldNumber : UInt32}
    {value : UInt64} {message : RpcMessage}
    (unread : bytes.drop pos = varintRecord fieldNumber value ++ rest)
    (number : (tagOf fieldNumber kWireVarint >>> 3).toUInt32 = fieldNumber)
    (wire : (tagOf fieldNumber kWireVarint &&& 0x07).toUInt32 = kWireVarint)
    (refuses : ∀ (bytes : List UInt8) (pos next : ℕ),
      readVarintField bytes pos kWireVarint = some (value, next) →
      decodeSwitch bytes pos message fieldNumber kWireVarint = none) :
    decodeLoop bytes pos message = none := by
  have inside := pos_lt_of_unread (varintRecord_ne_nil fieldNumber value) unread
  rw [varintRecord, List.append_assoc] at unread
  have read := readVarint_of_unread (drop_after unread)
  have failed : decodeField bytes pos message = none := by
    rw [decodeField, readVarint_of_unread unread]
    show decodeSwitch _ _ _ _ _ = _
    rw [number, wire]
    exact refuses bytes _ _ ((if_neg (fun different => different rfl)).trans read)
  exact decodeLoop_of_failed inside failed

/-- A field left out at its default leaves the message as it was. -/
theorem decodes_varintPart {fieldNumber : UInt32} {value : UInt64} {message message' : RpcMessage}
    (record : Decodes (varintRecord fieldNumber value) message message')
    (default : value = 0 → message' = message) :
    Decodes (varintPart fieldNumber value) message message' := by
  unfold varintPart
  split_ifs with present
  · exact record
  · rw [default (not_not.mp present)]
    exact .nil message

theorem decodes_lengthPart {fieldNumber : UInt32} {value : ByteString}
    {message message' : RpcMessage}
    (record : Decodes (lengthRecord fieldNumber value) message message')
    (default : value = .nil → message' = message) :
    Decodes (lengthPart fieldNumber value) message message' := by
  unfold lengthPart
  split_ifs with isEmpty
  · rw [default (ByteString.eq_nil_of_empty isEmpty)]
    exact .nil message
  · exact record

theorem status_nonneg_iff (status : Int32) :
    0 ≤ status ↔ ¬ status.toUInt32.toUInt64 > 0x7fffffff := by
  have bits : status.toBitVec.toNat = status.toUInt32.toNat := rfl
  have maximum : (0x7fffffff : UInt64).toNat = 2147483647 := rfl
  have bound := status.toUInt32.toNat_lt
  rw [Int32.le_iff_toInt_le, gt_iff_lt, UInt64.lt_iff_toNat_lt, UInt32.toNat_toUInt64, maximum]
  show 0 ≤ status.toBitVec.toInt ↔ _
  rw [BitVec.toInt_eq_toNat_cond, bits]
  split <;> omega

section Fields

variable (message : RpcMessage)

theorem decodes_id (value : UInt64) :
    Decodes (varintRecord 1 value) message { message with id := value } :=
  decodes_varintRecord (by decide) (by decide) fun bytes pos next read => by
    simp only [decodeSwitch, if_true, read, Option.map_some]

theorem decodes_kind (value : Kind) :
    Decodes (varintRecord 2 value.code.toUInt64) message { message with kind := value } :=
  decodes_varintRecord (by decide) (by decide) fun bytes pos next read => by
    rw [decodeSwitch, if_neg (by decide), if_pos rfl, read, Option.map_some]
    simp only [UInt32.toUInt32_toUInt64]

theorem decodes_service (value : ByteString) :
    Decodes (lengthRecord 3 value) message { message with service := value } :=
  decodes_lengthRecord (by decide) (by decide) fun bytes pos next read => by
    rw [decodeSwitch, if_neg (by decide), if_neg (by decide), if_pos rfl, read, Option.map_some]

theorem decodes_method (value : ByteString) :
    Decodes (lengthRecord 4 value) message { message with method := value } :=
  decodes_lengthRecord (by decide) (by decide) fun bytes pos next read => by
    rw [decodeSwitch, if_neg (by decide), if_neg (by decide), if_neg (by decide), if_pos rfl, read,
      Option.map_some]

theorem decodes_payload (value : ByteString) :
    Decodes (lengthRecord 5 value) message { message with payload := value } :=
  decodes_lengthRecord (by decide) (by decide) fun bytes pos next read => by
    rw [decodeSwitch, if_neg (by decide), if_neg (by decide), if_neg (by decide),
      if_neg (by decide), if_pos rfl, read, Option.map_some]

theorem decodes_error (value : ByteString) :
    Decodes (lengthRecord 7 value) message { message with error := value } :=
  decodes_lengthRecord (by decide) (by decide) fun bytes pos next read => by
    rw [decodeSwitch, if_neg (by decide), if_neg (by decide), if_neg (by decide),
      if_neg (by decide), if_neg (by decide), if_pos rfl, read, Option.map_some]

theorem decodeSwitch_status {bytes : List UInt8} {pos next : ℕ} {value : UInt64}
    (read : readVarintField bytes pos kWireVarint = some (value, next)) :
    decodeSwitch bytes pos message 6 kWireVarint =
      if value > 0x7fffffff then none
      else some ({ message with status := value.toUInt32.toInt32 }, next) := by
  rw [decodeSwitch, if_neg (by decide), if_neg (by decide), if_neg (by decide),
    if_neg (by decide), if_neg (by decide), if_neg (by decide), if_pos rfl, read]

theorem decodes_status {value : Int32} (nonneg : 0 ≤ value) :
    Decodes (varintRecord 6 value.toUInt32.toUInt64) message { message with status := value } :=
  decodes_varintRecord (by decide) (by decide) fun bytes pos next read => by
    rw [decodeSwitch_status message read, if_neg ((status_nonneg_iff value).mp nonneg),
      UInt32.toUInt32_toUInt64]
    rfl

end Fields

/-! ### The round trip -/

/-- The records before the status record rebuild everything up to the status. -/
theorem decodes_before_status (message : RpcMessage) :
    Decodes (varintPart 1 message.id ++ (varintPart 2 message.kind.code.toUInt64 ++
        (lengthPart 3 message.service ++ (lengthPart 4 message.method ++
          lengthPart 5 message.payload)))) {}
      { message with status := 0, error := .nil } := by
  have kindDefault : message.kind.code.toUInt64 = 0 → message.kind = .unknown := fun zero =>
    not_not.mp fun different => (kind_ne_unknown_iff message.kind).mp different zero
  refine .append (decodes_varintPart (decodes_id _ message.id) fun zero => by rw [zero]) ?_
  refine .append (decodes_varintPart (decodes_kind _ message.kind) fun zero => by
    rw [kindDefault zero]) ?_
  refine .append (decodes_lengthPart (decodes_service _ message.service) fun empty => by
    rw [empty]) ?_
  refine .append (decodes_lengthPart (decodes_method _ message.method) fun empty => by
    rw [empty]) ?_
  exact decodes_lengthPart (decodes_payload _ message.payload) fun empty => by rw [empty]

/-- **Every message with a non-negative status comes back from its encoding.** -/
theorem decode_encode_of_nonneg {message : RpcMessage} (nonneg : 0 ≤ message.status) :
    decode (encode message) = some message := by
  apply Decodes.decode_eq
  have statusDefault : message.status.toUInt32.toUInt64 = 0 → message.status = 0 := fun zero =>
    not_not.mp fun different => (status_ne_zero_iff message.status).mp different zero
  have last : Decodes (varintPart 6 message.status.toUInt32.toUInt64 ++
      lengthPart 7 message.error) { message with status := 0, error := .nil } message := by
    refine .append (decodes_varintPart (decodes_status _ nonneg) fun zero => by
      rw [statusDefault zero]) ?_
    refine decodes_lengthPart (decodes_error _ message.error) fun empty => ?_
    cases message
    cases empty
    rfl
  have whole := (decodes_before_status message).append last
  simp only [List.append_assoc] at whole
  rw [encode_eq]
  exact whole

/-- **The encoding of a message with a negative status is rejected.** -/
theorem decode_encode_of_neg {message : RpcMessage} (negative : ¬ 0 ≤ message.status) :
    decode (encode message) = none := by
  have large : message.status.toUInt32.toUInt64 > 0x7fffffff :=
    not_not.mp fun small => negative ((status_nonneg_iff _).mpr small)
  have present : varintPart 6 message.status.toUInt32.toUInt64 =
      varintRecord 6 message.status.toUInt32.toUInt64 := by
    refine if_pos fun zero => ?_
    rw [zero] at large
    exact absurd large (by decide)
  have regroup : encode message =
      (varintPart 1 message.id ++ (varintPart 2 message.kind.code.toUInt64 ++
        (lengthPart 3 message.service ++ (lengthPart 4 message.method ++
          lengthPart 5 message.payload)))) ++
      (varintRecord 6 message.status.toUInt32.toUInt64 ++ lengthPart 7 message.error) := by
    rw [encode_eq, present]
    simp only [List.append_assoc]
  rw [regroup, (decodes_before_status message).decode_append]
  exact decodeLoop_varintRecord_none List.drop_left (by decide) (by decide)
    fun bytes pos next read => by rw [decodeSwitch_status _ read, if_pos large]

/-- **The codec round trip holds exactly for the non-negative statuses**, over all ids, kinds and
byte strings. -/
theorem roundTrip_iff_status_nonneg (message : RpcMessage) :
    decode (encode message) = some message ↔ 0 ≤ message.status := by
  constructor
  · intro comesBack
    by_contra negative
    rw [decode_encode_of_neg negative] at comesBack
    cases comesBack
  · exact decode_encode_of_nonneg

/-- A status of `-1` does not come back. -/
theorem roundTrip_fails_on_status_minus_one :
    decode (encode { status := -1 }) ≠ some { status := -1 } := by
  decide +kernel

end Insist.MiniRpc.ProtobufWireCodec
