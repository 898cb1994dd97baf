/-
**Decoding and encoding again.**

A record that `decode` accepts is at least as long as the part that `encode` writes for its field
(`length_part_set_le`): the tag of a field takes one byte, and no group of a varint's value is shorter than the
one `write_varint` writes. So a message is charged to the records it was decoded from:

* `status_nonneg_of_decode` — a decoded status is not negative, so the message comes back from its encoding;
* `length_encode_le` — **the encoding of a decoded message is no longer than what it was decoded from**;
* `decode_then_encode` — a message that came in an admissible frame is never refused by `Session::send`.
-/
import Insist.MiniRpc.Endpoint
import Insist.MiniRpc.Merge
import Mathlib.Algebra.BigOperators.Group.Finset.Piecewise
import Mathlib.Algebra.Order.BigOperators.Group.Finset

namespace Insist.MiniRpc.ProtobufWireCodec

open Insist.Lib

/-! ### The part of a field -/

instance fintypeField : Fintype Field where
  elems := {.id, .kind, .service, .method, .payload, .status, .error}
  complete field := by cases field <;> decide

/-- What `encode` writes for a field. -/
def Field.part (message : RpcMessage) : Field → List UInt8
  | id => varintPart 1 message.id
  | kind => varintPart 2 message.kind.code.toUInt64
  | service => lengthPart 3 message.service
  | method => lengthPart 4 message.method
  | payload => lengthPart 5 message.payload
  | status => varintPart 6 message.status.toUInt32.toUInt64
  | error => lengthPart 7 message.error

/-- A part depends on its own field only. -/
theorem part_eq_of_get {field : Field} {message message' : RpcMessage}
    (same : field.get message' = field.get message) : field.part message' = field.part message := by
  cases field <;> simp only [Field.get] at same <;> simp only [Field.part, same]

/-- An encoding is the parts of its fields. -/
theorem length_encode (message : RpcMessage) :
    (encode message).length = ∑ field : Field, (field.part message).length := by
  rw [encode_eq]
  simp [Finset.univ, Fintype.elems, Field.part]

theorem toNat_narrowed_le (value : UInt64) : value.toUInt32.toUInt64.toNat ≤ value.toNat := by
  rw [UInt32.toNat_toUInt64, UInt64.toNat_toUInt32]
  exact Nat.mod_le _ _

/-- The canonical varint of a value is no longer than any varint of at least that value. -/
theorem length_varintPart_le {number : UInt32} {value : UInt64} (tag value' : Varint)
    (small : (tagOf number kWireVarint).toNat < 128)
    (below : value.toNat ≤ value'.value.toNat) :
    (varintPart number value).length ≤ tag.group.length + value'.group.length := by
  have tagged := tag.length_pos
  have canonical := Leb128.length_write_le_of_value value'.closed (below.trans value'.toNat_value_le)
  unfold varintPart
  split_ifs
  · rw [varintRecord, List.length_append, Leb128.write_of_lt small, List.length_singleton]
    omega
  · exact Nat.zero_le _

theorem length_lengthPart_le {number : UInt32} {data : ByteString} (tag size : Varint)
    (small : (tagOf number kWireLengthDelimited).toNat < 128)
    (agrees : size.value = data.size) :
    (lengthPart number data).length ≤ tag.group.length + (size.group ++ data.data).length := by
  have tagged := tag.length_pos
  have canonical := Leb128.length_write_le_of_value size.closed size.toNat_value_le
  rw [agrees] at canonical
  unfold lengthPart
  split_ifs
  · exact Nat.zero_le _
  · rw [lengthRecord, List.length_append, List.length_append, List.length_append, Leb128.write_of_lt small,
      List.length_singleton]
    omega

/-- **An accepted record is at least as long as the part of its field.** -/
theorem length_part_set_le {record : Record} {field : Field} (own : record.field = some field)
    (accepted : record.Accepted) (message : RpcMessage) :
    (field.part (record.set message)).length ≤ record.bytes.length := by
  obtain ⟨tag, content, announces⟩ := record
  unfold Record.Accepted at accepted
  unfold Record.set
  rw [own] at accepted ⊢
  rw [Record.bytes, List.length_append]
  cases field <;> cases content <;> first | exact accepted.elim | skip
  case id.varint value => exact length_varintPart_le tag value (by decide) le_rfl
  case kind.varint value | status.varint value =>
    exact length_varintPart_le tag value (by decide) (toNat_narrowed_le _)
  all_goals exact length_lengthPart_le tag _ (by decide) (by assumption)

/-! ### The records pay for the encoding -/

/-- One record makes the encoding at most its own length longer. -/
theorem length_encode_set_le {record : Record} (accepted : record.Accepted) (message : RpcMessage) :
    (encode (record.set message)).length ≤ (encode message).length + record.bytes.length := by
  cases own : record.field with
  | none =>
      have same : record.set message = message := by
        unfold Record.set
        rw [own]
        rfl
      rw [same]
      exact Nat.le_add_right _ _
  | some field =>
      have paid := length_part_set_le own accepted message
      have others : ∀ other : Field, other ≠ field →
          other.part (record.set message) = other.part message := by
        intro other different
        apply part_eq_of_get
        apply get_assign_other
        rw [own]
        exact fun same => different (Option.some_inj.mp same).symm
      have charged : ∀ other : Field, (other.part (record.set message)).length ≤
          (other.part message).length + if other = field then record.bytes.length else 0 := by
        intro other
        by_cases same : other = field
        · rw [if_pos same, same]
          exact Nat.le_add_left_of_le paid
        · rw [if_neg same, others other same, Nat.add_zero]
      calc (encode (record.set message)).length
          = ∑ other : Field, (other.part (record.set message)).length := length_encode _
        _ ≤ ∑ other : Field, ((other.part message).length +
              if other = field then record.bytes.length else 0) :=
            Finset.sum_le_sum fun other _ => charged other
        _ = (encode message).length + record.bytes.length := by
            rw [Finset.sum_add_distrib, ← length_encode, Finset.sum_ite_eq' Finset.univ field,
              if_pos (Finset.mem_univ field)]

/-- **The records pay for the encoding of what they set.** -/
theorem length_encode_assignAll_le {records : List Record} (all : ∀ record ∈ records, record.Accepted)
    (message : RpcMessage) :
    (encode (assignAll records message)).length ≤
      (encode message).length + (recordCode.encodeAll records).length := by
  induction records generalizing message with
  | nil => exact Nat.le_add_right _ _
  | cons record records ih =>
      obtain ⟨accepted, all⟩ := List.forall_mem_cons.mp all
      have first := length_encode_set_le accepted message
      have later := ih all (record.set message)
      have size : (recordCode.encodeAll (record :: records)).length =
          record.bytes.length + (recordCode.encodeAll records).length := List.length_append
      rw [assignAll_cons, size]
      omega

theorem length_encode_le {bytes : List UInt8} {message : RpcMessage}
    (accepts : decode bytes = some message) : (encode message).length ≤ bytes.length := by
  obtain ⟨records, rfl, all, rfl⟩ := decode_eq_some_iff.mp accepts
  have paid := length_encode_assignAll_le all {}
  have empty : (encode {}).length = 0 := by decide
  omega

/-! ### The status of a decoded message -/

/-- `decode` refuses a status above the largest `std::int32_t`. -/
theorem status_nonneg_set {record : Record} (accepted : record.Accepted) {message : RpcMessage}
    (nonneg : 0 ≤ message.status) : 0 ≤ (record.set message).status := by
  obtain ⟨tag, content, announces⟩ := record
  unfold Record.Accepted at accepted
  unfold Record.set
  generalize Record.field _ = field at accepted ⊢
  cases field with
  | none => exact nonneg
  | some field =>
      cases field <;> cases content <;> first | exact nonneg | skip
      case status.varint value =>
        rw [status_nonneg_iff, gt_iff_lt, UInt64.not_lt]
        exact UInt64.le_iff_toNat_le.mpr
          ((toNat_narrowed_le value.value).trans (UInt64.le_iff_toNat_le.mp accepted))

theorem status_nonneg_assignAll {records : List Record} (all : ∀ record ∈ records, record.Accepted)
    {message : RpcMessage} (nonneg : 0 ≤ message.status) : 0 ≤ (assignAll records message).status := by
  induction records generalizing message with
  | nil => exact nonneg
  | cons record records ih =>
      obtain ⟨accepted, all⟩ := List.forall_mem_cons.mp all
      exact ih all (status_nonneg_set accepted nonneg)

/-- **A decoded status is not negative.** -/
theorem status_nonneg_of_decode {bytes : List UInt8} {message : RpcMessage}
    (accepts : decode bytes = some message) : 0 ≤ message.status := by
  obtain ⟨records, _, all, rfl⟩ := decode_eq_some_iff.mp accepts
  exact status_nonneg_assignAll all (by decide)

/-! ### The normal form -/

/-- **Decoding and encoding again is a normalisation that never makes the input longer**, so `Session::send`
posts whatever message came in a frame that `try_pop_frame` let pass. -/
theorem decode_then_encode {bytes : List UInt8} {message : RpcMessage}
    (accepts : decode bytes = some message) :
    decode (encode message) = some message ∧ (encode message).length ≤ bytes.length ∧
      ∀ (buffer rest : List UInt8), tryPopFrame buffer = .ok bytes rest →
        ∀ {H : Type} (endpoint : Endpoint H) (handler : Option H),
          endpoint.send message handler =
            ({ endpoint with tasks := endpoint.tasks ++ [.send message handler] }, []) := by
  have shorter := length_encode_le accepts
  refine ⟨decode_encode_of_nonneg (status_nonneg_of_decode accepts), shorter, ?_⟩
  intro buffer rest popped H endpoint handler
  have admissible := (tryPopFrame_ok popped).2
  exact if_neg (not_lt.mpr (shorter.trans admissible))

/-- An id written in two bytes more than it needs. -/
theorem decode_then_encode_padded_id :
    decode (encode { id := 7 }) = some { id := 7 } ∧
      (encode { id := 7 }).length ≤ [0x08, 0x87, 0x80, 0x00].length ∧
      ∀ (buffer rest : List UInt8), tryPopFrame buffer = .ok [0x08, 0x87, 0x80, 0x00] rest →
        ∀ {H : Type} (endpoint : Endpoint H) (handler : Option H),
          endpoint.send { id := 7 } handler =
            ({ endpoint with tasks := endpoint.tasks ++ [.send { id := 7 } handler] }, []) :=
  decode_then_encode
    (show decode [0x08, 0x87, 0x80, 0x00] = some { id := 7 } by decide +kernel)

end Insist.MiniRpc.ProtobufWireCodec
