/-
**Records in another order, and records that are missing.**

The records assign the fields of the message (`assigning`), each of which is decided by its own records, so how
the fields are interleaved makes no difference to `decode`. An encoding has one record for each field that is
not at its default, in the order of the numbers (`encode_eq_encodeAll`), so a cut that `decode` accepts falls
between two fields:

* `records_in_any_order` — **inputs that agree on the records of each field are decoded alike**, whatever stands
  in between of unknown fields, whatever follows, and also where a record is refused;
* `truncated_encoding` — **a truncated encoding is accepted only between two fields**, and is then the encoding
  of the message without the fields that were cut off.
-/
import Insist.Lib.Assigning
import Insist.MiniRpc.Normalise

namespace Insist.MiniRpc.ProtobufWireCodec

open Insist.Lib

/-! ### The records of one field -/

/-- A message is its fields. -/
theorem ext_get {message message' : RpcMessage}
    (same : ∀ field : Field, field.get message = field.get message') :
    message = message' := by
  obtain ⟨id, kind, service, method, payload, status, error⟩ := message
  obtain ⟨id', kind', service', method', payload', status', error'⟩ := message'
  obtain rfl : id = id' := same .id
  obtain rfl : kind = kind' := same .kind
  obtain rfl : service = service' := same .service
  obtain rfl : method = method' := same .method
  obtain rfl : payload = payload' := same .payload
  obtain rfl : status = status' := same .status
  obtain rfl : error = error' := same .error
  rfl

/-- What a record makes of a field depends on nothing else of the message. -/
theorem get_set_congr {field : Field} {message message' : RpcMessage} (record : Record)
    (same : field.get message = field.get message') :
    field.get (record.set message) = field.get (record.set message') := by
  obtain ⟨tag, content, announces⟩ := record
  unfold Record.set
  by_cases own : Record.field ⟨tag, content, announces⟩ = some field
  · rw [own]
    cases field <;> cases content <;> first | rfl | exact same
  · rw [get_assign_other own, get_assign_other own]
    exact same

/-- Records assign the fields of a message. -/
def assigning : Assigning Record RpcMessage Field Field.Value where
  field := Record.field
  assign := Record.set
  get := Field.get
  get_congr := get_set_congr
  get_other message other := get_assign_other other _ message
  ext := ext_get

theorem assignAll_eq (records : List Record) (message : RpcMessage) :
    assignAll records message = assigning.assignAll records message := rfl

section Interleaving

variable {records records' : List Record}

/-- A record of an unknown field is never refused. -/
theorem exists_field_of_refused {record : Record} (refused : ¬ record.Accepted) :
    ∃ field, record.field = some field := by
  apply Option.ne_none_iff_exists'.mp
  intro unknown
  apply refused
  unfold Record.Accepted
  rw [unknown]
  trivial

/-- Records that agree on each field are refused together. -/
theorem accepted_of_alike
    (alike : ∀ field : Field, assigning.ofField field records = assigning.ofField field records')
    (all : ∀ record ∈ records, record.Accepted) : ∀ record ∈ records', record.Accepted := by
  intro record mem
  by_contra refused
  obtain ⟨field, own⟩ := exists_field_of_refused refused
  have among : record ∈ assigning.ofField field records' := List.mem_filter.mpr ⟨mem, decide_eq_true own⟩
  rw [← alike] at among
  exact refused (all record (List.mem_filter.mp among).1)

end Interleaving

/-- **A refused record at the front refuses the input**, whatever follows. -/
theorem decode_encodeAll_append_of_refused {records : List Record}
    (refused : ¬ ∀ record ∈ records, record.Accepted) (rest : List UInt8) :
    decode (recordCode.encodeAll records ++ rest) = none := by
  apply Option.eq_none_iff_forall_ne_some.mpr
  intro message accepts
  obtain ⟨whole, unread, all, _⟩ := decode_eq_some_iff.mp accepts
  obtain ⟨later, rfl, _⟩ := PrefixCode.encodeAll_front unread
  exact refused (List.forall_mem_append.mp all).1

/-- **How the records of different fields are interleaved makes no difference to `decode`**: two sequences of
records that agree on the records of each field, in their order, are decoded alike before any input. -/
theorem records_in_any_order {records records' : List Record}
    (alike : ∀ field : Field, assigning.ofField field records = assigning.ofField field records')
    (rest : List UInt8) :
    decode (recordCode.encodeAll records ++ rest) = decode (recordCode.encodeAll records' ++ rest) := by
  by_cases all : ∀ record ∈ records, record.Accepted
  · have all' := accepted_of_alike alike all
    unfold decode
    rw [decodeLoop_encodeAll_append all, decodeLoop_encodeAll_append all', assignAll_eq, assignAll_eq,
      Assigning.assignAll_eq_of_alike alike]
  · have refused : ¬ ∀ record ∈ records', record.Accepted :=
      fun all' => all (accepted_of_alike (fun field => (alike field).symm) all')
    rw [decode_encodeAll_append_of_refused all, decode_encodeAll_append_of_refused refused]

/-- A record of the id in two bytes. -/
def idRecord (value : UInt8) (closed : Leb128.Closed [value]) : Record where
  tag := ⟨[0x08], by decide, by decide⟩
  content := .varint ⟨[value], closed, by simp⟩
  announces := rfl

/-- A record of the service, one byte long. -/
def serviceRecord (letter : UInt8) : Record where
  tag := ⟨[0x1a], by decide, by decide⟩
  content := .lengthDelimited ⟨[0x01], by decide, by decide⟩ ⟨[letter], by simp⟩ rfl
  announces := rfl

/-- Two ids and a service, before a kind: the service may stand anywhere. -/
theorem service_in_any_place :
    decode (recordCode.encodeAll [idRecord 7 (by decide), serviceRecord 0x65, idRecord 9 (by decide)] ++
      [0x10, 0x01]) =
      decode (recordCode.encodeAll
        [serviceRecord 0x65, idRecord 7 (by decide), idRecord 9 (by decide)] ++ [0x10, 0x01]) :=
  records_in_any_order (fun field => by cases field <;> rfl) [0x10, 0x01]

/-! ### The records of an encoding -/

/-- A varint record in the form that `encode` writes, unless the value is the default. -/
def varintRecordOf (number : UInt32) (value : UInt64)
    (announces : (tagOf number kWireVarint &&& 0x07).toUInt32 = kWireVarint) : Option Record :=
  if value ≠ 0 then
    some ⟨.ofValue (tagOf number kWireVarint), .varint (.ofValue value), by rwa [Varint.value_ofValue]⟩
  else none

/-- A length-delimited record in the form that `encode` writes, unless the value is empty. -/
def lengthRecordOf (number : UInt32) (value : ByteString)
    (announces : (tagOf number kWireLengthDelimited &&& 0x07).toUInt32 = kWireLengthDelimited) :
    Option Record :=
  if ¬ value.empty then
    some ⟨.ofValue (tagOf number kWireLengthDelimited),
      .lengthDelimited (.ofValue value.size) value (Varint.value_ofValue _), by rwa [Varint.value_ofValue]⟩
  else none

namespace Field

/-- The record that `encode` writes for a field. -/
def record (message : RpcMessage) : Field → Option Record
  | id => varintRecordOf 1 message.id (by decide)
  | kind => varintRecordOf 2 message.kind.code.toUInt64 (by decide)
  | service => lengthRecordOf 3 message.service (by decide)
  | method => lengthRecordOf 4 message.method (by decide)
  | payload => lengthRecordOf 5 message.payload (by decide)
  | status => varintRecordOf 6 message.status.toUInt32.toUInt64 (by decide)
  | error => lengthRecordOf 7 message.error (by decide)

/-- The fields in the order of their numbers. -/
def inOrder : List Field := [id, kind, service, method, payload, status, error]

end Field

/-- The records that `encode` writes. -/
def recordsOf (message : RpcMessage) : List Record := Field.inOrder.filterMap (Field.record message)

/-- What `encode` writes for a field is the bytes of its record. -/
theorem part_eq_bytes (message : RpcMessage) (field : Field) :
    field.part message = ((field.record message).map Record.bytes).getD [] := by
  cases field <;> simp only [Field.part, Field.record, varintPart, lengthPart, varintRecordOf,
    lengthRecordOf] <;>
    split_ifs <;> rfl

theorem encodeAll_filterMap (message : RpcMessage) (fields : List Field) :
    recordCode.encodeAll (fields.filterMap (Field.record message)) =
      fields.flatMap (Field.part message) := by
  induction fields with
  | nil => rfl
  | cons field fields ih =>
      rw [List.flatMap_cons, part_eq_bytes, ← ih]
      cases written : field.record message with
      | none =>
          rw [List.filterMap_cons_none written]
          rfl
      | some record =>
          rw [List.filterMap_cons_some written]
          rfl

/-- **An encoding is the records of its fields**, in the order of the numbers. -/
theorem encode_eq_encodeAll (message : RpcMessage) :
    encode message = recordCode.encodeAll (recordsOf message) := by
  rw [recordsOf, encodeAll_filterMap, encode_eq]
  simp only [Field.inOrder, List.flatMap_cons, List.flatMap_nil, List.append_nil, Field.part]

/-! ### A truncated encoding -/

/-- The message with the fields up to a number, and the defaults above it. -/
def upTo (last : ℕ) (message : RpcMessage) : RpcMessage where
  id := if 1 ≤ last then message.id else 0
  kind := if 2 ≤ last then message.kind else .unknown
  service := if 3 ≤ last then message.service else .nil
  method := if 4 ≤ last then message.method else .nil
  payload := if 5 ≤ last then message.payload else .nil
  status := if 6 ≤ last then message.status else 0
  error := if 7 ≤ last then message.error else .nil

/-- A field of the cut message is the message's or the default. -/
theorem get_upTo (last : ℕ) (message : RpcMessage) (field : Field) :
    field.get (upTo last message) =
      if field.number.toNat ≤ last then field.get message else field.get {} := by
  cases field <;> rfl

/-- The parts below the cut are the message's, and there are none above it. -/
theorem part_upTo (last : ℕ) (message : RpcMessage) (field : Field) :
    field.part (upTo last message) = if field.number.toNat ≤ last then field.part message else [] := by
  have decided := get_upTo last message field
  split_ifs at decided ⊢
  · exact part_eq_of_get decided
  · rw [part_eq_of_get decided]
    cases field <;> rfl

/-- The fields at the front are those with the small numbers. -/
theorem flatMap_part_upTo {done later : List Field} (split : Field.inOrder = done ++ later)
    (message : RpcMessage) : encode (upTo done.length message) = done.flatMap (Field.part message) := by
  have numbers : ∀ index (inside : index < Field.inOrder.length),
      (Field.inOrder[index]).number.toNat = index + 1 := by decide
  have kept : ∀ field ∈ done, field.part (upTo done.length message) = field.part message := by
    intro field mem
    obtain ⟨index, inside, rfl⟩ := List.getElem_of_mem mem
    have place : index < Field.inOrder.length := by
      rw [split, List.length_append]
      omega
    have number := numbers index place
    simp only [split, List.getElem_append_left inside] at number
    rw [part_upTo, if_pos (by omega)]
  have dropped : ∀ field ∈ later, field.part (upTo done.length message) = [] := by
    intro field mem
    obtain ⟨index, inside, rfl⟩ := List.getElem_of_mem mem
    have place : done.length + index < Field.inOrder.length := by
      rw [split, List.length_append]
      omega
    have number := numbers (done.length + index) place
    simp only [split, List.getElem_append_right (Nat.le_add_right _ _), Nat.add_sub_cancel_left] at number
    rw [part_upTo, if_neg (by omega)]
  rw [encode_eq_encodeAll, recordsOf, encodeAll_filterMap, split, List.flatMap_append,
    List.flatMap_congr kept, List.flatMap_eq_nil_iff.mpr dropped, List.append_nil]

/-- **A truncated encoding is accepted only between two fields**: what `decode` answers is the message without
the fields that were cut off, and the bytes are the encoding of that. -/
theorem truncated_encoding (message message' : RpcMessage) (length : ℕ) :
    decode ((encode message).take length) = some message' ↔
      0 ≤ message'.status ∧ (∃ last, message' = upTo last message) ∧
        (encode message).take length = encode message' := by
  constructor
  · intro accepts
    obtain ⟨records, front, _, _⟩ := decode_eq_some_iff.mp accepts
    have whole : recordCode.encodeAll records ++ (encode message).drop length =
        recordCode.encodeAll (recordsOf message) := by
      rw [← front, List.take_append_drop, encode_eq_encodeAll]
    obtain ⟨later, cut, _⟩ := PrefixCode.encodeAll_front whole
    obtain ⟨done, others, split, rfl, _⟩ := List.filterMap_eq_append_iff.mp cut
    have encoded : (encode message).take length = encode (upTo done.length message) := by
      rw [front, encodeAll_filterMap, flatMap_part_upTo split]
    have same : message' = upTo done.length message := by
      have comesBack := encoded ▸ accepts
      by_cases nonneg : 0 ≤ (upTo done.length message).status
      · rw [decode_encode_of_nonneg nonneg] at comesBack
        exact (Option.some_inj.mp comesBack).symm
      · rw [decode_encode_of_neg nonneg] at comesBack
        cases comesBack
    exact ⟨status_nonneg_of_decode accepts, ⟨_, same⟩, same ▸ encoded⟩
  · rintro ⟨nonneg, _, encoded⟩
    rw [encoded, decode_encode_of_nonneg nonneg]

end Insist.MiniRpc.ProtobufWireCodec
