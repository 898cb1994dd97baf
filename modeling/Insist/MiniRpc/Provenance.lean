/-
**Which records set the fields of a decoded message.**

`decode` narrows the field number of a tag to 32 bits before it dispatches on it. A tag whose number is at least
`2 ^ 32` and has a field's number in its low 32 bits (`Wraps`) is taken for that field, though it denotes
another one:

* `field_eq_some_iff_of_not_wraps` — any other tag is dispatched by the number that it denotes;
* `provenance_iff_no_wrap` — **the fields of a decoded message come from records of their own numbers, and no
  other record sets a field, exactly if no record of the input wraps**;
* `provenance_fails_on_wrapped_id` — a record of field `2 ^ 32 + 1` sets the id.
-/
import Insist.MiniRpc.Merge
import Mathlib.Tactic.IntervalCases

namespace Insist.MiniRpc.ProtobufWireCodec

open Insist.Lib

/-- A field number of more than 32 bits, whose low 32 bits are the number of a field. -/
def Wraps (number : ℕ) : Prop :=
  2 ^ 32 ≤ number ∧ 1 ≤ number % 2 ^ 32 ∧ number % 2 ^ 32 ≤ 7

/-- Every field that is not at its default has a record of its own number, and a record of any other number sets
nothing, whatever the message is. -/
def Provenance (bytes : List UInt8) (message : RpcMessage) : Prop :=
  (∀ field : Field, field.get message ≠ field.get {} →
    ∃ pos tag, TagAt bytes pos tag ∧ tag >>> 3 = field.number.toUInt64) ∧
  ∀ pos tag, TagAt bytes pos tag → (∀ field : Field, tag >>> 3 ≠ field.number.toUInt64) →
    ∀ before after next, decodeField bytes pos before = some (after, next) → after = before

/-! ### The number that a tag denotes -/

theorem exists_field_iff {number : ℕ} (bound : number < 2 ^ 32) :
    (∃ field : Field, field.number.toNat = number) ↔ 1 ≤ number ∧ number ≤ 7 := by
  constructor
  · rintro ⟨field, rfl⟩
    cases field <;> decide
  · rintro ⟨lower, upper⟩
    interval_cases number
    · exact ⟨.id, rfl⟩
    · exact ⟨.kind, rfl⟩
    · exact ⟨.service, rfl⟩
    · exact ⟨.method, rfl⟩
    · exact ⟨.payload, rfl⟩
    · exact ⟨.status, rfl⟩
    · exact ⟨.error, rfl⟩

theorem Record.toNat_fieldNumber (record : Record) :
    record.fieldNumber.toNat = record.number % 2 ^ 32 := by
  rw [fieldNumber, UInt64.toNat_toUInt32, number]

theorem toUInt64_number_eq_iff {record : Record} {field : Field} :
    record.tag.value >>> 3 = field.number.toUInt64 ↔ record.number = field.number.toNat := by
  rw [← UInt64.toNat_inj, UInt32.toNat_toUInt64, Record.number]

/-- **A record whose number does not wrap is dispatched by its number.** -/
theorem field_eq_some_iff_of_not_wraps {record : Record} (plain : ¬ Wraps record.number) {field : Field} :
    record.field = some field ↔ record.number = field.number.toNat := by
  have narrowed := record.toNat_fieldNumber
  have bounds := (exists_field_iff field.number.toNat_lt).mp ⟨field, rfl⟩
  rw [Record.field, Field.ofNumber_eq_some_iff, ← UInt32.toNat_inj, narrowed]
  unfold Wraps at plain
  omega

/-- A record that wraps is taken for a field whose number it does not have. -/
theorem exists_field_of_wraps {record : Record} (wraps : Wraps record.number) :
    (∃ field, record.field = some field) ∧ ∀ field : Field, record.number ≠ field.number.toNat := by
  obtain ⟨large, lower, upper⟩ := wraps
  constructor
  · obtain ⟨field, same⟩ := (exists_field_iff (Nat.mod_lt _ (by omega))).mpr ⟨lower, upper⟩
    refine ⟨field, Field.ofNumber_eq_some_iff.mpr (UInt32.toNat_inj.mp ?_)⟩
    rw [record.toNat_fieldNumber, same]
  · intro field same
    have := field.number.toNat_lt
    omega

/-! ### A record of a field sets it -/

/-- No field has one value in all messages. -/
theorem exists_get_ne (field : Field) : ∃ message message', field.get message ≠ field.get message' := by
  cases field
  case id => exact ⟨{ id := 1 }, {}, by decide⟩
  case kind => exact ⟨{ kind := .request }, {}, by decide⟩
  case service => exact ⟨{ service := ⟨[0], by decide⟩ }, {}, by decide⟩
  case method => exact ⟨{ method := ⟨[0], by decide⟩ }, {}, by decide⟩
  case payload => exact ⟨{ payload := ⟨[0], by decide⟩ }, {}, by decide⟩
  case status => exact ⟨{ status := 1 }, {}, by decide⟩
  case error => exact ⟨{ error := ⟨[0], by decide⟩ }, {}, by decide⟩

/-- An accepted record of a field changes some message. -/
theorem exists_set_ne {record : Record} {field : Field} (own : record.field = some field)
    (accepted : record.Accepted) : ∃ message, record.set message ≠ message := by
  by_contra same
  push Not at same
  obtain ⟨message, message', different⟩ := exists_get_ne field
  apply different
  unfold Record.Accepted at accepted
  unfold Record.set at same
  rw [own] at accepted same
  rw [← same message, ← same message']
  exact get_assign_own accepted message message'

/-! ### Provenance -/

section Provenance

variable {records : List Record}

/-- A field that is not at its default has been set by a record. -/
theorem exists_record_of_get_ne {field : Field}
    (set : field.get (assignAll records {}) ≠ field.get {}) :
    ∃ record ∈ records, record.field = some field := by
  by_contra absent
  push Not at absent
  exact set (get_assignAll_of_forall absent {})

theorem provenance_of_forall (all : ∀ record ∈ records, record.Accepted)
    (plain : ∀ record ∈ records, ¬ Wraps record.number) :
    Provenance (recordCode.encodeAll records) (assignAll records {}) := by
  constructor
  · intro field set
    obtain ⟨record, mem, own⟩ := exists_record_of_get_ne set
    obtain ⟨pos, tagAt⟩ := (exists_tagAt_iff all).mpr ⟨record, mem, rfl⟩
    have number := (field_eq_some_iff_of_not_wraps (plain record mem)).mp own
    exact ⟨pos, _, tagAt, toUInt64_number_eq_iff.mpr number⟩
  · intro pos tag tagAt other before after next decoded
    obtain ⟨record, mem, stands, rfl⟩ := tagAt.exists_record
    obtain ⟨record', stands', _, rfl, _⟩ := decodeField_eq_some_iff.mp decoded
    obtain ⟨rest, unread⟩ := stands
    obtain ⟨rest', unread'⟩ := stands'
    obtain rfl : record' = record := recordCode.aligned (unread'.trans unread.symm)
    unfold Record.set
    cases own : record'.field with
    | none => rfl
    | some field =>
        have number := (field_eq_some_iff_of_not_wraps (plain record' mem)).mp own
        exact absurd (toUInt64_number_eq_iff.mpr number) (other field)

theorem not_wraps_of_provenance (all : ∀ record ∈ records, record.Accepted)
    (provenance : Provenance (recordCode.encodeAll records) (assignAll records {}))
    {pos : ℕ} {tag : UInt64} (tagAt : TagAt (recordCode.encodeAll records) pos tag) :
    ¬ Wraps (tag >>> 3).toNat := by
  obtain ⟨record, mem, stands, rfl⟩ := tagAt.exists_record
  intro wraps
  obtain ⟨⟨field, own⟩, other⟩ := exists_field_of_wraps wraps
  obtain ⟨message, different⟩ := exists_set_ne own (all record mem)
  apply different
  apply provenance.2 pos _ tagAt (fun field same => other field (toUInt64_number_eq_iff.mp same)) message
  exact decodeField_eq_some_iff.mpr ⟨record, stands, all record mem, rfl, rfl⟩

end Provenance

/-- **The fields of a decoded message come from records of their own numbers, and no other record sets a field,
exactly if no record of the input wraps.** -/
theorem provenance_iff_no_wrap {bytes : List UInt8} {message : RpcMessage}
    (accepts : decode bytes = some message) :
    Provenance bytes message ↔ ∀ pos tag, TagAt bytes pos tag → ¬ Wraps (tag >>> 3).toNat := by
  obtain ⟨records, rfl, all, rfl⟩ := decode_eq_some_iff.mp accepts
  constructor
  · intro provenance pos tag tagAt
    exact not_wraps_of_provenance all provenance tagAt
  · intro plain
    apply provenance_of_forall all
    intro record mem
    obtain ⟨pos, tagAt⟩ := (exists_tagAt_iff all).mpr ⟨record, mem, rfl⟩
    exact plain pos _ tagAt

/-- An id and a record of field `9`. -/
theorem provenance_of_id_and_unknown :
    Provenance [0x08, 0x07, 0x48, 0x01] { id := 7 } ↔
      ∀ pos tag, TagAt [0x08, 0x07, 0x48, 0x01] pos tag → ¬ Wraps (tag >>> 3).toNat :=
  provenance_iff_no_wrap (by decide +kernel)

/-- A varint record of field `2 ^ 32 + 1`. -/
def wrappedId : Record where
  tag := ⟨[0x88, 0x80, 0x80, 0x80, 0x80, 0x01], by decide, by decide⟩
  content := .varint ⟨[0x05], by decide, by decide⟩
  announces := by decide

/-- **A record of field `2 ^ 32 + 1` sets the id**, though the input has no record of field `1`. -/
theorem provenance_fails_on_wrapped_id :
    decode [0x88, 0x80, 0x80, 0x80, 0x80, 0x01, 0x05] = some { id := 5 } ∧
      ¬ Provenance [0x88, 0x80, 0x80, 0x80, 0x80, 0x01, 0x05] { id := 5 } := by
  refine ⟨by decide +kernel, fun provenance => ?_⟩
  obtain ⟨pos, tag, tagAt, number⟩ := provenance.1 .id (by decide)
  have single : recordCode.encodeAll [wrappedId] = [0x88, 0x80, 0x80, 0x80, 0x80, 0x01, 0x05] := by decide
  rw [← single] at tagAt
  obtain ⟨record, mem, _, rfl⟩ := tagAt.exists_record
  obtain rfl := List.mem_singleton.mp mem
  exact absurd number (by decide)

end Insist.MiniRpc.ProtobufWireCodec
