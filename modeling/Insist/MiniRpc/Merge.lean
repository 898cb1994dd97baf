/-
**Concatenating encoded messages.**

What follows an accepted input is decoded as if it stood alone (`decode_append`), so a concatenation is read
record by record. The last record of a field decides the field (`get_assignAll_of_mem`), a field without a
record stays (`get_assignAll_of_forall`):

* `decode_append_merges` — **the concatenation of two accepted inputs is their field-wise merge**: a field is
  the second input's where that has a record of the field, and the first one's otherwise;
* `decode_skips_unknown` — **a record of an unknown field is skipped exactly**, whatever it holds and whatever
  follows it.
-/
import Insist.MiniRpc.Records

namespace Insist.MiniRpc.ProtobufWireCodec

open Insist.Lib

namespace Field

/-- The type of a field. -/
def Value : Field → Type
  | id => UInt64
  | kind => Kind
  | service | method | payload | error => ByteString
  | status => Int32

instance decidableEqValue : (field : Field) → DecidableEq field.Value
  | id => inferInstanceAs (DecidableEq UInt64)
  | kind => inferInstanceAs (DecidableEq Kind)
  | service | method | payload | error => inferInstanceAs (DecidableEq ByteString)
  | status => inferInstanceAs (DecidableEq Int32)

/-- A field of a message. -/
def get : (field : Field) → RpcMessage → field.Value
  | id, message => message.id
  | kind, message => message.kind
  | service, message => message.service
  | method, message => message.method
  | payload, message => message.payload
  | status, message => message.status
  | error, message => message.error

end Field

/-- The input contains a record that `decode` assigns to the field. -/
def Assigns (bytes : List UInt8) (field : Field) : Prop :=
  ∃ pos tag, TagAt bytes pos tag ∧ (tag >>> 3).toUInt32 = field.number

/-! ### One record -/

/-- A record decides its own field. -/
theorem get_assign_own {field : Field} {content : Content} (takes : Takes (some field) content)
    (message message' : RpcMessage) :
    field.get (assign (some field) content message) =
      field.get (assign (some field) content message') := by
  cases field <;> cases content <;> first | rfl | exact takes.elim

/-- A record leaves every other field as it was. -/
theorem get_assign_other {field : Field} {assigned : Option Field} (other : assigned ≠ some field)
    (content : Content) (message : RpcMessage) :
    field.get (assign assigned content message) = field.get message := by
  cases assigned with
  | none => rfl
  | some assigned =>
      cases assigned <;> cases content <;> first | rfl | skip
      all_goals cases field <;> first | rfl | exact absurd rfl other

/-! ### All records -/

section Records

variable {field : Field} {records : List Record}

/-- A field without a record stays as it was. -/
theorem get_assignAll_of_forall (others : ∀ record ∈ records, record.field ≠ some field)
    (message : RpcMessage) : field.get (assignAll records message) = field.get message := by
  induction records generalizing message with
  | nil => rfl
  | cons record records ih =>
      obtain ⟨other, others⟩ := List.forall_mem_cons.mp others
      rw [assignAll_cons, ih others]
      exact get_assign_other other _ _

/-- **The last record of a field decides it**, whatever the message was before. -/
theorem get_assignAll_of_mem (all : ∀ record ∈ records, record.Accepted)
    (present : ∃ record ∈ records, record.field = some field) (message message' : RpcMessage) :
    field.get (assignAll records message) = field.get (assignAll records message') := by
  induction records generalizing message message' with
  | nil => exact absurd present (by simp)
  | cons record records ih =>
      obtain ⟨accepted, all⟩ := List.forall_mem_cons.mp all
      rw [assignAll_cons, assignAll_cons]
      by_cases later : ∃ record ∈ records, record.field = some field
      · exact ih all later _ _
      · have others : ∀ record ∈ records, record.field ≠ some field :=
          fun record mem same => later ⟨record, mem, same⟩
        have own : record.field = some field := by
          obtain ⟨record', mem, same⟩ := present
          rcases List.mem_cons.mp mem with rfl | mem
          · exact same
          · exact absurd same (others record' mem)
        rw [get_assignAll_of_forall others, get_assignAll_of_forall others]
        unfold Record.Accepted at accepted
        unfold Record.set
        rw [own] at accepted ⊢
        exact get_assign_own accepted _ _

/-- What an accepted input contains, in terms of its records. -/
theorem assigns_encodeAll_iff (all : ∀ record ∈ records, record.Accepted) :
    Assigns (recordCode.encodeAll records) field ↔ ∃ record ∈ records, record.field = some field := by
  constructor
  · rintro ⟨pos, tag, tagAt, number⟩
    obtain ⟨record, mem, rfl⟩ := (exists_tagAt_iff all).mp ⟨pos, tagAt⟩
    exact ⟨record, mem, Field.ofNumber_eq_some_iff.mpr number⟩
  · rintro ⟨record, mem, own⟩
    obtain ⟨pos, tagAt⟩ := (exists_tagAt_iff all).mpr ⟨record, mem, rfl⟩
    exact ⟨pos, _, tagAt, Field.ofNumber_eq_some_iff.mp own⟩

end Records

/-! ### Concatenation is field-wise merge -/

/-- **Two accepted inputs, one after the other, are their field-wise merge.** -/
theorem decode_append_merges {first second : List UInt8} {message message' : RpcMessage}
    (accepts : decode first = some message) (accepts' : decode second = some message') :
    ∃ merged, decode (first ++ second) = some merged ∧ ∀ field : Field,
      (Assigns second field → field.get merged = field.get message') ∧
        (¬ Assigns second field → field.get merged = field.get message) := by
  obtain ⟨records, rfl, all, rfl⟩ := decode_eq_some_iff.mp accepts'
  refine ⟨assignAll records message, ?_, fun field => ?_⟩
  · rw [decode_append accepts, decodeLoop_eq_some_iff]
    exact ⟨records, rfl, all, rfl⟩
  · rw [assigns_encodeAll_iff all]
    refine ⟨fun present => get_assignAll_of_mem all present _ _, fun absent => ?_⟩
    exact get_assignAll_of_forall (fun record mem own => absent ⟨record, mem, own⟩) _

/-- A second record of the id that carries a zero overrides the first one. -/
theorem decode_append_merges_zero_id :
    ∃ merged, decode ([0x08, 0x07] ++ [0x08, 0x00]) = some merged ∧ ∀ field : Field,
      (Assigns [0x08, 0x00] field → field.get merged = field.get {}) ∧
        (¬ Assigns [0x08, 0x00] field → field.get merged = field.get { id := 7 }) :=
  decode_append_merges (by decide +kernel) (by decide +kernel)

/-! ### Unknown fields -/

/-- A legal number above the seven fields is assigned to none of them. -/
theorem Record.field_of_large {record : Record} (above : 8 ≤ record.number)
    (legal : record.number ≤ 2 ^ 29 - 1) : record.field = none := by
  have narrowed : record.fieldNumber.toNat = record.number := by
    unfold number at legal
    rw [fieldNumber, UInt64.toNat_toUInt32, number]
    omega
  cases found : record.field with
  | none => rfl
  | some field =>
      have same := Field.ofNumber_eq_some_iff.mp found
      rw [← narrowed, same] at above
      cases field <;> exact absurd above (by decide)

/-- **A record of an unknown field, of any legal number and any content, is skipped exactly**: after an accepted
input and before any other, it makes no difference. -/
theorem decode_skips_unknown {first : List UInt8} {message : RpcMessage}
    (accepts : decode first = some message) (record : Record) (above : 8 ≤ record.number)
    (legal : record.number ≤ 2 ^ 29 - 1) (rest : List UInt8) :
    decode (first ++ record.bytes ++ rest) = decode (first ++ rest) := by
  have unknown := Record.field_of_large above legal
  have accepted : record.Accepted := by
    unfold Record.Accepted
    rw [unknown]
    trivial
  have same : record.set message = message := by
    unfold Record.set
    rw [unknown]
    rfl
  have skipped := decodeLoop_encodeAll_append (List.forall_mem_singleton.mpr accepted) rest message
  rw [assignAll_cons, assignAll_nil, same] at skipped
  rw [List.append_assoc, decode_append accepts, decode_append accepts, ← skipped]
  exact congrArg (fun front => decodeLoop (front ++ rest) 0 message) (List.append_nil _).symm

/-- A length-delimited record of field `9` between those of the id and of the status. -/
theorem decode_skips_unknown_text :
    decode ([0x08, 0x07] ++ [0x4a, 0x01, 0x21] ++ [0x30, 0x05]) = some { id := 7, status := 5 } :=
  (decode_skips_unknown (show decode [0x08, 0x07] = some { id := 7 } by decide +kernel)
    { tag := ⟨[0x4a], by decide, by decide⟩
      content := .lengthDelimited ⟨[0x01], by decide, by decide⟩ ⟨[0x21], by decide⟩ (by decide)
      announces := by decide } (by decide) (by decide) [0x30, 0x05]).trans (by decide +kernel)

end Insist.MiniRpc.ProtobufWireCodec
